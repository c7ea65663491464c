import Sreda.Housewife.ShownRows

/-!
# The family is read back

The reader of `list_family_members`: a header with the number of members, and one line for
each of them: the name before the parentheses, the role and the age in them, the notes after a
dash.

## What is proved

* a member is read back exactly when no line break stands in the line, no parenthesis in the
  name and no closing one in the age (`member_readsBack_iff`);
* `parse_list_family_members` is honest about what `list_family_members` prints exactly when
  all members are such, or a text has a line break and the lines are not as many rows as the
  header says (`family_honest_iff`).
-/

namespace Sreda.Housewife

open Lib.PyText Lib.Regex Lib.Regex.Re

/-- `datetime.now().year`. -/
abbrev Year := { y : ℕ // 1 ≤ y ∧ y ≤ 9999 }

/-- The member was read: the same id and role, and the texts up to surrounding white space. -/
def ListFamilyMembersRow.IsRow (thisYear : Year) (t : ListFamilyMembersRow) (m : FamilyMember) : Prop :=
  t.memberId = m.id.text ∧ strip t.name = strip m.name.text ∧ t.role = m.role.text.toList ∧
    t.ageText.map strip = (m.ageText thisYear.1).map strip ∧
    t.notes.map strip = (m.notes.map (·.text)).map strip

/-! ### The printed line -/

/-- The age as it is printed. -/
def printAge : Option Text → Text
  | some age => ",".toList ++ (" ".toList ++ age)
  | none => []

/-- The notes as they are printed. -/
def printNotes : Option Text → Text
  | some notes => " ".toList ++ ("—".toList ++ (" ".toList ++ notes))
  | none => []

/-- What stands before the notes. -/
def FamilyMember.front (thisYear : Year) (m : FamilyMember) : Text :=
  "  ".toList ++ ("[".toList ++ (m.id.text ++ ("]".toList ++ (" ".toList ++ (m.name.text ++ (" ".toList ++
    ("(".toList ++ (m.role.text.toList ++ (printAge (m.ageText thisYear.1) ++ ")".toList)))))))))

theorem FamilyMember.line_eq (thisYear : Year) (m : FamilyMember) :
    m.line thisYear.1 = m.front thisYear ++ printNotes (m.notes.map (·.text)) := by
  unfold FamilyMember.line FamilyMember.front
  cases m.ageText thisYear.1 <;> cases m.notes <;> simp [printAge, printNotes]

/-! ### The pattern -/

/-- The age in the pattern of a row. -/
def ageRe : Re := .opt (.cat [.lit ",", .plus false isSpace, .group "age" (.plus false ageChar)])

/-- The notes in the pattern of a row. -/
def notesRe : Re :=
  .opt (.cat [.plus false isSpace, .lit "—", .plus false isSpace, .group "notes" (.plus false dot)])

variable {s : Text} {g : Groups} {notes : Option Text}

theorem matches_ageRe : ageRe.Matches s g ↔ (∃ w age : Text, s = ",".toList ++ (w ++ age) ∧ (w ≠ [] ∧ Blank w) ∧
      (age ≠ [] ∧ ∀ c ∈ age, ageChar c = true) ∧ g = [("age", age)]) ∨ (s = [] ∧ g = []) := by
  simp only [ageRe, matches_opt, cat, matches_lit_seq, matches_plus_seq, matches_group, matches_plus]
  constructor
  · rintro (⟨_, rfl, w, age, rfl, hw, _, ⟨hne, hage, rfl⟩, rfl⟩ | h)
    · exact .inl ⟨w, age, rfl, hw, ⟨hne, hage⟩, rfl⟩
    · exact .inr h
  · rintro (⟨w, age, rfl, hw, ⟨hne, hage⟩, rfl⟩ | h)
    · exact .inl ⟨_, rfl, w, age, rfl, hw, [], ⟨hne, hage, rfl⟩, rfl⟩
    · exact .inr h

theorem matches_notesRe :
    notesRe.Matches s g ↔ (∃ w w' notes : Text, s = w ++ ("—".toList ++ (w' ++ notes)) ∧ (w ≠ [] ∧ Blank w) ∧
      (w' ≠ [] ∧ Blank w') ∧ (notes ≠ [] ∧ ∀ c ∈ notes, dot c = true) ∧ g = [("notes", notes)]) ∨
      (s = [] ∧ g = []) := by
  simp only [notesRe, matches_opt, cat, matches_lit_seq, matches_plus_seq, matches_group, matches_plus]
  constructor
  · rintro (⟨w, _, rfl, hw, _, rfl, w', notes, rfl, hw', _, ⟨hne, hnotes, rfl⟩, rfl⟩ | h)
    · exact .inl ⟨w, w', notes, rfl, hw, hw', ⟨hne, hnotes⟩, rfl⟩
    · exact .inr h
  · rintro (⟨w, w', notes, rfl, hw, hw', ⟨hne, hnotes⟩, rfl⟩ | h)
    · exact .inl ⟨w, _, rfl, hw, _, rfl, w', notes, rfl, hw', [], ⟨hne, hnotes, rfl⟩, rfl⟩
    · exact .inr h

/-- The roles as the pattern has them. -/
def roleTexts : List String := ["self", "spouse", "child", "parent", "other"]

theorem matches_listFamilyRowRe :
    listFamilyRowRe.Matches s g ↔ ∃ w₀ id w₁ name w₂ role age notes : Text, ∃ ga gn : Groups,
      s = w₀ ++ ("[".toList ++ (id ++ ("]".toList ++ (w₁ ++ (name ++ (w₂ ++ ("(".toList ++ (role ++ (age ++
        (")".toList ++ notes)))))))))) ∧
      (w₀ ≠ [] ∧ Blank w₀) ∧ (idRe "fm_").Matches id [] ∧ (w₁ ≠ [] ∧ Blank w₁) ∧
      (name ≠ [] ∧ ∀ c ∈ name, nameChar c = true) ∧ (w₂ ≠ [] ∧ Blank w₂) ∧ (∃ w ∈ roleTexts, role = w.toList) ∧
      ageRe.Matches age ga ∧ notesRe.Matches notes gn ∧
      g = ("id", id) :: ("name", name) :: ("role", role) :: (ga ++ gn) := by
  have hre : listFamilyRowRe = seq (plus false isSpace) (seq (lit "[") (seq (group "id" (idRe "fm_")) (seq (lit "]")
      (seq (plus false isSpace) (seq (group "name" (plus true nameChar)) (seq (plus false isSpace) (seq (lit "(")
        (seq (group "role" (oneOf roleTexts)) (seq ageRe (seq (lit ")") notesRe)))))))))) := rfl
  simp only [hre, matches_plus_seq, matches_lit_seq, matches_group_seq, matches_plus, matches_oneOf]
  constructor
  · rintro ⟨w₀, _, h₁, hw₀, _, h₂, id, _, _, _, h₃, rfl, hid, _, h₄, w₁, _, h₅, hw₁, name, _, _, _, h₆, rfl,
      ⟨hname, hname', rfl⟩, w₂, _, h₇, hw₂, _, h₈, role, _, _, _, h₉, rfl, ⟨hrole, rfl⟩, hrest⟩
    obtain ⟨age, ga, _, gn, h₁₀, rfl, hage, hlast⟩ := matches_seq.mp hrest
    obtain ⟨notes, h₁₁, hnotes⟩ := matches_lit_seq.mp hlast
    obtain ⟨hex, -, -, -, rfl⟩ := matches_idRe.mp hid
    subst h₁₁ h₁₀ h₉ h₈ h₇ h₆ h₅ h₄ h₃ h₂ h₁
    exact ⟨w₀, id, w₁, name, w₂, role, age, notes, ga, gn, rfl, hw₀, hid, hw₁, ⟨hname, hname'⟩, hw₂, hrole, hage,
      hnotes, rfl⟩
  · rintro ⟨w₀, id, w₁, name, w₂, role, age, notes, ga, gn, rfl, hw₀, hid, hw₁, ⟨hname, hname'⟩, hw₂, hrole, hage,
      hnotes, rfl⟩
    exact ⟨w₀, _, rfl, hw₀, _, rfl, id, _, [], _, rfl, rfl, hid, _, rfl, w₁, _, rfl, hw₁, name, _, [], _, rfl, rfl,
      ⟨hname, hname', rfl⟩, w₂, _, rfl, hw₂, _, rfl, role, _, [], _, rfl, rfl, ⟨hrole, rfl⟩, age, ga, _, gn, rfl, rfl,
      hage, matches_lit_seq.mpr ⟨notes, rfl, hnotes⟩⟩

/-! ### A line is matched in one way -/

theorem FamilyRole.text_mem (role : FamilyRole) : role.text ∈ roleTexts := by cases role <;> decide

/-- What ends a role. -/
def roleChar (c : Char) : Bool := c != ',' && c != ')'

theorem roleChar_of_mem {w : String} (h : w ∈ roleTexts) : ∀ c ∈ w.toList, roleChar c = true := by
  have hall : roleTexts.all (fun w => w.toList.all roleChar) = true := by decide
  exact List.all_eq_true.mp (List.all_eq_true.mp hall w h)

theorem not_mem_printAge {age : Option Text} (h : ∀ a ∈ age, ')' ∉ a) : ')' ∉ printAge age := by
  cases age with
  | none => simp [printAge]
  | some a =>
    have ha : ')' ∉ a := h a rfl
    simp [printAge, ha]

theorem not_mem_of_ageRe (h : ageRe.Matches s g) : ')' ∉ s := by
  rcases matches_ageRe.mp h with ⟨w, age, rfl, ⟨-, hw⟩, ⟨-, hage⟩, -⟩ | ⟨rfl, -⟩
  · have hw' : ')' ∉ w := not_mem_of_class hw (by decide)
    have hage' : ')' ∉ age := not_mem_of_class hage (by decide)
    simp [hw', hage']
  · simp

/-- An age, or the parenthesis after it, ends the role. -/
theorem outside_roleChar_printAge (age : Option Text) (s : Text) :
    Outside roleChar (printAge age ++ (")".toList ++ s)) := by
  cases age with
  | none => exact ⟨')', s, rfl, by decide⟩
  | some a => exact ⟨',', _, rfl, by decide⟩

theorem outside_roleChar_ageRe {age : Text} (h : ageRe.Matches age g) (s : Text) :
    Outside roleChar (age ++ (")".toList ++ s)) := by
  rcases matches_ageRe.mp h with ⟨w, a, rfl, -, -, -⟩ | ⟨rfl, -⟩
  · exact ⟨',', _, rfl, by decide⟩
  · exact ⟨')', s, rfl, by decide⟩

/-- **A line whose name has no parenthesis and whose age has no closing one is matched in one
way**, up to white space around the name. -/
theorem FamilyMember.split (thisYear : Year) (m : FamilyMember) (hname : '(' ∉ m.name.text)
    (hage : ∀ a ∈ m.ageText thisYear.1, ')' ∉ a) {w₀ id w₁ name w₂ role age notes : Text}
    (hid : (idRe "fm_").Matches id []) (hw₀ : Blank w₀) (hw₁ : Blank w₁) (hname' : ∀ c ∈ name, nameChar c = true)
    (hw₂ : Blank w₂) (hrole : ∃ w ∈ roleTexts, role = w.toList) (hage' : ageRe.Matches age g)
    (h : m.front thisYear ++ s = w₀ ++ ("[".toList ++ (id ++ ("]".toList ++ (w₁ ++ (name ++ (w₂ ++ ("(".toList ++
      (role ++ (age ++ (")".toList ++ notes))))))))))) :
    id = m.id.text ∧ strip name = strip m.name.text ∧ role = m.role.text.toList ∧
      age = printAge (m.ageText thisYear.1) ∧ notes = s := by
  simp only [FamilyMember.front, List.append_assoc] at h
  have hsp : Blank "  ".toList := by decide
  have hsp' : Blank " ".toList := by decide
  have hbracket : ∀ z : Text, Outside isSpace ("[".toList ++ z) := fun z => ⟨'[', z, rfl, by decide⟩
  have e₁ := List.append_cancel_left (run_inj hsp hw₀ (hbracket _) (hbracket _) h).2
  obtain ⟨rfl, e₂⟩ := List.append_inj e₁ (m.id.length_eq_of_matches hid)
  -- the first opening parenthesis ends the name
  have e₃ : (" ".toList ++ m.name.text ++ " ".toList) ++ '(' :: (m.role.text.toList ++
      (printAge (m.ageText thisYear.1) ++ (")".toList ++ s))) =
      (w₁ ++ name ++ w₂) ++ '(' :: (role ++ (age ++ (")".toList ++ notes))) := by
    simpa using List.append_cancel_left e₂
  have hleft : '(' ∉ " ".toList ++ m.name.text ++ " ".toList := by simp [hname]
  have hblank : ∀ {w : Text}, Blank w → '(' ∉ w := fun hw => not_mem_of_class hw (by decide)
  have hright : '(' ∉ w₁ ++ name ++ w₂ := by
    have hmid : '(' ∉ name := not_mem_of_class hname' (by decide)
    simp [hblank hw₁, hblank hw₂, hmid]
  obtain ⟨ename, e₄⟩ := first_inj hleft hright e₃
  have hstrip : strip name = strip m.name.text := by
    calc strip name = strip (w₁ ++ name ++ w₂) := (strip_pad hw₁ hw₂ _).symm
      _ = strip (" ".toList ++ m.name.text ++ " ".toList) := congrArg strip ename.symm
      _ = strip m.name.text := strip_pad hsp' hsp' _
  obtain ⟨w, hw, rfl⟩ := hrole
  obtain ⟨erole, e₅⟩ := run_inj (roleChar_of_mem m.role.text_mem) (roleChar_of_mem hw)
    (outside_roleChar_printAge _ s) (outside_roleChar_ageRe hage' notes) e₄
  obtain ⟨eage, enotes⟩ := first_inj (not_mem_printAge hage) (not_mem_of_ageRe hage') e₅
  exact ⟨rfl, hstrip, erole.symm, eage.symm, enotes.symm⟩

/-! ### What the reader makes of a line -/

/-- The age that is captured from a printed age. -/
theorem lookup_age {age : Option Text} (h : ageRe.Matches (printAge age) g) :
    (g.lookup "age").map strip = age.map strip ∧ g.lookup "notes" = none := by
  rcases matches_ageRe.mp h with ⟨w, a, hs, ⟨-, hw⟩, -, rfl⟩ | ⟨hs, rfl⟩
  · cases age with
    | none => cases hs
    | some a' =>
      have hstrip : strip a = strip a' := by
        calc strip a = strip (w ++ a) := (strip_blank_append hw _).symm
          _ = strip (" ".toList ++ a') := congrArg strip (List.append_cancel_left hs).symm
          _ = strip a' := strip_blank_append (by decide) _
      exact ⟨congrArg some hstrip, rfl⟩
  · cases age with
    | none => exact ⟨rfl, rfl⟩
    | some a' => cases hs

/-- The notes that are captured from printed notes. -/
theorem lookup_notes (h : notesRe.Matches (printNotes notes) g) :
    (g.lookup "notes").map strip = notes.map strip ∧ g.lookup "age" = none := by
  have hdash : ∀ z : Text, Outside isSpace ("—".toList ++ z) := fun z => ⟨'—', z, rfl, by decide⟩
  rcases matches_notesRe.mp h with ⟨w, w', n, hs, ⟨-, hw⟩, ⟨-, hw'⟩, -, rfl⟩ | ⟨hs, rfl⟩
  · cases notes with
    | none =>
      have hw₀ : w = [] := (List.append_eq_nil_iff.mp hs.symm).1
      subst hw₀
      cases hs
    | some n' =>
      have hrest := List.append_cancel_left (run_inj (List.all_eq_true.mp (by decide)) hw (hdash _) (hdash _) hs).2
      have hstrip : strip n = strip n' := by
        calc strip n = strip (w' ++ n) := (strip_blank_append hw' _).symm
          _ = strip (" ".toList ++ n') := congrArg strip hrest.symm
          _ = strip n' := strip_blank_append (by decide) _
      exact ⟨congrArg some hstrip, rfl⟩
  · cases notes with
    | none => exact ⟨rfl, rfl⟩
    | some n' => cases hs

theorem lookup_append (g g' : Groups) (name : String) :
    (g ++ g').lookup name = (g.lookup name).or (g'.lookup name) := by
  induction g with
  | nil => rfl
  | cons x g ih =>
    obtain ⟨n, s⟩ := x
    by_cases h : name = n
    · simp [List.lookup, h]
    · have hb : (name == n) = false := by simpa using h
      simp [List.lookup, hb, ih]

/-- A member of the output, if it passes its schema. -/
theorem readMember_eq {line id name role : Text} {ga gn : Groups} {age : Option Text}
    (hmatch : listFamilyRowRe.fullMatch line = some (("id", id) :: ("name", name) :: ("role", role) :: (ga ++ gn)))
    (hid : (idRe "fm_").Matches id []) (hga : ga.lookup "notes" = none) (hgn : gn.lookup "age" = none)
    (hage : (ga.lookup "age").map strip = age) (hnotes : (gn.lookup "notes").map strip = notes) :
    readMember line =
      if (1 ≤ (strip name).length ∧ (strip name).length ≤ 200) ∧ (∀ a ∈ age, a.length ≤ 64) ∧
          ∀ n ∈ notes, n.length ≤ 500 then
        some ⟨id, strip name, role, age, notes⟩
      else none := by
  have htool : toolId "fm_" id = some id := toolId_of_matches ⟨'f', "m_".toList, rfl, by decide⟩ hid
  have hage' : ((("id", id) :: ("name", name) :: ("role", role) :: (ga ++ gn) : Groups).lookup "age").map strip = age := by
    simp [List.lookup, lookup_append, hgn, hage]
  have hnotes' : ((("id", id) :: ("name", name) :: ("role", role) :: (ga ++ gn) : Groups).lookup "notes").map strip =
      notes := by
    simp [List.lookup, lookup_append, hga, hnotes]
  have hname : captured (("id", id) :: ("name", name) :: ("role", role) :: (ga ++ gn)) "name" = name := rfl
  have hrole : captured (("id", id) :: ("name", name) :: ("role", role) :: (ga ++ gn)) "role" = role := rfl
  have hid' : captured (("id", id) :: ("name", name) :: ("role", role) :: (ga ++ gn)) "id" = id := rfl
  simp only [readMember, hmatch, Option.bind_eq_bind, Option.bind_some, hid', htool, hage', hnotes', hname, hrole]
  by_cases h₁ : 1 ≤ (strip name).length ∧ (strip name).length ≤ 200
  · by_cases h₂ : ∀ a ∈ age, a.length ≤ 64
    · by_cases h₃ : ∀ n ∈ notes, n.length ≤ 500
      · rw [guard, if_pos h₁, guard, if_pos h₂, guard, if_pos h₃, if_pos ⟨h₁, h₂, h₃⟩]
        rfl
      · rw [guard, if_pos h₁, guard, if_pos h₂, guard, if_neg h₃, if_neg fun h => h₃ h.2.2]
        rfl
    · rw [guard, if_pos h₁, guard, if_neg h₂, if_neg fun h => h₂ h.2.1]
      rfl
  · rw [guard, if_neg h₁, if_neg fun h => h₁ h.1]
    rfl

/-! ### One member -/

theorem digits_length {k : ℕ} (h : k < 10000) : (digits k).length ≤ 4 :=
  (Nat.length_toDigits_le_iff (by decide) (by decide)).mpr h

theorem intDigits_length {n : Int} (h₁ : -9999 ≤ n) (h₂ : n ≤ 9999) : (intDigits n).length ≤ 5 := by
  cases n with
  | ofNat k =>
    rw [Int.ofNat_eq_natCast] at h₂
    have hlen : (digits k).length ≤ 4 := digits_length (by omega)
    exact Nat.le_succ_of_le hlen
  | negSucc k =>
    rw [Int.negSucc_eq] at h₁
    have hlen : (digits (k + 1)).length ≤ 4 := digits_length (by omega)
    exact Nat.succ_le_succ hlen

namespace FamilyMember

variable (thisYear : Year) (m : FamilyMember)

/-- A printed age is a text of at most 64 characters. -/
theorem ageText_length : ∀ age ∈ m.ageText thisYear.1, age ≠ [] ∧ (strip age).length ≤ 64 := by
  intro age hage
  cases hb : m.birthYear with
  | some y =>
    simp only [ageText, hb] at hage
    obtain rfl := Option.some.inj hage
    have hlen : (intDigits ((thisYear.1 : Int) - (y.1 : Int))).length ≤ 5 := by
      have h₁ := thisYear.2
      have h₂ := y.2
      exact intDigits_length (by omega) (by omega)
    have hyears : " лет".toList.length = 4 := rfl
    have hle := length_strip_le (intDigits ((thisYear.1 : Int) - (y.1 : Int)) ++ " лет".toList)
    rw [List.length_append, hyears] at hle
    exact ⟨by simp, by omega⟩
  | none =>
    cases hh : m.ageHint with
    | some hint =>
      simp only [ageText, hb, hh] at hage
      obtain rfl := Option.some.inj hage
      exact ⟨hint.starts.ne_nil, hint.strip_length.2⟩
    | none =>
      simp only [ageText, hb, hh] at hage
      cases hage

/-- A member that is read back: nothing breaks its line before the white space at its end,
the name has no parenthesis, and the age no closing one. -/
def Plain : Prop :=
  NoBreak m.name.text ∧ '(' ∉ m.name.text ∧ ')' ∉ m.name.text ∧
    (∀ age ∈ m.ageText thisYear.1, NoBreak age ∧ ')' ∉ age) ∧ ∀ notes ∈ m.notes, NoBreak (rstrip notes.text)

theorem front_noBreak (hname : NoBreak m.name.text) (hage : ∀ age ∈ m.ageText thisYear.1, NoBreak age) :
    NoBreak (m.front thisYear) := by
  have hid : NoBreak m.id.text := m.id.noBreak_text (by decide)
  have hrole : NoBreak m.role.text.toList := by cases m.role <;> decide
  have hprint : NoBreak (printAge (m.ageText thisYear.1)) := by
    cases h : m.ageText thisYear.1 with
    | none => decide
    | some age =>
      have h₁ : NoBreak ",".toList := by decide
      have h₂ : NoBreak " ".toList := by decide
      exact h₁.append (h₂.append (hage age h))
  have h₁ : NoBreak "  ".toList := by decide
  have h₂ : NoBreak "[".toList := by decide
  have h₃ : NoBreak "]".toList := by decide
  have h₄ : NoBreak " ".toList := by decide
  have h₅ : NoBreak "(".toList := by decide
  have h₆ : NoBreak ")".toList := by decide
  exact h₁.append (h₂.append (hid.append (h₃.append (h₄.append (hname.append (h₄.append (h₅.append
    (hrole.append (hprint.append h₆)))))))))

theorem front_ends : Starts (m.front thisYear).reverse := by
  have hend : Starts (")".toList : Text).reverse := ⟨')', [], rfl, by decide⟩
  unfold front
  iterate 10 refine starts_reverse_append _ ?_
  exact hend

/-- The line up to the white space at its end, when nothing breaks it. -/
theorem eq_line {b : List Text} (h : RowLines (m.line thisYear.1) b) (hm : m.Plain thisYear) :
    ∃ w, Blank w ∧ NoBreak w ∧ b = [m.front thisYear ++ printNotes (m.notes.map fun n => rstrip n.text ++ w)] := by
  obtain ⟨hname, -, -, hage, hnotes⟩ := hm
  have hfront : NoBreak (m.front thisYear) := m.front_noBreak thisYear hname fun age ha => (hage age ha).1
  rw [m.line_eq] at h
  cases hn : m.notes with
  | none =>
    rw [hn] at h
    have h : RowLines (m.front thisYear) b := by simpa [printNotes] using h
    exact ⟨[], by simp [Blank], by simp [NoBreak], by simpa [printNotes] using h.eq_self hfront (m.front_ends thisYear)⟩
  | some notes =>
    obtain ⟨ws, hws, hs, -⟩ := exists_rstrip notes.text
    have hdash : NoBreak (" ".toList ++ ("—".toList ++ " ".toList)) := by decide
    have hsplit : ∀ v : Text, m.front thisYear ++ printNotes (some (rstrip notes.text ++ v)) =
        (m.front thisYear ++ ((" ".toList ++ ("—".toList ++ " ".toList)) ++ rstrip notes.text)) ++ v := fun v => by
      simp [printNotes]
    rw [hn, Option.map_some, hs, hsplit] at h
    have hbody := hfront.append (hdash.append (hnotes notes hn))
    have hends := starts_reverse_append (m.front thisYear)
      (starts_reverse_append (" ".toList ++ ("—".toList ++ " ".toList)) notes.rstrip_ends)
    obtain ⟨w, hw, hwb, rfl⟩ := h.eq_singleton hbody hends hws
    exact ⟨w, hw, hwb, by rw [Option.map_some, hsplit]⟩

theorem exists_matches (hm : m.Plain thisYear) (hnotes : ∀ n ∈ notes, n ≠ [] ∧ NoBreak n) :
    ∃ g, listFamilyRowRe.Matches (m.front thisYear ++ printNotes notes) g := by
  obtain ⟨hname, hopen, hclose, hage, -⟩ := hm
  have hsp : " ".toList ≠ [] ∧ Blank " ".toList := ⟨by decide, by decide⟩
  have hsp' : "  ".toList ≠ [] ∧ Blank "  ".toList := ⟨by decide, by decide⟩
  obtain ⟨ga, hga⟩ : ∃ ga, ageRe.Matches (printAge (m.ageText thisYear.1)) ga := by
    cases ha : m.ageText thisYear.1 with
    | none => exact ⟨[], matches_ageRe.mpr (.inr ⟨rfl, rfl⟩)⟩
    | some age =>
      have hchars : ∀ c ∈ age, ageChar c = true := by
        intro c hc
        simp only [ageChar, bne_iff_ne, ne_eq]
        rintro rfl
        exact (hage age ha).2 hc
      exact ⟨_, matches_ageRe.mpr (.inl ⟨_, age, rfl, hsp, ⟨(m.ageText_length thisYear age ha).1, hchars⟩, rfl⟩)⟩
  obtain ⟨gn, hgn⟩ : ∃ gn, notesRe.Matches (printNotes notes) gn := by
    cases notes with
    | none => exact ⟨[], matches_notesRe.mpr (.inr ⟨rfl, rfl⟩)⟩
    | some n =>
      obtain ⟨hne, hb⟩ := hnotes n rfl
      exact ⟨_, matches_notesRe.mpr (.inl ⟨_, _, n, rfl, hsp, hsp, ⟨hne, dot_of_noBreak hb⟩, rfl⟩)⟩
  have hchars : ∀ c ∈ m.name.text, nameChar c = true := by
    intro c hc
    have hdot := dot_of_noBreak hname c hc
    simp only [dot, bne_iff_ne, ne_eq] at hdot
    simp only [nameChar, Bool.and_eq_true, bne_iff_ne, ne_eq]
    refine ⟨⟨?_, ?_⟩, hdot⟩
    · rintro rfl
      exact hopen hc
    · rintro rfl
      exact hclose hc
  refine ⟨_, matches_listFamilyRowRe.mpr ⟨"  ".toList, m.id.text, " ".toList, m.name.text, " ".toList,
    m.role.text.toList, printAge (m.ageText thisYear.1), printNotes notes, ga, gn, ?_, hsp', m.id.matches_text, hsp,
    ⟨m.name.starts.ne_nil, hchars⟩, hsp, ⟨_, m.role.text_mem, rfl⟩, hga, hgn, rfl⟩⟩
  simp only [front, List.append_assoc]

/-- **A plain member is read back.** -/
theorem readMember_line (hm : m.Plain thisYear) {w : Text} (hw : Blank w) (hwb : NoBreak w) :
    ∃ t, readMember (m.front thisYear ++ printNotes (m.notes.map fun n => rstrip n.text ++ w)) = some t ∧
      t.IsRow thisYear m := by
  have hne : ∀ n ∈ m.notes.map (fun n => rstrip n.text ++ w), n ≠ [] ∧ NoBreak n := by
    intro n hn
    obtain ⟨notes, hnotes, rfl⟩ := Option.map_eq_some_iff.mp hn
    refine ⟨fun hnil => ?_, (hm.2.2.2.2 notes hnotes).append hwb⟩
    exact not_blank_of_ends notes.rstrip_ends (by simp [(List.append_eq_nil_iff.mp hnil).1, Blank])
  obtain ⟨g, hg, hmatch⟩ := fullMatch_of_matches (m.exists_matches thisYear hm hne).choose_spec
  obtain ⟨w₀, id, w₁, name, w₂, role, age, notes, ga, gn, hs, ⟨-, hw₀⟩, hid, ⟨-, hw₁⟩, ⟨-, hname⟩, ⟨-, hw₂⟩, hrole,
    hga, hgn, rfl⟩ := matches_listFamilyRowRe.mp hmatch
  obtain ⟨rfl, hstrip, rfl, rfl, rfl⟩ := m.split thisYear hm.2.1 (fun a ha => (hm.2.2.2.1 a ha).2) hid hw₀ hw₁ hname
    hw₂ hrole hga hs
  obtain ⟨hage, hage'⟩ := lookup_age hga
  obtain ⟨hnotes, hnotes'⟩ := lookup_notes hgn
  have hsame : (m.notes.map fun n => rstrip n.text ++ w).map strip = (m.notes.map (·.text)).map strip := by
    rw [Option.map_map, Option.map_map]
    exact congrArg (fun f => m.notes.map f) (funext fun n => n.strip_rstrip hw)
  have hages : ∀ a ∈ (m.ageText thisYear.1).map strip, a.length ≤ 64 := by
    intro a ha
    obtain ⟨age, hage, rfl⟩ := Option.map_eq_some_iff.mp ha
    exact (m.ageText_length thisYear age hage).2
  have hlengths : ∀ n ∈ (m.notes.map (·.text)).map strip, n.length ≤ 500 := by
    intro n hn
    rw [Option.map_map] at hn
    obtain ⟨notes, -, rfl⟩ := Option.map_eq_some_iff.mp hn
    exact notes.strip_length.2
  have hidem : ∀ text : Option Text, (text.map strip).map strip = text.map strip := by
    intro text
    rw [Option.map_map]
    exact congrArg (fun f => text.map f) (funext strip_strip)
  rw [readMember_eq hg hid hage' hnotes' hage hnotes, hsame, hstrip, if_pos ⟨m.name.strip_length, hages, hlengths⟩]
  exact ⟨_, rfl, rfl, strip_strip _, rfl, hidem _, hidem _⟩

end FamilyMember

theorem ageRe_groups (h : ageRe.Matches s g) : g.lookup "notes" = none ∧ ∀ a, g.lookup "age" = some a → ')' ∉ a := by
  rcases matches_ageRe.mp h with ⟨w, age, -, -, ⟨-, hage⟩, rfl⟩ | ⟨-, rfl⟩
  · refine ⟨rfl, fun a ha => ?_⟩
    obtain rfl : age = a := Option.some.inj ha
    exact not_mem_of_class hage (by decide)
  · exact ⟨rfl, fun a ha => by cases ha⟩

theorem notesRe_groups (h : notesRe.Matches s g) : g.lookup "age" = none := by
  rcases matches_notesRe.mp h with ⟨w, w', notes, -, -, -, -, rfl⟩ | ⟨-, rfl⟩ <;> rfl

theorem mem_of_strip_eq {c : Char} (hc : isSpace c = false) {s' : Text} (h : strip s = strip s') (hm : c ∈ s') :
    c ∈ s := by
  rw [← mem_strip hc, h]
  exact (mem_strip hc).mpr hm

/-- What is read from a line has no parenthesis in its name and no closing one in its age. -/
theorem readMember_parens {line : Text} {t : ListFamilyMembersRow} (h : readMember line = some t) :
    '(' ∉ t.name ∧ ')' ∉ t.name ∧ ∀ a ∈ t.ageText, ')' ∉ a := by
  cases hg : listFamilyRowRe.fullMatch line with
  | none => simp [readMember, hg] at h
  | some g =>
    obtain ⟨w₀, id, w₁, name, w₂, role, age, notes, ga, gn, -, -, hid, -, ⟨-, hname⟩, -, -, hga, hgn, rfl⟩ :=
      matches_listFamilyRowRe.mp (fullMatch_matches hg)
    obtain ⟨hnotes, hclose⟩ := ageRe_groups hga
    rw [readMember_eq hg hid hnotes (notesRe_groups hgn) rfl rfl] at h
    split at h
    · obtain rfl := Option.some.inj h
      have hparen : ∀ {c : Char}, nameChar c = false → isSpace c = false → c ∉ strip name := fun hc hs hm =>
        not_mem_of_class hname hc ((mem_strip hs).mp hm)
      refine ⟨hparen (by decide) (by decide), hparen (by decide) (by decide), fun a ha => ?_⟩
      obtain ⟨age', hage', rfl⟩ := Option.map_eq_some_iff.mp ha
      exact fun hm => hclose age' hage' ((mem_strip (by decide)).mp hm)
    · cases h

/-- **A member is read back exactly when it is plain.** -/
theorem member_readsBack_iff {thisYear : Year} {m : FamilyMember} {b : List Text}
    (h : RowLines (m.line thisYear.1) b) :
    ReadsBack readMember (ListFamilyMembersRow.IsRow thisYear) m b ↔ m.Plain thisYear := by
  constructor
  · rintro ⟨line, t, rfl, hread, -, hname, -, hage, -⟩
    obtain ⟨hopen, hclose, hages⟩ := readMember_parens hread
    rw [m.line_eq] at h
    refine ⟨?_, ?_, ?_, fun a ha => ⟨?_, ?_⟩, fun notes hnotes => ?_⟩
    · have hline : m.front thisYear ++ printNotes (m.notes.map (·.text)) =
          ("  ".toList ++ ("[".toList ++ (m.id.text ++ "] ".toList))) ++ m.name.text ++ (" ".toList ++ ("(".toList ++
            (m.role.text.toList ++ (printAge (m.ageText thisYear.1) ++ (")".toList ++
              printNotes (m.notes.map (·.text))))))) := by
        simp [FamilyMember.front]
      rw [hline] at h
      refine h.noBreak_between (fun hb => ?_) (fun hb => ?_)
      · exact absurd (hb '[' (by simp)) (by decide)
      · exact absurd (hb '(' (by simp)) (by decide)
    · exact fun hm => hopen (mem_of_strip_eq (by decide) hname hm)
    · exact fun hm => hclose (mem_of_strip_eq (by decide) hname hm)
    · have hline : m.front thisYear ++ printNotes (m.notes.map (·.text)) =
          ("  ".toList ++ ("[".toList ++ (m.id.text ++ ("] ".toList ++ (m.name.text ++ (" (".toList ++
            (m.role.text.toList ++ ", ".toList))))))) ++ a ++ (")".toList ++ printNotes (m.notes.map (·.text))) := by
        simp [FamilyMember.front, Option.mem_def.mp ha, printAge]
      rw [hline] at h
      refine h.noBreak_between (fun hb => ?_) (fun hb => ?_)
      · exact absurd (hb '[' (by simp)) (by decide)
      · exact absurd (hb ')' (by simp)) (by decide)
    · rw [Option.mem_def.mp ha, Option.map_some] at hage
      obtain ⟨a', ha', hstrip⟩ := Option.map_eq_some_iff.mp hage
      exact fun hm => hages a' ha' (mem_of_strip_eq (by decide) hstrip hm)
    · have hline : m.front thisYear ++ printNotes (m.notes.map (·.text)) =
          (m.front thisYear ++ (" ".toList ++ ("—".toList ++ " ".toList))) ++ notes.text := by
        simp [Option.mem_def.mp hnotes, printNotes]
      rw [hline] at h
      exact h.noBreak_end fun hb => not_blank_of_ends (m.front_ends thisYear) hb.of_append_left
  · intro hm
    obtain ⟨w, hw, hwb, rfl⟩ := m.eq_line thisYear h hm
    obtain ⟨t, ht, hsame⟩ := m.readMember_line thisYear hm hw hwb
    exact ⟨_, t, rfl, ht, hsame⟩

/-! ### The header -/

theorem digits_head {n : ℕ} (h : 1 ≤ n) : ∃ c s, digits n = c :: s ∧ nonzeroDigit c = true := by
  induction n using Nat.strongRecOn with
  | ind n ih =>
    by_cases hlt : n < 10
    · refine ⟨n.digitChar, [], Nat.toDigits_of_lt_base hlt, ?_⟩
      have hall : ∀ k < 10, 1 ≤ k → nonzeroDigit (Nat.digitChar k) = true := by decide
      exact hall n hlt h
    · obtain ⟨c, s, hs, hc⟩ := ih (n / 10) (by omega) (by omega)
      refine ⟨c, s ++ [(n % 10).digitChar], ?_, hc⟩
      have hsplit : digits n = digits (n / 10) ++ [(n % 10).digitChar] :=
        Nat.toDigits_of_base_le (by decide) (by omega)
      rw [hsplit, hs, List.cons_append]

theorem isDecimal_of_nonzeroDigit {c : Char} (h : nonzeroDigit c = true) : isDecimal c = true := by
  have hdigit : c.isDigit = true := by
    simp only [nonzeroDigit, Bool.and_eq_true, decide_eq_true_eq, Char.le_def, UInt32.le_iff_toNat_le] at h
    simp only [Char.isDigit, Bool.and_eq_true, decide_eq_true_eq, ge_iff_le, UInt32.le_iff_toNat_le]
    have h₁ : '1'.val.toNat = 49 := rfl
    have h₀ : '0'.val.toNat = 48 := rfl
    omega
  simp [isDecimal, decimalValue_of_isDigit hdigit]

theorem matches_listFamilyHeaderRe :
    listFamilyHeaderRe.Matches s g ↔ ∃ (c : Char) (ds w : Text), s = (c :: ds) ++ (w ++ "member(s):".toList) ∧
      nonzeroDigit c = true ∧ (∀ d ∈ ds, isDecimal d = true) ∧ (w ≠ [] ∧ Blank w) ∧ g = [("n", c :: ds)] := by
  simp only [listFamilyHeaderRe, cat, matches_group_seq, matches_plus_seq, matches_lit]
  constructor
  · rintro ⟨_, _, _, _, hs, rfl, ⟨_, _, ds, _, rfl, rfl, ⟨c, rfl, hc, rfl⟩, hds, rfl⟩, w, _, rfl, hw, rfl, rfl⟩
    exact ⟨c, ds, w, hs, hc, hds, hw, rfl⟩
  · rintro ⟨c, ds, w, hs, hc, hds, hw, rfl⟩
    exact ⟨_, _, [], _, hs, rfl, ⟨[c], [], ds, [], rfl, rfl, ⟨c, rfl, hc, rfl⟩, hds, rfl⟩, w, _, rfl, hw, rfl, rfl⟩

/-- **The number of members is read back.** -/
theorem fullMatch_familyHeader {n : ℕ} (h : 1 ≤ n) :
    ∃ g, listFamilyHeaderRe.fullMatch (familyHeader n) = some g ∧ toInt (captured g "n") = n := by
  obtain ⟨c, s, hs, hc⟩ := digits_head h
  have hsp : " ".toList ≠ [] ∧ Blank " ".toList := ⟨by decide, by decide⟩
  have hheader : familyHeader n = (c :: s) ++ (" ".toList ++ "member(s):".toList) := by
    rw [familyHeader, hs]
    rfl
  have hds : ∀ d ∈ s, isDecimal d = true := fun d hd => isDecimal_of_mem_digits (n := n) (by simp [hs, hd])
  obtain ⟨g, hg, hmatch⟩ := fullMatch_of_matches (matches_listFamilyHeaderRe.mpr ⟨c, s, _, hheader, hc, hds, hsp, rfl⟩)
  refine ⟨g, hg, ?_⟩
  obtain ⟨c', ds, w, heq, hc', hds', ⟨hne, hw⟩, rfl⟩ := matches_listFamilyHeaderRe.mp hmatch
  have hall : ∀ d ∈ digits n, isDecimal d = true := fun d hd => isDecimal_of_mem_digits hd
  have hall' : ∀ d ∈ c' :: ds, isDecimal d = true := by
    intro d hd
    rcases List.mem_cons.mp hd with rfl | hd
    · exact isDecimal_of_nonzeroDigit hc'
    · exact hds' d hd
  have hout : ∀ {w : Text}, w ≠ [] → Blank w → Outside isDecimal (w ++ "member(s):".toList) := fun hne hw =>
    (Outside.of_run hne hw fun _ hc => isDecimal_of_isSpace hc).append _
  rw [hheader, ← hs] at heq
  obtain ⟨hn, -⟩ := run_inj hall hall' (hout hsp.1 hsp.2) (hout hne hw) heq
  show toInt (c' :: ds) = n
  rw [← hn, toInt_digits]

/-! ### The whole text -/

theorem familyHeader_noBreak (n : ℕ) : NoBreak (familyHeader n) := by
  have hdigits : NoBreak (digits n) := by
    intro c hc
    by_contra hb
    have hs := isSpace_of_isLineBreak (by simpa using hb)
    simp [isSpace_of_isDecimal (isDecimal_of_mem_digits hc)] at hs
  have htext : NoBreak " member(s):".toList := by decide
  exact hdigits.append htext

theorem familyHeader_ends (n : ℕ) : Starts (familyHeader n).reverse :=
  starts_reverse_append _ ⟨':', _, rfl, by decide⟩

/-- The rows of a text with a header, read as lines. -/
theorem parseListFamilyMembers_rows (thisYear : Year) {rows : List FamilyMember} (hne : rows ≠ []) :
    ∃ blocks, List.Forall₂ (fun (m : FamilyMember) b => RowLines (m.line thisYear.1) b) rows blocks ∧
      (fullLines (strip (joinLines (familyHeader rows.length :: rows.map (·.line thisYear.1))))).drop 1 =
        blocks.flatten ∧
      (parseListFamilyMembers (joinLines (familyHeader rows.length :: rows.map (·.line thisYear.1)))).rows =
        (readLines readMember blocks.flatten).filter fun ts => ts.length = rows.length := by
  have hpos : 1 ≤ rows.length := List.length_pos_of_ne_nil hne
  obtain ⟨c, s, hs, hc⟩ := digits_head hpos
  have hspace : isSpace c = false := isSpace_of_isDecimal (isDecimal_of_nonzeroDigit hc)
  obtain ⟨tail, htail⟩ : ∃ tail, joinLines (familyHeader rows.length :: rows.map (·.line thisYear.1)) = c :: tail := by
    refine joinLines_head (s := s ++ " member(s):".toList) ?_ _
    rw [familyHeader, hs, List.cons_append]
  have hprint : ∀ m ∈ rows, ¬ Blank (m.line thisYear.1) := by
    intro m _ hb
    rw [m.line_eq] at hb
    exact not_blank_of_ends (m.front_ends thisYear) hb.of_append_left
  obtain ⟨blocks, hblocks, hfull⟩ := exists_blocks (fun m : FamilyMember => m.line thisYear.1)
    [familyHeader rows.length] hne hprint ⟨c, tail, htail, hspace⟩
  have hheader : [familyHeader rows.length].flatMap fullLines = [familyHeader rows.length] := by
    simp [fullLines_noBreak (familyHeader_noBreak _) (not_blank_of_ends (familyHeader_ends _))]
  rw [hheader, List.singleton_append, List.singleton_append] at hfull
  refine ⟨blocks, hblocks, by rw [hfull]; rfl, ?_⟩
  have hflat := flatten_ne_nil hblocks hne hprint
  rw [htail] at hfull ⊢
  obtain ⟨t, ht⟩ := strip_head hspace tail
  obtain ⟨w, rest, hsplit, hfull'⟩ := splitlines_cons hspace t
  rw [ht, hfull', List.cons.injEq] at hfull
  obtain ⟨hfirst, hrest⟩ := hfull
  -- the first character is a digit
  have hdigit : ∀ {d : Char}, nonzeroDigit d = false → d ≠ c := fun hd he => by simp [he, hc] at hd
  have herr : parseError (c :: tail) = none := parseError_of_head (hdigit (by decide))
  have hempty : c :: t ≠ "no family members recorded".toList := by
    intro he
    exact hdigit (d := 'n') (by decide) (List.cons.inj he).1.symm
  obtain ⟨g, hg, hn⟩ := fullMatch_familyHeader hpos
  have hstrip : strip (familyHeader rows.length) = familyHeader rows.length := by
    refine strip_of_ends ?_ (familyHeader_ends _)
    rw [familyHeader, hs]
    exact ⟨c, _, rfl, hspace⟩
  simp only [parseListFamilyMembers, herr, ht, hempty, if_false, hsplit, hfirst, hstrip, hg, hrest, hn]
  refine acceptRows_rows fun hnil => ?_
  obtain ⟨hread, -⟩ := Option.filter_eq_some_iff.mp hnil
  exact readLines_ne_nil hflat hread

/-- A member whose texts have a line break. -/
def FamilyMember.Broken (m : FamilyMember) : Prop :=
  ¬ NoBreak m.name.text ∨ (∃ hint ∈ m.ageHint, ¬ NoBreak hint.text) ∨ ∃ notes ∈ m.notes, ¬ NoBreak notes.text

/-- `parse_list_family_members` is honest about the members that are printed. -/
def FamilyHonest (thisYear : Year) (rows : List FamilyMember) : Prop :=
  Honest (ListFamilyMembersRow.IsRow thisYear) rows (∃ m ∈ rows, m.Broken)
    (parseListFamilyMembers (listFamilyMembers thisYear.1 rows)).rows

/-- Some line after the header is no member, or there are not as many as the header says. -/
def FamilyUnread (n : ℕ) (text : Text) : Prop :=
  (∃ line ∈ (fullLines (strip text)).drop 1, readMember line = none) ∨ ((fullLines (strip text)).drop 1).length ≠ n

theorem filter_readLines_eq_none_iff {τ : Type} {read : Text → Option τ} {lines : List Text} {n : ℕ} :
    ((readLines read lines).filter fun ts => ts.length = n) = none ↔
      (∃ line ∈ lines, read line = none) ∨ lines.length ≠ n := by
  cases h : readLines read lines with
  | none =>
    rw [readLines_eq_none_iff] at h
    simp [h]
  | some ts =>
    have hlen : lines.length = ts.length := (readLines_eq_some_iff.mp h).length_eq
    have hread : ¬ ∃ line ∈ lines, read line = none := by
      rw [← readLines_eq_none_iff, h]
      simp
    simp [Option.filter, hread, hlen]

theorem filter_readLines_rows_iff {τ ρ : Type} {read : Text → Option τ} {same : τ → ρ → Prop} {rows : List ρ}
    {lines : List Text} :
    (∃ ts, ((readLines read lines).filter fun ts => ts.length = rows.length) = some ts ∧ List.Forall₂ same ts rows) ↔
      ∃ ts, readLines read lines = some ts ∧ List.Forall₂ same ts rows := by
  constructor
  · rintro ⟨ts, hts, hsame⟩
    exact ⟨ts, (Option.filter_eq_some_iff.mp hts).1, hsame⟩
  · rintro ⟨ts, hts, hsame⟩
    exact ⟨ts, Option.filter_eq_some_iff.mpr ⟨hts, by simpa using hsame.length_eq⟩, hsame⟩

/-- **The reader of the family is honest exactly when all members are plain, or a text has a
line break and the lines are not as many members as the header says.** -/
theorem family_honest_iff (thisYear : Year) (rows : List FamilyMember) :
    FamilyHonest thisYear rows ↔
      (∀ m ∈ rows, m.Plain thisYear) ∨
        (∃ m ∈ rows, m.Broken) ∧ FamilyUnread rows.length (listFamilyMembers thisYear.1 rows) := by
  unfold FamilyHonest FamilyUnread
  by_cases hne : rows = []
  · subst hne
    have hempty : (parseListFamilyMembers "no family members recorded".toList).rows = some [] := by decide
    refine ⟨fun _ => .inl (by simp), fun _ => ?_⟩
    show Honest _ [] _ (parseListFamilyMembers "no family members recorded".toList).rows
    rw [hempty]
    exact honest_nil
  · obtain ⟨blocks, hblocks, hlines, hrows⟩ := parseListFamilyMembers_rows thisYear hne
    have htext : listFamilyMembers thisYear.1 rows =
        joinLines (familyHeader rows.length :: rows.map (·.line thisYear.1)) := by
      obtain ⟨m, rest, rfl⟩ := List.exists_cons_of_ne_nil hne
      rfl
    have hprint : ∀ m ∈ rows, ¬ Blank (m.line thisYear.1) := by
      intro m _ hb
      rw [m.line_eq] at hb
      exact not_blank_of_ends (m.front_ends thisYear) hb.of_append_left
    rw [htext, hrows, hlines, honest_iff, filter_readLines_rows_iff, filter_readLines_eq_none_iff,
      readLines_blocks hblocks.length_eq (RowLines.blocks_ne_nil hblocks hprint),
      forall₂_readsBack_iff hblocks fun m b h => member_readsBack_iff h]

end Sreda.Housewife
