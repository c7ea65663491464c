import Sreda.Housewife.ChecklistRows
import Mathlib.Data.List.Induction

/-!
# A shown checklist is read back

The reader of `show_checklist`: a header with the title and the id in parentheses at its end,
and one line for every item; or the form of a list without items, whose title `repr` wrote
and nobody reads as such.

## What is proved

* an item whose title has no line break before the white space at its end is read back, and
  only such an item is (`shownItem_readsBack_iff`);
* `parse_show_checklist` is honest about a list with items exactly when its texts have no
  such line break or some line is no row (`shown_honest_iff`), and about a list without items
  exactly when `repr` changes nothing in its title (`shown_empty_honest_iff`).
-/

namespace Sreda.Housewife

open Lib.PyText Lib.Regex Lib.Regex.Re

/-! ### Items -/

/-- The item was read: the same id and status, and the title up to surrounding white space. -/
def ShowChecklistItem.IsRow (t : ShowChecklistItem) (it : ChecklistItem) : Prop :=
  t.itemId = it.id.text ∧ t.itemStatus = it.status ∧ strip t.title = strip it.title.text

variable {s : Text} {g : Groups} {c : Char}

theorem matches_showChecklistItemRe :
    showChecklistItemRe.Matches s g ↔ ∃ (iid w₁ : Text) (m : Char) (w₂ title : Text),
      s = "[".toList ++ (iid ++ ("]".toList ++ (w₁ ++ ([m] ++ (w₂ ++ title))))) ∧
      (idRe "clitem_").Matches iid [] ∧ (w₁ ≠ [] ∧ Blank w₁) ∧ markChar m = true ∧ (w₂ ≠ [] ∧ Blank w₂) ∧
      (title ≠ [] ∧ ∀ c ∈ title, dot c = true) ∧ g = [("iid", iid), ("mark", [m]), ("title", title)] := by
  simp only [showChecklistItemRe, cat, matches_lit_seq, matches_group_seq, matches_plus_seq, matches_plus, matches_group,
    matches_char]
  constructor
  · rintro ⟨_, h₁, iid, _, _, _, h₂, rfl, hid, _, h₃, w₁, _, h₄, hw₁, _, _, _, _, h₅, rfl, ⟨m, rfl, hm, rfl⟩, w₂, title, h₆,
      hw₂, _, ⟨ht, ht', rfl⟩, rfl⟩
    obtain ⟨hex, -, -, -, rfl⟩ := matches_idRe.mp hid
    rw [h₂, h₃, h₄, h₅, h₆] at h₁
    exact ⟨iid, w₁, m, w₂, title, h₁, hid, hw₁, hm, hw₂, ⟨ht, ht'⟩, rfl⟩
  · rintro ⟨iid, w₁, m, w₂, title, hs, hid, hw₁, hm, hw₂, ⟨ht, ht'⟩, rfl⟩
    exact ⟨_, hs, iid, _, [], _, rfl, rfl, hid, _, rfl, w₁, _, rfl, hw₁, [m], _, [], _, rfl, rfl, ⟨m, rfl, hm, rfl⟩, w₂,
      title, rfl, hw₂, [], ⟨ht, ht', rfl⟩, rfl⟩

theorem markChar_mark (status : ItemStatus) : markChar status.mark = true := by cases status <;> decide

theorem isSpace_of_markChar (h : markChar c = true) : isSpace c = false := by
  simp only [markChar, Bool.or_eq_true, beq_iff_eq] at h
  rcases h with (rfl | rfl) | rfl <;> decide

theorem markToStatus_mark (status : ItemStatus) : markToStatus [status.mark] = some status := by cases status <;> rfl

theorem RowId.length_eq_of_matches {kind : String} (id : RowId kind)
    (h : (idRe kind).Matches s g) : id.text.length = s.length := by
  obtain ⟨hex, rfl, hlen, -, -⟩ := matches_idRe.mp h
  simp [RowId.text, id.length_eq, hlen]

namespace ChecklistItem

variable (it : ChecklistItem)

/-- What stands before the title. -/
def front : Text := "[".toList ++ it.id.text ++ "] ".toList ++ [it.status.mark] ++ " ".toList

theorem line_eq : it.line = it.front ++ it.title.text := rfl

theorem front_starts : Starts it.front := ⟨'[', _, rfl, by decide⟩

theorem front_noBreak : NoBreak it.front := by
  have hid : NoBreak it.id.text := it.id.noBreak_text (by decide)
  have hmark : NoBreak [it.status.mark] := by cases it.status <;> decide
  have h₁ : NoBreak "[".toList := by decide
  have h₂ : NoBreak "] ".toList := by decide
  have h₃ : NoBreak " ".toList := by decide
  exact ((((h₁.append hid).append h₂).append hmark).append h₃)

theorem front_append (s : Text) : it.front ++ s =
    "[".toList ++ (it.id.text ++ ("]".toList ++ (" ".toList ++ ([it.status.mark] ++ (" ".toList ++ s))))) := by
  simp only [front, List.append_assoc]
  rfl

end ChecklistItem

/-- Whatever way the front of an item is matched, the same text is left for the title. -/
theorem ChecklistItem.front_inj (it : ChecklistItem) {iid w₁ w₂ rest : Text} {m : Char}
    (hid : (idRe "clitem_").Matches iid []) (hw₁ : Blank w₁) (hm : markChar m = true)
    (h : it.front ++ s = "[".toList ++ (iid ++ ("]".toList ++ (w₁ ++ ([m] ++ (w₂ ++ rest)))))) :
    iid = it.id.text ∧ m = it.status.mark ∧ " ".toList ++ s = w₂ ++ rest := by
  rw [it.front_append] at h
  obtain ⟨rfl, e₁⟩ := List.append_inj (List.append_cancel_left h) (it.id.length_eq_of_matches hid)
  have hmark : isSpace it.status.mark = false := isSpace_of_markChar (markChar_mark _)
  have hsp : Blank " ".toList := by decide
  have e₂ : it.status.mark :: (" ".toList ++ s) = m :: (w₂ ++ rest) :=
    (run_inj hsp hw₁ ⟨_, _, rfl, hmark⟩ ⟨m, _, rfl, isSpace_of_markChar hm⟩ (List.append_cancel_left e₁)).2
  rw [List.cons.injEq] at e₂
  exact ⟨rfl, e₂.1.symm, e₂.2⟩

/-- A stored title without a line break before the white space at its end, and some white
space after it. -/
theorem StoredText.rstrip_ends {cap : ℕ} (s : StoredText cap) : Starts (rstrip s.text).reverse := by
  obtain ⟨ws, hws, hs, h⟩ := exists_rstrip s.text
  exact h.resolve_left fun hnil => s.starts.not_blank (rstrip_eq_nil_iff.mp hnil)

theorem StoredText.strip_rstrip {cap : ℕ} (s : StoredText cap) {w : Text} (hw : Blank w) :
    strip (rstrip s.text ++ w) = strip s.text := by
  obtain ⟨ws, hws, hs, -⟩ := exists_rstrip s.text
  rw [strip_append_blank hw]
  conv_rhs => rw [hs, strip_append_blank hws]

/-- **An item on one line is read back.** -/
theorem readShownItem_line (it : ChecklistItem) {w : Text} (h : NoBreak (rstrip it.title.text)) (hw : Blank w)
    (hwb : NoBreak w) : ∃ t, readShownItem (it.front ++ (rstrip it.title.text ++ w)) = some t ∧ t.IsRow it := by
  have hsp : " ".toList ≠ [] ∧ Blank " ".toList := ⟨by decide, by decide⟩
  have hne : rstrip it.title.text ++ w ≠ [] := fun hnil =>
    not_blank_of_ends it.title.rstrip_ends (by simp [(List.append_eq_nil_iff.mp hnil).1, Blank])
  obtain ⟨g, hg, hmatch⟩ := fullMatch_of_matches (matches_showChecklistItemRe.mpr ⟨it.id.text, _, it.status.mark, _, _,
    it.front_append _, it.id.matches_text, hsp, markChar_mark _, hsp, ⟨hne, dot_of_noBreak (h.append hwb)⟩, rfl⟩)
  obtain ⟨iid, w₁, m, w₂, title, hs, hid, ⟨-, hw₁⟩, hm, ⟨-, hw₂⟩, -, rfl⟩ := matches_showChecklistItemRe.mp hmatch
  obtain ⟨rfl, rfl, htitle⟩ := it.front_inj hid hw₁ hm hs
  have hstrip : strip title = strip it.title.text := by
    calc strip title = strip (w₂ ++ title) := (strip_blank_append hw₂ _).symm
      _ = strip (" ".toList ++ (rstrip it.title.text ++ w)) := congrArg strip htitle.symm
      _ = strip (rstrip it.title.text ++ w) := strip_blank_append hsp.2 _
      _ = strip it.title.text := it.title.strip_rstrip hw
  refine ⟨⟨it.id.text, it.status, strip title⟩, ?_, rfl, rfl, by rw [hstrip, strip_strip]⟩
  have htool : toolId "clitem_" it.id.text = some it.id.text :=
    it.id.toolId_text ⟨'c', "litem_".toList, rfl, by decide⟩
  have hlen : 1 ≤ (strip title).length ∧ (strip title).length ≤ 1000 := hstrip ▸ it.title.strip_length
  simp [readShownItem, hg, captured, List.lookup, markToStatus_mark, htool, hlen]

theorem shownItem_readsBack_iff {it : ChecklistItem} {b : List Text} (h : RowLines it.line b) :
    ReadsBack readShownItem ShowChecklistItem.IsRow it b ↔ NoBreak (rstrip it.title.text) := by
  constructor
  · rintro ⟨line, t, rfl, -, -⟩
    rw [it.line_eq] at h
    exact h.noBreak_end it.front_starts.not_blank
  · intro hit
    obtain ⟨ws, hws, hs, -⟩ := exists_rstrip it.title.text
    have hends : Starts (it.front ++ rstrip it.title.text).reverse := by
      rw [List.reverse_append]
      exact it.title.rstrip_ends.append _
    rw [it.line_eq, hs, ← List.append_assoc] at h
    obtain ⟨w, hw, hwb, rfl⟩ := h.eq_singleton (it.front_noBreak.append hit) hends hws
    obtain ⟨t, ht, hsame⟩ := readShownItem_line it hit hw hwb
    exact ⟨_, t, rfl, by rwa [List.append_assoc], hsame⟩

/-! ### The header -/

theorem matches_showChecklistHeaderRe : showChecklistHeaderRe.Matches s g ↔ ∃ w₁ title w₂ cid : Text,
      s = "#".toList ++ (w₁ ++ (title ++ (w₂ ++ ("(".toList ++ (cid ++ ")".toList))))) ∧ (w₁ ≠ [] ∧ Blank w₁) ∧
      (title ≠ [] ∧ ∀ c ∈ title, dot c = true) ∧ (w₂ ≠ [] ∧ Blank w₂) ∧ (idRe "checklist_").Matches cid [] ∧
      g = [("title", title), ("cid", cid)] := by
  simp only [showChecklistHeaderRe, cat, matches_lit_seq, matches_group_seq, matches_plus_seq, matches_plus, matches_lit]
  constructor
  · rintro ⟨_, h₁, w₁, _, h₂, hw₁, title, _, _, _, h₃, rfl, ⟨ht, ht', rfl⟩, w₂, _, h₄, hw₂, _, h₅, cid, _, _, _, h₆, rfl,
      hcid, rfl, rfl⟩
    obtain ⟨hex, -, -, -, rfl⟩ := matches_idRe.mp hcid
    rw [h₂, h₃, h₄, h₅, h₆] at h₁
    exact ⟨w₁, title, w₂, cid, h₁, hw₁, ⟨ht, ht'⟩, hw₂, hcid, rfl⟩
  · rintro ⟨w₁, title, w₂, cid, hs, hw₁, ⟨ht, ht'⟩, hw₂, hcid, rfl⟩
    exact ⟨_, hs, w₁, _, rfl, hw₁, title, _, [], _, rfl, rfl, ⟨ht, ht', rfl⟩, w₂, _, rfl, hw₂, _, rfl, cid, _, [], _, rfl,
      rfl, hcid, rfl, rfl⟩

namespace Checklist

variable (cl : Checklist)

theorem header_eq : cl.header = "#".toList ++ (" ".toList ++ (cl.title.text ++ (" ".toList ++ ("(".toList ++
    (cl.id.text ++ ")".toList))))) := by
  unfold header
  simp only [List.append_assoc]
  rfl

theorem header_starts : Starts cl.header := ⟨'#', _, rfl, by decide⟩

theorem header_noBreak (h : NoBreak cl.title.text) : NoBreak cl.header := by
  have hid : NoBreak cl.id.text := cl.id.noBreak_text (by decide)
  have h₁ : NoBreak "# ".toList := by decide
  have h₂ : NoBreak " (".toList := by decide
  have h₃ : NoBreak ")".toList := by decide
  exact (((h₁.append h).append h₂).append hid).append h₃

theorem toolId_id : toolId "checklist_" cl.id.text = some cl.id.text :=
  cl.id.toolId_text ⟨'c', "hecklist_".toList, rfl, by decide⟩

theorem shownList_id (title : Text) : shownList cl.id.text title =
    if 1 ≤ title.length ∧ title.length ≤ 500 then some (cl.id.text, title) else none := by
  unfold shownList
  rw [cl.toolId_id]
  split
  · next h => simp [h]
  · next h =>
    simp only [guard, h, if_false]
    rfl

end Checklist

/-- **A header on one line is read back.** -/
theorem readShownHeader_header (cl : Checklist) (h : NoBreak cl.title.text) :
    readShownHeader cl.header = some (cl.id.text, strip cl.title.text) := by
  have hsp : " ".toList ≠ [] ∧ Blank " ".toList := ⟨by decide, by decide⟩
  obtain ⟨g, hg, hmatch⟩ := fullMatch_of_matches (matches_showChecklistHeaderRe.mpr ⟨_, cl.title.text, _, cl.id.text,
    cl.header_eq, hsp, ⟨cl.title.starts.ne_nil, dot_of_noBreak h⟩, hsp, cl.id.matches_text, rfl⟩)
  obtain ⟨w₁, title, w₂, cid, hs, ⟨-, hw₁⟩, -, ⟨-, hw₂⟩, hcid, rfl⟩ := matches_showChecklistHeaderRe.mp hmatch
  rw [cl.header_eq] at hs
  -- the id in parentheses has a fixed length, so the text before it is what was printed
  have hsuffix : ("(".toList ++ (cl.id.text ++ ")".toList)).length = ("(".toList ++ (cid ++ ")".toList)).length := by
    simp [cl.id.length_eq_of_matches hcid]
  have hbody : (" ".toList ++ cl.title.text ++ " ".toList) ++ ("(".toList ++ (cl.id.text ++ ")".toList)) =
      (w₁ ++ title ++ w₂) ++ ("(".toList ++ (cid ++ ")".toList)) := by simpa using List.append_cancel_left hs
  obtain ⟨htitle, hid⟩ := List.append_inj' hbody hsuffix
  have hid : cl.id.text = cid := List.append_cancel_right (List.append_cancel_left hid)
  have hstrip : strip title = strip cl.title.text := by
    calc strip title = strip (w₁ ++ title ++ w₂) := (strip_pad hw₁ hw₂ _).symm
      _ = strip (" ".toList ++ cl.title.text ++ " ".toList) := congrArg strip htitle.symm
      _ = strip cl.title.text := strip_pad hsp.2 hsp.2 _
  obtain ⟨hpos, hlen⟩ := cl.title.strip_length
  have hlen' : 1 ≤ (strip cl.title.text).length ∧ (strip cl.title.text).length ≤ 500 := ⟨hpos, by omega⟩
  simp [readShownHeader, hg, captured, List.lookup, hstrip, ← hid, cl.shownList_id, hlen']

/-! ### A list with items -/

/-- Some text of the shown list has a line break. -/
def Checklist.Broken (cl : Checklist) : Prop := ¬ NoBreak cl.title.text ∨ ∃ it ∈ cl.items, ¬ NoBreak it.title.text

/-- `parse_show_checklist` is honest about the list that is printed. -/
def ShownHonest (u : Printable) (cl : Checklist) : Prop :=
  (∀ id title items, (parseShowChecklist (showChecklist u cl)).shown = some (id, title, items) →
    id = cl.id.text ∧ strip title = strip cl.title.text ∧ List.Forall₂ ShowChecklistItem.IsRow items cl.items) ∧
  (¬ cl.Broken → (parseShowChecklist (showChecklist u cl)).shown.isSome)

/-- The header is none, or some line after it is no item. -/
def ShownUnread (text : Text) : Prop :=
  readShownHeader ((fullLines (strip text)).headD []) = none ∨
    ∃ line ∈ (fullLines (strip text)).drop 1, readShownItem line = none

/-- What is shown of a text that begins with a number sign. -/
theorem parseShowChecklist_shown {header : Text} {lines : List Text}
    (hfull : fullLines (strip ('#' :: s)) = header :: lines) :
    (parseShowChecklist ('#' :: s)).shown =
      match readShownHeader header, readLines readShownItem lines with
      | some (id, title), some (it :: items) => some (id, title, it :: items)
      | _, _ => none := by
  obtain ⟨t, ht⟩ := strip_head (c := '#') (by decide) s
  obtain ⟨w, rest, hsplit, hfull'⟩ := splitlines_cons (c := '#') (by decide) t
  rw [ht, hfull', List.cons.injEq] at hfull
  obtain ⟨rfl, rfl⟩ := hfull
  -- the form of a list without items begins with another character
  have hempty : showChecklistEmptyRe.fullMatch ('#' :: w) = none := by
    rw [← Option.not_isSome_iff_eq_none, fullMatch_isSome_iff]
    rintro ⟨g, hg⟩
    simp only [showChecklistEmptyRe, cat, matches_lit_seq] at hg
    obtain ⟨s', hs', -⟩ := hg
    exact absurd (List.cons.inj hs').1 (by decide)
  simp only [parseShowChecklist, parseError_of_head (show 'e' ≠ '#' by decide), ht, hsplit, List.headD_cons, hempty]
  rcases readShownHeader ('#' :: w) with _ | ⟨id, title⟩
  · rfl
  · rcases readLines readShownItem (rest.filter fun line => strip line ≠ []) with _ | _ | ⟨it, items⟩ <;> rfl

/-- **The reader of a list with items is honest exactly when its texts have no line break
before the white space at the end of a line, or a line is none.** -/
theorem shown_honest_iff (u : Printable) {cl : Checklist} (hne : cl.items ≠ []) :
    ShownHonest u cl ↔
      (NoBreak cl.title.text ∧ ∀ it ∈ cl.items, NoBreak (rstrip it.title.text)) ∨
        (cl.Broken ∧ ShownUnread (showChecklist u cl)) := by
  have hprint : ∀ it ∈ cl.items, ¬ Blank it.line := fun it _ => (it.front_starts.append _).not_blank
  have htext : showChecklist u cl = joinLines (cl.header :: cl.items.map fun it => it.line) := by
    obtain ⟨it, rest, hitems⟩ := List.exists_cons_of_ne_nil hne
    simp [showChecklist, hitems]
  obtain ⟨tail, htail⟩ : ∃ tail, joinLines (cl.header :: cl.items.map fun it => it.line) = '#' :: tail :=
    joinLines_head rfl _
  obtain ⟨blocks, hblocks, hfull⟩ := exists_blocks (fun it : ChecklistItem => it.line) [cl.header] hne hprint
    ⟨'#', tail, htail, by decide⟩
  obtain ⟨h, hs, hheader⟩ := List.exists_cons_of_ne_nil (fullLines_ne_nil cl.header_starts.not_blank)
  have hflat := flatten_ne_nil hblocks hne hprint
  simp only [List.flatMap_cons, List.flatMap_nil, List.append_nil, hheader, List.cons_append, List.nil_append]
    at hfull
  have hshown := parseShowChecklist_shown (htail ▸ hfull)
  rw [← htail, ← htext] at hshown
  have hblocksNe := RowLines.blocks_ne_nil hblocks hprint
  -- what is shown is right exactly when the header and every item are on one line
  have hright : (∃ id title items, (parseShowChecklist (showChecklist u cl)).shown = some (id, title, items) ∧
      id = cl.id.text ∧ strip title = strip cl.title.text ∧ List.Forall₂ ShowChecklistItem.IsRow items cl.items) ↔
      NoBreak cl.title.text ∧ ∀ it ∈ cl.items, NoBreak (rstrip it.title.text) := by
    rw [← forall₂_readsBack_iff hblocks fun it b hb => shownItem_readsBack_iff hb,
      ← readLines_blocks hblocks.length_eq hblocksNe]
    constructor
    · rintro ⟨id, title, items, hsome, -, -, hitems⟩
      rw [hshown] at hsome
      have hread : readLines readShownItem (hs ++ blocks.flatten) = some items := by
        revert hsome
        split
        · next hL => rintro ⟨⟩; exact hL
        · rintro ⟨⟩
      have hnil : hs = [] := by
        have h₁ := (readLines_eq_some_iff.mp hread).length_eq
        have h₂ := hitems.length_eq
        have h₃ := hblocks.length_eq
        have h₄ := length_le_flatten hblocksNe
        rw [List.length_append] at h₁
        exact List.length_eq_zero_iff.mp (by omega)
      subst hnil
      refine ⟨?_, items, hread, hitems⟩
      have hrow : RowLines ("# ".toList ++ cl.title.text ++ (" (".toList ++ cl.id.text ++ ")".toList)) [h] := by
        left
        rw [← hheader]
        unfold Checklist.header
        simp only [List.append_assoc]
      exact hrow.noBreak_between (by decide) fun hb => absurd hb.of_append_left.of_append_left (by decide)
    · rintro ⟨htitle, items, hread, hitems⟩
      rw [fullLines_noBreak (cl.header_noBreak htitle) cl.header_starts.not_blank, List.cons.injEq] at hheader
      obtain ⟨rfl, rfl⟩ := hheader
      refine ⟨_, _, items, ?_, rfl, strip_strip _, hitems⟩
      rw [hshown, readShownHeader_header cl htitle, List.nil_append, hread]
      cases items with
      | nil => exact absurd (List.forall₂_nil_left_iff.mp hitems) hne
      | cons it items => rfl
  have hnone : (parseShowChecklist (showChecklist u cl)).shown = none ↔ ShownUnread (showChecklist u cl) := by
    have hlines : hs ++ blocks.flatten ≠ [] := by simp [hflat]
    rw [ShownUnread, htext, hfull, List.headD_cons, List.drop_one, List.tail_cons, ← readLines_eq_none_iff, ← htext, hshown]
    rcases readShownHeader h with _ | ⟨id, title⟩
    · simp
    · cases hL : readLines readShownItem (hs ++ blocks.flatten) with
      | none => simp
      | some items =>
        cases items with
        | nil => exact absurd hL (readLines_ne_nil hlines)
        | cons it items => simp
  rw [← hright, ← hnone]
  cases hout : (parseShowChecklist (showChecklist u cl)).shown with
  | none => simp [ShownHonest, hout]
  | some shown =>
    obtain ⟨id, title, items⟩ := shown
    simp [ShownHonest, hout]

/-! ### A list without items -/

/-- The title is the same between the quotes of its `repr`. -/
def PlainTitle (u : Printable) (title : Text) : Prop :=
  (∀ c ∈ title, u.plain c = true ∧ c ≠ '\\') ∧ ¬ ('\'' ∈ title ∧ '"' ∈ title)

theorem Printable.plain_iff (u : Printable) :
    u.plain c = true ↔ (0x20 ≤ c.toNat ∧ c.toNat < 0x7F) ∨ (0x7F < c.toNat ∧ u.isprintable c = true) := by
  simp [Printable.plain]

theorem Printable.isLineBreak_of_plain (u : Printable) (h : u.plain c = true) : isLineBreak c = false := by
  by_contra hb
  have hb : isLineBreak c = true := by simpa using hb
  have hne : c ≠ ' ' := by
    rintro rfl
    simp [isLineBreak] at hb
  have hsp := u.space c (isSpace_of_isLineBreak hb) hne
  rw [u.plain_iff] at h
  simp only [isLineBreak, Bool.or_eq_true, Bool.and_eq_true, decide_eq_true_eq, beq_iff_eq] at hb
  rcases h with h | ⟨-, h⟩
  · omega
  · simp [hsp] at h

theorem mem_toDigits_hex {n : ℕ} (h : c ∈ Nat.toDigits 16 n) : ∃ d < 16, c = Nat.digitChar d := by
  induction n using Nat.strongRecOn with
  | ind n ih =>
    rw [Nat.toDigits_eq_if (by decide)] at h
    split at h
    · next hn => exact ⟨n, hn, by simpa using h⟩
    · next hn =>
      rcases List.mem_append.mp h with h | h
      · exact ih _ (Nat.div_lt_self (by omega) (by decide)) h
      · exact ⟨n % 16, Nat.mod_lt _ (by decide), by simpa using h⟩

theorem hexPad_noBreak (width n : ℕ) : NoBreak (hexPad width n) := by
  have hall : ∀ d < 16, isLineBreak (Nat.digitChar d) = false := by decide
  intro c hc
  rcases List.mem_append.mp hc with h | h
  · rw [List.eq_of_mem_replicate h]
    decide
  · obtain ⟨d, hd, rfl⟩ := mem_toDigits_hex h
    exact hall d hd

/-- A character is written as it is, or as a backslash and something that is no white space. -/
theorem reprChar_cases (u : Printable) {q : Char} (hq : isSpace q = false) (c : Char) :
    (reprChar u q c = [c] ∧ u.plain c = true ∧ c ≠ '\\' ∧ c ≠ q) ∨
      (¬ (u.plain c = true ∧ c ≠ '\\' ∧ c ≠ q) ∧
        ∃ x rest, reprChar u q c = '\\' :: x :: rest ∧ isSpace x = false ∧ NoBreak (x :: rest)) := by
  have hcons : ∀ {x : Char} {rest : Text}, isSpace x = false → NoBreak rest → NoBreak (x :: rest) := by
    intro x rest hx hrest d hd
    rcases List.mem_cons.mp hd with rfl | hd
    · by_contra hb
      simp [isSpace_of_isLineBreak (by simpa using hb)] at hx
    · exact hrest d hd
  have hnil : NoBreak [] := by simp [NoBreak]
  have hctl : ∀ d : Char, d = '\t' ∨ d = '\n' ∨ d = '\r' → u.plain d ≠ true := by
    rintro d (rfl | rfl | rfl) <;> simp [Printable.plain]
  by_cases h₁ : c = q ∨ c = '\\'
  · right
    have hc : isSpace c = false := by
      rcases h₁ with rfl | rfl
      · exact hq
      · decide
    refine ⟨?_, c, [], by simp [reprChar, h₁], hc, hcons hc hnil⟩
    rintro ⟨-, h, h'⟩
    exact h₁.elim h' h
  by_cases h₂ : c = '\t'
  · exact .inr ⟨fun h => hctl c (.inl h₂) h.1, 't', [], by rw [reprChar, if_neg h₁, if_pos h₂], by decide,
      hcons (by decide) hnil⟩
  by_cases h₃ : c = '\n'
  · exact .inr ⟨fun h => hctl c (.inr (.inl h₃)) h.1, 'n', [], by rw [reprChar, if_neg h₁, if_neg h₂, if_pos h₃],
      by decide,
      hcons (by decide) hnil⟩
  by_cases h₄ : c = '\r'
  · exact .inr ⟨fun h => hctl c (.inr (.inr h₄)) h.1, 'r', [], by rw [reprChar, if_neg h₁, if_neg h₂, if_neg h₃, if_pos h₄],
      by decide,
      hcons (by decide) hnil⟩
  rw [not_or] at h₁
  by_cases h₅ : u.plain c = true
  · exact .inl ⟨by simp [reprChar, h₁, h₂, h₃, h₄, h₅], h₅, h₁.2, h₁.1⟩
  · right
    refine ⟨fun h => h₅ h.1, ?_⟩
    by_cases h₆ : c.toNat ≤ 0xFF
    · exact ⟨'x', hexPad 2 c.toNat, by simp [reprChar, h₁, h₂, h₃, h₄, h₅, h₆], by decide,
        hcons (by decide) (hexPad_noBreak _ _)⟩
    by_cases h₇ : c.toNat ≤ 0xFFFF
    · exact ⟨'u', hexPad 4 c.toNat, by simp [reprChar, h₁, h₂, h₃, h₄, h₅, h₆, h₇], by decide,
        hcons (by decide) (hexPad_noBreak _ _)⟩
    · exact ⟨'U', hexPad 8 c.toNat, by simp [reprChar, h₁, h₂, h₃, h₄, h₅, h₆, h₇], by decide,
        hcons (by decide) (hexPad_noBreak _ _)⟩

theorem reprQuote_cases (s : Text) : reprQuote s = '\'' ∨ reprQuote s = '"' := by
  unfold reprQuote
  split <;> simp

theorem isSpace_reprQuote (s : Text) : isSpace (reprQuote s) = false := by
  rcases reprQuote_cases s with h | h <;> rw [h] <;> decide

theorem plainTitle_iff {u : Printable} : PlainTitle u s ↔ ∀ c ∈ s, u.plain c = true ∧ c ≠ '\\' ∧ c ≠ reprQuote s := by
  unfold PlainTitle
  constructor
  · rintro ⟨h, hq⟩ c hc
    refine ⟨(h c hc).1, (h c hc).2, ?_⟩
    rintro rfl
    unfold reprQuote at hc
    split at hc
    · next hs => exact hs.2 hc
    · next hs => exact hq ⟨hc, by_contra fun hd => hs ⟨hc, hd⟩⟩
  · intro h
    refine ⟨fun c hc => ⟨(h c hc).1, (h c hc).2.1⟩, ?_⟩
    rintro ⟨hs, hd⟩
    rcases reprQuote_cases s with hq | hq
    · exact (h _ hs).2.2 hq.symm
    · exact (h _ hd).2.2 hq.symm

theorem reprBody_noBreak (u : Printable) (s : Text) : NoBreak (reprBody u s) := by
  intro c hc
  obtain ⟨d, hd, hc⟩ := List.mem_flatMap.mp hc
  rcases reprChar_cases u (isSpace_reprQuote s) d with ⟨h, hp, -, -⟩ | ⟨-, x, rest, h, -, hn⟩
  · rw [h, List.mem_singleton] at hc
    exact hc ▸ u.isLineBreak_of_plain hp
  · rw [h] at hc
    rcases List.mem_cons.mp hc with rfl | hc
    · decide
    · exact hn c hc

/-- What `repr` changes makes the stripped text longer. -/
theorem repr_longer (u : Printable) {q : Char} (hq : isSpace q = false) (s : Text) :
    (∀ c ∈ s, u.plain c = true ∧ c ≠ '\\' ∧ c ≠ q) ∨
      (rstrip s).length < (rstrip (s.flatMap (reprChar u q))).length := by
  have hlen : ∀ s : Text, s.length ≤ (s.flatMap (reprChar u q)).length ∧
      ((s.flatMap (reprChar u q)).length ≤ s.length → ∀ c ∈ s, u.plain c = true ∧ c ≠ '\\' ∧ c ≠ q) := by
    intro s
    induction s with
    | nil => simp
    | cons c s ih =>
      rw [List.flatMap_cons, List.length_append, List.length_cons]
      rcases reprChar_cases u hq c with ⟨h, hp⟩ | ⟨-, x, rest, h, -⟩
      · rw [h, List.length_singleton]
        refine ⟨by omega, fun hle d hd => ?_⟩
        rcases List.mem_cons.mp hd with rfl | hd
        · exact hp
        · exact ih.2 (by omega) d hd
      · rw [h, List.length_cons, List.length_cons]
        exact ⟨by omega, fun hle => by omega⟩
  induction s using List.reverseRecOn with
  | nil => exact .inl (by simp)
  | append_singleton s c ih =>
    rw [List.flatMap_append, List.flatMap_singleton]
    rcases reprChar_cases u hq c with ⟨h, hp⟩ | ⟨-, x, rest, h, hx, -⟩
    · rw [h]
      by_cases hc : isSpace c = true
      · have hb : Blank [c] := by simpa [Blank] using hc
        rw [rstrip_append_blank hb, rstrip_append_blank hb]
        rcases ih with hs | hlt
        · exact .inl fun d hd =>
            (List.mem_append.mp hd).elim (hs d) fun hd => by simpa using List.mem_singleton.mp hd ▸ hp
        · exact .inr hlt
      · have hends : ∀ t : Text, rstrip (t ++ [c]) = t ++ [c] := fun t =>
          rstrip_of_ends ⟨c, t.reverse, by simp, by simpa using hc⟩
        rw [hends, hends, List.length_append, List.length_append]
        by_cases hle : (s.flatMap (reprChar u q)).length ≤ s.length
        · exact .inl fun d hd => (List.mem_append.mp hd).elim ((hlen s).2 hle d) fun hd => by
            simpa using List.mem_singleton.mp hd ▸ hp
        · exact .inr (by omega)
    · right
      rw [h]
      -- the backslash and what follows it stay
      have hkeep : (s.flatMap (reprChar u q) ++ ['\\', x]).length ≤
          (rstrip (s.flatMap (reprChar u q) ++ '\\' :: x :: rest)).length := by
        have hends : rstrip (s.flatMap (reprChar u q) ++ ['\\', x]) = s.flatMap (reprChar u q) ++ ['\\', x] :=
          rstrip_of_ends ⟨x, '\\' :: (s.flatMap (reprChar u q)).reverse, by simp, hx⟩
        have hsplit : s.flatMap (reprChar u q) ++ '\\' :: x :: rest =
            (s.flatMap (reprChar u q) ++ ['\\', x]) ++ rest := by
          simp
        rw [hsplit]
        by_cases hb : Blank rest
        · exact Nat.le_of_eq (by rw [rstrip_append_blank hb, hends])
        · rw [rstrip_append hb]
          simp only [List.length_append]
          omega
      have h₁ := (hlen s).1
      have h₂ : (rstrip (s ++ [c])).length ≤ (s ++ [c]).length := by
        obtain ⟨ws, -, hs, -⟩ := exists_rstrip (s ++ [c])
        have := congrArg List.length hs
        simp only [List.length_append] at this ⊢
        omega
      simp only [List.length_append, List.length_cons, List.length_nil] at hkeep h₂
      omega

theorem reprBody_of_plain {u : Printable} (h : PlainTitle u s) : reprBody u s = s := by
  have hall : ∀ t : Text, (∀ c ∈ t, u.plain c = true ∧ c ≠ '\\' ∧ c ≠ reprQuote s) →
      t.flatMap (reprChar u (reprQuote s)) = t := by
    intro t
    induction t with
    | nil => simp
    | cons c t ih =>
      intro ht
      rw [List.flatMap_cons, ih fun d hd => ht d (by simp [hd])]
      rcases reprChar_cases u (isSpace_reprQuote s) c with ⟨hr, -⟩ | ⟨hn, -⟩
      · rw [hr]
        rfl
      · exact absurd (ht c (by simp)) hn
  exact hall s (plainTitle_iff.mp h)

theorem reprBody_starts (u : Printable) (h : Starts s) : Starts (reprBody u s) := by
  have hq := isSpace_reprQuote s
  obtain ⟨c, t, rfl, hc⟩ := h
  rw [reprBody, List.flatMap_cons]
  rcases reprChar_cases u hq c with ⟨hr, -⟩ | ⟨-, x, rest, hr, -⟩
  · exact ⟨c, _, by rw [hr]; rfl, hc⟩
  · exact ⟨'\\', _, by rw [hr]; rfl, by decide⟩

/-- **`repr` leaves a title as it is up to surrounding white space exactly when it is plain.** -/
theorem strip_reprBody_iff (u : Printable) (hs : Starts s) : strip (reprBody u s) = strip s ↔ PlainTitle u s := by
  constructor
  · intro h
    rw [(reprBody_starts u hs).strip_eq, hs.strip_eq] at h
    rcases repr_longer u (isSpace_reprQuote s) s with hplain | hlt
    · exact plainTitle_iff.mpr hplain
    · rw [show s.flatMap (reprChar u (reprQuote s)) = reprBody u s from rfl, h] at hlt
      exact absurd hlt (Nat.lt_irrefl _)
  · intro h
    rw [reprBody_of_plain h]

theorem matches_showChecklistEmptyRe : showChecklistEmptyRe.Matches s g ↔ ∃ w₁ cid w₂ title : Text,
      s = "empty:".toList ++ (w₁ ++ ("list=".toList ++ (cid ++ (w₂ ++ ("title=".toList ++ title))))) ∧
      (w₁ ≠ [] ∧ Blank w₁) ∧ (idRe "checklist_").Matches cid [] ∧ (w₂ ≠ [] ∧ Blank w₂) ∧
      (title ≠ [] ∧ ∀ c ∈ title, dot c = true) ∧ g = [("cid", cid), ("title", title)] := by
  simp only [showChecklistEmptyRe, cat, matches_lit_seq, matches_group_seq, matches_plus_seq, matches_plus, matches_group]
  constructor
  · rintro ⟨_, h₁, w₁, _, h₂, hw₁, _, h₃, cid, _, _, _, h₄, rfl, hcid, w₂, _, h₅, hw₂, title, h₆, _, ⟨ht, ht', rfl⟩, rfl⟩
    obtain ⟨hex, -, -, -, rfl⟩ := matches_idRe.mp hcid
    rw [h₂, h₃, h₄, h₅, h₆] at h₁
    exact ⟨w₁, cid, w₂, title, h₁, hw₁, hcid, hw₂, ⟨ht, ht'⟩, rfl⟩
  · rintro ⟨w₁, cid, w₂, title, hs, hw₁, hcid, hw₂, ⟨ht, ht'⟩, rfl⟩
    exact ⟨_, hs, w₁, _, rfl, hw₁, _, rfl, cid, _, [], _, rfl, rfl, hcid, w₂, _, rfl, hw₂, title, rfl, [], ⟨ht, ht', rfl⟩,
      rfl⟩

/-- The quotes that `repr` puts are the quotes that the reader takes off. -/
theorem stripQuotes_repr (u : Printable) (s : Text) : stripQuotes (strip (reprText u s)) = reprBody u s := by
  have hq := isSpace_reprQuote s
  have hstrip : strip (reprText u s) = reprText u s :=
    strip_of_ends ⟨reprQuote s, _, rfl, hq⟩ ⟨reprQuote s, (reprQuote s :: reprBody u s).reverse, by simp [reprText], hq⟩
  have hends : (reprText u s).head? = some (reprQuote s) ∧ (reprText u s).getLast? = some (reprQuote s) :=
    ⟨rfl, List.getLast?_concat⟩
  rw [hstrip, stripQuotes, if_pos]
  · simp [reprText]
  · rcases reprQuote_cases s with h | h
    · exact .inl (h ▸ hends)
    · exact .inr (h ▸ hends)

/-- What is shown of a list without items: the title between the quotes of its `repr`. -/
theorem parseShowChecklist_empty (u : Printable) {cl : Checklist} (hnil : cl.items = []) :
    (parseShowChecklist (showChecklist u cl)).shown =
      if (reprBody u cl.title.text).length ≤ 500 then some (cl.id.text, reprBody u cl.title.text, []) else none := by
  have hq := isSpace_reprQuote cl.title.text
  have hqb : isLineBreak (reprQuote cl.title.text) = false := by
    rcases reprQuote_cases cl.title.text with h | h <;> rw [h] <;> decide
  have hrepr : NoBreak (reprText u cl.title.text) := by
    intro c hc
    rcases List.mem_append.mp hc with hc | hc
    · rcases List.mem_cons.mp hc with rfl | hc
      · exact hqb
      · exact reprBody_noBreak u _ c hc
    · exact List.mem_singleton.mp hc ▸ hqb
  have htext : showChecklist u cl = "empty:".toList ++ (" ".toList ++ ("list=".toList ++ (cl.id.text ++ (" ".toList ++
      ("title=".toList ++ reprText u cl.title.text))))) := by
    unfold showChecklist
    simp only [hnil, List.append_assoc]
    rfl
  have hnb : NoBreak (showChecklist u cl) := by
    have hid : NoBreak cl.id.text := cl.id.noBreak_text (by decide)
    rw [htext]
    exact NoBreak.append (by decide) (NoBreak.append (by decide) (NoBreak.append (by decide) (hid.append
      (NoBreak.append (by decide) (NoBreak.append (by decide) hrepr)))))
  have hstart : Starts (showChecklist u cl) := by
    rw [htext]
    exact ⟨'e', _, rfl, by decide⟩
  have hends : Starts (showChecklist u cl).reverse := by
    have hrev : Starts (reprText u cl.title.text).reverse :=
      starts_reverse_append (reprQuote cl.title.text :: reprBody u cl.title.text) ⟨_, [], rfl, hq⟩
    rw [htext]
    exact starts_reverse_append _ (starts_reverse_append _ (starts_reverse_append _ (starts_reverse_append _
      (starts_reverse_append _ (starts_reverse_append _ hrev)))))
  have herr : parseError (showChecklist u cl) = none := by
    rw [htext]
    rfl
  have hsplit : (splitlines (showChecklist u cl)).headD [] = showChecklist u cl := by
    have hfull := fullLines_noBreak hnb hstart.not_blank
    obtain ⟨c, t, ht, hc⟩ := hstart
    obtain ⟨w, rest, hs, hf⟩ := splitlines_cons hc t
    rw [ht] at hfull ⊢
    rw [hfull, List.cons.injEq] at hf
    rw [hs, List.headD_cons, ← hf.1]
  have hsp : " ".toList ≠ [] ∧ Blank " ".toList := ⟨by decide, by decide⟩
  obtain ⟨g, hg, hmatch⟩ := fullMatch_of_matches (matches_showChecklistEmptyRe.mpr ⟨_, cl.id.text, _,
    reprText u cl.title.text, htext, hsp, cl.id.matches_text, hsp, ⟨by simp [reprText], dot_of_noBreak hrepr⟩, rfl⟩)
  obtain ⟨w₁, cid, w₂, title, hs, ⟨-, hw₁⟩, hcid, ⟨-, hw₂⟩, -, rfl⟩ := matches_showChecklistEmptyRe.mp hmatch
  rw [htext] at hs
  have e₁ := word_inj hsp.2 hw₁ ⟨'l', "ist=".toList, rfl, by decide⟩ (List.append_cancel_left hs)
  obtain ⟨rfl, e₂⟩ := List.append_inj e₁ (cl.id.length_eq_of_matches hcid)
  have e₃ := word_inj hsp.2 hw₂ ⟨'t', "itle=".toList, rfl, by decide⟩ e₂
  have hpos : 1 ≤ (reprBody u cl.title.text).length :=
    List.length_pos_of_ne_nil (reprBody_starts u cl.title.starts).ne_nil
  have hquotes : stripQuotes (strip (captured [("cid", cl.id.text), ("title", title)] "title")) =
      reprBody u cl.title.text := by
    rw [show captured [("cid", cl.id.text), ("title", title)] "title" = title from rfl, ← e₃]
    exact stripQuotes_repr u _
  simp only [parseShowChecklist, herr, strip_of_ends hstart hends, hsplit, hg, hquotes]
  rw [show captured [("cid", cl.id.text), ("title", title)] "cid" = cl.id.text from rfl]
  by_cases hlen : (reprBody u cl.title.text).length ≤ 500
  · rw [cl.shownList_id, if_pos ⟨hpos, hlen⟩, if_pos hlen]
    rfl
  · rw [cl.shownList_id, if_neg fun h => hlen h.2, if_neg hlen]
    rfl

/-- **The reader of a list without items is honest exactly when `repr` changes nothing in its
title, or when a title with a line break became too long.** -/
theorem shown_empty_honest_iff (u : Printable) {cl : Checklist} (hnil : cl.items = []) :
    ShownHonest u cl ↔
      PlainTitle u cl.title.text ∨ (¬ NoBreak cl.title.text ∧ 500 < (reprBody u cl.title.text).length) := by
  rw [ShownHonest, parseShowChecklist_empty u hnil, Checklist.Broken, hnil]
  by_cases hlen : (reprBody u cl.title.text).length ≤ 500
  · have hlt : ¬ 500 < (reprBody u cl.title.text).length := by omega
    rw [← strip_reprBody_iff u cl.title.starts]
    simp only [hlen, hlt, if_true, and_false, or_false]
    constructor
    · exact fun h => (h.1 _ _ _ rfl).2.1
    · intro h
      refine ⟨?_, fun _ => rfl⟩
      rintro _ _ _ ⟨⟩
      exact ⟨rfl, h, .nil⟩
  · have hlt : 500 < (reprBody u cl.title.text).length := by omega
    have hne : ¬ PlainTitle u cl.title.text := by
      intro h
      have := cl.title.length_le
      rw [reprBody_of_plain h] at hlt
      omega
    simp [hlen, hlt, hne]

end Sreda.Housewife
