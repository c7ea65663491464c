import Mathlib
import Sreda.Housewife.Readers

/-!
# Ids and reminders are read back

What all the readers share: the ids, the brackets around them and the texts that are no
error; and the reader of the reminders, whose rows have the text at their end.

## What is proved

* an id of a row passes the check of the schemas (`toolId_text`);
* `parse_list_reminders` is honest about what `list_reminders` prints exactly when no title
  has a line break or some line of the print is no row (`reminders_honest_iff`).
-/

namespace Sreda.Housewife

open Lib.PyText Lib.Regex Lib.Regex.Re

/-! ### Ids -/

variable {c : Char} {s : Text}

theorem isSpace_of_isHex (h : isHex c = true) : isSpace c = false := by
  simp only [isHex, Bool.or_eq_true, Bool.and_eq_true, decide_eq_true_eq, Char.le_def, UInt32.le_iff_toNat_le] at h
  by_contra hs
  simp only [isSpace, Bool.not_eq_false, Bool.or_eq_true, Bool.and_eq_true, decide_eq_true_eq, beq_iff_eq,
    Char.toNat] at hs
  have h₁ : '0'.val.toNat = 48 := rfl
  have h₂ : '9'.val.toNat = 57 := rfl
  have h₃ : 'a'.val.toNat = 97 := rfl
  have h₄ : 'f'.val.toNat = 102 := rfl
  omega

@[simp] theorem matches_idRe {kind : String} {g : Groups} :
    (idRe kind).Matches s g ↔ ∃ hex : Text, s = kind.toList ++ hex ∧ hex.length = 24 ∧ (∀ c ∈ hex, isHex c = true) ∧
      g = [] := by
  simp only [idRe, cat, matches_lit_seq, matches_times]

/-- What matches an id passes the check of the schema as it is. -/
theorem toolId_of_matches {kind : String} (hkind : Starts kind.toList) {g : Groups}
    (h : (idRe kind).Matches s g) : toolId kind s = some s := by
  obtain ⟨hex, rfl, hlen, hhex, -⟩ := matches_idRe.mp h
  have hschema : ∀ c, isSpace c = false → isSchemaSpace c = false := fun c hc => by simp [isSchemaSpace, hc]
  have hfront : (kind.toList ++ hex).dropWhile isSchemaSpace = kind.toList ++ hex := by
    obtain ⟨c, t, ht, hc⟩ := hkind
    rw [ht, List.cons_append, List.dropWhile_cons_of_neg (by simp [hschema c hc])]
  have hback : rstripWhile isSchemaSpace (kind.toList ++ hex) = kind.toList ++ hex := by
    obtain ⟨c, t, ht⟩ : ∃ c t, hex.reverse = c :: t :=
      List.exists_cons_of_ne_nil fun hnil => by simp [List.reverse_eq_nil_iff.mp hnil] at hlen
    have hc : isHex c = true := hhex c (List.mem_reverse.mp (by simp [ht]))
    rw [rstripWhile, List.reverse_append, ht, List.cons_append,
      List.dropWhile_cons_of_neg (by simp [hschema c (isSpace_of_isHex hc)]), ← List.cons_append, ← ht]
    simp
  have hsome : ((idRe kind).fullMatch (kind.toList ++ hex)).isSome := fullMatch_isSome_iff.mpr ⟨g, h⟩
  simp only [toolId, hfront, hback, hsome, if_true]

namespace RowId

variable {kind : String} (id : RowId kind)

theorem matches_text : (idRe kind).Matches id.text [] := matches_idRe.mpr ⟨id.hex, rfl, id.length_eq, id.isHex, rfl⟩

/-- **An id of a row passes the check of the schemas.** -/
theorem toolId_text (hkind : Starts kind.toList) : toolId kind id.text = some id.text :=
  toolId_of_matches hkind id.matches_text

theorem not_mem_text (hkind : c ∉ kind.toList) (hhex : Housewife.isHex c = false) : c ∉ id.text := by
  intro h
  rcases List.mem_append.mp h with h | h
  · exact hkind h
  · simp [id.isHex c h] at hhex

theorem noBreak_text (hkind : NoBreak kind.toList) : NoBreak id.text := by
  refine hkind.append fun c hc => ?_
  by_contra hb
  have := isSpace_of_isLineBreak (by simpa using hb)
  simp [isSpace_of_isHex (id.isHex c hc)] at this

end RowId

/-! ### Accepted texts -/

theorem acceptRows_rows {τ : Type} {result : Option (List τ)} (h : result ≠ some []) :
    (acceptRows result).rows = result := by
  match result with
  | none => rfl
  | some [] => exact absurd rfl h
  | some (_ :: _) => rfl

theorem readLines_ne_nil {τ : Type} {read : Text → Option τ} {lines : List Text} (h : lines ≠ []) :
    readLines read lines ≠ some [] := by
  intro hr
  have := readLines_eq_some_iff.mp hr
  exact h (List.forall₂_nil_right_iff.mp this)

theorem readLines_map {τ : Type} {read : Text → Option τ} {f : Text → Text} (lines : List Text) :
    readLines read (lines.map f) = readLines (fun line => read (f line)) lines := by
  induction lines with
  | nil => rfl
  | cons line rest ih =>
    simp only [List.map_cons, readLines, ih]

theorem isPrefixOf_of_head {d : Char} (h : d ≠ c) (w s : Text) : (d :: w).isPrefixOf (c :: s) = false := by
  simp [List.isPrefixOf_cons_cons, h]

theorem parseError_of_head (h : 'e' ≠ c) : parseError (c :: s) = none := by
  have : "error:".toList.isPrefixOf (c :: s) = false := isPrefixOf_of_head h "rror:".toList s
  rw [parseError, this]
  rfl

/-- The rows of a text that begins with a bracket. -/
theorem parseRows_rows {τ : Type} {emptyText : String} {read : Text → Option τ} {s : Text}
    (hempty : emptyText.toList.head? ≠ some '[') (hfull : fullLines (strip ('[' :: s)) ≠ []) :
    (parseRows emptyText read ('[' :: s)).rows = readLines read (fullLines (strip ('[' :: s))) := by
  obtain ⟨t, ht⟩ := strip_head (c := '[') (by decide) s
  have hne : strip ('[' :: s) ≠ emptyText.toList := by
    intro he
    rw [← he, ht] at hempty
    exact hempty rfl
  have herr : "error:".toList.isPrefixOf (strip ('[' :: s)) = false := by
    rw [ht]
    exact isPrefixOf_of_head (by decide) "rror:".toList t
  have hok : "ok:".toList.isPrefixOf (strip ('[' :: s)) = false := by
    rw [ht]
    exact isPrefixOf_of_head (by decide) "k:".toList t
  have hnil : strip ('[' :: s) ≠ [] := by simp [ht]
  simp only [parseRows, parseError_of_head (show 'e' ≠ '[' by decide), hne, herr, hok, hnil, Bool.false_eq_true, or_false,
    if_false]
  exact acceptRows_rows (readLines_ne_nil hfull)

/-- Rows that are printed one a line, each from a bracket on, are read block by block. -/
theorem parseRows_joinLines {ρ τ : Type} {emptyText : String} {read : Text → Option τ} {line : ρ → Text} {rows : List ρ}
    (hempty : emptyText.toList.head? ≠ some '[') (hline : ∀ r, ∃ t, line r = '[' :: t) (hne : rows ≠ []) :
    ∃ blocks, List.Forall₂ (fun r b => RowLines (line r) b) rows blocks ∧
      fullLines (strip (joinLines (rows.map line))) = blocks.flatten ∧
      (parseRows emptyText read (joinLines (rows.map line))).rows = readLines read blocks.flatten := by
  have hprint : ∀ r ∈ rows, ¬ Blank (line r) := by
    intro r _
    obtain ⟨t, ht⟩ := hline r
    exact Starts.not_blank ⟨'[', t, ht, by decide⟩
  obtain ⟨tail, htail⟩ : ∃ tail, joinLines (rows.map line) = '[' :: tail := by
    obtain ⟨r, rest, rfl⟩ := List.exists_cons_of_ne_nil hne
    obtain ⟨t, ht⟩ := hline r
    exact joinLines_head ht _
  obtain ⟨blocks, hblocks, hfull⟩ := exists_blocks line [] hne hprint ⟨'[', tail, htail, by decide⟩
  simp only [List.flatMap_nil, List.nil_append] at hfull
  refine ⟨blocks, hblocks, hfull, ?_⟩
  have hflat := flatten_ne_nil hblocks hne hprint
  rw [← hfull, htail] at hflat ⊢
  exact parseRows_rows hempty hflat

/-- **A reader of rows without a header is honest** exactly when every row is plain, or when it may reject and some line is
no row. -/
theorem honest_parseRows_iff {ρ τ : Type} {emptyText : String} {read : Text → Option τ} {line : ρ → Text} (text : List ρ → Text)
    {same : τ → ρ → Prop} {plain : ρ → Prop} {mayReject : Prop} (hempty : emptyText.toList.head? ≠ some '[')
    (hline : ∀ r, ∃ t, line r = '[' :: t) (hnil : (parseRows emptyText read (text [])).rows = some [])
    (hcons : ∀ r rest, text (r :: rest) = joinLines ((r :: rest).map line))
    (hplain : ∀ r b, RowLines (line r) b → (ReadsBack read same r b ↔ plain r)) (rows : List ρ) :
    Honest same rows mayReject (parseRows emptyText read (text rows)).rows ↔
      (∀ r ∈ rows, plain r) ∨ (mayReject ∧ ∃ l ∈ fullLines (strip (text rows)), read l = none) := by
  cases rows with
  | nil =>
    rw [hnil]
    exact ⟨fun _ => .inl (fun _ h => absurd h List.not_mem_nil), fun _ => honest_nil⟩
  | cons r rest =>
    obtain ⟨blocks, hblocks, hlines, hrows⟩ := parseRows_joinLines hempty hline (List.cons_ne_nil r rest)
    rw [hcons, hlines, hrows]
    refine honest_rows_iff hblocks (fun r _ => ?_) hplain
    obtain ⟨t, ht⟩ := hline r
    exact Starts.not_blank ⟨'[', t, ht, by decide⟩

theorem strip_of_ends (h : Starts s) (hends : Starts s.reverse) : strip s = s := by
  rw [h.strip_eq, rstrip_of_ends hends]

/-! ### Reminders -/

/-- The reminder was read: the same id, and the printed texts up to surrounding white space. -/
def ListRemindersItem.IsRow (t : ListRemindersItem) (r : FamilyReminder) : Prop :=
  t.reminderId = r.id.text ∧ strip t.rawLine = strip r.line ∧ strip t.displayLine = strip r.shown

namespace FamilyReminder

variable (r : FamilyReminder)

theorem shown_ends : Starts r.shown.reverse := by
  simp only [shown, List.reverse_append]
  exact r.trigger.ends.append _

theorem line_ends : Starts r.line.reverse := by
  simp only [line, List.reverse_append]
  exact r.shown_ends.append _

theorem line_starts : Starts r.line := ⟨'[', r.id.text ++ "] ".toList ++ r.shown, rfl, by decide⟩

theorem line_noBreak (h : NoBreak r.title) : NoBreak r.line := by
  have hid : NoBreak r.id.text := r.id.noBreak_text (by decide)
  have h₁ : NoBreak "[".toList := by decide
  have h₂ : NoBreak "] ".toList := by decide
  have h₃ : NoBreak " — ".toList := by decide
  exact ((h₁.append hid).append h₂).append ((h.append h₃).append r.trigger.noBreak)

end FamilyReminder

theorem matches_listReminderLineRe {g : Groups} :
    listReminderLineRe.Matches s g ↔ ∃ id ws rest : Text, s = "[".toList ++ (id ++ ("]".toList ++ (ws ++ rest))) ∧
      (id ≠ [] ∧ ∀ c ∈ id, notBracket c = true) ∧ (ws ≠ [] ∧ Blank ws) ∧ (rest ≠ [] ∧ ∀ c ∈ rest, dot c = true) ∧
      g = [("id", id), ("rest", rest)] := by
  simp only [listReminderLineRe, cat, matches_lit_seq, matches_group_seq, matches_plus_seq, matches_group, matches_plus]
  constructor
  · rintro ⟨_, rfl, id, _, _, _, rfl, rfl, ⟨hid, hid', rfl⟩, _, rfl, ws, rest, rfl, hws, _, ⟨hrest, hrest', rfl⟩, rfl⟩
    exact ⟨id, ws, rest, rfl, ⟨hid, hid'⟩, hws, ⟨hrest, hrest'⟩, rfl⟩
  · rintro ⟨id, ws, rest, rfl, ⟨hid, hid'⟩, hws, ⟨hrest, hrest'⟩, rfl⟩
    exact ⟨_, rfl, id, _, [], _, rfl, rfl, ⟨hid, hid', rfl⟩, _, rfl, ws, rest, rfl, hws, [], ⟨hrest, hrest', rfl⟩, rfl⟩

/-- A text without line breaks has no newline for the dot to stop at. -/
theorem dot_of_noBreak (h : NoBreak s) : ∀ c ∈ s, dot c = true := by
  intro c hc
  simp only [dot, bne_iff_ne, ne_eq]
  rintro rfl
  exact absurd (h _ hc) (by decide)

theorem notBracket_of_not_mem {s : Text} (h : ']' ∉ s) : ∀ c ∈ s, notBracket c = true := by
  intro c hc
  simp only [notBracket, bne_iff_ne, ne_eq]
  rintro rfl
  exact h hc

theorem not_mem_of_notBracket (h : ∀ c ∈ s, notBracket c = true) : ']' ∉ s :=
  fun hm => absurd (h _ hm) (by decide)

/-- **A reminder on one line is read back.** -/
theorem readReminder_line (r : FamilyReminder) (h : NoBreak r.title) :
    ∃ t, readReminder r.line = some t ∧ t.IsRow r := by
  have hline : r.line = "[".toList ++ (r.id.text ++ ("]".toList ++ (" ".toList ++ r.shown))) := by
    simp only [FamilyReminder.line, List.append_assoc]
    rfl
  have hid : ']' ∉ r.id.text := r.id.not_mem_text (by decide) (by decide)
  have hshown : NoBreak r.shown := (r.line_noBreak h).of_append_right
  have hblank : ¬ Blank r.shown := not_blank_of_ends r.shown_ends
  obtain ⟨g, hg, hmatch⟩ := fullMatch_of_matches (matches_listReminderLineRe.mpr ⟨r.id.text, " ".toList, r.shown, hline,
    ⟨by simp [RowId.text], notBracket_of_not_mem hid⟩, ⟨by decide, by decide⟩,
    ⟨fun hnil => hblank (by simp [hnil, Blank]), dot_of_noBreak hshown⟩, rfl⟩)
  -- whatever way was taken, the id ends at the first bracket and the rest is what was shown
  obtain ⟨id, ws, rest, hline', ⟨-, hid'⟩, ⟨-, hws⟩, -, rfl⟩ := matches_listReminderLineRe.mp hmatch
  rw [hline] at hline'
  obtain ⟨hidEq, hrest⟩ := first_inj hid (not_mem_of_notBracket hid') (List.append_cancel_left hline')
  have hstrip : strip rest = strip r.shown := by
    calc strip rest = strip (ws ++ rest) := (strip_blank_append hws _).symm
      _ = strip (" ".toList ++ r.shown) := congrArg strip hrest.symm
      _ = strip r.shown := strip_blank_append (by decide) _
  refine ⟨⟨r.id.text, r.line, strip rest⟩, ?_, rfl, rfl, by rw [hstrip, strip_strip]⟩
  have hne : strip rest ≠ [] := by rwa [hstrip, Ne, strip_eq_nil_iff]
  have htool : toolId "rem_" id = some r.id.text := by
    rw [← hidEq]
    exact r.id.toolId_text ⟨'r', "em_".toList, rfl, by decide⟩
  simp [readReminder, hg, captured, List.lookup, htool, hne]

theorem reminder_readsBack_iff {r : FamilyReminder} {b : List Text} (h : RowLines r.line b) :
    ReadsBack (fun line => readReminder (strip line)) ListRemindersItem.IsRow r b ↔ NoBreak r.title := by
  constructor
  · rintro ⟨line, t, rfl, -, -⟩
    have hline : r.line = ("[".toList ++ r.id.text ++ "] ".toList) ++ r.title ++ (" — ".toList ++ r.trigger.text) := by
      simp only [FamilyReminder.line, FamilyReminder.shown, List.append_assoc]
    rw [hline] at h
    refine h.noBreak_between (fun hb => ?_) (fun hb => ?_)
    · exact absurd hb.of_append_left.of_append_left (by decide)
    · exact absurd hb.of_append_left (by decide)
  · intro hr
    have h' : RowLines (r.line ++ []) b := by simpa using h
    obtain ⟨w, hw, -, rfl⟩ := h'.eq_singleton (r.line_noBreak hr) r.line_ends (by simp [Blank])
    obtain ⟨t, ht, hsame⟩ := readReminder_line r hr
    refine ⟨_, t, rfl, ?_, hsame⟩
    have hstrip : strip (r.line ++ w) = r.line := by
      rw [strip_append_blank hw, strip_of_ends r.line_starts r.line_ends]
    simpa only [hstrip] using ht

/-- The rows of a text with a header, read as stripped lines. -/
theorem parseListReminders_rows {rows : List FamilyReminder} (hne : rows ≠ []) :
    ∃ blocks, List.Forall₂ (fun r b => RowLines r.line b) rows blocks ∧
      (fullLines (strip (joinLines (remindersHeader :: rows.map (·.line))))).drop 1 = blocks.flatten ∧
      (parseListReminders (joinLines (remindersHeader :: rows.map (·.line)))).rows =
        readLines (fun line => readReminder (strip line)) blocks.flatten := by
  obtain ⟨tail, htail⟩ : ∃ tail, joinLines (remindersHeader :: rows.map (·.line)) = 'a' :: tail := by
    obtain ⟨r, rest, rfl⟩ := List.exists_cons_of_ne_nil hne
    exact ⟨_, rfl⟩
  have hstart : Starts (joinLines ([remindersHeader] ++ rows.map (·.line))) := ⟨'a', tail, htail, by decide⟩
  have hprint : ∀ r ∈ rows, ¬ Blank r.line := fun r _ => not_blank_of_ends r.line_ends
  obtain ⟨blocks, hblocks, hfull⟩ := exists_blocks (·.line) [remindersHeader] hne hprint hstart
  have hheader : [remindersHeader].flatMap fullLines = [remindersHeader] := by decide
  rw [hheader, List.singleton_append, List.singleton_append] at hfull
  refine ⟨blocks, hblocks, by rw [hfull]; rfl, ?_⟩
  have hempty : strip (joinLines (remindersHeader :: rows.map (·.line))) ≠ "no active reminders".toList := by
    intro he
    rw [he, show fullLines "no active reminders".toList = ["no active reminders".toList] by decide,
      List.cons.injEq] at hfull
    exact absurd hfull.1 (by decide)
  have herr : parseError (joinLines (remindersHeader :: rows.map (·.line))) = none := by
    rw [htail]
    exact parseError_of_head (by decide)
  have hsame : strip remindersHeader = remindersHeader := by decide
  simp only [parseListReminders, herr, hempty, if_false, hfull, List.map_cons, hsame, ne_eq, not_true]
  rw [acceptRows_rows (readLines_ne_nil (by simpa using flatten_ne_nil hblocks hne hprint)), readLines_map]

/-- `parse_list_reminders` is honest about the reminders that are printed: it reads nothing
else, and it reads them all when no title has a line break. -/
def RemindersHonest (keep : Text → Bool) (rows : List FamilyReminder) : Prop :=
  Honest ListRemindersItem.IsRow (reminderRows keep rows) (∃ r ∈ reminderRows keep rows, ¬ NoBreak r.title)
    (parseListReminders (listReminders keep rows)).rows

/-- Some line after the header is no reminder. -/
def RemindersUnread (text : Text) : Prop :=
  ∃ line ∈ (fullLines (strip text)).drop 1, readReminder (strip line) = none

/-- **The reader of the reminders is honest exactly when no title has a line break, or some
line is no reminder.** -/
theorem reminders_honest_iff (keep : Text → Bool) (rows : List FamilyReminder) :
    RemindersHonest keep rows ↔
      (∀ r ∈ reminderRows keep rows, NoBreak r.title) ∨
        (∃ r ∈ reminderRows keep rows, ¬ NoBreak r.title) ∧ RemindersUnread (listReminders keep rows) := by
  unfold RemindersHonest RemindersUnread listReminders
  generalize reminderRows keep rows = printed
  cases printed with
  | nil =>
    have hempty : (parseListReminders "no active reminders".toList).rows = some [] := by decide
    refine ⟨fun _ => .inl (by simp), fun _ => ?_⟩
    show Honest _ [] _ (parseListReminders "no active reminders".toList).rows
    rw [hempty]
    exact honest_nil
  | cons r rest =>
    obtain ⟨blocks, hblocks, hlines, hrows⟩ := parseListReminders_rows (List.cons_ne_nil r rest)
    simp only [hrows, hlines]
    exact honest_rows_iff hblocks (fun r _ => not_blank_of_ends r.line_ends) fun r b h => reminder_readsBack_iff h

end Sreda.Housewife
