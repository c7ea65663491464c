import Sreda.Lib.PyText
import Mathlib.Data.List.Forall2

/-!
# The lines of a text

`splitlines`, joined texts, and readers that read a text row by row. The texts are lists of
characters.

## What is proved

* the lines that are not blank come one after the other with the line breaks
  (`fullLines_append`); a break between two texts that are not blank gives at least two of
  them (`two_le_fullLines`), and a text whose only breaks are in the white space at its end
  gives one (`fullLines_trailing`);
* the lines of a joined text that is then stripped are those of its parts, the last part
  stripped at its end (`exists_blocks`);
* **a reader of rows gives back what was printed exactly when every row alone is one line
  that is read back** (`readLines_blocks`); so it is honest exactly when all rows are, or
  when it rejects a text that it may reject (`honest_iff`).
-/

namespace Sreda.Lib.PyText

/-- The characters at which `str.splitlines` cuts. -/
def isLineBreak (c : Char) : Bool :=
  let n := c.toNat
  (10 ≤ n && n ≤ 13) || (28 ≤ n && n ≤ 30) || n == 0x85 || n == 0x2028 || n == 0x2029

variable {c : Char} {s u line : Text} {lines : List Text} {mayReject : Prop}

theorem isSpace_of_isLineBreak (h : isLineBreak c = true) : isSpace c = true := by
  simp only [isLineBreak, isSpace, Bool.or_eq_true, Bool.and_eq_true, decide_eq_true_eq, beq_iff_eq] at h ⊢
  omega

/-- The rest of `splitlines` after the start of a line; a carriage return takes the newline
after it along. -/
def splitlinesFrom (line : Text) : Text → List Text
  | [] => if line = [] then [] else [line]
  | '\r' :: '\n' :: s => line :: splitlinesFrom [] s
  | c :: s => if isLineBreak c then line :: splitlinesFrom [] s else splitlinesFrom (line ++ [c]) s

/-- `str.splitlines()`. -/
def splitlines (s : Text) : List Text := splitlinesFrom [] s

/-- `"\n".join(lines)`. -/
def joinLines : List Text → Text
  | [] => []
  | [line] => line
  | line :: rest => line ++ '\n' :: joinLines rest

/-- `[line for line in text.splitlines() if line.strip()]`. -/
def fullLines (s : Text) : List Text := (splitlines s).filter fun line => strip line ≠ []

def NoBreak (s : Text) : Prop := ∀ c ∈ s, isLineBreak c = false

instance (s : Text) : Decidable (NoBreak s) := List.decidableBAll _ s

theorem NoBreak.of_append_left {t : Text} (h : NoBreak (s ++ t)) : NoBreak s := fun c hc => h c (by simp [hc])

theorem NoBreak.of_append_right {t : Text} (h : NoBreak (s ++ t)) : NoBreak t := fun c hc => h c (by simp [hc])

theorem NoBreak.append {t : Text} (hs : NoBreak s) (ht : NoBreak t) : NoBreak (s ++ t) := by
  intro c hc
  rcases List.mem_append.mp hc with h | h
  · exact hs c h
  · exact ht c h

/-! ### The lines that are not blank -/

/-- A line, unless it is blank. -/
def keepLine (line : Text) : List Text := if Blank line then [] else [line]

/-- The lines that are not blank, after the start of a line: each break ends a line. -/
def fullFrom (line : Text) : Text → List Text
  | [] => keepLine line
  | c :: s => if isLineBreak c then keepLine line ++ fullFrom [] s else fullFrom (line ++ [c]) s

theorem keepLine_nil : keepLine [] = [] := by simp [keepLine, Blank]

theorem filter_cons_line (line : Text) (rest : List Text) :
    (line :: rest).filter (fun line => strip line ≠ []) = keepLine line ++ rest.filter fun line => strip line ≠ [] := by
  by_cases h : Blank line
  · simp [keepLine, h, strip_eq_nil_iff.mpr h]
  · simp [keepLine, h, mt strip_eq_nil_iff.mp h]

theorem filter_splitlinesFrom (line s : Text) :
    (splitlinesFrom line s).filter (fun line => strip line ≠ []) = fullFrom line s := by
  fun_induction splitlinesFrom line s with
  | case1 => simp [fullFrom, keepLine_nil]
  | case2 line h =>
    rw [filter_cons_line]
    simp [fullFrom]
  | case3 line s ih =>
    -- the two characters cut twice, with an empty line between
    rw [filter_cons_line, ih]
    simp [fullFrom, isLineBreak, keepLine_nil]
  | case4 line c s _ hc ih => rw [filter_cons_line, ih, fullFrom, if_pos hc]
  | case5 line c s _ hc ih => rw [ih, fullFrom, if_neg hc]

theorem fullLines_eq (s : Text) : fullLines s = fullFrom [] s := filter_splitlinesFrom [] s

theorem fullFrom_break (line a b : Text) (hc : isLineBreak c = true) :
    fullFrom line (a ++ c :: b) = fullFrom line a ++ fullFrom [] b := by
  induction a generalizing line with
  | nil => simp [fullFrom, hc]
  | cons d a ih =>
    by_cases hd : isLineBreak d = true
    · simp only [List.cons_append, fullFrom, hd, if_true, ih, List.append_assoc]
    · simp only [List.cons_append, fullFrom, hd, Bool.false_eq_true, if_false, ih]

theorem fullFrom_noBreak (line : Text) {a : Text} (ha : NoBreak a) (s : Text) :
    fullFrom line (a ++ s) = fullFrom (line ++ a) s := by
  induction a generalizing line with
  | nil => simp
  | cons c a ih =>
    simp only [List.cons_append, fullFrom, ha c (by simp), Bool.false_eq_true, if_false]
    rw [ih _ fun d hd => ha d (by simp [hd])]
    simp

/-- **A line break ends a line.** -/
theorem fullLines_append (a b : Text) (hc : isLineBreak c = true) :
    fullLines (a ++ c :: b) = fullLines a ++ fullLines b := by
  simp only [fullLines_eq, fullFrom_break [] a b hc]

theorem fullLines_noBreak {a : Text} (ha : NoBreak a) (hb : ¬ Blank a) : fullLines a = [a] := by
  rw [fullLines_eq, ← List.append_nil a, fullFrom_noBreak [] ha]
  simp [fullFrom, keepLine, hb]

/-- The first line break of a text, if it has one. -/
theorem exists_break (s : Text) : NoBreak s ∨ ∃ a c b, s = a ++ c :: b ∧ NoBreak a ∧ isLineBreak c = true := by
  induction s with
  | nil => exact .inl (by simp [NoBreak])
  | cons d s ih =>
    by_cases hd : isLineBreak d = true
    · exact .inr ⟨[], d, s, rfl, by simp [NoBreak], hd⟩
    · rcases ih with h | ⟨a, c, b, rfl, ha, hc⟩
      · refine .inl fun e he => ?_
        rcases List.mem_cons.mp he with rfl | he
        · simpa using hd
        · exact h e he
      · refine .inr ⟨d :: a, c, b, rfl, fun e he => ?_, hc⟩
        rcases List.mem_cons.mp he with rfl | he
        · simpa using hd
        · exact ha e he

theorem fullFrom_ne_nil (line : Text) (h : ¬ Blank (line ++ s)) : fullFrom line s ≠ [] := by
  induction s generalizing line with
  | nil => simpa [fullFrom, keepLine] using h
  | cons c s ih =>
    by_cases hc : isLineBreak c = true
    · simp only [fullFrom, hc, if_true, ne_eq, List.append_eq_nil_iff, not_and]
      intro hl
      by_cases hb : Blank line
      · refine ih [] fun hs => h ?_
        have hcs : Blank [c] := by simpa [Blank] using isSpace_of_isLineBreak hc
        simpa using hb.append (hcs.append hs)
      · simp [keepLine, hb] at hl
    · simp only [fullFrom, hc, Bool.false_eq_true, if_false]
      exact ih _ (by simpa using h)

/-- A text that is not blank has a line that is not blank. -/
theorem fullLines_ne_nil (h : ¬ Blank s) : fullLines s ≠ [] := by
  rw [fullLines_eq]
  exact fullFrom_ne_nil [] h

/-- **A line break between two texts that are not blank makes two lines.** -/
theorem two_le_fullLines {v : Text} (hc : isLineBreak c = true) (hu : ¬ Blank u) (hv : ¬ Blank v) :
    2 ≤ (fullLines (u ++ c :: v)).length := by
  have h₁ := List.length_pos_of_ne_nil (fullLines_ne_nil hu)
  have h₂ := List.length_pos_of_ne_nil (fullLines_ne_nil hv)
  rw [fullLines_append u v hc, List.length_append]
  omega

theorem fullFrom_eq_nil (h : Blank (line ++ s)) : fullFrom line s = [] := by
  induction s generalizing line with
  | nil => simpa [fullFrom, keepLine] using h
  | cons c s ih =>
    by_cases hc : isLineBreak c = true
    · have hs : Blank ([] ++ s) := fun d hd => h d (by simp at hd; simp [hd])
      simp [fullFrom, hc, keepLine, h.of_append_left, ih hs]
    · simp only [fullFrom, hc, Bool.false_eq_true, if_false]
      exact ih (by simpa using h)

theorem fullFrom_blank {ws : Text} (hl : ¬ Blank line) (hws : Blank ws) :
    ∃ w, Blank w ∧ NoBreak w ∧ fullFrom line ws = [line ++ w] := by
  rcases exists_break ws with h | ⟨a, c, b, rfl, ha, hc⟩
  · refine ⟨ws, hws, h, ?_⟩
    rw [← List.append_nil ws, fullFrom_noBreak line h]
    have : ¬ Blank (line ++ ws) := fun hb => hl hb.of_append_left
    simp [fullFrom, keepLine, this]
  · have hb : Blank b := fun d hd => hws d (by simp [hd])
    have hline : ¬ Blank (line ++ a) := fun hb => hl hb.of_append_left
    have hrest : fullFrom [] b = [] := fullFrom_eq_nil (by simpa using hb)
    refine ⟨a, hws.of_append_left, ha, ?_⟩
    rw [fullFrom_break line a b hc, hrest, ← List.append_nil a, fullFrom_noBreak line ha]
    simp [fullFrom, keepLine, hline]

/-- **A text whose only breaks are in the white space at its end is one line.** -/
theorem fullLines_trailing {y ws : Text} (hy : NoBreak y) (hb : ¬ Blank y) (hws : Blank ws) :
    ∃ w, Blank w ∧ NoBreak w ∧ fullLines (y ++ ws) = [y ++ w] := by
  obtain ⟨w, hw, hn, h⟩ := fullFrom_blank hb hws
  exact ⟨w, hw, hn, by rw [fullLines_eq, fullFrom_noBreak [] hy]; exact h⟩

theorem noBreak_of_mem_fullFrom {l : Text} (hline : NoBreak line) (h : l ∈ fullFrom line s) : NoBreak l := by
  have hkeep : ∀ {line : Text}, NoBreak line → l ∈ keepLine line → NoBreak l := by
    intro line hline h
    unfold keepLine at h
    split at h
    · cases h
    · exact List.mem_singleton.mp h ▸ hline
  induction s generalizing line with
  | nil => exact hkeep hline h
  | cons c s ih =>
    by_cases hc : isLineBreak c = true
    · simp only [fullFrom, hc, if_true] at h
      rcases List.mem_append.mp h with h | h
      · exact hkeep hline h
      · exact ih (by simp [NoBreak]) h
    · simp only [fullFrom, hc, Bool.false_eq_true, if_false] at h
      refine ih (hline.append fun d hd => ?_) h
      rw [List.mem_singleton.mp hd]
      simpa using hc

/-- A line has no line break. -/
theorem noBreak_of_mem_fullLines {l : Text} (h : l ∈ fullLines s) : NoBreak l := by
  rw [fullLines_eq] at h
  exact noBreak_of_mem_fullFrom (by simp [NoBreak]) h

theorem strip_rstrip (s : Text) : strip (rstrip s) = strip s := by
  obtain ⟨ws, hws, hs, -⟩ := exists_rstrip s
  conv_rhs => rw [hs, strip_append_blank hws]

theorem NoBreak.strip (h : NoBreak s) : NoBreak (strip s) := by
  obtain ⟨ws, ws', -, -, hs⟩ := exists_strip s
  rw [hs] at h
  exact h.of_append_left.of_append_right

/-! ### Joined texts -/

theorem fullLines_joinLines (lines : List Text) : fullLines (joinLines lines) = lines.flatMap fullLines := by
  induction lines with
  | nil => rfl
  | cons line rest ih =>
    cases rest with
    | nil => simp [joinLines]
    | cons line' rest =>
      have hcons : joinLines (line :: line' :: rest) = line ++ '\n' :: joinLines (line' :: rest) := rfl
      rw [hcons, fullLines_append _ _ (by decide), ih, List.flatMap_cons (x := line)]

theorem joinLines_head (h : line = c :: s) (rest : List Text) : ∃ tail, joinLines (line :: rest) = c :: tail := by
  subst h
  cases rest with
  | nil => exact ⟨s, rfl⟩
  | cons line' rest => exact ⟨s ++ '\n' :: joinLines (line' :: rest), rfl⟩

theorem joinLines_append (hne : lines ≠ []) (line : Text) :
    joinLines (lines ++ [line]) = joinLines lines ++ '\n' :: line := by
  induction lines with
  | nil => exact absurd rfl hne
  | cons l rest ih =>
    cases rest with
    | nil => rfl
    | cons l' rest =>
      have := ih (by simp)
      simp only [List.cons_append, joinLines] at this ⊢
      rw [this, List.append_assoc, List.cons_append]

theorem rstrip_joinLines (lines : List Text) (h : ¬ Blank line) :
    rstrip (joinLines (lines ++ [line])) = joinLines (lines ++ [rstrip line]) := by
  by_cases hne : lines = []
  · simp [hne, joinLines]
  · have hl : ¬ Blank ('\n' :: line) := fun hb => h fun c hc => hb c (by simp [hc])
    have : rstrip ('\n' :: line) = '\n' :: rstrip line := rstrip_append (s := ['\n']) h
    rw [joinLines_append hne, joinLines_append hne, rstrip_append hl, this]

/-- What a printed row gives to the lines of the stripped text: its own lines, or those of the
row stripped at its end when it is the last. -/
def RowLines (printed : Text) (lines : List Text) : Prop :=
  lines = fullLines printed ∨ lines = fullLines (rstrip printed)

theorem RowLines.ne_nil {printed : Text} (h : RowLines printed lines) (hp : ¬ Blank printed) : lines ≠ [] := by
  rcases h with rfl | rfl
  · exact fullLines_ne_nil hp
  · refine fullLines_ne_nil fun hb => hp ?_
    obtain ⟨ws, hws, hs, -⟩ := exists_rstrip printed
    exact hs ▸ hb.append hws

theorem RowLines.noBreak {printed : Text} (h : RowLines printed lines) : ∀ l ∈ lines, NoBreak l := by
  rcases h with rfl | rfl <;> exact fun l hl => noBreak_of_mem_fullLines hl

/-- A row with a line break between two texts that are not blank has two lines. -/
theorem RowLines.two_le {v : Text} (h : RowLines (u ++ c :: v) lines)
    (hc : isLineBreak c = true) (hu : ¬ Blank u) (hv : ¬ Blank v) : 2 ≤ lines.length := by
  rcases h with rfl | rfl
  · exact two_le_fullLines hc hu hv
  · have hcv : ¬ Blank (c :: v) := fun hb => hv fun d hd => hb d (by simp [hd])
    rw [rstrip_append hcv, show c :: v = [c] ++ v from rfl, rstrip_append hv]
    refine two_le_fullLines hc hu fun hb => hv ?_
    obtain ⟨ws, hws, hs, -⟩ := exists_rstrip v
    exact hs ▸ hb.append hws

theorem exists_break_of_not (h : ¬ NoBreak s) : ∃ a c b, s = a ++ c :: b ∧ isLineBreak c = true := by
  rcases exists_break s with hs | ⟨a, c, b, hs, -, hc⟩
  · exact absurd hs h
  · exact ⟨a, c, b, hs, hc⟩

/-- So a row of one line has no break inside of what stands between two texts that are not
blank. -/
theorem RowLines.noBreak_between {v : Text} (h : RowLines (u ++ s ++ v) [line]) (hu : ¬ Blank u)
    (hv : ¬ Blank v) : NoBreak s := by
  by_contra hs
  obtain ⟨a, c, b, rfl, hc⟩ := exists_break_of_not hs
  have hrow : RowLines ((u ++ a) ++ c :: (b ++ v)) [line] := by simpa using h
  have := hrow.two_le hc
    (fun hb => hu hb.of_append_left) (fun hb => hv hb.of_append_right)
  simp at this

/-- And none before the white space at its end. -/
theorem RowLines.noBreak_end (h : RowLines (u ++ s) [line]) (hu : ¬ Blank u) : NoBreak (rstrip s) := by
  by_contra hs
  obtain ⟨a, c, b, hab, hc⟩ := exists_break_of_not hs
  obtain ⟨ws, hws, hsplit, hend⟩ := exists_rstrip s
  have hb : ¬ Blank b := by
    intro hb
    rw [hab] at hend
    rcases hend with hend | ⟨d, t, hd, hd'⟩
    · simp at hend
    · have hd : d ∈ c :: b := by
        have hmem : ∃ t', (c :: b).reverse = d :: t' := by
          simp only [List.reverse_append] at hd
          obtain ⟨e, t', ht'⟩ := List.exists_cons_of_ne_nil (show (c :: b).reverse ≠ [] by simp)
          rw [ht', List.cons_append, List.cons.injEq] at hd
          exact ⟨t', by rw [ht', hd.1]⟩
        obtain ⟨t', ht'⟩ := hmem
        exact List.mem_reverse.mp (ht' ▸ List.mem_cons_self)
      rcases List.mem_cons.mp hd with rfl | hd
      · simp [isSpace_of_isLineBreak hc] at hd'
      · simp [hb d hd] at hd'
  have hrow : RowLines ((u ++ a) ++ c :: (b ++ ws)) [line] := by
    rw [hsplit, hab] at h
    simpa using h
  have := hrow.two_le hc (fun hb => hu hb.of_append_left) (fun h => hb h.of_append_left)
  simp at this

theorem rstrip_of_ends (h : Starts s.reverse) : rstrip s = s := by
  rw [rstrip_eq_reverse, h.lstrip_eq, List.reverse_reverse]

theorem not_blank_of_ends (h : Starts s.reverse) : ¬ Blank s := fun hb => h.not_blank hb.reverse

/-- **A row whose only breaks are in the white space at its end is one line.** -/
theorem RowLines.eq_singleton {ws : Text} (h : RowLines (s ++ ws) lines) (hs : NoBreak s)
    (hends : Starts s.reverse) (hws : Blank ws) : ∃ w, Blank w ∧ NoBreak w ∧ lines = [s ++ w] := by
  rcases h with rfl | rfl
  · exact fullLines_trailing hs (not_blank_of_ends hends) hws
  · refine ⟨[], by simp [Blank], by simp [NoBreak], ?_⟩
    rw [rstrip_append_blank hws, rstrip_of_ends hends, fullLines_noBreak hs (not_blank_of_ends hends),
      List.append_nil]

theorem RowLines.eq_self (h : RowLines s lines) (hs : NoBreak s) (hends : Starts s.reverse) : lines = [s] := by
  rcases h with rfl | rfl
  · exact fullLines_noBreak hs (not_blank_of_ends hends)
  · rw [rstrip_of_ends hends, fullLines_noBreak hs (not_blank_of_ends hends)]

/-- **The lines of a printed text, row by row.** -/
theorem exists_blocks {ρ : Type} (print : ρ → Text) (header : List Text) {rows : List ρ} (hne : rows ≠ [])
    (hprint : ∀ r ∈ rows, ¬ Blank (print r)) (hstart : Starts (joinLines (header ++ rows.map print))) :
    ∃ blocks, List.Forall₂ (fun r b => RowLines (print r) b) rows blocks ∧
      fullLines (strip (joinLines (header ++ rows.map print))) = header.flatMap fullLines ++ blocks.flatten := by
  obtain ⟨init, last, rfl⟩ : ∃ init last, rows = init ++ [last] :=
    ⟨rows.dropLast, rows.getLast hne, (List.dropLast_append_getLast hne).symm⟩
  have hlast : ¬ Blank (print last) := hprint last (by simp)
  refine ⟨init.map (fun r => fullLines (print r)) ++ [fullLines (rstrip (print last))], ?_, ?_⟩
  · refine List.rel_append ?_ (.cons (.inr rfl) .nil)
    rw [List.forall₂_map_right_iff]
    exact List.forall₂_same.mpr fun r _ => .inl rfl
  · rw [hstart.strip_eq, List.map_append, List.map_singleton, ← List.append_assoc, rstrip_joinLines _ hlast,
      fullLines_joinLines]
    simp [List.flatMap, List.map_map, Function.comp_def]

theorem flatten_ne_nil {ρ : Type} {print : ρ → Text} {rows : List ρ} {blocks : List (List Text)}
    (h : List.Forall₂ (fun r b => RowLines (print r) b) rows blocks) (hne : rows ≠ [])
    (hprint : ∀ r ∈ rows, ¬ Blank (print r)) : blocks.flatten ≠ [] := by
  obtain ⟨r, rest, rfl⟩ := List.exists_cons_of_ne_nil hne
  cases h with
  | cons hr _ =>
    intro hnil
    exact hr.ne_nil (hprint r (by simp)) (List.append_eq_nil_iff.mp hnil).1

/-! ### The first line -/

theorem splitlinesFrom_head (hl : line ≠ []) (s : Text) : ∃ w rest, splitlinesFrom line s = (line ++ w) :: rest := by
  fun_induction splitlinesFrom line s with
  | case1 => exact absurd rfl hl
  | case2 line h => exact ⟨[], [], by simp⟩
  | case3 line s ih => exact ⟨[], splitlinesFrom [] s, by simp⟩
  | case4 line c s _ hc ih => exact ⟨[], splitlinesFrom [] s, by simp⟩
  | case5 line c s _ hc ih =>
    obtain ⟨w, rest, h⟩ := ih (by simp)
    exact ⟨c :: w, rest, by simp [h]⟩

/-- The first line of a text that begins a word begins the same word, and is not blank. -/
theorem splitlines_cons (hc : isSpace c = false) (t : Text) : ∃ w rest, splitlines (c :: t) = (c :: w) :: rest ∧
      fullLines (c :: t) = (c :: w) :: rest.filter fun line => strip line ≠ [] := by
  have hbreak : isLineBreak c = false := by
    by_contra hb
    simp [isSpace_of_isLineBreak (by simpa using hb)] at hc
  have hcr : c ≠ '\r' := by
    rintro rfl
    simp [isSpace] at hc
  have hsplit : splitlines (c :: t) = splitlinesFrom [c] t := by
    rw [splitlines, splitlinesFrom.eq_def]
    split
    · contradiction
    · next heq =>
      simp only [List.cons.injEq] at heq
      exact absurd heq.1 hcr
    · next heq =>
      simp only [List.cons.injEq] at heq
      obtain ⟨rfl, rfl⟩ := heq
      simp [hbreak]
  obtain ⟨w, rest, hw⟩ := splitlinesFrom_head (List.cons_ne_nil c []) t
  refine ⟨w, rest, by rw [hsplit, hw]; rfl, ?_⟩
  have hb : ¬ Blank (c :: w) := (Starts.not_blank ⟨c, w, rfl, hc⟩)
  rw [fullLines, hsplit, hw, filter_cons_line]
  simp [keepLine, hb]

/-! ### Readers of rows -/

section Readers

variable {τ ρ : Type} (read : Text → Option τ)

/-- A loop over lines that gives up at the first line that it cannot read. -/
def readLines : List Text → Option (List τ)
  | [] => some []
  | line :: rest =>
    match read line with
    | none => none
    | some row => (readLines rest).map (row :: ·)

variable {read}

theorem readLines_eq_some_iff {rows : List τ} :
    readLines read lines = some rows ↔ List.Forall₂ (fun line row => read line = some row) lines rows := by
  induction lines generalizing rows with
  | nil => simp [readLines, List.forall₂_nil_left_iff, eq_comm]
  | cons line rest ih =>
    cases h : read line with
    | none => simp [readLines, h, List.forall₂_cons_left_iff]
    | some row =>
      simp only [readLines, h, Option.map_eq_some_iff, ih, List.forall₂_cons_left_iff, Option.some.injEq]
      constructor
      · rintro ⟨rows', h', rfl⟩
        exact ⟨row, rows', rfl, h', rfl⟩
      · rintro ⟨_, rows', rfl, h', rfl⟩
        exact ⟨rows', h', rfl⟩

theorem readLines_eq_none_iff : readLines read lines = none ↔ ∃ line ∈ lines, read line = none := by
  induction lines with
  | nil => simp [readLines]
  | cons line rest ih =>
    cases h : read line <;> simp [readLines, h, ih]

/-- The row alone is one line, and the line is read back. -/
def ReadsBack (read : Text → Option τ) (same : τ → ρ → Prop) (row : ρ) (block : List Text) : Prop :=
  ∃ line t, block = [line] ∧ read line = some t ∧ same t row

variable {same : τ → ρ → Prop} {rows : List ρ} {blocks : List (List Text)}

theorem length_le_flatten (hne : ∀ b ∈ blocks, b ≠ []) : blocks.length ≤ blocks.flatten.length := by
  induction blocks with
  | nil => simp
  | cons b bs ih =>
    have := List.length_pos_of_ne_nil (hne b (by simp))
    have := ih fun b' hb => hne b' (by simp [hb])
    simp only [List.flatten_cons, List.length_append, List.length_cons]
    omega

/-- **What is read is what was printed exactly when every row alone is read back.** -/
theorem readLines_blocks (hlen : rows.length = blocks.length) (hne : ∀ b ∈ blocks, b ≠ []) :
    (∃ ts, readLines read blocks.flatten = some ts ∧ List.Forall₂ same ts rows) ↔
      List.Forall₂ (ReadsBack read same) rows blocks := by
  induction blocks generalizing rows with
  | nil =>
    obtain rfl : rows = [] := List.length_eq_zero_iff.mp hlen
    simp [readLines]
  | cons b bs ih =>
    obtain ⟨r, rs, rfl⟩ := List.exists_cons_of_length_eq_add_one hlen
    have hlen' : rs.length = bs.length := by simpa using hlen
    have hne' : ∀ b' ∈ bs, b' ≠ [] := fun b' hb => hne b' (by simp [hb])
    rw [List.forall₂_cons, ← ih hlen' hne']
    constructor
    · rintro ⟨ts, hts, hsame⟩
      rw [readLines_eq_some_iff] at hts
      obtain ⟨line, rest, rfl⟩ := List.exists_cons_of_ne_nil (hne b (by simp))
      rw [List.flatten_cons, List.cons_append, List.forall₂_cons_left_iff] at hts
      obtain ⟨t, ts', hline, hts', rfl⟩ := hts
      obtain ⟨hr, hrs⟩ := List.forall₂_cons.mp hsame
      -- one more line in this block would be one row too many
      have hrest : rest = [] := by
        have h₁ := hts'.length_eq
        have h₂ := hrs.length_eq
        have h₃ := length_le_flatten hne'
        rw [List.length_append] at h₁
        exact List.length_eq_zero_iff.mp (by omega)
      subst hrest
      exact ⟨⟨line, t, rfl, hline, hr⟩, ts', readLines_eq_some_iff.mpr hts', hrs⟩
    · rintro ⟨⟨line, t, rfl, hline, hr⟩, ts, hts, hrs⟩
      refine ⟨t :: ts, ?_, .cons hr hrs⟩
      rw [readLines_eq_some_iff] at hts ⊢
      exact .cons hline hts

/-- What a reader owes for a printed text: what it reads is what was printed, and it reads
every text that it must not reject. -/
def Honest (same : τ → ρ → Prop) (rows : List ρ) (mayReject : Prop) (result : Option (List τ)) : Prop :=
  (∀ ts, result = some ts → List.Forall₂ same ts rows) ∧ (¬ mayReject → result.isSome)

/-- A reader is honest exactly when it reads what was printed, or rejects what it may reject. -/
theorem honest_iff {result : Option (List τ)} : Honest same rows mayReject result ↔
      (∃ ts, result = some ts ∧ List.Forall₂ same ts rows) ∨ (mayReject ∧ result = none) := by
  cases result with
  | none => simp [Honest]
  | some ts => simp [Honest]

theorem honest_nil : Honest same [] mayReject (some []) := honest_iff.mpr (.inl ⟨[], rfl, .nil⟩)

theorem RowLines.blocks_ne_nil {print : ρ → Text} (hlines : List.Forall₂ (fun r b => RowLines (print r) b) rows blocks)
    (hprint : ∀ r ∈ rows, ¬ Blank (print r)) : ∀ b ∈ blocks, b ≠ [] := by
  intro b hb
  obtain ⟨i, hi, rfl⟩ := List.getElem_of_mem hb
  have hi' : i < rows.length := hlines.length_eq ▸ hi
  exact (hlines.get hi' hi).ne_nil (hprint _ (List.getElem_mem hi'))

theorem forall₂_readsBack_iff {print : ρ → Text} {plain : ρ → Prop}
    (hlines : List.Forall₂ (fun r b => RowLines (print r) b) rows blocks)
    (hplain : ∀ r b, RowLines (print r) b → (ReadsBack read same r b ↔ plain r)) :
    List.Forall₂ (ReadsBack read same) rows blocks ↔ ∀ r ∈ rows, plain r := by
  induction hlines with
  | nil => simp
  | cons h _ ih => simp [List.forall₂_cons, ih, hplain _ _ h]

/-- **A reader of rows is honest exactly when every row is plain, or when it may reject and
some line is none.** Plain is whatever tells for one row that it is read back. -/
theorem honest_rows_iff {print : ρ → Text} {plain : ρ → Prop}
    (hlines : List.Forall₂ (fun r b => RowLines (print r) b) rows blocks) (hprint : ∀ r ∈ rows, ¬ Blank (print r))
    (hplain : ∀ r b, RowLines (print r) b → (ReadsBack read same r b ↔ plain r)) :
    Honest same rows mayReject (readLines read blocks.flatten) ↔
      (∀ r ∈ rows, plain r) ∨ (mayReject ∧ ∃ line ∈ blocks.flatten, read line = none) := by
  rw [honest_iff, readLines_blocks hlines.length_eq (RowLines.blocks_ne_nil hlines hprint),
    forall₂_readsBack_iff hlines hplain, readLines_eq_none_iff]

end Readers

end Sreda.Lib.PyText
