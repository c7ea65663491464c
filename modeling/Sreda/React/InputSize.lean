import Sreda.React.Projection

/-!
# The size of what the model is shown

`_project` cuts a history that is over the budget: old blocks are dropped until the system prompt, the note of the compaction and
what is left fit, or nothing is left but the current turn. `build_model_input` projects once for the whole history, and once more
for the rest of it when a summary stands in for its start. The rest may fit without a cut; the check that it does leaves out the
note, which is put to the prompt all the same.

## What is proved

* a projection that cuts fits together with the note, or is the current turn (`project_size`);
* what is sent after a compaction fits, or no block is left but those of the current turn, iff a rest that fits with its summary
  also fits with the note, or is part of the current turn (`model_input_size`).
-/

namespace Sreda.React

open Sreda.Planner (Value)

/-! ### Sizes -/

/-- The sum of `_content_len`. -/
def contentLen (messages : List Message) : ℕ := (messages.map (·.content.length)).sum

theorem contentLen_append (xs ys : List Message) : contentLen (xs ++ ys) = contentLen xs + contentLen ys := by
  rw [contentLen, List.map_append, List.sum_append]
  rfl

theorem contentLen_flatten (blocks : List Block) : contentLen (flattenBlocks blocks) = charSizes blocks := by
  induction blocks with
  | nil => rfl
  | cons b blocks ih =>
    have hcons : flattenBlocks (b :: blocks) = b.messages ++ flattenBlocks blocks := List.flatMap_cons
    rw [hcons, contentLen_append, ih, charSizes, charSizes, List.map_cons, List.sum_cons]
    rfl

theorem charSizes_segment (messages : List Message) : charSizes (segmentMessages messages) = contentLen messages := by
  rw [← contentLen_flatten, flatten_segmentMessages]

/-! ### The loops of the projection -/

theorem dropOldest_of_not {tooMuch : List Block → Bool} {blocks : List Block} (h : tooMuch blocks = false) :
    dropOldest tooMuch blocks = blocks := by
  cases blocks with
  | nil => rfl
  | cons b rest => rw [dropOldest, h, if_neg Bool.false_ne_true]

/-- A loop ends when the rest is not too much, or nothing is left. -/
theorem dropOldest_spec (tooMuch : List Block → Bool) (blocks : List Block) :
    tooMuch (dropOldest tooMuch blocks) = false ∨ dropOldest tooMuch blocks = [] := by
  induction blocks with
  | nil => exact .inr rfl
  | cons b rest ih =>
    rw [dropOldest]
    split
    · exact ih
    · next hfits => exact .inl (Bool.eq_false_iff.mpr hfits)

/-- **The three loops**: the middle, the head and the tail are dropped until the rest is not too much, or nothing is left. -/
theorem dropWindows_spec (tooMuch : List Block → Bool) (head middle tail : List Block) :
    let middle' := dropOldest (fun middle => tooMuch (head ++ middle ++ tail)) middle
    let head' := dropOldest (fun head => tooMuch (head ++ middle' ++ tail)) head
    let tail' := dropOldest (fun tail => tooMuch (head' ++ middle' ++ tail)) tail
    tooMuch (head' ++ middle' ++ tail') = false ∨ head' ++ middle' ++ tail' = [] := by
  intro middle' head' tail'
  rcases dropOldest_spec (fun tail => tooMuch (head' ++ middle' ++ tail)) tail with hfits | htail
  · exact .inl hfits
  · by_cases hhead : tooMuch (head' ++ middle' ++ tail) = false
    · -- the tail is not touched
      refine .inl ?_
      have hkept : tail' = tail := dropOldest_of_not hhead
      rwa [hkept]
    · have hhead' : head' = [] :=
        (dropOldest_spec (fun head => tooMuch (head ++ middle' ++ tail)) head).resolve_left hhead
      by_cases hmiddle : tooMuch (head ++ middle' ++ tail) = false
      · have hkept : head' = head := dropOldest_of_not hmiddle
        rw [hkept] at hhead
        exact absurd hmiddle hhead
      · have hmiddle' : middle' = [] :=
          (dropOldest_spec (fun middle => tooMuch (head ++ middle ++ tail)) middle).resolve_left hmiddle
        have htail' : tail' = [] := htail
        exact .inr (by rw [hhead', hmiddle', htail']; rfl)

variable {preview : String → String} {spSize : ℕ} {budget : Option ℤ}

/-- **A projection that cuts** fits together with the note, or is the current turn. -/
theorem project_size {messages : List Message} (h : (project preview messages spSize budget).2 = true) :
    (spSize + compactionNote.length + contentLen (project preview messages spSize budget).1 : ℕ) ≤ budgetChars budget ∨
      (project preview messages spSize budget).1 = currentTurn messages := by
  unfold project at h ⊢
  dsimp only at h ⊢
  split at h
  · cases h
  · next hover =>
    rw [if_neg hover]
    dsimp only
    rw [contentLen_flatten]
    rcases dropWindows_spec (fun kept => decide ((spSize + compactionNote.length +
        charSizes (kept ++ (segmentMessages messages).drop (lastHumanBlock (segmentMessages messages))) : ℕ) >
          budgetChars budget)) _ _ _ with hfits | hnone
    · exact .inl (not_lt.mp (of_decide_eq_false hfits))
    · refine .inr ?_
      rw [flattenBlocks_append, hnone]
      rfl

theorem project_of_fits {messages : List Message} (h : (spSize + contentLen messages : ℕ) ≤ budgetChars budget) :
    project preview messages spSize budget = (messages, false) := by
  rw [← charSizes_segment] at h
  exact if_pos h

theorem fits_of_not_cut {messages : List Message} (h : (project preview messages spSize budget).2 = false) :
    (spSize + contentLen messages : ℕ) ≤ budgetChars budget := by
  by_contra hover
  rw [← charSizes_segment, not_le] at hover
  rw [project_cut hover] at h
  cases h

/-! ### The current turn of a rest -/

theorem currentTurn_suffix (messages : List Message) : currentTurn messages <:+ messages :=
  ⟨_, old_append_currentTurn messages⟩

/-- **The current turn of a rest** is part of the current turn of the history. -/
theorem currentTurn_drop_suffix (messages : List Message) (n : ℕ) :
    currentTurn (messages.drop n) <:+ currentTurn messages := by
  have hrest : currentTurn (messages.drop n) <:+ messages :=
    (currentTurn_suffix (messages.drop n)).trans (List.drop_suffix n messages)
  rcases List.suffix_or_suffix_of_suffix hrest (currentTurn_suffix messages) with hsub | hsub
  · exact hsub
  · -- the turn of the history is in that of the rest, where only the first message may be the user's
    have hall : ∀ {part : List Message}, currentTurn messages <:+ part → (∀ m ∈ part, m.isHuman = false) →
        currentTurn messages = messages := by
      intro part hpart hnone
      rcases currentTurn_spec messages with ⟨content, rest, heq, -⟩ | ⟨heq, -⟩
      · have hmem : Message.human content ∈ part := hpart.subset (by rw [heq]; exact List.mem_cons_self)
        cases hnone _ hmem
      · exact heq
    rcases currentTurn_spec (messages.drop n) with ⟨content, rest, heq, hnone⟩ | ⟨heq, hnone⟩
    · rw [heq] at hsub
      rcases List.suffix_cons_iff.mp hsub with hsame | hsub
      · exact ⟨[], heq.trans hsame.symm⟩
      · rw [hall hsub hnone]
        exact hrest
    · rw [heq] at hsub
      rw [hall hsub hnone]
      exact hrest

/-! ### What is sent -/

/-- The history is cut, and the projection is shown. -/
def Compaction.compacts (c : Compaction) (systemPrompt : String) (messages : List Message) : Bool :=
  c.cuts systemPrompt messages && validToolSequence (c.projected systemPrompt messages)

/-- All that is sent fits, or no block is left but those of the current turn. -/
def Compaction.Bounded (c : Compaction) (systemPrompt : String) (messages : List Message) : Prop :=
  (contentLen (buildModelInput c systemPrompt messages) : ℕ) ≤ budgetChars c.budget ∨
    c.projected systemPrompt messages <:+ currentTurn messages

/-- A rest that fits with its summary also fits with the note, or is part of the current turn. -/
def Compaction.NoteFits (c : Compaction) (systemPrompt : String) (messages : List Message) : Prop :=
  (c.applicableSummary messages).2 ≠ "" →
    let rest := messages.drop (c.applicableSummary messages).1
    let promptSize := systemPrompt.length + (c.applicableSummary messages).2.length
    (promptSize + contentLen rest : ℕ) ≤ budgetChars c.budget →
      (promptSize + compactionNote.length + contentLen rest : ℕ) ≤ budgetChars c.budget ∨ rest <:+ currentTurn messages

section Sent

variable {c : Compaction} {systemPrompt : String} {messages : List Message}

theorem Compaction.cuts_of_compacts (h : c.compacts systemPrompt messages = true) : c.cuts systemPrompt messages = true :=
  (Bool.and_eq_true_iff.mp h).1

theorem contentLen_buildModelInput (h : c.compacts systemPrompt messages = true) :
    contentLen (buildModelInput c systemPrompt messages) =
      systemPrompt.length + (c.standIn systemPrompt messages).2.length + compactionNote.length +
        contentLen (c.projected systemPrompt messages) := by
  obtain ⟨hcuts, hvalid⟩ := Bool.and_eq_true_iff.mp h
  rw [buildModelInput_eq, failClosed, if_neg (not_not_intro hvalid), Compaction.note, if_pos hcuts, contentLen, List.map_cons,
    List.sum_cons, Message.content, String.length_append, String.length_append, contentLen]
  omega

/-- Without a summary the whole history is projected. -/
theorem Compaction.bounded_of_no_summary (h : c.compacts systemPrompt messages = true)
    (hnone : (c.applicableSummary messages).2 = "") : c.Bounded systemPrompt messages := by
  have hcuts := c.cuts_of_compacts h
  have hstand : c.standIn systemPrompt messages = (0, "") := if_neg fun happlies => happlies.2 hnone
  have hproj : c.projected systemPrompt messages = (project c.preview messages systemPrompt.length c.budget).1 := by
    rw [Compaction.projected, if_pos hcuts, Compaction.remainder, hstand]
    rfl
  rw [Compaction.Bounded, contentLen_buildModelInput h, hstand, hproj]
  rcases project_size (Bool.and_eq_true_iff.mp hcuts).2 with hfits | hturn
  · exact .inl hfits
  · exact .inr (hturn ▸ List.suffix_rfl)

/-- **With a summary** the rest is projected, and it may fit without a cut. -/
theorem Compaction.bounded_iff_of_summary (h : c.compacts systemPrompt messages = true)
    (happlies : (c.applicableSummary messages).2 ≠ "") :
    c.Bounded systemPrompt messages ↔ c.NoteFits systemPrompt messages := by
  have hcuts := c.cuts_of_compacts h
  have hstand : c.standIn systemPrompt messages = c.applicableSummary messages := if_pos ⟨hcuts, happlies⟩
  have hproj : c.projected systemPrompt messages =
      (project c.preview (messages.drop (c.applicableSummary messages).1)
        (systemPrompt.length + (c.applicableSummary messages).2.length) c.budget).1 := by
    rw [Compaction.projected, if_pos hcuts, Compaction.remainder, hstand]
  rw [Compaction.Bounded, contentLen_buildModelInput h, hstand, hproj, Compaction.NoteFits]
  cases hcut : (project c.preview (messages.drop (c.applicableSummary messages).1)
      (systemPrompt.length + (c.applicableSummary messages).2.length) c.budget).2 with
  | true =>
    refine iff_of_true ?_ fun _ hfits => ?_
    · rcases project_size hcut with hfits | hturn
      · exact .inl hfits
      · exact .inr (hturn ▸ currentTurn_drop_suffix messages _)
    · rw [project_of_fits hfits] at hcut
      cases hcut
  | false =>
    rw [project_eq_of_not_cut hcut]
    exact ⟨fun hbounded _ _ => hbounded, fun hnote => hnote happlies (fits_of_not_cut hcut)⟩

end Sent

/-- **The size of what a compaction sends**: it fits, or no block is left but those of the current turn, iff a rest that fits with
its summary also fits with the note, or is part of the current turn. -/
theorem model_input_size (lib : SummaryLib) (preview : String → String) (enabled : Bool) (budget : Option ℤ) (summary : Value)
    (systemPrompt : String) (messages : List Message)
    (h : (compactionWith lib preview enabled budget summary).compacts systemPrompt messages = true) :
    (compactionWith lib preview enabled budget summary).Bounded systemPrompt messages ↔
      (compactionWith lib preview enabled budget summary).NoteFits systemPrompt messages := by
  by_cases happlies : ((compactionWith lib preview enabled budget summary).applicableSummary messages).2 = ""
  · exact iff_of_true (Compaction.bounded_of_no_summary h happlies) fun hne => absurd happlies hne
  · exact Compaction.bounded_iff_of_summary h happlies

/-! ### A rest that fits without the note -/

def longQuestion : List Char := List.replicate 500 'a'

/-- A long question, and nine more. -/
def longHistory : List Message := .human (String.ofList longQuestion) :: tenQuestions.tail

/-- A digest that is the real one on the text of the long question. -/
def longSha256 (t : List Char) : String :=
  if t = "HumanMessage\x00".toList ++ longQuestion ++ "\x00\x00\x1e".toList then
    "3d456f44cdb9dfe9fbe781691779d86747df378d11f78bdd2744c7867e0db58f"
  else String.ofList ('-' :: t)

def longLib : SummaryLib := { exampleLib with sha256 := longSha256 }

theorem longSha256_ne_empty (t : List Char) : longSha256 t ≠ "" := by
  unfold longSha256
  split
  · decide
  · intro h
    have := congrArg String.toList h
    simp at this

theorem historyPrefixHash_long (messages : List Message) (n : ℕ) : historyPrefixHash longLib messages n ≠ "" :=
  longSha256_ne_empty _

/-- The settings with the record of the long question. -/
def longCompaction : Compaction := compactionWith longLib id true (some 300) (summaryRecord longLib "s" longHistory)

theorem longHistory_coverage : (summaryCoverage longHistory).1 = 1 := by
  simp [summaryCoverage, longHistory, tenQuestions, segmentMessages, Message.calls, lastHumanBlock, Message.isHuman, flattenBlocks,
    keepTailBlocks]

theorem longRecord_applies :
    longCompaction.applicableSummary (longHistory ++ laterTurn) = (1, summarySection "s".toList) := by
  have hrecord := applicableSummary_record longLib [("version", .int summaryVersion),
    ("text", .str (String.ofList ((Lib.PyText.strip "s".toList).take summaryMaxChars))),
    ("covered_message_count", .int 1), ("covered_hash", .str (historyPrefixHash longLib longHistory 1))]
    rfl rfl rfl rfl (longHistory ++ laterTurn)
  rw [longCompaction, compactionWith_applicableSummary, summaryRecord, longHistory_coverage]
  refine hrecord.trans ((if_neg ?_).trans ?_)
  · push Not
    exact ⟨by decide, by decide, by decide +kernel, historyPrefixHash_long _ _, rfl⟩
  · refine congrArg (fun text => (1, summarySection text)) ?_
    decide

theorem contentLen_later : contentLen (tenQuestions.tail ++ laterTurn) = 23 := by
  decide

theorem contentLen_long : contentLen (longHistory ++ laterTurn) = 523 := by
  have hfirst : contentLen [.human (String.ofList longQuestion)] = 500 := by
    have hlength : (String.ofList longQuestion).length = 500 := String.length_ofList.trans List.length_replicate
    rw [contentLen, List.map_singleton, List.sum_singleton, Message.content, hlength]
  have happend := contentLen_append [.human (String.ofList longQuestion)] (tenQuestions.tail ++ laterTurn)
  rw [contentLen_later, hfirst] at happend
  exact happend

theorem longCompaction_cuts : longCompaction.cuts "sp" (longHistory ++ laterTurn) = true := by
  have hcut : (project id (longHistory ++ laterTurn) "sp".length (some 300)).2 = true := by
    apply project_cut
    rw [charSizes_segment, contentLen_long]
    decide
  exact Bool.and_eq_true_iff.mpr ⟨rfl, hcut⟩

theorem length_append_eq {s t : String} {m n : ℕ} (hs : s.length = m) (ht : t.length = n) : (s ++ t).length = m + n := by
  rw [String.length_append, hs, ht]

set_option maxRecDepth 2000 in
theorem summaryFenceBegin_length : summaryFenceBegin.length = 65 + 93 :=
  length_append_eq String.length_ofList String.length_ofList

set_option maxRecDepth 2000 in
theorem compactionNote_length : compactionNote.length = 90 + 79 :=
  length_append_eq String.length_ofList String.length_ofList

/-- A summary section is its two fences, four line ends and the text. -/
theorem summarySection_length (safe : Lib.PyText.Text) :
    (summarySection safe).length = 2 + (65 + 93) + 1 + safe.length + 1 + 35 :=
  length_append_eq (length_append_eq (length_append_eq (length_append_eq (length_append_eq String.length_ofList
    summaryFenceBegin_length) String.length_ofList) String.length_ofList) String.length_ofList) String.length_ofList

theorem longCompaction_projected :
    longCompaction.projected "sp" (longHistory ++ laterTurn) = tenQuestions.tail ++ laterTurn := by
  have hstand : longCompaction.standIn "sp" (longHistory ++ laterTurn) = (1, summarySection "s".toList) := by
    rw [Compaction.standIn, longRecord_applies, if_pos ⟨longCompaction_cuts, summarySection_ne_empty _⟩]
  have hfits : ("sp".length + (summarySection "s".toList).length + contentLen (tenQuestions.tail ++ laterTurn) : ℕ) ≤
      budgetChars (some 300) := by
    rw [summarySection_length, contentLen_later]
    decide
  have hrest : (longHistory ++ laterTurn).drop 1 = tenQuestions.tail ++ laterTurn := rfl
  rw [Compaction.projected, if_pos longCompaction_cuts, Compaction.remainder, hstand]
  dsimp only
  rw [hrest]
  exact congrArg Prod.fst (project_of_fits hfits)

theorem longCompaction_compacts : longCompaction.compacts "sp" (longHistory ++ laterTurn) = true := by
  have hvalid : validToolSequence (tenQuestions.tail ++ laterTurn) = true := by decide
  rw [Compaction.compacts, longCompaction_cuts, longCompaction_projected, hvalid]
  rfl

theorem model_input_size_long :
    longCompaction.Bounded "sp" (longHistory ++ laterTurn) ↔ longCompaction.NoteFits "sp" (longHistory ++ laterTurn) :=
  model_input_size longLib id true (some 300) (summaryRecord longLib "s" longHistory) "sp" (longHistory ++ laterTurn)
    longCompaction_compacts

/-- **The note is over the budget**: the summary stands in for the long question, and the rest fits without the note only. -/
theorem note_over_budget :
    validToolSequence (longHistory ++ laterTurn) = true ∧ longCompaction.compacts "sp" (longHistory ++ laterTurn) = true ∧
      ¬ longCompaction.Bounded "sp" (longHistory ++ laterTurn) := by
  refine ⟨by decide, longCompaction_compacts, ?_⟩
  have hstand : longCompaction.standIn "sp" (longHistory ++ laterTurn) = (1, summarySection "s".toList) := by
    rw [Compaction.standIn, longRecord_applies, if_pos ⟨longCompaction_cuts, summarySection_ne_empty _⟩]
  rintro (hfits | hturn)
  · rw [contentLen_buildModelInput longCompaction_compacts, hstand, longCompaction_projected] at hfits
    have hnote := compactionNote_length
    have hsection := summarySection_length "s".toList
    have hbudget : budgetChars longCompaction.budget = 300 := rfl
    have hprompt : "sp".length = 2 := by decide
    have htext : "s".toList.length = 1 := by decide
    rw [hbudget, contentLen_later] at hfits
    dsimp only at hfits
    omega
  · have hcurrent : currentTurn (longHistory ++ laterTurn) = [.human "q10"] := by
      simp [currentTurn, longHistory, tenQuestions, laterTurn, segmentMessages, Message.calls, lastHumanBlock, Message.isHuman,
        flattenBlocks]
    rw [longCompaction_projected, hcurrent] at hturn
    exact absurd hturn.length_le (by decide)

end Sreda.React
