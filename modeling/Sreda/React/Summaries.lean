import Sreda.Lib.Transition
import Sreda.React.Projection

/-!
# The store of summaries

The row of `react_summaries` of one thread (`services/react_summary_store.py`) beside its history: turns extend the history,
a reset empties it (`delete_thread`, or a checkpoint that is not decrypted), and `run_post_turn_summary` writes a summary of
a history that it has read some time before. The row is not touched by a reset, and it is written only over one that covers
fewer messages.

The deletion of rows that are 30 days old is left out, and so is what the summariser does to save calls: it writes less
often.

## What is proved

* after a summary of the present history is written, the row applies to it and to its extensions if and only if the row
  before `Fits` it; without resets it always does; and the row never covers fewer messages than before (`summary_runs`).
  After a reset the row of a long history keeps the summaries of a shorter one out (`stuck_row`).
-/

namespace Sreda.React

open Sreda.Lib Sreda.Lib.PyText
open Sreda.Planner (Value)

/-! ### The row -/

/-- `ReactSummary`, but for the times. -/
structure ReactSummary where
  summaryVersion : ℤ
  summaryText : String
  coveredMessageCount : ℕ
  coveredHash : String
  deriving DecidableEq

/-- `load_summary`. -/
def loadSummary : Option ReactSummary → Value
  | none => .null
  | some row =>
    .dict [("version", .int row.summaryVersion), ("text", .str row.summaryText),
      ("covered_message_count", .int row.coveredMessageCount), ("covered_hash", .str row.coveredHash)]

/-- `upsert_summary`: `ON CONFLICT … DO UPDATE … WHERE covered_message_count < excluded.covered_message_count`. -/
def upsertSummary (row : Option ReactSummary) (new : ReactSummary) : Option ReactSummary :=
  match row with
  | none => some new
  | some old => if old.coveredMessageCount < new.coveredMessageCount then some new else some old

section Lib

variable (lib : SummaryLib)

/-- The row of the record that `make_summary_record` makes of what `summary_coverage` covers. -/
def summaryRow (text : String) (history : List Message) : ReactSummary where
  summaryVersion := React.summaryVersion
  summaryText := String.ofList ((strip text.toList).take summaryMaxChars)
  coveredMessageCount := (summaryCoverage history).1
  coveredHash := historyPrefixHash lib history (summaryCoverage history).1

/-- The model is given the summary. -/
def Applicable (row : Option ReactSummary) (messages : List Message) : Prop :=
  (applicableSummary lib (loadSummary row) messages).2 ≠ ""

end Lib

/-! ### The thread -/

/-- `_SUMMARY_MIN_COVERED_MSGS`. -/
def summaryMinCoveredMsgs : ℕ := 6

/-- The thread: its history, the histories that it has had, and the row. -/
structure SummaryState where
  history : List Message
  snapshots : List (List Message)
  row : Option ReactSummary

/-- A step. -/
inductive SummaryAct where
  | turn (messages : List Message)
  | reset
  /-- The summariser has read `snapshot` and writes `text`. -/
  | upsert (snapshot : List Message) (text : String)

/-- The gates of `run_post_turn_summary`: there is enough to cover, and the summary is not empty. -/
def WorthSummary (history : List Message) (text : String) : Prop :=
  summaryMinCoveredMsgs ≤ (summaryCoverage history).1 ∧ ¬ Blank text.toList

namespace SummaryState

variable (lib : SummaryLib)

/-- The state after a step. -/
def next (s : SummaryState) : SummaryAct → SummaryState
  | .turn messages => { s with history := s.history ++ messages, snapshots := (s.history ++ messages) :: s.snapshots }
  | .reset => { s with history := [], snapshots := [] :: s.snapshots }
  | .upsert snapshot text => { s with row := upsertSummary s.row (summaryRow lib text snapshot) }

/-- The thread, from its first turn. -/
def thread : Lts SummaryState SummaryAct where
  init s := s = ⟨[], [], none⟩
  step s act s' := s' = s.next lib act ∧
    ∀ snapshot text, act = .upsert snapshot text → snapshot ∈ s.snapshots ∧ WorthSummary snapshot text

/-- **When a row fits** a summary of the present history: there is none, or it covers fewer messages, or the history still
begins with the messages that it covers. -/
def Fits (s : SummaryState) : Prop :=
  ∀ old, s.row = some old → old.coveredMessageCount < (summaryCoverage s.history).1 ∨
    (old.coveredMessageCount ≤ s.history.length ∧
      historyPrefixHash lib s.history old.coveredMessageCount = old.coveredHash)

end SummaryState

/-! ### Rows that are sound -/

section Rows

variable {lib : SummaryLib}

/-- A row that a writer can have left. -/
structure ReactSummary.Sound (row : ReactSummary) : Prop where
  version : row.summaryVersion = React.summaryVersion
  text : strip row.summaryText.toList ≠ []
  count : 0 < row.coveredMessageCount
  hash : row.coveredHash ≠ ""

theorem summaryRow_sound (hdigest : ∀ t, lib.sha256 t ≠ "") {history : List Message} {text : String}
    (hworth : WorthSummary history text) : (summaryRow lib text history).Sound where
  version := rfl
  text := strip_summaryText hworth.2
  count := Nat.lt_of_lt_of_le (by decide) hworth.1
  hash := hdigest _

/-- A sound row applies to the histories that begin with the messages it covers. -/
theorem applicable_iff {row : ReactSummary} (hsound : row.Sound) (messages : List Message) :
    Applicable lib (some row) messages ↔ row.coveredMessageCount ≤ messages.length ∧
      historyPrefixHash lib messages row.coveredMessageCount = row.coveredHash := by
  have hcount := hsound.count
  rw [Applicable, loadSummary, hsound.version, applicableSummary_record lib _ rfl rfl rfl rfl messages]
  constructor
  · intro h
    split at h
    · exact absurd rfl h
    · next hok =>
      push Not at hok
      exact ⟨by omega, hok.2.2.2.2⟩
  · rintro ⟨hle, hhash⟩
    rw [if_neg]
    · exact summarySection_ne_empty _
    · push Not
      exact ⟨hsound.text, by omega, by omega, hsound.hash, hhash⟩

theorem historyPrefixHash_append (history extension : List Message) {n : ℕ} (hn : n ≤ history.length) :
    historyPrefixHash lib (history ++ extension) n = historyPrefixHash lib history n := by
  rw [historyPrefixHash, List.take_append_of_le_length hn, historyPrefixHash]

/-- What applies to a history applies to its extensions. -/
theorem Applicable.append {row : ReactSummary} (hsound : row.Sound) {history : List Message}
    (h : Applicable lib (some row) history) (extension : List Message) :
    Applicable lib (some row) (history ++ extension) := by
  rw [applicable_iff hsound] at h ⊢
  refine ⟨?_, ?_⟩
  · rw [List.length_append]
    exact h.1.trans (Nat.le_add_right _ _)
  · rw [historyPrefixHash_append history extension h.1]
    exact h.2

theorem summaryCoverage_le (history : List Message) : (summaryCoverage history).1 ≤ history.length := by
  obtain ⟨k, -, hcovered, hlen⟩ := summaryCoverage_spec history
  rw [hlen, hcovered, ← take_flattenBlocks, List.length_take]
  exact Nat.min_le_right _ _

/-- A row is written over one that covers fewer messages, and kept otherwise. -/
theorem upsertSummary_cases (row : Option ReactSummary) (new : ReactSummary) :
    (upsertSummary row new = some new ∧
      ∀ old, row = some old → old.coveredMessageCount < new.coveredMessageCount) ∨
    ∃ old, row = some old ∧ new.coveredMessageCount ≤ old.coveredMessageCount ∧ upsertSummary row new = some old := by
  cases row with
  | none => exact .inl ⟨rfl, fun _ h => by cases h⟩
  | some old =>
    unfold upsertSummary
    dsimp only
    split
    · next h => exact .inl ⟨rfl, fun old' hold => Option.some.inj hold ▸ h⟩
    · next h => exact .inr ⟨old, rfl, Nat.le_of_not_lt h, rfl⟩

end Rows

namespace SummaryState

variable {lib : SummaryLib}

/-! ### One write -/

/-- **A summary of the present history** is applicable if and only if the row fits. -/
theorem upsert_applicable_iff (hdigest : ∀ t, lib.sha256 t ≠ "") {s : SummaryState}
    (hsound : ∀ old, s.row = some old → old.Sound) {text : String} (hworth : WorthSummary s.history text) :
    (Applicable lib (upsertSummary s.row (summaryRow lib text s.history)) s.history ∧
      ∀ extension, validToolSequence (s.history ++ extension) = true →
        Applicable lib (upsertSummary s.row (summaryRow lib text s.history)) (s.history ++ extension)) ↔ s.Fits lib := by
  have hnew := summaryRow_sound hdigest hworth
  have happlies : Applicable lib (some (summaryRow lib text s.history)) s.history :=
    (applicable_iff hnew _).mpr ⟨summaryCoverage_le s.history, rfl⟩
  obtain ⟨heq, hlt⟩ | ⟨old, hold, hle, heq⟩ := upsertSummary_cases s.row (summaryRow lib text s.history)
  · rw [heq]
    constructor
    · intro _ old hold
      exact .inl (hlt old hold)
    · intro _
      exact ⟨happlies, fun extension _ => happlies.append hnew extension⟩
  · have hrow := hsound old hold
    rw [heq]
    constructor
    · rintro ⟨happ, -⟩ old' hold'
      obtain rfl := Option.some.inj (hold.symm.trans hold')
      exact .inr ((applicable_iff hrow _).mp happ)
    · intro hfits
      have happ : Applicable lib (some old) s.history := by
        rw [applicable_iff hrow]
        exact (hfits old hold).resolve_left (Nat.not_lt.mpr hle)
      exact ⟨happ, fun extension _ => happ.append hrow extension⟩

/-! ### Runs -/

/-- The row is sound in every state that is reached. -/
theorem sound_of_reachable (hdigest : ∀ t, lib.sha256 t ≠ "") {s : SummaryState} (h : (thread lib).Reachable s) :
    ∀ row, s.row = some row → row.Sound := by
  refine h.induct (P := fun s => ∀ row, s.row = some row → row.Sound) ?_ ?_
  · rintro s rfl row hrow
    cases hrow
  · rintro s act s' - ih ⟨rfl, hworth⟩
    cases act with
    | turn messages => exact ih
    | reset => exact ih
    | upsert snapshot text =>
      intro row hrow
      obtain ⟨heq, -⟩ | ⟨old, hold, -, heq⟩ := upsertSummary_cases s.row (summaryRow lib text snapshot)
      · obtain rfl := Option.some.inj (heq.symm.trans hrow)
        exact summaryRow_sound hdigest (hworth snapshot text rfl).2
      · obtain rfl := Option.some.inj (heq.symm.trans hrow)
        exact ih old hold

/-- The row covers `n` messages at least. -/
def CoversAtLeast (n : ℕ) (s : SummaryState) : Prop := ∃ row, s.row = some row ∧ n ≤ row.coveredMessageCount

theorem CoversAtLeast.next {n : ℕ} {s : SummaryState} (h : s.CoversAtLeast n) (act : SummaryAct) :
    (s.next lib act).CoversAtLeast n := by
  cases act with
  | turn messages => exact h
  | reset => exact h
  | upsert snapshot text =>
    obtain ⟨old, hold, hn⟩ := h
    obtain ⟨heq, hlt⟩ | ⟨old', hold', -, heq⟩ := upsertSummary_cases s.row (summaryRow lib text snapshot)
    · exact ⟨_, heq, hn.trans (hlt old hold).le⟩
    · obtain rfl := Option.some.inj (hold.symm.trans hold')
      exact ⟨old, heq, hn⟩

/-- What a thread without resets keeps: what was read is where the history begins, and so is what the row covers. -/
structure Unbroken (lib : SummaryLib) (s : SummaryState) : Prop where
  snapshots : ∀ snapshot ∈ s.snapshots, snapshot <+: s.history
  row : ∀ row, s.row = some row → row.coveredMessageCount ≤ s.history.length ∧
    historyPrefixHash lib s.history row.coveredMessageCount = row.coveredHash

theorem Unbroken.turn {s : SummaryState} (h : s.Unbroken lib) (messages : List Message) :
    (s.next lib (.turn messages)).Unbroken lib where
  snapshots := by
    intro snapshot hmem
    obtain rfl | hmem := List.mem_cons.mp hmem
    · exact List.prefix_refl _
    · exact (h.snapshots snapshot hmem).trans (List.prefix_append _ _)
  row := by
    intro row hrow
    obtain ⟨hle, hhash⟩ := h.row row hrow
    refine ⟨?_, ?_⟩
    · have : (s.next lib (.turn messages)).history = s.history ++ messages := rfl
      rw [this, List.length_append]
      exact hle.trans (Nat.le_add_right _ _)
    · exact (historyPrefixHash_append s.history messages hle).trans hhash

theorem Unbroken.upsert {s : SummaryState} (h : s.Unbroken lib) {snapshot : List Message}
    (hmem : snapshot ∈ s.snapshots) (text : String) : (s.next lib (.upsert snapshot text)).Unbroken lib where
  snapshots := h.snapshots
  row := by
    intro row hrow
    obtain ⟨heq, -⟩ | ⟨old, hold, -, heq⟩ := upsertSummary_cases s.row (summaryRow lib text snapshot)
    · obtain rfl := Option.some.inj (heq.symm.trans hrow)
      obtain ⟨rest, hrest⟩ := h.snapshots snapshot hmem
      have hle := summaryCoverage_le snapshot
      have hhistory : (s.next lib (.upsert snapshot text)).history = snapshot ++ rest := hrest.symm
      rw [hhistory]
      refine ⟨?_, historyPrefixHash_append snapshot rest hle⟩
      rw [List.length_append]
      exact hle.trans (Nat.le_add_right _ _)
    · obtain rfl := Option.some.inj (heq.symm.trans hrow)
      exact h.row old hold

/-- The thread that is not reset. -/
def unbroken (lib : SummaryLib) : Lts SummaryState SummaryAct := (thread lib).guard fun _ act => act ≠ .reset

theorem unbroken_of_reachable {s : SummaryState} (h : (unbroken lib).Reachable s) : s.Unbroken lib := by
  refine h.induct (P := Unbroken lib) ?_ ?_
  · rintro s rfl
    exact ⟨(fun _ hmem => by cases hmem), (fun _ hrow => by cases hrow)⟩
  · rintro s act s' - ih ⟨⟨rfl, hstep⟩, hreset⟩
    cases act with
    | turn messages => exact ih.turn messages
    | reset => exact absurd rfl hreset
    | upsert snapshot text => exact ih.upsert (hstep snapshot text rfl).1 text

end SummaryState

/-- **The store of summaries**: right after a summary of the present history is written, the model is given it with this
history and with its valid extensions if and only if the row before fits; the row never covers fewer messages than it did;
and without resets it always fits. -/
theorem summary_runs (lib : SummaryLib) (hdigest : ∀ t, lib.sha256 t ≠ "") :
    (∀ s text, (SummaryState.thread lib).Reachable s → WorthSummary s.history text →
      ((Applicable lib (upsertSummary s.row (summaryRow lib text s.history)) s.history ∧
        ∀ extension, validToolSequence (s.history ++ extension) = true →
          Applicable lib (upsertSummary s.row (summaryRow lib text s.history)) (s.history ++ extension)) ↔ s.Fits lib)) ∧
    (∀ s acts s' row, (SummaryState.thread lib).Reachable s → (SummaryState.thread lib).Run s acts s' →
      s.row = some row → s'.CoversAtLeast row.coveredMessageCount) ∧
    (∀ s, (SummaryState.unbroken lib).Reachable s → s.Fits lib) := by
  refine ⟨?_, ?_, ?_⟩
  · intro s text hreach hworth
    exact SummaryState.upsert_applicable_iff hdigest (SummaryState.sound_of_reachable hdigest hreach) hworth
  · intro s acts s' row _ hrun hrow
    refine hrun.keeps (P := SummaryState.CoversAtLeast row.coveredMessageCount) ?_ ⟨row, hrow, le_refl _⟩
    rintro t act t' ht ⟨rfl, -⟩
    exact ht.next act
  · intro s hreach old hold
    exact .inr ((SummaryState.unbroken_of_reachable hreach).row old hold)

/-- Some turns of a talk without tools. -/
def chat (n : ℕ) (question answer : String) : List Message :=
  (List.replicate n [.human question, .assistant answer []]).flatten

theorem segmentMessages_of_no_calls {messages : List Message} (h : ∀ m ∈ messages, m.calls = []) :
    segmentMessages messages = messages.map fun m => ⟨[m], false⟩ := by
  induction messages with
  | nil => rw [segmentMessages, List.map_nil]
  | cons m rest ih =>
    rw [segmentMessages, if_pos (h m (by simp)), ih fun m' hm' => h m' (by simp [hm']), List.map_cons]

/-- A summary covers all but the last five turns. -/
theorem chat_coverage (n : ℕ) (question answer : String) :
    (summaryCoverage (chat (n + 6) question answer)).1 = 2 * n + 2 := by
  have hlength : ∀ k, (chat k question answer).length = 2 * k := by
    intro k
    simp [chat, Nat.mul_comm]
  have hcalls : ∀ k, ∀ m ∈ chat k question answer, m.calls = [] := by
    intro k m hm
    simp only [chat, List.mem_flatten, List.mem_replicate] at hm
    obtain ⟨turn, ⟨-, rfl⟩, hm⟩ := hm
    obtain rfl | rfl : m = .human question ∨ m = .assistant answer [] := by simpa using hm
    · rfl
    · rfl
  have hsucc : chat (n + 6) question answer =
      chat (n + 5) question answer ++ [.human question] ++ [.assistant answer []] := by
    rw [chat, List.replicate_succ', List.flatten_append, chat]
    simp
  have hseg := segmentMessages_of_no_calls (hcalls (n + 6))
  have hlast : lastHumanBlock (segmentMessages (chat (n + 6) question answer)) = 2 * (n + 5) := by
    rw [hseg, hsucc, List.map_append, List.map_append, List.map_singleton, List.map_singleton, lastHumanBlock_concat,
      if_neg (by simp [Message.isHuman]), lastHumanBlock_concat, if_pos (by simp [Message.isHuman]), List.length_map,
      hlength]
  have hblocks : (segmentMessages (chat (n + 6) question answer)).length = 2 * (n + 6) := by
    rw [hseg, List.length_map, hlength]
  unfold summaryCoverage
  dsimp only
  rw [hlast, List.length_take, hblocks, if_neg (by simp [keepTailBlocks]; omega), hseg, List.take_take, ← List.map_take]
  have hflat : ∀ messages : List Message,
      (flattenBlocks (messages.map fun m => (⟨[m], false⟩ : Block))).length = messages.length := by
    intro messages
    rw [flattenBlocks, List.flatMap_map, List.flatMap_singleton']
  rw [hflat, List.length_take, hlength, keepTailBlocks]
  omega

/-- After a long talk the thread is reset, and its next summary is not given to the model. -/
theorem stuck_row :
    let row := summaryRow exampleLib "list" (chat 14 "a" "b")
    let s : SummaryState := ⟨chat 8 "c" "d", [chat 8 "c" "d", [], chat 14 "a" "b"], some row⟩
    (SummaryState.thread exampleLib).Reachable s ∧ WorthSummary s.history "new" ∧
      ¬ Applicable exampleLib (upsertSummary s.row (summaryRow exampleLib "new" s.history)) s.history := by
  intro row s
  have hworth : ∀ n question answer text, ¬ Blank text.toList → WorthSummary (chat (n + 8) question answer) text := by
    intro n question answer text htext
    refine ⟨?_, htext⟩
    rw [chat_coverage (n + 2), summaryMinCoveredMsgs]
    omega
  have hrow : row.coveredMessageCount = 18 := chat_coverage 8 "a" "b"
  refine ⟨?_, hworth 0 "c" "d" "new" (by decide), ?_⟩
  · have hinit := Lts.Hist.init (L := SummaryState.thread exampleLib) (s := ⟨[], [], none⟩) rfl
    have hturn := hinit.snoc (a := .turn (chat 14 "a" "b")) ⟨rfl, fun _ _ h => by cases h⟩
    have hupsert := hturn.snoc (a := .upsert (chat 14 "a" "b") "list") ⟨rfl, fun snapshot text h => by
      cases h
      exact ⟨List.mem_singleton.mpr rfl, hworth 6 "a" "b" "list" (by decide)⟩⟩
    have hreset := hupsert.snoc (a := .reset) ⟨rfl, fun _ _ h => by cases h⟩
    exact ⟨_, hreset.snoc (a := .turn (chat 8 "c" "d")) ⟨rfl, fun _ _ h => by cases h⟩⟩
  · have hnew : (summaryRow exampleLib "new" (chat 8 "c" "d")).coveredMessageCount = 6 := chat_coverage 2 "c" "d"
    have hkept : upsertSummary s.row (summaryRow exampleLib "new" s.history) = some row := by
      change (if row.coveredMessageCount < (summaryRow exampleLib "new" (chat 8 "c" "d")).coveredMessageCount then _ else _) = _
      rw [hrow, hnew]
      rfl
    have hsound : row.Sound := summaryRow_sound exampleSha256_ne_empty (hworth 6 "a" "b" "list" (by decide))
    rw [hkept, applicable_iff hsound, hrow]
    rintro ⟨hle, -⟩
    exact absurd hle (by decide)

/-- The first summary of a talk is given to the model. -/
theorem summary_runs_first :
    Applicable exampleLib (upsertSummary none (summaryRow exampleLib "list" (chat 8 "a" "b"))) (chat 8 "a" "b") := by
  have hworth : WorthSummary (chat 8 "a" "b") "list" := by
    refine ⟨?_, by decide⟩
    rw [chat_coverage 2]
    decide
  have hinit := Lts.Hist.init (L := SummaryState.thread exampleLib) (s := ⟨[], [], none⟩) rfl
  have hturn := hinit.snoc (a := .turn (chat 8 "a" "b")) ⟨rfl, fun _ _ h => by cases h⟩
  have hfits : (SummaryState.next exampleLib ⟨[], [], none⟩ (.turn (chat 8 "a" "b"))).Fits exampleLib :=
    fun _ h => by cases h
  exact (((summary_runs exampleLib exampleSha256_ne_empty).1 _ "list" hturn.reachable hworth).mpr hfits).1

end Sreda.React
