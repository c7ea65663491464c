import Mathlib.Algebra.Order.Ring.Int
import Mathlib.Data.Finmap
import Sreda.Lib.PyText
import Sreda.Lib.Transition

/-!
# The onboarding of a user

The record under the key `onboarding` of a user's parameters and the seven calls that change it
(`services/housewife_onboarding.py`), for any list of topics. The mirror of the answer to `addressing` in the profile's
display name is another table and is left out; a failure there does not stop a call.

The chat handler, the tools and the kickoff worker call in any order. `Settles` says, of the record before a call, when the
call leaves a sound record and takes nothing back.

## What is proved

* a call of a sound record is sound and keeps what is settled if and only if it `Settles` (`keeps_exec_iff`), and so do all
  calls of a run of such calls (`onboarding_runs`);
* `deferred_after_complete` is a deferral of an onboarding that is complete, which has a current topic again.
-/

namespace Sreda.Housewife

open Sreda.Lib

/-! ### The record -/

/-- The `state` of a topic. -/
inductive TopicState where
  | pending
  | answered
  | skippedOnce
  | skipped
  deriving DecidableEq, Repr

/-- The `status` of an onboarding. -/
inductive OnboardingStatus where
  | notStarted
  | inProgress
  | complete
  | abandoned
  deriving DecidableEq, Repr

/-- The row of a topic. -/
structure TopicRow where
  state : TopicState
  answer : Option String
  deriving DecidableEq

/-- The rows of the topics, by their keys. -/
abbrev TopicRows := Finmap fun _ : String => TopicRow

/-- The record. The times are instants. -/
structure OnboardingState where
  status : OnboardingStatus
  startedAt : Option ℤ
  completedAt : Option ℤ
  kickoffScheduledAt : Option ℤ
  topics : TopicRows
  currentTopic : Option String
  currentTopicDepth : ℕ
  deriving DecidableEq

/-- `TOPIC_ORDER` and the keys of `TOPIC_DESCRIPTIONS`. -/
structure TopicConfig where
  topicOrder : List String
  topicDescriptions : List String

/-- The `ValueError` of a topic. -/
inductive TopicError where
  | unknownTopic (topic : String)
  | notInActiveFlow (topic : String)
  deriving DecidableEq, Repr

/-- `_MAX_TOPIC_DEPTH`. -/
def maxTopicDepth : ℕ := 2

namespace TopicConfig

variable (cfg : TopicConfig)

/-- A row for each topic of the order. -/
def rowsOf (row : String → TopicRow) : TopicRows :=
  (cfg.topicOrder.map fun key => ⟨key, row key⟩ : List (Σ _ : String, TopicRow)).toFinmap

/-- `_default_state`. -/
def defaultState : OnboardingState where
  status := .notStarted
  startedAt := none
  completedAt := none
  kickoffScheduledAt := none
  topics := cfg.rowsOf fun _ => ⟨.pending, none⟩
  currentTopic := none
  currentTopicDepth := 0

/-- The first topic of the order that is in a state. -/
def firstIn (topics : TopicRows) (state : TopicState) : Option String :=
  cfg.topicOrder.find? fun key => (topics.lookup key).map TopicRow.state = some state

/-- `_next_topic`. -/
def nextTopic (topics : TopicRows) : Option String :=
  match cfg.firstIn topics .pending with
  | some key => some key
  | none => cfg.firstIn topics .skippedOnce

/-- `_merge_with_defaults`, for a record that has all its fields. -/
def mergeWithDefaults (state : OnboardingState) : OnboardingState :=
  { state with topics := cfg.rowsOf fun key => (state.topics.lookup key).getD ⟨.pending, none⟩ }

/-- `get_raw_state`. -/
def getRawState : Option OnboardingState → OnboardingState
  | none => cfg.defaultState
  | some state => cfg.mergeWithDefaults state

/-! ### The calls

A call maps the raw state to the record that it persists, or to none. -/

/-- `_advance_current_topic`. -/
def advanceCurrentTopic (now : ℤ) (state : OnboardingState) : OnboardingState :=
  match cfg.nextTopic state.topics with
  | some key => { state with currentTopic := some key, currentTopicDepth := 0 }
  | none => { state with currentTopic := none, currentTopicDepth := 0, status := .complete, completedAt := some now }

/-- `initialize`. -/
def initializeState (existing : OnboardingState) : Option OnboardingState :=
  if existing.status ≠ .notStarted ∨ existing.startedAt ≠ none then none else some cfg.defaultState

/-- `schedule_kickoff`. -/
def scheduleKickoff (delayMinutes : ℤ) (now : ℤ) (state : OnboardingState) : Option OnboardingState :=
  if state.status ≠ .notStarted then none
  else if state.kickoffScheduledAt ≠ none then none
  else some { state with kickoffScheduledAt := some (now + delayMinutes * 60_000_000) }

/-- `start`. -/
def start (now : ℤ) (state : OnboardingState) : Option OnboardingState :=
  match state.status with
  | .inProgress | .complete | .abandoned => none
  | .notStarted =>
    some { state with
      status := .inProgress, startedAt := state.startedAt.or (some now), currentTopic := cfg.nextTopic state.topics,
      currentTopicDepth := 0 }

/-- The guards of `mark_answered` and `mark_deferred`. -/
def checkTopic (topic : String) : Except TopicError Unit :=
  if topic ∉ cfg.topicDescriptions then .error (.unknownTopic topic)
  else if topic ∉ cfg.topicOrder then .error (.notInActiveFlow topic)
  else .ok ()

/-- `(summary or "").strip()[:500] or None`. -/
def storedSummary (summary : String) : Option String :=
  match (PyText.strip summary.toList).take 500 with
  | [] => none
  | text => some (String.ofList text)

/-- `mark_answered`. -/
def markAnswered (topic summary : String) (now : ℤ) (state : OnboardingState) : Except TopicError OnboardingState := do
  cfg.checkTopic topic
  let topicRow : TopicRow := ⟨.answered, storedSummary summary⟩
  return cfg.advanceCurrentTopic now { state with topics := state.topics.insert topic topicRow }

/-- `mark_deferred`. -/
def markDeferred (topic : String) (now : ℤ) (state : OnboardingState) : Except TopicError (Option OnboardingState) := do
  cfg.checkTopic topic
  let topicRow := state.topics.lookup topic
  let current := topicRow.map TopicRow.state
  if current = some .answered ∨ current = some .skipped then return none
  let topicRow : TopicRow := ⟨if current = some .skippedOnce then .skipped else .skippedOnce, topicRow.bind TopicRow.answer⟩
  return some (cfg.advanceCurrentTopic now { state with topics := state.topics.insert topic topicRow })

/-- `record_follow_up`. -/
def recordFollowUp (state : OnboardingState) : Option OnboardingState :=
  if state.status ≠ .inProgress then none
  else some { state with currentTopicDepth := min (state.currentTopicDepth + 1) maxTopicDepth }

/-- `mark_complete`. -/
def markComplete (now : ℤ) (state : OnboardingState) : OnboardingState :=
  { state with
    status := .complete, completedAt := state.completedAt.or (some now), currentTopic := none, currentTopicDepth := 0 }

/-- A call with its arguments. -/
inductive Call where
  | initializeState
  | scheduleKickoff (delayMinutes : ℤ)
  | start
  | markAnswered (topic summary : String)
  | markDeferred (topic : String)
  | recordFollowUp
  | markComplete
  deriving DecidableEq, Repr

/-- What a call at an instant persists, given the raw state. -/
def write (now : ℤ) (state : OnboardingState) : Call → Except TopicError (Option OnboardingState)
  | .initializeState => .ok (cfg.initializeState state)
  | .scheduleKickoff delayMinutes => .ok (scheduleKickoff delayMinutes now state)
  | .start => .ok (cfg.start now state)
  | .markAnswered topic summary => (cfg.markAnswered topic summary now state).map some
  | .markDeferred topic => cfg.markDeferred topic now state
  | .recordFollowUp => .ok (recordFollowUp state)
  | .markComplete => .ok (some (markComplete now state))

/-- The stored record after a call: `_persist`, or what was there. -/
def exec (stored : Option OnboardingState) (call : Call) (now : ℤ) : Option OnboardingState :=
  match cfg.write now (cfg.getRawState stored) call with
  | .ok (some state) => some state
  | .ok none | .error _ => stored

/-- The calls of one user, from the first one. -/
def calls : Lts (Option OnboardingState) (Call × ℤ) where
  init stored := stored = none
  step stored call stored' := stored' = cfg.exec stored call.1 call.2

/-! ### What is asked of the record -/

/-- The topic may still be asked for. -/
def OpenTopic (topics : TopicRows) (topic : String) : Prop :=
  ∃ row, topics.lookup topic = some row ∧ (row.state = .pending ∨ row.state = .skippedOnce)

/-- The topic is answered or deferred to its limit. -/
def ClosedTopic (topics : TopicRows) (topic : String) : Prop :=
  ∃ row, topics.lookup topic = some row ∧ (row.state = .answered ∨ row.state = .skipped)

/-- The topic has an answer. -/
def Answered (topics : TopicRows) (topic : String) : Prop := ∃ row, topics.lookup topic = some row ∧ row.state = .answered

/-- **A sound record.** -/
structure Sound (state : OnboardingState) : Prop where
  idle : state.status = .complete → state.currentTopic = none
  stamped : state.status = .complete → state.completedAt ≠ none
  current : ∀ topic, state.currentTopic = some topic → topic ∈ cfg.topicOrder ∧ ¬ Answered state.topics topic
  depth : state.currentTopicDepth ≤ maxTopicDepth
  finished : (∀ topic ∈ cfg.topicOrder, ClosedTopic state.topics topic) → state.status = .complete

/-- **What is settled stays**, from one record to a later one. -/
structure Kept (state state' : OnboardingState) : Prop where
  complete : state.status = .complete → state'.status = .complete ∧ state'.completedAt = state.completedAt
  answered : ∀ topic, Answered state.topics topic → Answered state'.topics topic

/-- **When a call settles**, read off the record before it.

* an initialisation that resets: no topic has an answer;
* an answer to a topic of the flow, or a deferral of one that is open: the onboarding is not complete. -/
def Settles (state : OnboardingState) : Call → Prop
  | .initializeState => state.status = .notStarted → state.startedAt = none → ∀ topic, ¬ Answered state.topics topic
  | .markAnswered topic _ => cfg.checkTopic topic = .ok () → state.status ≠ .complete
  | .markDeferred topic => cfg.checkTopic topic = .ok () → OpenTopic state.topics topic → state.status ≠ .complete
  | .scheduleKickoff _ | .start | .recordFollowUp | .markComplete => True

/-! ### The rows of the topics -/

variable {cfg}

/-- There is a row for each topic of the order, and for no other. -/
def Full (cfg : TopicConfig) (topics : TopicRows) : Prop := ∀ key, key ∈ topics ↔ key ∈ cfg.topicOrder

theorem lookup_rowsOf (row : String → TopicRow) (key : String) :
    (cfg.rowsOf row).lookup key = if key ∈ cfg.topicOrder then some (row key) else none := by
  rw [rowsOf, Finmap.dlookup_list_toFinmap]
  induction cfg.topicOrder with
  | nil => rfl
  | cons topic rest ih =>
    rw [List.map_cons]
    by_cases h : topic = key
    · subst h
      simp
    · rw [List.dlookup_cons_ne _ _ (Ne.symm h), ih]
      simp [Ne.symm h]

theorem full_rowsOf (row : String → TopicRow) : Full cfg (cfg.rowsOf row) := by
  intro key
  rw [← Finmap.lookup_isSome, lookup_rowsOf]
  split <;> simp [*]

variable {topics : TopicRows} {topic key : String}

theorem Full.insert (h : Full cfg topics) (htopic : topic ∈ cfg.topicOrder) (row : TopicRow) :
    Full cfg (topics.insert topic row) := by
  intro key
  rw [Finmap.mem_insert, h key]
  exact ⟨fun hkey => hkey.elim (· ▸ htopic) id, .inr⟩

theorem mergeWithDefaults_of_full {state : OnboardingState} (h : Full cfg state.topics) : cfg.mergeWithDefaults state = state := by
  have htopics : (cfg.rowsOf fun key => (state.topics.lookup key).getD ⟨.pending, none⟩) = state.topics := by
    refine Finmap.ext_lookup fun key => ?_
    rw [lookup_rowsOf]
    split
    next hkey =>
      obtain ⟨row, hrow⟩ := Finmap.mem_iff.mp ((h key).mpr hkey)
      rw [hrow, Option.getD_some]
    next hkey => exact (Finmap.lookup_eq_none.mpr fun hmem => hkey ((h key).mp hmem)).symm
  rw [mergeWithDefaults, htopics]

theorem full_getRawState (stored : Option OnboardingState) : Full cfg (cfg.getRawState stored).topics := by
  cases stored with
  | none => exact full_rowsOf _
  | some _ => exact full_rowsOf _

theorem checkTopic_ok : cfg.checkTopic topic = .ok () ↔ topic ∈ cfg.topicDescriptions ∧ topic ∈ cfg.topicOrder := by
  unfold checkTopic
  split
  · simp [*]
  · split <;> simp_all

theorem closed_iff (h : Full cfg topics) (htopic : topic ∈ cfg.topicOrder) :
    ClosedTopic topics topic ↔ ¬ OpenTopic topics topic := by
  obtain ⟨row, hrow⟩ := Finmap.mem_iff.mp ((h topic).mpr htopic)
  simp only [ClosedTopic, OpenTopic, hrow, Option.some.injEq, exists_eq_left']
  cases row.state <;> simp

theorem answered_insert {row : TopicRow} :
    Answered (topics.insert topic row) key ↔ if key = topic then row.state = .answered else Answered topics key := by
  split
  next h =>
    subst h
    simp [Answered]
  next h => simp [Answered, Finmap.lookup_insert_of_ne _ h]

/-! ### The next topic -/

theorem firstIn_some {state : TopicState} (h : cfg.firstIn topics state = some key) :
    key ∈ cfg.topicOrder ∧ ∃ row, topics.lookup key = some row ∧ row.state = state := by
  refine ⟨List.mem_of_find?_eq_some h, ?_⟩
  simpa [firstIn] using List.find?_some h

theorem nextTopic_some (h : cfg.nextTopic topics = some key) : key ∈ cfg.topicOrder ∧ OpenTopic topics key := by
  unfold nextTopic at h
  cases hpending : cfg.firstIn topics .pending with
  | some first =>
    rw [hpending] at h
    obtain rfl := Option.some.inj h
    obtain ⟨hmem, row, hrow, hstate⟩ := firstIn_some hpending
    exact ⟨hmem, row, hrow, .inl hstate⟩
  | none =>
    rw [hpending] at h
    obtain ⟨hmem, row, hrow, hstate⟩ := firstIn_some h
    exact ⟨hmem, row, hrow, .inr hstate⟩

theorem OpenTopic.not_answered (h : OpenTopic topics topic) : ¬ Answered topics topic := by
  rintro ⟨row, hrow, hanswered⟩
  obtain ⟨row', hrow', hopen⟩ := h
  obtain rfl := Option.some.inj (hrow.symm.trans hrow')
  rw [hanswered] at hopen
  exact hopen.elim nofun nofun

/-! ### What a call can do -/

/-- The raw state after a call. -/
def next (cfg : TopicConfig) (state : OnboardingState) (call : Call) (now : ℤ) : OnboardingState :=
  match cfg.write now state call with
  | .ok (some state') => state'
  | .ok none | .error _ => state

/-- What a call can do to the record. -/
inductive Effect (cfg : TopicConfig) (now : ℤ) (state : OnboardingState) : Call → OnboardingState → Prop where
  | unchanged {call : Call} : cfg.Settles state call → Effect cfg now state call state
  | reset : state.status = .notStarted → state.startedAt = none → Effect cfg now state .initializeState cfg.defaultState
  | kickoff (delayMinutes : ℤ) (scheduled : Option ℤ) :
      Effect cfg now state (.scheduleKickoff delayMinutes) { state with kickoffScheduledAt := scheduled }
  | started : state.status = .notStarted →
      Effect cfg now state .start { state with
        status := .inProgress, startedAt := state.startedAt.or (some now), currentTopic := cfg.nextTopic state.topics,
        currentTopicDepth := 0 }
  | advanced {call : Call} (topic : String) (row : TopicRow) : topic ∈ cfg.topicOrder →
      (Answered state.topics topic → row.state = .answered) → (cfg.Settles state call ↔ state.status ≠ .complete) →
      Effect cfg now state call (cfg.advanceCurrentTopic now { state with topics := state.topics.insert topic row })
  | followUp : state.status = .inProgress →
      Effect cfg now state .recordFollowUp { state with currentTopicDepth := min (state.currentTopicDepth + 1) maxTopicDepth }
  | completed : Effect cfg now state .markComplete (markComplete now state)

section Calls

variable {state : OnboardingState} {now : ℤ}

theorem effect_markAnswered (topic summary : String) :
    Effect cfg now state (.markAnswered topic summary) (cfg.next state (.markAnswered topic summary) now) := by
  simp only [next, write, markAnswered]
  cases hcheck : cfg.checkTopic topic with
  | error _ => exact .unchanged fun h => by rw [hcheck] at h; cases h
  | ok _ => exact .advanced topic _ (checkTopic_ok.mp hcheck).2 (fun _ => rfl) (by simp [Settles, hcheck])

theorem effect_markDeferred (hfull : Full cfg state.topics) (topic : String) :
    Effect cfg now state (.markDeferred topic) (cfg.next state (.markDeferred topic) now) := by
  simp only [next, write, markDeferred]
  cases hcheck : cfg.checkTopic topic with
  | error _ => exact .unchanged fun h => by rw [hcheck] at h; cases h
  | ok _ =>
    have htopic := (checkTopic_ok.mp hcheck).2
    obtain ⟨row, hrow⟩ := Finmap.mem_iff.mp ((hfull topic).mpr htopic)
    simp only [hrow, Option.map_some, Option.some.injEq, bind, Except.bind]
    by_cases hclosed : row.state = .answered ∨ row.state = .skipped
    · simp only [if_pos hclosed]
      exact .unchanged fun _ hopen => absurd hopen ((closed_iff hfull htopic).mp ⟨row, hrow, hclosed⟩)
    · simp only [if_neg hclosed]
      have hopen : OpenTopic state.topics topic := by
        by_contra h
        obtain ⟨row', hrow', hclosed'⟩ := (closed_iff hfull htopic).mpr h
        rw [hrow] at hrow'
        exact hclosed (Option.some.inj hrow' ▸ hclosed')
      exact .advanced topic _ htopic (fun h => absurd h hopen.not_answered) (by simp [Settles, hcheck, hopen])

/-- **What a call can do**, in a record with a row for each topic. -/
theorem effect_next (now : ℤ) (hfull : Full cfg state.topics) (call : Call) : Effect cfg now state call (cfg.next state call now) := by
  cases call with
  | initializeState =>
    simp only [next, write, initializeState]
    by_cases h : state.status ≠ .notStarted ∨ state.startedAt ≠ none
    · simp only [if_pos h]
      exact .unchanged fun hstatus hstarted => absurd h (by simp [hstatus, hstarted])
    · simp only [if_neg h]
      simp only [not_or, not_not] at h
      exact .reset h.1 h.2
  | scheduleKickoff delayMinutes =>
    simp only [next, write, scheduleKickoff]
    by_cases hstatus : state.status ≠ .notStarted
    · simp only [if_pos hstatus]
      exact .unchanged trivial
    · by_cases hkickoff : state.kickoffScheduledAt ≠ none
      · simp only [if_neg hstatus, if_pos hkickoff]
        exact .unchanged trivial
      · simp only [if_neg hstatus, if_neg hkickoff]
        exact .kickoff delayMinutes _
  | start =>
    simp only [next, write, start]
    cases hstatus : state.status with
    | notStarted => exact .started hstatus
    | inProgress | complete | abandoned => exact .unchanged trivial
  | markAnswered topic summary => exact effect_markAnswered topic summary
  | markDeferred topic => exact effect_markDeferred hfull topic
  | recordFollowUp =>
    simp only [next, write, recordFollowUp]
    by_cases hstatus : state.status ≠ .inProgress
    · simp only [if_pos hstatus]
      exact .unchanged trivial
    · simp only [if_neg hstatus]
      exact .followUp (not_not.mp hstatus)
  | markComplete => exact .completed

theorem topics_advance (now : ℤ) (state : OnboardingState) : (cfg.advanceCurrentTopic now state).topics = state.topics := by
  unfold advanceCurrentTopic
  split <;> rfl

theorem Effect.full {call : Call} {state' : OnboardingState} (h : Effect cfg now state call state') (hfull : Full cfg state.topics) :
    Full cfg state'.topics := by
  cases h with
  | reset => exact full_rowsOf _
  | advanced topic row htopic =>
    rw [topics_advance]
    exact hfull.insert htopic row
  | unchanged | kickoff | started | followUp | completed => exact hfull

theorem getRawState_exec (cfg : TopicConfig) (stored : Option OnboardingState) (call : Call) (now : ℤ) :
    cfg.getRawState (cfg.exec stored call now) = cfg.next (cfg.getRawState stored) call now := by
  have hstored : Full cfg (cfg.getRawState stored).topics := full_getRawState stored
  have hfull : Full cfg (cfg.next (cfg.getRawState stored) call now).topics := (effect_next now hstored call).full hstored
  rw [next] at hfull ⊢
  rw [exec]
  cases hwrite : cfg.write now (cfg.getRawState stored) call with
  | error _ => rfl
  | ok written =>
    cases written with
    | none => rfl
    | some state =>
      rw [hwrite] at hfull
      exact mergeWithDefaults_of_full hfull

end Calls

/-! ### What a call keeps -/

theorem Kept.refl (state : OnboardingState) : Kept state state := ⟨fun h => ⟨h, rfl⟩, fun _ => id⟩

theorem Kept.trans {state state' state'' : OnboardingState} (h : Kept state state') (h' : Kept state' state'') :
    Kept state state'' where
  complete hcomplete := by
    obtain ⟨hcomplete', hat⟩ := h.complete hcomplete
    obtain ⟨hcomplete'', hat'⟩ := h'.complete hcomplete'
    exact ⟨hcomplete'', hat'.trans hat⟩
  answered topic hanswered := h'.answered topic (h.answered topic hanswered)

theorem not_answered_default (topic : String) : ¬ Answered cfg.defaultState.topics topic := by
  rintro ⟨row, hrow, hanswered⟩
  rw [defaultState, lookup_rowsOf] at hrow
  split at hrow
  · obtain rfl := Option.some.inj hrow
    cases hanswered
  · cases hrow

/-- The record of a new user is sound, if there is a topic. -/
theorem sound_default : cfg.Sound cfg.defaultState ↔ cfg.topicOrder ≠ [] := by
  constructor
  · intro h hnil
    have hcomplete : OnboardingStatus.notStarted = .complete := h.finished fun topic htopic => by simp [hnil] at htopic
    cases hcomplete
  · intro hne
    obtain ⟨topic, rest, horder⟩ := List.exists_cons_of_ne_nil hne
    refine ⟨(fun h => by cases h), (fun h => by cases h), (fun _ h => by cases h), Nat.zero_le _, fun hclosed => ?_⟩
    obtain ⟨row, hrow, hstate⟩ := hclosed topic (by simp [horder])
    rw [defaultState, lookup_rowsOf, if_pos (by simp [horder])] at hrow
    obtain rfl := Option.some.inj hrow
    exact hstate.elim (fun h => by cases h) fun h => by cases h

section Keeps

variable {state : OnboardingState} {now : ℤ}

/-- An advance to the next topic, of an onboarding that is not complete. -/
theorem keeps_advance {row : TopicRow} (hfull : Full cfg state.topics) (htopic : topic ∈ cfg.topicOrder)
    (hrow : Answered state.topics topic → row.state = .answered) (hstatus : state.status ≠ .complete) :
    cfg.Sound (cfg.advanceCurrentTopic now { state with topics := state.topics.insert topic row }) ∧
      Kept state (cfg.advanceCurrentTopic now { state with topics := state.topics.insert topic row }) := by
  refine ⟨?_, ⟨fun h => absurd h hstatus, fun key hkey => ?_⟩⟩
  · unfold advanceCurrentTopic
    cases hnext : cfg.nextTopic (state.topics.insert topic row) with
    | some key =>
      obtain ⟨hkey, hopen⟩ := nextTopic_some hnext
      refine ⟨fun h => absurd h hstatus, fun h => absurd h hstatus, ?_, Nat.zero_le _, ?_⟩
      · intro other hother
        obtain rfl := Option.some.inj hother
        exact ⟨hkey, hopen.not_answered⟩
      · exact fun hclosed => absurd hopen ((closed_iff (hfull.insert htopic row) hkey).mp (hclosed key hkey))
    | none => exact ⟨fun _ => rfl, fun _ => Option.some_ne_none now, (fun _ h => by cases h), Nat.zero_le _, fun _ => rfl⟩
  · rw [topics_advance]
    show Answered (state.topics.insert topic row) key
    rw [answered_insert]
    split
    next h => exact hrow (h ▸ hkey)
    · exact hkey

/-- An advance of an onboarding that is complete stamps it again, or leaves it with a current topic. -/
theorem not_keeps_advance (hstatus : state.status = .complete) (hnow : state.completedAt ≠ some now)
    (hsound : cfg.Sound (cfg.advanceCurrentTopic now { state with topics })) :
    ¬ Kept state (cfg.advanceCurrentTopic now { state with topics }) := by
  unfold advanceCurrentTopic at hsound ⊢
  cases hnext : cfg.nextTopic topics with
  | some key =>
    simp only [hnext] at hsound
    exact absurd (hsound.idle hstatus) (Option.some_ne_none key)
  | none => exact fun hkept => hnow (hkept.complete hstatus).2.symm

/-- **A call that settles** leaves a sound record, and takes nothing back. -/
theorem keeps_next {call : Call} (hne : cfg.topicOrder ≠ []) (hfull : Full cfg state.topics) (hsound : cfg.Sound state)
    (hsettles : cfg.Settles state call) : cfg.Sound (cfg.next state call now) ∧ Kept state (cfg.next state call now) := by
  have heffect := effect_next now hfull call
  generalize cfg.next state call now = state' at heffect
  cases heffect with
  | unchanged => exact ⟨hsound, .refl state⟩
  | reset hstatus hstarted =>
    exact ⟨sound_default.mpr hne, (fun h => by rw [hstatus] at h; cases h),
      fun topic hanswered => absurd hanswered (hsettles hstatus hstarted topic)⟩
  | kickoff => exact ⟨⟨hsound.idle, hsound.stamped, hsound.current, hsound.depth, hsound.finished⟩, ⟨fun h => ⟨h, rfl⟩, fun _ => id⟩⟩
  | started hstatus =>
    have hcomplete : state.status ≠ .complete := fun h => by rw [hstatus] at h; cases h
    refine ⟨⟨(fun h => by cases h), (fun h => by cases h), fun topic h => ?_, Nat.zero_le _, fun h => ?_⟩,
      ⟨fun h => absurd h hcomplete, fun _ => id⟩⟩
    · exact ⟨(nextTopic_some h).1, (nextTopic_some h).2.not_answered⟩
    · exact absurd (hsound.finished h) hcomplete
  | advanced topic row htopic hrow hiff => exact keeps_advance hfull htopic hrow (hiff.mp hsettles)
  | followUp hstatus =>
    have hcomplete : state.status ≠ .complete := fun h => by rw [hstatus] at h; cases h
    exact ⟨⟨hsound.idle, hsound.stamped, hsound.current, Nat.min_le_right _ _, hsound.finished⟩,
      ⟨fun h => absurd h hcomplete, fun _ => id⟩⟩
  | completed =>
    refine ⟨⟨fun _ => rfl, fun _ => ?_, (fun _ h => by cases h), Nat.zero_le _, fun _ => rfl⟩, ⟨fun h => ⟨rfl, ?_⟩, fun _ => id⟩⟩
    · cases hat : state.completedAt <;> simp [markComplete, hat]
    · obtain ⟨at', hat⟩ := Option.ne_none_iff_exists'.mp (hsound.stamped h)
      simp [markComplete, hat]

/-- A call that does both, at another instant than the completion, settles. -/
theorem settles_of_keeps {call : Call} (hfull : Full cfg state.topics) (hnow : state.completedAt ≠ some now)
    (hsound : cfg.Sound (cfg.next state call now)) (hkept : Kept state (cfg.next state call now)) : cfg.Settles state call := by
  have heffect := effect_next now hfull call
  generalize cfg.next state call now = state' at heffect hsound hkept
  cases heffect with
  | unchanged hsettles => exact hsettles
  | reset => exact fun _ _ topic hanswered => not_answered_default topic (hkept.answered topic hanswered)
  | advanced topic row htopic hrow hiff => exact hiff.mpr fun hstatus => not_keeps_advance hstatus hnow hsound hkept
  | kickoff | started | followUp | completed => trivial

end Keeps

/-! ### Runs -/

/-- The calls that settle. -/
def settling (cfg : TopicConfig) : Lts (Option OnboardingState) (Call × ℤ) :=
  cfg.calls.guard fun stored call => cfg.Settles (cfg.getRawState stored) call.1

theorem keeps_settling {stored stored' : Option OnboardingState} {call : Call × ℤ} (hne : cfg.topicOrder ≠ [])
    (h : cfg.settling.step stored call stored') (hsound : cfg.Sound (cfg.getRawState stored)) :
    cfg.Sound (cfg.getRawState stored') ∧ Kept (cfg.getRawState stored) (cfg.getRawState stored') := by
  obtain ⟨rfl, hsettles⟩ := h
  rw [getRawState_exec]
  exact keeps_next hne (full_getRawState stored) hsound hsettles

/-- **Runs whose calls settle**: every record they reach is sound and stays so, and what is settled in it stays. There a call
at another instant than the completion does both if and only if it settles. -/
theorem onboarding_runs (cfg : TopicConfig) (hne : cfg.topicOrder ≠ []) {stored : Option OnboardingState}
    (h : cfg.settling.Reachable stored) :
    cfg.Sound (cfg.getRawState stored) ∧
      (∀ calls stored', cfg.settling.Run stored calls stored' → Kept (cfg.getRawState stored) (cfg.getRawState stored')) ∧
      ∀ call now stored', cfg.calls.step stored (call, now) stored' → (cfg.getRawState stored).completedAt ≠ some now →
        (cfg.Sound (cfg.getRawState stored') ∧ Kept (cfg.getRawState stored) (cfg.getRawState stored') ↔
          cfg.Settles (cfg.getRawState stored) call) := by
  have hsound : cfg.Sound (cfg.getRawState stored) := by
    refine h.induct (fun _ (hinit : _ = none) => ?_) fun _ _ _ _ hsound hstep => (keeps_settling hne hstep hsound).1
    rw [hinit]
    exact sound_default.mpr hne
  refine ⟨hsound, fun calls stored' hrun => ?_, fun call now stored' hstep hnow => ?_⟩
  · refine (hrun.keeps (P := fun t => cfg.Sound (cfg.getRawState t) ∧ Kept (cfg.getRawState stored) (cfg.getRawState t)) ?_
      ⟨hsound, .refl _⟩).2
    intro t call t' ⟨hsound, hkept⟩ hstep
    obtain ⟨hsound', hkept'⟩ := keeps_settling hne hstep hsound
    exact ⟨hsound', hkept.trans hkept'⟩
  · obtain rfl : stored' = _ := hstep
    rw [getRawState_exec]
    exact ⟨fun h => settles_of_keeps (full_getRawState stored) hnow h.1 h.2,
      fun h => keeps_next hne (full_getRawState stored) hsound h⟩

/-- The topics as they are now. -/
def current : TopicConfig where
  topicOrder := ["addressing"]
  topicDescriptions := ["addressing", "self_intro", "family", "diet", "routine", "pain_point"]

theorem onboarding_runs_answered :
    current.Sound (current.getRawState (current.exec none (.markAnswered "addressing" " Борис ") 7)) := by
  refine (onboarding_runs current (by decide) ⟨[(.markAnswered "addressing" " Борис ", 7)], none, rfl, .single ⟨rfl, ?_⟩⟩).1
  exact fun _ h => by cases h

/-- **A deferral after the end**: an onboarding that was marked complete has a current topic again. -/
theorem deferred_after_complete :
    ∃ stored, current.calls.Hist [(.markComplete, 1), (.markDeferred "addressing", 2)] stored ∧
      (current.getRawState stored).status = .complete ∧ (current.getRawState stored).currentTopic = some "addressing" :=
  ⟨_, ⟨none, rfl, .snoc (.single rfl) rfl⟩, by decide, by decide⟩

end TopicConfig

end Sreda.Housewife
