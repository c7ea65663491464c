import Sreda.Lib.Transition
import Mathlib.Data.List.Nodup
import Mathlib.Data.Rat.Defs
import Mathlib.Algebra.Order.Ring.Rat

/-!
# The circuit breaker of a provider

`_CircuitBreaker` of `services/llm_bulkhead.py`: three states, and an attempt that ties an
outcome to the call that the breaker admitted. Each method runs under the lock of the
breaker, so any number of concurrent calls is a sequence of method calls in some order.

The system around it remembers the calls that were admitted and have not recorded their
outcome; a call records one outcome. The `object()` of a probe is the number of its call.

## What is proved

* what a call of a method does to the breaker (`step_cases`);
* at most one probe is outstanding, and it owns the token (`BreakerInv`);
* the four guarantees of the breaker over every run (`breaker_guarantees`); the counter
  counts from the last success of a call *of the current generation*: a success of an older
  call is recorded and changes nothing (`stale_success`).
-/

namespace Sreda.Services

open Sreda.Lib

/-! ### The breaker -/

/-- `_BreakerAttempt`. -/
structure BreakerAttempt where
  isProbe : Bool
  token : Option ℕ
  generation : ℕ
  deriving DecidableEq

/-- `_CircuitBreaker`. -/
structure CircuitBreaker where
  consecutiveTimeouts : ℕ
  openedAt : Option ℚ
  probeToken : Option ℕ
  generation : ℕ
  deriving DecidableEq

namespace CircuitBreaker

/-- A new breaker. -/
def new : CircuitBreaker := ⟨0, none, none, 0⟩

variable (b : CircuitBreaker)

/-- `is_open`. -/
def isOpen : Bool := b.openedAt.isSome

/-- `allow`; `token` is the new `object()`. -/
def allow (now cooldown : ℚ) (token : ℕ) : CircuitBreaker × Option BreakerAttempt :=
  match b.openedAt with
  | none => (b, some ⟨false, none, b.generation⟩)
  | some openedAt =>
    if now - openedAt < cooldown then (b, none)
    else if b.probeToken.isSome then (b, none)
    else ({ b with probeToken := some token }, some ⟨true, some token, b.generation⟩)

/-- `_owns_probe`. -/
def ownsProbe (attempt : BreakerAttempt) : Bool :=
  attempt.isProbe && attempt.token.isSome && attempt.token == b.probeToken

/-- `_is_current_closed_gen`. -/
def isCurrentClosedGen (attempt : BreakerAttempt) : Bool :=
  !attempt.isProbe && b.openedAt.isNone && attempt.generation == b.generation

/-- `record_success`. -/
def recordSuccess (attempt : BreakerAttempt) : CircuitBreaker :=
  if b.ownsProbe attempt then
    { b with openedAt := none, probeToken := none, consecutiveTimeouts := 0, generation := b.generation + 1 }
  else if b.isCurrentClosedGen attempt then { b with consecutiveTimeouts := 0 }
  else b

/-- `record_timeout`. -/
def recordTimeout (attempt : BreakerAttempt) (now : ℚ) (openAfter : ℤ) : CircuitBreaker :=
  if b.ownsProbe attempt then
    { b with openedAt := some now, probeToken := none, consecutiveTimeouts := b.consecutiveTimeouts + 1,
             generation := b.generation + 1 }
  else if b.isCurrentClosedGen attempt then
    if openAfter ≤ b.consecutiveTimeouts + 1 then
      { b with consecutiveTimeouts := b.consecutiveTimeouts + 1, openedAt := some now, generation := b.generation + 1 }
    else { b with consecutiveTimeouts := b.consecutiveTimeouts + 1 }
  else b

/-- `record_other_error`. -/
def recordOtherError (attempt : BreakerAttempt) : CircuitBreaker :=
  if b.ownsProbe attempt then { b with probeToken := none } else b

end CircuitBreaker

/-! ### The calls around it -/

/-- The outcome of a call. -/
inductive Outcome where
  | success
  | timeout (openAfter : ℤ)
  | otherError
  deriving DecidableEq

/-- A call that was admitted. -/
structure Admitted where
  call : ℕ
  attempt : BreakerAttempt
  deriving DecidableEq

/-- What happens at the breaker: `allow` and what it returned, or the outcome of a call. -/
inductive Event where
  | allow (cooldown now : ℚ) (attempt : Option BreakerAttempt)
  | record (a : Admitted) (outcome : Outcome) (now : ℚ)
  deriving DecidableEq

/-- `record_success`, `record_timeout` or `record_other_error`. -/
def CircuitBreaker.record (b : CircuitBreaker) (attempt : BreakerAttempt) (now : ℚ) : Outcome → CircuitBreaker
  | .success => b.recordSuccess attempt
  | .timeout openAfter => b.recordTimeout attempt now openAfter
  | .otherError => b.recordOtherError attempt

/-- The breaker, the last time that was read, how many calls there were, and those that were
admitted and have not recorded their outcome. -/
structure Provider where
  breaker : CircuitBreaker
  clock : ℚ
  calls : ℕ
  outstanding : List Admitted
  deriving DecidableEq

namespace Provider

/-- A call of `allow`. -/
def allow (s : Provider) (cooldown now : ℚ) : Provider × Option BreakerAttempt :=
  let (b, attempt) := s.breaker.allow now cooldown s.calls
  ({ breaker := b, clock := now, calls := s.calls + 1,
     outstanding := s.outstanding ++ (attempt.map (Admitted.mk s.calls)).toList }, attempt)

/-- A call records its outcome. -/
def record (s : Provider) (a : Admitted) (outcome : Outcome) (now : ℚ) : Provider :=
  { s with breaker := s.breaker.record a.attempt now outcome, clock := now, outstanding := s.outstanding.erase a }

end Provider

/-- Any number of calls to one breaker, in any order. -/
def breaker : Lts Provider Event where
  init s := s.breaker = .new ∧ s.calls = 0 ∧ s.outstanding = []
  step s e t :=
    match e with
    | .allow cooldown now attempt => s.clock ≤ now ∧ s.allow cooldown now = (t, attempt)
    | .record a outcome now => s.clock ≤ now ∧ a ∈ s.outstanding ∧ s.record a outcome now = t

/-! ### What a method does -/

theorem allow_cases (b : CircuitBreaker) (now cooldown : ℚ) (token : ℕ) :
    (b.isOpen = false ∧ b.allow now cooldown token = (b, some ⟨false, none, b.generation⟩)) ∨
      b.allow now cooldown token = (b, none) ∨
      (b.isOpen = true ∧ b.probeToken = none ∧
        b.allow now cooldown token = ({ b with probeToken := some token }, some ⟨true, some token, b.generation⟩)) := by
  unfold CircuitBreaker.allow CircuitBreaker.isOpen
  cases hopen : b.openedAt with
  | none => exact .inl ⟨rfl, rfl⟩
  | some openedAt =>
    right
    by_cases hcool : now - openedAt < cooldown
    · exact .inl (by simp [hcool])
    · cases htoken : b.probeToken with
      | none => exact .inr ⟨rfl, rfl, by simp [hcool]⟩
      | some n => exact .inl (by simp [hcool])

/-- What an outcome does to the breaker. -/
inductive Recorded (b : CircuitBreaker) (attempt : BreakerAttempt) (now : ℚ) : Outcome → CircuitBreaker → Prop where
  | probeSucceeded (h : b.ownsProbe attempt = true) : Recorded b attempt now .success
      { b with openedAt := none, probeToken := none, consecutiveTimeouts := 0, generation := b.generation + 1 }
  | probeHung (h : b.ownsProbe attempt = true) (openAfter : ℤ) : Recorded b attempt now (.timeout openAfter)
      { b with openedAt := some now, probeToken := none, consecutiveTimeouts := b.consecutiveTimeouts + 1,
               generation := b.generation + 1 }
  | probeFailed (h : b.ownsProbe attempt = true) : Recorded b attempt now .otherError { b with probeToken := none }
  | succeeded (h : b.isCurrentClosedGen attempt = true) : Recorded b attempt now .success
      { b with consecutiveTimeouts := 0 }
  | opened (h : b.isCurrentClosedGen attempt = true) {openAfter : ℤ} (ho : openAfter ≤ b.consecutiveTimeouts + 1) :
      Recorded b attempt now (.timeout openAfter)
        { b with consecutiveTimeouts := b.consecutiveTimeouts + 1, openedAt := some now, generation := b.generation + 1 }
  | counted (h : b.isCurrentClosedGen attempt = true) {openAfter : ℤ} (ho : ¬ openAfter ≤ b.consecutiveTimeouts + 1) :
      Recorded b attempt now (.timeout openAfter) { b with consecutiveTimeouts := b.consecutiveTimeouts + 1 }
  | ignored (outcome : Outcome) (ho : b.ownsProbe attempt = false)
      (h : b.isCurrentClosedGen attempt = true → outcome = .otherError) : Recorded b attempt now outcome b

/-- **What a call does when it records its outcome.** -/
theorem recorded (b : CircuitBreaker) (attempt : BreakerAttempt) (now : ℚ) (outcome : Outcome) :
    Recorded b attempt now outcome (b.record attempt now outcome) := by
  by_cases ho : b.ownsProbe attempt = true
  · cases outcome with
    | success =>
      simp only [CircuitBreaker.record, CircuitBreaker.recordSuccess, ho, if_true]
      exact .probeSucceeded ho
    | timeout openAfter =>
      simp only [CircuitBreaker.record, CircuitBreaker.recordTimeout, ho, if_true]
      exact .probeHung ho openAfter
    | otherError =>
      simp only [CircuitBreaker.record, CircuitBreaker.recordOtherError, ho, if_true]
      exact .probeFailed ho
  · have ho' : b.ownsProbe attempt = false := by simpa using ho
    by_cases hc : b.isCurrentClosedGen attempt = true
    · cases outcome with
      | success =>
        simp only [CircuitBreaker.record, CircuitBreaker.recordSuccess, ho', hc, Bool.false_eq_true, if_false, if_true]
        exact .succeeded hc
      | timeout openAfter =>
        simp only [CircuitBreaker.record, CircuitBreaker.recordTimeout, ho', hc, Bool.false_eq_true, if_false, if_true]
        by_cases hn : openAfter ≤ b.consecutiveTimeouts + 1
        · rw [if_pos hn]
          exact .opened hc hn
        · rw [if_neg hn]
          exact .counted hc hn
      | otherError =>
        simp only [CircuitBreaker.record, CircuitBreaker.recordOtherError, ho', Bool.false_eq_true, if_false]
        exact .ignored _ ho' fun _ => rfl
    · have hsame : b.record attempt now outcome = b := by
        cases outcome <;> simp [CircuitBreaker.record, CircuitBreaker.recordSuccess, CircuitBreaker.recordTimeout,
          CircuitBreaker.recordOtherError, ho', hc]
      rw [hsame]
      exact .ignored _ ho' fun h => absurd h hc

/-! ### The invariant of the outstanding calls -/

/-- What holds of the outstanding calls: each has its number, an outstanding probe owns the
token of an open breaker, and no call is of a generation to come. -/
structure BreakerInv (s : Provider) : Prop where
  nodup : (s.outstanding.map (·.call)).Nodup
  call_lt : ∀ a ∈ s.outstanding, a.call < s.calls
  probe : ∀ a ∈ s.outstanding, a.attempt.isProbe = true →
    s.breaker.isOpen = true ∧ s.breaker.probeToken = some a.call ∧ a.attempt.token = some a.call
  generation_le : ∀ a ∈ s.outstanding, a.attempt.generation ≤ s.breaker.generation

namespace BreakerInv

variable {s t : Provider}

theorem init (h : breaker.init s) : BreakerInv s := by
  obtain ⟨hb, hc, ho⟩ := h
  exact ⟨by simp [ho], by simp [ho], by simp [ho], by simp [ho]⟩

/-- Two outstanding calls with one number are one call. -/
theorem eq_of_call (h : BreakerInv s) {a b : Admitted} (ha : a ∈ s.outstanding) (hb : b ∈ s.outstanding)
    (hcall : a.call = b.call) : a = b :=
  List.inj_on_of_nodup_map h.nodup ha hb hcall

/-- **At most one probe is outstanding.** -/
theorem one_probe (h : BreakerInv s) {a b : Admitted} (ha : a ∈ s.outstanding) (hb : b ∈ s.outstanding)
    (hpa : a.attempt.isProbe = true) (hpb : b.attempt.isProbe = true) : a = b := by
  have h₁ := (h.probe a ha hpa).2.1
  have h₂ := (h.probe b hb hpb).2.1
  exact h.eq_of_call ha hb (Option.some.inj (h₁.symm.trans h₂))

theorem owns (h : BreakerInv s) {a : Admitted} (ha : a ∈ s.outstanding) (hp : a.attempt.isProbe = true) :
    s.breaker.ownsProbe a.attempt = true := by
  obtain ⟨-, h₁, h₂⟩ := h.probe a ha hp
  simp [CircuitBreaker.ownsProbe, hp, h₁, h₂]

theorem mem_erase (h : BreakerInv s) {a b : Admitted} (hb : b ∈ s.outstanding.erase a) :
    b ∈ s.outstanding ∧ b ≠ a := by
  have hnodup : s.outstanding.Nodup := List.Nodup.of_map _ h.nodup
  obtain ⟨h₁, h₂⟩ := (hnodup.mem_erase_iff).mp hb
  exact ⟨h₂, h₁⟩

theorem allow (h : BreakerInv s) (cooldown now : ℚ) : BreakerInv (s.allow cooldown now).1 := by
  have hnew : ∀ attempt : Option BreakerAttempt,
      ((s.outstanding ++ (attempt.map (Admitted.mk s.calls)).toList).map (·.call)).Nodup := by
    intro attempt
    cases attempt with
    | none => simpa using h.nodup
    | some attempt =>
      simp only [Option.map_some, Option.toList_some, List.map_append, List.map_cons, List.map_nil]
      rw [List.nodup_append]
      refine ⟨h.nodup, by simp, fun n hn m hm => ?_⟩
      obtain ⟨a, ha, rfl⟩ := List.mem_map.mp hn
      have := h.call_lt a ha
      simp only [List.mem_singleton] at hm
      omega
  have hlt : ∀ attempt : Option BreakerAttempt, ∀ a ∈ s.outstanding ++ (attempt.map (Admitted.mk s.calls)).toList,
      a.call < s.calls + 1 := by
    intro attempt a ha
    rcases List.mem_append.mp ha with ha | ha
    · have := h.call_lt a ha
      omega
    · cases attempt with
      | none => simp at ha
      | some attempt =>
        simp only [Option.map_some, Option.toList_some, List.mem_singleton] at ha
        simp [ha]
  unfold Provider.allow
  rcases allow_cases s.breaker now cooldown s.calls with ⟨hclosed, heq⟩ | heq | ⟨hopen, htoken, heq⟩
  · rw [heq]
    refine ⟨hnew _, hlt _, fun a ha hp => ?_, fun a ha => ?_⟩
    · rcases List.mem_append.mp ha with ha | ha
      · exact h.probe a ha hp
      · simp only [Option.map_some, Option.toList_some, List.mem_singleton] at ha
        simp [ha] at hp
    · rcases List.mem_append.mp ha with ha | ha
      · exact h.generation_le a ha
      · simp only [Option.map_some, Option.toList_some, List.mem_singleton] at ha
        simp [ha]
  · rw [heq]
    refine ⟨hnew _, hlt _, fun a ha hp => ?_, fun a ha => ?_⟩
    · exact h.probe a (by simpa using ha) hp
    · exact h.generation_le a (by simpa using ha)
  · rw [heq]
    refine ⟨hnew _, hlt _, fun a ha hp => ?_, fun a ha => ?_⟩
    · rcases List.mem_append.mp ha with ha | ha
      · -- there was no probe before, since its token was free
        have := (h.probe a ha hp).2.1
        simp [htoken] at this
      · simp only [Option.map_some, Option.toList_some, List.mem_singleton] at ha
        subst ha
        exact ⟨hopen, rfl, rfl⟩
    · rcases List.mem_append.mp ha with ha | ha
      · exact h.generation_le a ha
      · simp only [Option.map_some, Option.toList_some, List.mem_singleton] at ha
        simp [ha]

/-- After an outcome that leaves the open state, the token and the generation of the others as
they need them, the invariant holds again. -/
theorem record_of (h : BreakerInv s) (a : Admitted) {b : CircuitBreaker} {now : ℚ}
    (hprobe : ∀ c ∈ s.outstanding, c ≠ a → c.attempt.isProbe = true → b.isOpen = s.breaker.isOpen ∧
      b.probeToken = s.breaker.probeToken) (hgen : s.breaker.generation ≤ b.generation) :
    BreakerInv { s with breaker := b, clock := now, outstanding := s.outstanding.erase a } where
  nodup := h.nodup.sublist (List.Sublist.map _ List.erase_sublist)
  call_lt c hc := h.call_lt c (h.mem_erase hc).1
  probe c hc hp := by
    obtain ⟨hmem, hne⟩ := h.mem_erase hc
    obtain ⟨h₁, h₂⟩ := hprobe c hmem hne hp
    show b.isOpen = true ∧ b.probeToken = some c.call ∧ c.attempt.token = some c.call
    rw [h₁, h₂]
    exact h.probe c hmem hp
  generation_le c hc := Nat.le_trans (h.generation_le c (h.mem_erase hc).1) hgen

theorem record (h : BreakerInv s) {a : Admitted} (ha : a ∈ s.outstanding) (outcome : Outcome) (now : ℚ) :
    BreakerInv (s.record a outcome now) := by
  -- when the call owns the probe there is no other one
  have hother : s.breaker.ownsProbe a.attempt = true → ∀ c ∈ s.outstanding, c ≠ a →
      c.attempt.isProbe = true → False := by
    intro ho c hc hne hp
    refine hne (h.one_probe hc ha hp ?_)
    simp only [CircuitBreaker.ownsProbe, Bool.and_eq_true] at ho
    exact ho.1.1
  have hclosed : s.breaker.isCurrentClosedGen a.attempt = true → ∀ c ∈ s.outstanding, c.attempt.isProbe = true →
    False := by
    intro hc c hmem hp
    have hopen := (h.probe c hmem hp).1
    simp only [CircuitBreaker.isCurrentClosedGen, Bool.and_eq_true] at hc
    rw [CircuitBreaker.isOpen, Option.isSome_iff_ne_none] at hopen
    exact hopen (Option.isNone_iff_eq_none.mp hc.1.2)
  unfold Provider.record
  generalize hb : s.breaker.record a.attempt now outcome = b
  have hrec := recorded s.breaker a.attempt now outcome
  rw [hb] at hrec
  cases hrec with
  | probeSucceeded ho => exact h.record_of a (fun c hc hne hp => (hother ho c hc hne hp).elim) (Nat.le_succ _)
  | probeHung ho => exact h.record_of a (fun c hc hne hp => (hother ho c hc hne hp).elim) (Nat.le_succ _)
  | probeFailed ho => exact h.record_of a (fun c hc hne hp => (hother ho c hc hne hp).elim) (Nat.le_refl _)
  | succeeded hc => exact h.record_of a (fun c hmem _ hp => (hclosed hc c hmem hp).elim) (Nat.le_refl _)
  | opened hc => exact h.record_of a (fun c hmem _ hp => (hclosed hc c hmem hp).elim) (Nat.le_succ _)
  | counted hc => exact h.record_of a (fun c hmem _ hp => (hclosed hc c hmem hp).elim) (Nat.le_refl _)
  | ignored => exact h.record_of a (fun _ _ _ _ => ⟨rfl, rfl⟩) (Nat.le_refl _)

theorem step {e : Event} (h : BreakerInv s) (hs : breaker.step s e t) : BreakerInv t := by
  cases e with
  | allow cooldown now attempt =>
    obtain ⟨-, hs⟩ := hs
    have := h.allow cooldown now
    rwa [hs] at this
  | record a outcome now =>
    obtain ⟨-, ha, rfl⟩ := hs
    exact h.record ha outcome now

theorem reachable (h : breaker.Reachable s) : BreakerInv s :=
  h.induct (fun _ hi => init hi) fun _ _ _ _ ih hs => ih.step hs

end BreakerInv

/-! ### Generations -/

/-- The step opens or closes the breaker, or re-opens it because its probe hung. -/
def Transition (s : Provider) (e : Event) (t : Provider) : Prop :=
  s.breaker.isOpen ≠ t.breaker.isOpen ∨
    (s.breaker.isOpen = true ∧ ∃ a openAfter now, e = .record a (.timeout openAfter) now ∧ a.attempt.isProbe = true)

theorem isOpen_of_ownsProbe {s : Provider} (h : BreakerInv s) {a : Admitted} (ha : a ∈ s.outstanding)
    (ho : s.breaker.ownsProbe a.attempt = true) : s.breaker.isOpen = true := by
  simp only [CircuitBreaker.ownsProbe, Bool.and_eq_true] at ho
  exact (h.probe a ha ho.1.1).1

theorem isOpen_of_current {b : CircuitBreaker} {attempt : BreakerAttempt} (h : b.isCurrentClosedGen attempt = true) :
    b.isOpen = false ∧ attempt.isProbe = false ∧ attempt.generation = b.generation := by
  simp only [CircuitBreaker.isCurrentClosedGen, Bool.and_eq_true, Bool.not_eq_true', beq_iff_eq,
    Option.isNone_iff_eq_none] at h
  exact ⟨by simp [CircuitBreaker.isOpen, h.1.2], h.1.1, h.2⟩

/-- **A transition begins a new generation**, and nothing else does. -/
theorem generation_step {s t : Provider} {e : Event} (h : BreakerInv s) (hs : breaker.step s e t) :
    (Transition s e t → t.breaker.generation = s.breaker.generation + 1) ∧
      (¬ Transition s e t → t.breaker.generation = s.breaker.generation) := by
  cases e with
  | allow cooldown now attempt =>
    obtain ⟨-, hs⟩ := hs
    have hsame : t.breaker.isOpen = s.breaker.isOpen ∧ t.breaker.generation = s.breaker.generation := by
      rw [Provider.allow] at hs
      rcases allow_cases s.breaker now cooldown s.calls with ⟨-, heq⟩ | heq | ⟨-, -, heq⟩ <;> rw [heq] at hs <;>
        cases hs <;>
        exact ⟨rfl, rfl⟩
    refine ⟨?_, fun _ => hsame.2⟩
    rintro (h | ⟨-, a, n, now', h, -⟩)
    · exact absurd hsame.1.symm h
    · cases h
  | record a outcome now =>
    obtain ⟨-, ha, rfl⟩ := hs
    unfold Transition Provider.record
    generalize hb : s.breaker.record a.attempt now outcome = b
    have hrec := recorded s.breaker a.attempt now outcome
    rw [hb] at hrec
    cases hrec with
    | probeSucceeded ho =>
      have hopen := isOpen_of_ownsProbe h ha ho
      exact ⟨fun _ => rfl, fun hn => absurd (.inl (by rw [hopen]; simp [CircuitBreaker.isOpen])) hn⟩
    | probeHung ho openAfter =>
      have hopen := isOpen_of_ownsProbe h ha ho
      simp only [CircuitBreaker.ownsProbe, Bool.and_eq_true] at ho
      exact ⟨fun _ => rfl, fun hn => absurd (.inr ⟨hopen, a, openAfter, now, rfl, ho.1.1⟩) hn⟩
    | probeFailed ho =>
      refine ⟨?_, fun _ => rfl⟩
      rintro (h | ⟨-, _, _, _, h, -⟩)
      · exact absurd rfl h
      · cases h
    | succeeded hc =>
      refine ⟨?_, fun _ => rfl⟩
      rintro (h | ⟨-, _, _, _, h, -⟩)
      · exact absurd rfl h
      · cases h
    | opened hc =>
      have hclosed := (isOpen_of_current hc).1
      exact ⟨fun _ => rfl, fun hn => absurd (.inl (by rw [hclosed]; simp [CircuitBreaker.isOpen])) hn⟩
    | counted hc =>
      have hclosed := (isOpen_of_current hc).1
      refine ⟨?_, fun _ => rfl⟩
      rintro (h | ⟨h, -⟩)
      · exact absurd rfl h
      · simp [hclosed] at h
    | ignored _ ho hc =>
      refine ⟨?_, fun _ => rfl⟩
      rintro (hne | ⟨-, a', _, _, heq, hp⟩)
      · exact absurd rfl hne
      · cases heq
        simp [h.owns ha hp] at ho

theorem generation_mono {s t : Provider} {as : List Event} (h : breaker.Reachable s) (hr : breaker.Run s as t) :
    s.breaker.generation ≤ t.breaker.generation := by
  induction hr with
  | nil => exact Nat.le_refl _
  | snoc hr hs ih =>
    refine Nat.le_trans ih ?_
    have hgen := generation_step (BreakerInv.reachable (h.run hr)) hs
    rename_i u v _ e
    by_cases ht : Transition u e v
    · rw [hgen.1 ht]
      exact Nat.le_succ _
    · rw [hgen.2 ht]

/-- The call was admitted, and the breaker has made a transition since. -/
def AdmittedBefore (a : Admitted) (s : Provider) : Prop :=
  ∃ s₀ cooldown now s₁ as s₂ e s₃ bs, breaker.Reachable s₀ ∧ breaker.step s₀ (.allow cooldown now (some a.attempt)) s₁ ∧
    a.call = s₀.calls ∧ breaker.Run s₁ as s₂ ∧ breaker.step s₂ e s₃ ∧ Transition s₂ e s₃ ∧ breaker.Run s₃ bs s

theorem AdmittedBefore.generation_lt {a : Admitted} {s : Provider} (h : AdmittedBefore a s) :
    a.attempt.generation < s.breaker.generation := by
  obtain ⟨s₀, cooldown, now, s₁, as, s₂, e, s₃, bs, h₀, hadmit, -, hrun, hs, ht, hrun'⟩ := h
  have hgen : a.attempt.generation = s₀.breaker.generation := by
    obtain ⟨-, hs⟩ := hadmit
    rw [Provider.allow] at hs
    rcases allow_cases s₀.breaker now cooldown s₀.calls with ⟨-, heq⟩ | heq | ⟨-, -, heq⟩
    · rw [heq, Prod.mk.injEq, Option.some.injEq] at hs
      exact hs.2 ▸ rfl
    · rw [heq] at hs
      cases hs
    · rw [heq, Prod.mk.injEq, Option.some.injEq] at hs
      exact hs.2 ▸ rfl
  have h₁ := h₀.step hadmit
  have h₂ := h₁.run hrun
  have hle := generation_mono h₀ (Lts.Run.single hadmit)
  have hle' := generation_mono h₁ hrun
  have hlt := (generation_step (BreakerInv.reachable h₂) hs).1 ht
  have hle'' := generation_mono (h₂.step hs) hrun'
  omega

/-! ### The streak of timeouts -/

/-- The outcome is a success of any call. -/
def Event.isSuccess : Event → Bool
  | .record _ .success _ => true
  | _ => false

/-- The outcome of a call admitted in this generation. -/
def Event.ofGeneration (generation : ℕ) : Event → Bool
  | .record a _ _ => a.attempt.generation == generation
  | .allow .. => false

def Event.isTimeout : Event → Bool
  | .record _ (.timeout _) _ => true
  | _ => false

/-- What happened after the last event of a kind. -/
def sinceLast (p : Event → Bool) (as : List Event) : List Event := (as.reverse.takeWhile fun e => !p e).reverse

theorem sinceLast_concat (p : Event → Bool) (as : List Event) (e : Event) :
    sinceLast p (as ++ [e]) = if p e then [] else sinceLast p as ++ [e] := by
  by_cases h : p e = true <;> simp [sinceLast, h]

/-- The timeouts of the calls of a generation, since the last success of one of them. -/
def streak (generation : ℕ) (as : List Event) : ℕ :=
  (sinceLast (fun e => e.isSuccess && e.ofGeneration generation) as).countP
    fun e => e.isTimeout && e.ofGeneration generation

theorem streak_concat (g : ℕ) (as : List Event) (e : Event) :
    streak g (as ++ [e]) =
      if e.ofGeneration g then
        if e.isSuccess then 0 else if e.isTimeout then streak g as + 1 else streak g as
      else streak g as := by
  unfold streak
  rw [sinceLast_concat]
  by_cases hg : e.ofGeneration g = true
  · by_cases hs : e.isSuccess = true
    · simp [hg, hs]
    · by_cases ht : e.isTimeout = true <;> simp [hg, hs, ht, List.countP_append]
  · simp [hg, List.countP_append]

theorem streak_eq_zero {g : ℕ} {as : List Event} (h : ∀ e ∈ as, e.ofGeneration g = false) : streak g as = 0 := by
  refine List.countP_eq_zero.mpr fun e he => ?_
  have hmem : e ∈ as := by
    have := (List.takeWhile_sublist (fun e : Event => !(e.isSuccess && e.ofGeneration g))).subset
      (List.mem_reverse.mp he)
    exact List.mem_reverse.mp this
  simp [h e hmem]

/-- **In the closed state the counter is the streak of the generation.** -/
theorem counter_eq_streak {as : List Event} {s : Provider} (h : breaker.Hist as s) :
    (∀ e ∈ as, ∀ g, e.ofGeneration g = true → g ≤ s.breaker.generation) ∧
      (s.breaker.isOpen = false → s.breaker.consecutiveTimeouts = streak s.breaker.generation as) := by
  refine h.induct (P := fun as s => (∀ e ∈ as, ∀ g, e.ofGeneration g = true → g ≤ s.breaker.generation) ∧
      (s.breaker.isOpen = false → s.breaker.consecutiveTimeouts = streak s.breaker.generation as)) ?_ ?_
  · rintro s ⟨hb, -, -⟩
    exact ⟨by simp, fun _ => by rw [hb]; rfl⟩
  · rintro as s e t hist ⟨hgens, hcount⟩ hs
    have hinv := BreakerInv.reachable hist.reachable
    have hmono := generation_mono hist.reachable (Lts.Run.single hs)
    refine ⟨fun e' he' g hg => ?_, ?_⟩
    · rcases List.mem_append.mp he' with he' | he'
      · exact Nat.le_trans (hgens e' he' g hg) hmono
      · rw [List.mem_singleton] at he'
        subst he'
        cases e' with
        | allow => simp [Event.ofGeneration] at hg
        | record a outcome now =>
          simp only [Event.ofGeneration, beq_iff_eq] at hg
          obtain ⟨-, ha, -⟩ := hs
          have := hinv.generation_le a ha
          omega
    · rw [streak_concat]
      cases e with
      | allow cooldown now attempt =>
        obtain ⟨-, hs⟩ := hs
        rw [Provider.allow] at hs
        rcases allow_cases s.breaker now cooldown s.calls with ⟨-, heq⟩ | heq | ⟨hopen, -, heq⟩
        · rw [heq] at hs
          cases hs
          exact hcount
        · rw [heq] at hs
          cases hs
          exact hcount
        · rw [heq] at hs
          cases hs
          exact hcount
      | record a outcome now =>
        obtain ⟨-, ha, rfl⟩ := hs
        unfold Provider.record
        generalize hb : s.breaker.record a.attempt now outcome = b
        have hrec := recorded s.breaker a.attempt now outcome
        rw [hb] at hrec
        intro hclosed
        cases hrec with
        | probeSucceeded ho =>
          -- nothing of the new generation was recorded yet
          have hnew : streak (s.breaker.generation + 1) as = 0 :=
            streak_eq_zero fun e he => by
              by_contra hg
              have := hgens e he _ (by simpa using hg)
              omega
          have hgen := hinv.generation_le a ha
          have hne : a.attempt.generation ≠ s.breaker.generation + 1 := by omega
          simp [Event.ofGeneration, hne, hnew]
        | probeHung ho => simp [CircuitBreaker.isOpen] at hclosed
        | probeFailed ho =>
          have hopen := isOpen_of_ownsProbe hinv ha ho
          simp only [CircuitBreaker.isOpen] at hopen hclosed
          simp [hopen] at hclosed
        | succeeded hc =>
          have hgen := (isOpen_of_current hc).2.2
          simp [Event.ofGeneration, Event.isSuccess, hgen]
        | opened hc => simp [CircuitBreaker.isOpen] at hclosed
        | counted hc =>
          obtain ⟨hclosed', -, hgen⟩ := isOpen_of_current hc
          simp [Event.ofGeneration, Event.isSuccess, Event.isTimeout, hgen, hcount hclosed']
        | ignored _ ho hc =>
          have hcurrent : a.attempt.generation = s.breaker.generation → outcome = .otherError := by
            intro hgen
            refine hc ?_
            have hp : a.attempt.isProbe = false := by
              by_contra hp
              simp [hinv.owns ha (by simpa using hp)] at ho
            simp only [CircuitBreaker.isOpen, Option.isSome_eq_false_iff] at hclosed
            simp [CircuitBreaker.isCurrentClosedGen, hp, hclosed, hgen]
          by_cases hgen : a.attempt.generation = s.breaker.generation
          · simp [Event.ofGeneration, Event.isSuccess, Event.isTimeout, hgen, hcurrent hgen, hcount hclosed]
          · simp [Event.ofGeneration, hgen, hcount hclosed]

/-! ### The guarantees -/

/-- **The guarantees of the breaker**, over every run: at most one probe is outstanding; the
open state is left only through the success of the outstanding probe; the outcome of an
ordinary call that was admitted before the last transition changes nothing; and in the closed
state the counter is the number of timeouts of the calls of this generation since the last
success of one of them. -/
theorem breaker_guarantees {as : List Event} {s : Provider} (h : breaker.Hist as s) :
    (∀ a ∈ s.outstanding, ∀ b ∈ s.outstanding, a.attempt.isProbe = true → b.attempt.isProbe = true → a = b) ∧
      (∀ e t, breaker.step s e t → s.breaker.isOpen = true → t.breaker.isOpen = false →
        ∃ a ∈ s.outstanding, a.attempt.isProbe = true ∧ ∃ now, e = .record a .success now) ∧
      (∀ a outcome now t, breaker.step s (.record a outcome now) t → a.attempt.isProbe = false → AdmittedBefore a s →
        t.breaker = s.breaker) ∧
      (s.breaker.isOpen = false → s.breaker.consecutiveTimeouts = streak s.breaker.generation as) := by
  have hinv := BreakerInv.reachable h.reachable
  refine ⟨fun a ha b hb => hinv.one_probe ha hb, fun e t hs hopen hclosed => ?_, fun a outcome now t hs hp hold => ?_,
    (counter_eq_streak h).2⟩
  · cases e with
    | allow cooldown now attempt =>
      obtain ⟨-, hs⟩ := hs
      rw [Provider.allow] at hs
      rcases allow_cases s.breaker now cooldown s.calls with ⟨-, heq⟩ | heq | ⟨-, -, heq⟩ <;> rw [heq] at hs <;>
        cases hs <;>
        simp [CircuitBreaker.isOpen] at hopen hclosed <;> simp [hclosed] at hopen
    | record a outcome now =>
      obtain ⟨-, ha, rfl⟩ := hs
      unfold Provider.record at hclosed
      generalize hb : s.breaker.record a.attempt now outcome = b at hclosed
      have hrec := recorded s.breaker a.attempt now outcome
      rw [hb] at hrec
      cases hrec with
      | probeSucceeded ho =>
        simp only [CircuitBreaker.ownsProbe, Bool.and_eq_true] at ho
        exact ⟨a, ha, ho.1.1, now, rfl⟩
      | probeHung => simp [CircuitBreaker.isOpen] at hclosed
      | probeFailed => exact absurd hopen (by simpa [CircuitBreaker.isOpen] using hclosed)
      | succeeded hc => exact absurd hopen (by simp [(isOpen_of_current hc).1])
      | opened hc => exact absurd hopen (by simp [(isOpen_of_current hc).1])
      | counted hc => exact absurd hopen (by simp [(isOpen_of_current hc).1])
      | ignored => exact absurd hopen (by simp [hclosed])
  · obtain ⟨-, ha, rfl⟩ := hs
    have hlt := hold.generation_lt
    have hrec := recorded s.breaker a.attempt now outcome
    have howns : s.breaker.ownsProbe a.attempt = false := by simp [CircuitBreaker.ownsProbe, hp]
    have hcurrent : s.breaker.isCurrentClosedGen a.attempt = false := by
      have hne : a.attempt.generation ≠ s.breaker.generation := by omega
      simp [CircuitBreaker.isCurrentClosedGen, hne]
    show s.breaker.record a.attempt now outcome = s.breaker
    cases outcome <;> simp [CircuitBreaker.record, CircuitBreaker.recordSuccess, CircuitBreaker.recordTimeout,
      CircuitBreaker.recordOtherError, howns, hcurrent]

/-! A run in which a call outlives two generations. -/

def slowCall : Admitted := ⟨0, ⟨false, none, 0⟩⟩
def hungCall : Admitted := ⟨1, ⟨false, none, 0⟩⟩
def probeCall : Admitted := ⟨2, ⟨true, some 2, 1⟩⟩
def lateCall : Admitted := ⟨3, ⟨false, none, 2⟩⟩

/-- Two calls, one of which opens the breaker, a probe that closes it, a call that hangs, and
then the success of the first call. -/
def slowRun : List Event :=
  [.allow 0 0 (some slowCall.attempt), .allow 0 0 (some hungCall.attempt), .record hungCall (.timeout 1) 0,
    .allow 0 0 (some probeCall.attempt), .record probeCall .success 0, .allow 0 0 (some lateCall.attempt),
    .record lateCall (.timeout 2) 0, .record slowCall .success 0]

theorem slowRun_hist : breaker.Hist slowRun ⟨⟨1, none, none, 2⟩, 0, 4, []⟩ := by
  have hle : (0 : ℚ) ≤ 0 := le_refl 0
  have h₀ : breaker.init ⟨.new, 0, 0, []⟩ := ⟨rfl, rfl, rfl⟩
  have s₁ : breaker.step ⟨.new, 0, 0, []⟩ (.allow 0 0 (some slowCall.attempt)) ⟨.new, 0, 1, [slowCall]⟩ := ⟨hle, rfl⟩
  have s₂ : breaker.step ⟨.new, 0, 1, [slowCall]⟩ (.allow 0 0 (some hungCall.attempt))
    ⟨.new, 0, 2, [slowCall, hungCall]⟩ :=
    ⟨hle, rfl⟩
  have s₃ : breaker.step ⟨.new, 0, 2, [slowCall, hungCall]⟩ (.record hungCall (.timeout 1) 0)
      ⟨⟨1, some 0, none, 1⟩, 0, 2, [slowCall]⟩ := ⟨hle, by decide, by decide⟩
  have s₄ : breaker.step ⟨⟨1, some 0, none, 1⟩, 0, 2, [slowCall]⟩ (.allow 0 0 (some probeCall.attempt))
      ⟨⟨1, some 0, some 2, 1⟩, 0, 3, [slowCall, probeCall]⟩ :=
    ⟨hle, by simp [Provider.allow, CircuitBreaker.allow, probeCall]⟩
  have s₅ : breaker.step ⟨⟨1, some 0, some 2, 1⟩, 0, 3, [slowCall, probeCall]⟩ (.record probeCall .success 0)
      ⟨⟨0, none, none, 2⟩, 0, 3, [slowCall]⟩ := ⟨hle, by decide, by decide⟩
  have s₆ : breaker.step ⟨⟨0, none, none, 2⟩, 0, 3, [slowCall]⟩ (.allow 0 0 (some lateCall.attempt))
      ⟨⟨0, none, none, 2⟩, 0, 4, [slowCall, lateCall]⟩ := ⟨hle, by decide⟩
  have s₇ : breaker.step ⟨⟨0, none, none, 2⟩, 0, 4, [slowCall, lateCall]⟩ (.record lateCall (.timeout 2) 0)
      ⟨⟨1, none, none, 2⟩, 0, 4, [slowCall]⟩ := ⟨hle, by decide, by decide⟩
  have s₈ : breaker.step ⟨⟨1, none, none, 2⟩, 0, 4, [slowCall]⟩ (.record slowCall .success 0)
    ⟨⟨1, none, none, 2⟩, 0, 4, []⟩ :=
    ⟨hle, by decide, by decide⟩
  exact (((((((((Lts.Hist.init h₀).snoc s₁).snoc s₂).snoc s₃).snoc s₄).snoc s₅).snoc s₆).snoc s₇).snoc s₈)

theorem breaker_guarantees_slowRun :
    breaker.Hist slowRun ⟨⟨1, none, none, 2⟩, 0, 4, []⟩ ∧ streak 2 slowRun = 1 :=
  ⟨slowRun_hist, ((breaker_guarantees slowRun_hist).2.2.2 rfl).symm⟩

/-- A success of an older generation is recorded, and the counter keeps the timeouts before it:
it is not the number of timeouts of the generation since the last success of any call. -/
theorem stale_success : ∃ as s, breaker.Hist as s ∧ s.breaker.isOpen = false ∧
    s.breaker.consecutiveTimeouts ≠
      (sinceLast Event.isSuccess as).countP fun e => e.isTimeout && e.ofGeneration s.breaker.generation :=
  ⟨slowRun, _, slowRun_hist, rfl, by decide⟩

end Sreda.Services
