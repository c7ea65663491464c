import Mathlib.Data.Finset.Card
import Mathlib.Logic.Function.Basic
import Mathlib.Tactic.Common
import Sreda.Services.CircuitBreaker

/-!
# Calls under the guard

`services/llm.py`: `invoke_with_per_call_timeout`, and `ainvoke_with_streaming_timeout` with the call of the first that
it may end with. Both ask the breaker of the provider and the bulkhead of `services/llm_bulkhead.py`, hand the runnable
to a thread of its own and wait for it, but not longer than a limit.

Any number of calls run at the same time, with threads that go on after their call. The steps of a call are what it does
between two points at which another thread may run. Where it waits, the limit ends the wait at once. The tokens of
probes are the numbers of the calls.

What a chunk holds is left out: whether the streamed message makes a second call is any answer. So is the buffer of the
stream, which only makes its thread wait.

## What is proved

* each permit of the bulkhead is released once, when its thread has ended, and the bulkhead counts the permits that are
  out (`WorkerInv`, `CountInv`);
* an admitted attempt gets one outcome, a timeout when the limit passed before the thread had finished and only then, as
  long as no step confounds an exception or a late reader with the limit (`AttemptInv`, `guarded_calls`).
-/

namespace Sreda.Services

open Sreda.Lib

/-! ### Calls -/

/-- `_GuardConfig`. -/
structure GuardConfig where
  enabled : Bool
  maxConcurrent : ℤ
  breakerOpenAfter : ℤ
  breakerCooldown : ℚ
  deriving DecidableEq

/-- What is raised, by the clauses that catch it. -/
inductive CallException where
  | callTimeout
  /-- Another `TimeoutError`. -/
  | timeoutError
  | circuitOpen | bulkheadFull
  /-- Another `Exception`. -/
  | exception
  /-- A `BaseException` that is no `Exception`. -/
  | baseException
  deriving DecidableEq

namespace CallException

/-- `concurrent.futures.TimeoutError`, which `LLMCallTimeout` is too. -/
def isTimeoutError : CallException → Bool
  | callTimeout | timeoutError => true
  | _ => false

/-- `Exception`. -/
def isException : CallException → Bool
  | baseException => false
  | _ => true

end CallException

inductive Ending where
  | returned
  | raised (e : CallException)
  deriving DecidableEq

/-- The two functions, with a thread each. -/
inductive Wrapper where
  | stream | invoke
  deriving DecidableEq

/-- A thread, and the future of what it runs. -/
inductive ThreadPhase where
  | absent
  /-- It has not taken its task. -/
  | pending
  | running
  /-- It has put the end of its stream into the queue. -/
  | reported
  | ended (ending : Ending)
  | cancelled
  deriving DecidableEq

namespace ThreadPhase

/-- No thread has anything to do with the task, or will have. -/
def Over : ThreadPhase → Prop
  | absent | ended _ | cancelled => True
  | _ => False

/-- The runnable has come to its end. -/
def finished : ThreadPhase → Bool
  | reported | ended _ | cancelled => true
  | _ => false

/-- `executor.shutdown(wait=False, cancel_futures=True)`. -/
def shutdown : ThreadPhase → ThreadPhase
  | pending => cancelled
  | p => p

end ThreadPhase

/-- The callback that releases the permit. -/
inductive Callback where
  | unset | set | run
  deriving DecidableEq

structure Worker where
  thread : ThreadPhase := .absent
  /-- `try_acquire` has given a permit. -/
  permit : Bool := false
  callback : Callback := .unset
  /-- How often `release` was called for the permit. -/
  releases : ℕ := 0
  deriving DecidableEq

/-- What the thread of a stream puts into the queue. -/
inductive StreamItem where
  | chunk
  | done
  | error (e : CallException)
  deriving DecidableEq

/-- Where a function stands. -/
inductive CallPhase where
  | idle
  | acquiring (limit : ℤ)
  /-- Before the executor and `submit`. -/
  | entering
  /-- Before `add_done_callback`. -/
  | submitted
  /-- `future.result(timeout=…)`. -/
  | awaiting
  /-- `queue.get()`, or about to come to it. -/
  | reading
  /-- A chunk is added and shown; the limit has passed meanwhile, or not. -/
  | handling (late : Bool)
  /-- `await asyncio.wrap_future(worker_future)`. -/
  | joining
  | finishing
  /-- `await asyncio.to_thread(invoke_with_per_call_timeout, …, _skip_breaker=True)`. -/
  | delegated
  | left (ending : Ending)
  deriving DecidableEq

namespace CallPhase

def Over : CallPhase → Prop
  | left _ => True
  | _ => False

/-- No stream, and no second call, has begun. -/
def Early : CallPhase → Prop
  | idle | acquiring _ | entering | submitted | awaiting => True
  | _ => False

/-- `abandoned`, of a stream. -/
def Abandoned : CallPhase → Prop
  | joining | finishing | delegated | left _ => True
  | _ => False

end CallPhase

/-- A call. -/
structure GuardedCall where
  phase : Wrapper → CallPhase := fun _ => .idle
  worker : Wrapper → Worker := fun _ => {}
  queue : List StreamItem := []
  /-- `combined is not None`. -/
  combined : Bool := false
  /-- `cfg.breaker_open_after`. -/
  openAfter : ℤ := 0
  /-- What the breaker of the provider has answered. -/
  attempt : Option (String × BreakerAttempt) := none
  /-- What the call has recorded on its attempt. -/
  outcomes : List Outcome := []
  /-- The limit has passed before the thread that the call waits for had finished. -/
  hung : Bool := false

namespace GuardedCall

variable (c : GuardedCall)

def go (w : Wrapper) (p : CallPhase) : GuardedCall := { c with phase := Function.update c.phase w p }

theorem phase_go (w w' : Wrapper) (p : CallPhase) : (c.go w p).phase w' = if w' = w then p else c.phase w' :=
  Function.update_apply ..

def setWorker (w : Wrapper) (worker : Worker) : GuardedCall := { c with worker := Function.update c.worker w worker }

def setThread (w : Wrapper) (thread : ThreadPhase) : GuardedCall := c.setWorker w { c.worker w with thread }

/-- `bulkhead.release()`, for the permit of a thread. -/
def release (w : Wrapper) : GuardedCall := c.setWorker w { c.worker w with releases := (c.worker w).releases + 1 }

end GuardedCall

/-- `_BULKHEAD` and `_BREAKERS`. -/
structure Guards where
  inFlight : ℕ
  breakers : String → CircuitBreaker

/-- A call of one of the functions: `ainvoke_with_streaming_timeout` with a callback and a runnable that streams, or
`invoke_with_per_call_timeout`. -/
structure CallArgs where
  wrapper : Wrapper
  provider : Option String
  deriving DecidableEq

/-- What a call or a thread of it does next. -/
inductive CallEvent where
  | begin (w : Wrapper) (cfg : GuardConfig) (now : ℚ)
  | acquire (w : Wrapper) (now : ℚ)
  | submit (w : Wrapper)
  | submitFails (w : Wrapper) (base : Bool) (now : ℚ)
  | register (w : Wrapper)
  | start (w : Wrapper)
  | put
  | report (ending : Ending)
  | stop
  | finish (ending : Ending)
  | release (w : Wrapper)
  | limit (w : Wrapper) (now : ℚ)
  | collect (now : ℚ)
  | drain (now : ℚ)
  | handled (raised : Option CallException) (now : ℚ)
  | join
  | conclude (raised : Option Bool) (now : ℚ)
  | delegate
  | resume (now : ℚ)
  | cancel (now : ℚ)
  deriving DecidableEq

/-- What `invoke_with_per_call_timeout` makes of the future: how it ends, and what it records. -/
def concluded (openAfter : ℤ) : Ending → Ending × Option Outcome
  | .returned => (.returned, some .success)
  | .raised e =>
    if e.isTimeoutError then (.raised .callTimeout, some (.timeout openAfter))
    else if e.isException then (.raised e, some .otherError)
    else (.raised e, none)

/-- What `ainvoke_with_streaming_timeout` records. -/
def streamOutcome (openAfter : ℤ) : Ending → Outcome
  | .returned => .success
  | .raised e => if e = .callTimeout then .timeout openAfter else .otherError

/-- A failure that has nothing to do with time. -/
def plainException (base : Bool) : CallException := if base then .baseException else .exception

section Moves

variable (args : CallArgs)

/-- The caller waits for `invoke_with_per_call_timeout`. -/
def GuardedCall.awaited (c : GuardedCall) : Bool := args.wrapper = .invoke || c.phase .stream = .delegated

/-- A function may be called: the one that the call is of, or the second one, from the first. -/
def GuardedCall.MayBegin (c : GuardedCall) (w : Wrapper) : Prop :=
  c.phase w = .idle ∧ (w = args.wrapper ∨ w = .invoke ∧ c.phase .stream = .delegated)

/-- The provider whose breaker is asked; the second call asks none. -/
def CallArgs.breakerOf (w : Wrapper) : Option String := if w = args.wrapper then args.provider.filter (· ≠ "") else none

/-- A function returns or raises, and records an outcome on its attempt. -/
def GuardedCall.leave (c : GuardedCall) (w : Wrapper) (ending : Ending) (outcome : Option Outcome) : GuardedCall :=
  { c.go w (.left ending) with
    outcomes := c.outcomes ++ if w = args.wrapper ∧ c.attempt.isSome then outcome.toList else [] }

/-- The breaker of the attempt. -/
def Guards.record (g : Guards) (c : GuardedCall) (w : Wrapper) (now : ℚ) (outcome : Option Outcome) : Guards :=
  match c.attempt, outcome with
  | some (provider, attempt), some outcome =>
    if w = args.wrapper then
      { g with breakers := Function.update g.breakers provider ((g.breakers provider).record attempt now outcome) }
    else g
  | _, _ => g

/-- Call `i` makes a step. -/
inductive CallMove (i : ℕ) (g : Guards) (c : GuardedCall) : CallEvent → Guards → GuardedCall → Prop where
  | disabled {w : Wrapper} {cfg : GuardConfig} {now : ℚ} : c.MayBegin args w → cfg.enabled = false →
    CallMove i g c (.begin w cfg now) g (c.go w .entering)
  | unnamed {w : Wrapper} {cfg : GuardConfig} {now : ℚ} : c.MayBegin args w → cfg.enabled = true → args.breakerOf w = none →
    CallMove i g c (.begin w cfg now) g (c.go w (.acquiring cfg.maxConcurrent))
  | refused {w : Wrapper} {cfg : GuardConfig} {now : ℚ} {provider : String} {b : CircuitBreaker} : c.MayBegin args w →
    cfg.enabled = true → args.breakerOf w = some provider →
    (g.breakers provider).allow now cfg.breakerCooldown i = (b, none) →
    CallMove i g c (.begin w cfg now) { g with breakers := Function.update g.breakers provider b }
      (c.leave args w (.raised .circuitOpen) none)
  | admitted {w : Wrapper} {cfg : GuardConfig} {now : ℚ} {provider : String} {b : CircuitBreaker} {attempt : BreakerAttempt} :
    c.MayBegin args w → cfg.enabled = true → args.breakerOf w = some provider →
    (g.breakers provider).allow now cfg.breakerCooldown i = (b, some attempt) →
    CallMove i g c (.begin w cfg now) { g with breakers := Function.update g.breakers provider b }
      { c.go w (.acquiring cfg.maxConcurrent) with attempt := some (provider, attempt), openAfter := cfg.breakerOpenAfter }
  | full {w : Wrapper} {now : ℚ} {limit : ℤ} : c.phase w = .acquiring limit → limit ≤ g.inFlight →
    CallMove i g c (.acquire w now) (g.record args c w now (some .otherError))
      (c.leave args w (.raised .bulkheadFull) (some .otherError))
  | acquired {w : Wrapper} {now : ℚ} {limit : ℤ} : c.phase w = .acquiring limit → g.inFlight < limit →
    CallMove i g c (.acquire w now) { g with inFlight := g.inFlight + 1 }
      ((c.setWorker w { c.worker w with permit := true }).go w .entering)
  | submitted {w : Wrapper} : c.phase w = .entering →
    CallMove i g c (.submit w) g ((c.setThread w .pending).go w .submitted)
  | failed {w : Wrapper} {base : Bool} {now : ℚ} : c.phase w = .entering → (c.worker w).permit = false →
    CallMove i g c (.submitFails w base now) (g.record args c w now (some .otherError))
      (c.leave args w (.raised (plainException base)) (some .otherError))
  | failedHeld {w : Wrapper} {base : Bool} {now : ℚ} : c.phase w = .entering → (c.worker w).permit = true →
    CallMove i g c (.submitFails w base now) { g.record args c w now (some .otherError) with inFlight := g.inFlight - 1 }
      ((c.release w).leave args w (.raised (plainException base)) (some .otherError))
  | registered {w : Wrapper} : c.phase w = .submitted →
    CallMove i g c (.register w) g
      ((c.setWorker w { c.worker w with callback := if (c.worker w).permit then .set else .unset }).go w
        (match w with | .stream => .reading | .invoke => .awaiting))
  -- the threads
  | started {w : Wrapper} : (c.worker w).thread = .pending → CallMove i g c (.start w) g (c.setThread w .running)
  | put : (c.worker .stream).thread = .running → CallMove i g c .put g { c with queue := c.queue ++ [.chunk] }
  | reported {ending : Ending} : (c.worker .stream).thread = .running →
    CallMove i g c (.report ending) g { c.setThread .stream .reported with
      queue := c.queue ++ [match ending with | .returned => .done | .raised e => .error e] }
  | stopped : (c.worker .stream).thread = .reported → CallMove i g c .stop g (c.setThread .stream (.ended .returned))
  /-- The thread sees `abandoned`. -/
  | quit : (c.worker .stream).thread = .running → (c.phase .stream).Abandoned →
    CallMove i g c .stop g (c.setThread .stream (.ended .returned))
  | finished {ending : Ending} : (c.worker .invoke).thread = .running →
    CallMove i g c (.finish ending) g (c.setThread .invoke (.ended ending))
  | released {w : Wrapper} : (c.worker w).thread.Over → (c.worker w).callback = .set →
    CallMove i g c (.release w) { g with inFlight := g.inFlight - 1 }
      ((c.release w).setWorker w { (c.release w).worker w with callback := .run })
  -- `invoke_with_per_call_timeout` waits
  | hangs {now : ℚ} : c.phase .invoke = .awaiting → (∀ ending, (c.worker .invoke).thread ≠ .ended ending) →
    CallMove i g c (.limit .invoke now) (g.record args c .invoke now (some (.timeout c.openAfter)))
      ({ c.setThread .invoke (c.worker .invoke).thread.shutdown with hung := c.hung || c.awaited args }.leave args .invoke
        (.raised .callTimeout) (some (.timeout c.openAfter)))
  | collected {now : ℚ} {ending : Ending} : c.phase .invoke = .awaiting → (c.worker .invoke).thread = .ended ending →
    CallMove i g c (.collect now) (g.record args c .invoke now (concluded c.openAfter ending).2)
      (c.leave args .invoke (concluded c.openAfter ending).1 (concluded c.openAfter ending).2)
  -- `ainvoke_with_streaming_timeout` reads
  | starves {now : ℚ} : c.phase .stream = .reading →
    CallMove i g c (.limit .stream now) (g.record args c .stream now (some (.timeout c.openAfter)))
      ({ c.setThread .stream (c.worker .stream).thread.shutdown with hung := !(c.worker .stream).thread.finished }.leave args
        .stream (.raised .callTimeout) (some (.timeout c.openAfter)))
  | lateHandling {now : ℚ} : c.phase .stream = .handling false →
    CallMove i g c (.limit .stream now) g
      { c.go .stream (.handling true) with hung := !(c.worker .stream).thread.finished }
  | drained {now : ℚ} {queue : List StreamItem} : c.phase .stream = .reading → c.queue = .chunk :: queue →
    CallMove i g c (.drain now) g { c.go .stream (.handling false) with queue, combined := true }
  | drainedDone {now : ℚ} {queue : List StreamItem} : c.phase .stream = .reading → c.queue = .done :: queue →
    CallMove i g c (.drain now) g { c.go .stream .joining with queue }
  | drainedError {now : ℚ} {queue : List StreamItem} {e : CallException} : c.phase .stream = .reading →
    c.queue = .error e :: queue →
    CallMove i g c (.drain now) (g.record args c .stream now (some (streamOutcome c.openAfter (.raised e))))
      ({ c with queue }.leave args .stream (.raised e) (some (streamOutcome c.openAfter (.raised e))))
  | handled {now : ℚ} : c.phase .stream = .handling false → CallMove i g c (.handled none now) g (c.go .stream .reading)
  | handledLate {now : ℚ} : c.phase .stream = .handling true →
    CallMove i g c (.handled none now) (g.record args c .stream now (some (.timeout c.openAfter)))
      (c.leave args .stream (.raised .callTimeout) (some (.timeout c.openAfter)))
  | handledRaised {now : ℚ} {late : Bool} {e : CallException} : c.phase .stream = .handling late →
    CallMove i g c (.handled (some e) now) (g.record args c .stream now (some (streamOutcome c.openAfter (.raised e))))
      (c.leave args .stream (.raised e) (some (streamOutcome c.openAfter (.raised e))))
  /-- The callback of the permit was registered before the one that this waits for. -/
  | joined : c.phase .stream = .joining → (c.worker .stream).thread.Over → (c.worker .stream).callback ≠ .set →
    CallMove i g c .join g (c.go .stream .finishing)
  | concluded {now : ℚ} : c.phase .stream = .finishing → c.combined = true →
    CallMove i g c (.conclude none now) (g.record args c .stream now (some .success))
      (c.leave args .stream .returned (some .success))
  | concludedRaised {now : ℚ} {base : Bool} : c.phase .stream = .finishing → c.combined = true →
    CallMove i g c (.conclude (some base) now) (g.record args c .stream now (some .otherError))
      (c.leave args .stream (.raised (plainException base)) (some .otherError))
  | delegated : c.phase .stream = .finishing → CallMove i g c .delegate g (c.go .stream .delegated)
  | resumed {now : ℚ} {ending : Ending} : c.phase .stream = .delegated → c.phase .invoke = .left ending →
    CallMove i g c (.resume now) (g.record args c .stream now (some (streamOutcome c.openAfter ending)))
      (c.leave args .stream ending (some (streamOutcome c.openAfter ending)))
  -- the task is cancelled where it waits; the wait for the thread swallows that
  | cancelledReading {now : ℚ} : c.phase .stream = .reading →
    CallMove i g c (.cancel now) (g.record args c .stream now (some .otherError))
      ((c.setThread .stream (c.worker .stream).thread.shutdown).leave args .stream (.raised .baseException) (some .otherError))
  | cancelledJoining {now : ℚ} : c.phase .stream = .joining → CallMove i g c (.cancel now) g (c.go .stream .finishing)
  | cancelledDelegated {now : ℚ} : c.phase .stream = .delegated →
    CallMove i g c (.cancel now) (g.record args c .stream now (some .otherError))
      (c.leave args .stream (.raised .baseException) (some .otherError))

end Moves

/-- The guards, and the calls. -/
structure GuardState where
  guards : Guards
  calls : ℕ → GuardedCall

/-- Calls with the arguments `args i` each, in any order of their steps. -/
def guarded (args : ℕ → CallArgs) : Lts GuardState (ℕ × CallEvent) where
  init s := s.guards.inFlight = 0 ∧ s.calls = fun _ => {}
  step s e t := ∃ g c, CallMove (args e.1) e.1 s.guards (s.calls e.1) e.2 g c ∧
    t = { guards := g, calls := Function.update s.calls e.1 c }

/-- The outcome is a timeout. -/
def IsTimeout : Outcome → Prop
  | .timeout _ => True
  | _ => False

/-- No exception is taken for the limit, or kept from the breaker; and the limit is not noticed late. -/
def Unmistaken (args : CallArgs) (c : GuardedCall) : CallEvent → Prop
  | .collect _ => ∀ e, (c.worker .invoke).thread = .ended (.raised e) → c.awaited args = true →
      e.isTimeoutError = false ∧ (args.wrapper = .invoke → e.isException = true)
  | .limit .stream _ => c.phase .stream = .reading → (c.worker .stream).thread.finished = false
  | .drain _ => ∀ queue, c.queue ≠ .error .callTimeout :: queue
  | .handled none _ => c.phase .stream = .handling true → c.hung = true
  | .handled (some e) _ => e = .callTimeout ↔ c.hung = true
  | .cancel _ => c.hung = false
  | _ => True

/-- A step, of a call with an attempt. -/
def SoundStep (args : ℕ → CallArgs) (s : GuardState) (e : ℕ × CallEvent) : Prop :=
  (s.calls e.1).attempt.isSome → Unmistaken (args e.1) (s.calls e.1) e.2

/-! ### Threads and permits -/

namespace Worker

/-- Nothing has been handed to a thread. -/
def Fresh (worker : Worker) : Prop := worker.thread = .absent ∧ worker.callback = .unset ∧ worker.releases = 0

def Submitted (worker : Worker) : Prop := worker.thread ≠ .absent ∧ worker.callback = .unset ∧ worker.releases = 0

/-- The callback looks after the permit. -/
def Managed (worker : Worker) : Prop :=
  worker.thread ≠ .absent ∧ (worker.callback = .unset ↔ worker.permit = false) ∧
    worker.releases = (if worker.callback = .run then 1 else 0) ∧ (worker.callback = .run → worker.thread.Over)

/-- There will be no thread, and the permit is given back. -/
def Failed (worker : Worker) : Prop :=
  worker.thread = .absent ∧ worker.callback = .unset ∧ worker.releases = if worker.permit then 1 else 0

/-- What holds of a worker while its function stands somewhere. -/
def At (worker : Worker) : CallPhase → Prop
  | .idle | .acquiring _ => worker.Fresh ∧ worker.permit = false
  | .entering => worker.Fresh
  | .submitted => worker.Submitted
  | .left _ => worker.Managed ∨ worker.Failed
  | _ => worker.Managed

variable {worker : Worker} {p : CallPhase}

theorem At.setThread (h : worker.At p) {thread : ThreadPhase} (hold : worker.thread ≠ .absent) (hnew : thread ≠ .absent)
    (hover : worker.thread.Over → thread.Over) : { worker with thread }.At p := by
  have hmanaged : worker.Managed → { worker with thread }.Managed :=
    fun ⟨_, hcallback, hreleases, hrun⟩ => ⟨hnew, hcallback, hreleases, fun hr => hover (hrun hr)⟩
  cases p with
  | idle => exact absurd h.1.1 hold
  | acquiring limit => exact absurd h.1.1 hold
  | entering => exact absurd h.1 hold
  | submitted => exact ⟨hnew, h.2⟩
  | left ending => exact .inl (hmanaged (h.resolve_right fun hfailed => hold hfailed.1))
  | _ => exact hmanaged h

/-- A callback that has not run belongs to a thread that is looked after, and so may another one. -/
theorem At.managed_of_set (h : worker.At p) (hset : worker.callback = .set) :
    worker.Managed ∧ ∀ worker' : Worker, worker'.Managed → worker'.At p := by
  have hunset : worker.callback ≠ .unset := by rw [hset]; decide
  cases p with
  | idle => exact absurd h.1.2.1 hunset
  | acquiring limit => exact absurd h.1.2.1 hunset
  | entering => exact absurd h.2.1 hunset
  | submitted => exact absurd h.2.1 hunset
  | left ending => exact ⟨h.resolve_right fun hfailed => hunset hfailed.2.1, fun _ => .inl⟩
  | _ => exact ⟨h, fun _ h' => h'⟩

theorem At.release (h : worker.At p) (hover : worker.thread.Over) (hset : worker.callback = .set) :
    { worker with releases := worker.releases + 1, callback := .run }.At p := by
  obtain ⟨⟨hthread, hcallback, hreleases, -⟩, hback⟩ := h.managed_of_set hset
  have hpermit : ¬ worker.permit = false := fun hp => by
    rw [hcallback.mpr hp] at hset
    cases hset
  exact hback _ ⟨hthread, ⟨fun h => (by cases h), fun h => absurd h hpermit⟩, by simp [hreleases, hset], fun _ => hover⟩

theorem At.holds_of_set (h : worker.At p) (hset : worker.callback = .set) : worker.permit = true ∧ worker.releases = 0 := by
  obtain ⟨⟨-, hcallback, hreleases, -⟩, -⟩ := h.managed_of_set hset
  refine ⟨Bool.eq_true_of_not_eq_false fun hp => ?_, by rw [hreleases, hset]; rfl⟩
  rw [hcallback.mpr hp] at hset
  cases hset

theorem At.once (h : worker.At p) : worker.releases ≤ 1 := by
  have hmanaged : worker.Managed → worker.releases ≤ 1 := by
    rintro ⟨-, -, hreleases, -⟩
    rw [hreleases]
    split <;> decide
  have hzero : worker.releases = 0 → worker.releases ≤ 1 := fun h => by omega
  cases p with
  | idle => exact hzero h.1.2.2
  | acquiring limit => exact hzero h.1.2.2
  | entering => exact hzero h.2.2
  | submitted => exact hzero h.2.2
  | left ending =>
    rcases h with h | ⟨-, -, hreleases⟩
    · exact hmanaged h
    · rw [hreleases]
      split <;> decide
  | _ => exact hmanaged h

/-- A permit that is given back was taken, and its thread has ended. -/
theorem At.ended (h : worker.At p) (hreleased : worker.releases = 1) : worker.permit = true ∧ worker.thread.Over := by
  have hmanaged : worker.Managed → worker.permit = true ∧ worker.thread.Over := by
    rintro ⟨-, hcallback, hreleases, hrun⟩
    rw [hreleased] at hreleases
    split at hreleases
    next hset =>
      refine ⟨Bool.eq_true_of_not_eq_false fun hp => ?_, hrun hset⟩
      rw [hcallback.mpr hp] at hset
      cases hset
    · cases hreleases
  have hzero : worker.releases = 0 → worker.permit = true ∧ worker.thread.Over := fun h => by omega
  cases p with
  | idle => exact hzero h.1.2.2
  | acquiring limit => exact hzero h.1.2.2
  | entering => exact hzero h.2.2
  | submitted => exact hzero h.2.2
  | left ending =>
    rcases h with h | ⟨hthread, -, hreleases⟩
    · exact hmanaged h
    · rw [hreleased] at hreleases
      split at hreleases
      next hp => exact ⟨hp, by rw [hthread]; trivial⟩
      · cases hreleases
  | _ => exact hmanaged h

/-- The permit of a function that is left is given back, unless its callback has still to run. -/
theorem At.back (h : worker.At p) (hover : p.Over) (hpermit : worker.permit = true) (hset : worker.callback ≠ .set) :
    worker.releases = 1 := by
  cases p with
  | left ending =>
    rcases h with ⟨-, hcallback, hreleases, -⟩ | ⟨-, -, hreleases⟩
    · cases hc : worker.callback with
      | unset =>
        rw [hcallback.mp hc] at hpermit
        cases hpermit
      | set => exact absurd hc hset
      | run => rw [hreleases, if_pos hc]
    · rw [hreleases, if_pos hpermit]
  | _ => exact absurd hover id

end Worker

/-- What holds of the threads of a call. -/
def WorkerInv (c : GuardedCall) : Prop := ∀ w, (c.worker w).At (c.phase w)

variable {ending : Ending} {e : CallEvent} {hung : Bool} {outcome : Option Outcome}

section Local

variable {args : CallArgs} {i : ℕ} {g g' : Guards} {c c' : GuardedCall} {w : Wrapper}

theorem WorkerInv.go (h : WorkerInv c) {p : CallPhase} (hp : (c.worker w).At p) : WorkerInv (c.go w p) := by
  intro w'
  simp only [GuardedCall.go, Function.update_apply]
  split
  next heq => exact heq ▸ hp
  · exact h w'

theorem WorkerInv.setWorker (h : WorkerInv c) {worker : Worker} (hw : worker.At (c.phase w)) :
    WorkerInv (c.setWorker w worker) := by
  intro w'
  simp only [GuardedCall.setWorker, Function.update_apply]
  split
  next heq => exact heq ▸ hw
  · exact h w'

theorem WorkerInv.setThread (h : WorkerInv c) {thread : ThreadPhase} (hold : (c.worker w).thread ≠ .absent)
    (hnew : thread ≠ .absent) (hover : (c.worker w).thread.Over → thread.Over) : WorkerInv (c.setThread w thread) :=
  h.setWorker ((h w).setThread hold hnew hover)

/-- A shutdown ends a thread that has not begun. -/
theorem WorkerInv.shutdown (h : WorkerInv c) (hold : (c.worker w).thread ≠ .absent) :
    WorkerInv (c.setThread w (c.worker w).thread.shutdown) := by
  refine h.setThread hold ?_ ?_
  · cases hthread : (c.worker w).thread <;> simp_all [ThreadPhase.shutdown]
  · cases hthread : (c.worker w).thread <;> simp [ThreadPhase.shutdown, ThreadPhase.Over]

theorem WorkerInv.of_same (h : WorkerInv c) (hphase : c'.phase = c.phase) (hworker : c'.worker = c.worker) : WorkerInv c' := by
  intro w
  rw [hphase, hworker]
  exact h w

/-- A function that has looked after its thread is left. -/
theorem WorkerInv.ofLeft (h : WorkerInv c) (hw : (c.worker w).Managed ∨ (c.worker w).Failed)
    (hphase : c'.phase = Function.update c.phase w (.left ending)) (hworker : c'.worker = c.worker) : WorkerInv c' :=
  (h.go (p := .left ending) hw).of_same hphase hworker

/-- A function that waits has a thread, and its callback looks after the permit. -/
theorem WorkerInv.managed (h : WorkerInv c) {p : CallPhase} (hphase : c.phase w = p)
    (hp : p ∈ [.awaiting, .reading, .handling true, .handling false, .joining, .finishing, .delegated]) :
    (c.worker w).Managed := by
  have hw := h w
  rw [hphase] at hw
  simp only [List.mem_cons, List.not_mem_nil, or_false] at hp
  obtain rfl | rfl | rfl | rfl | rfl | rfl | rfl := hp <;> exact hw

/-- **A step** keeps what holds of the threads. -/
theorem WorkerInv.step (h : WorkerInv c) (hmove : CallMove args i g c e g' c') : WorkerInv c' := by
  cases hmove with
  | @disabled w cfg now hbegin _ =>
    have hw := h w
    rw [hbegin.1] at hw
    exact h.go hw.1
  | @unnamed w cfg now hbegin _ _ =>
    have hw := h w
    rw [hbegin.1] at hw
    exact h.go hw
  | @refused w cfg now provider b hbegin _ _ _ =>
    have hw := h w
    rw [hbegin.1] at hw
    exact h.ofLeft (.inr ⟨hw.1.1, hw.1.2.1, by rw [hw.1.2.2, hw.2]; rfl⟩) rfl rfl
  | @admitted w cfg now provider b attempt hbegin _ _ _ =>
    have hw := h w
    rw [hbegin.1] at hw
    have hgo : WorkerInv (c.go w (.acquiring cfg.maxConcurrent)) := h.go hw
    exact hgo.of_same rfl rfl
  | @full w now limit hphase _ =>
    have hw := h w
    rw [hphase] at hw
    exact h.ofLeft (.inr ⟨hw.1.1, hw.1.2.1, by rw [hw.1.2.2, hw.2]; rfl⟩) rfl rfl
  | @acquired w now limit hphase _ =>
    have hw := h w
    rw [hphase] at hw
    intro w'
    by_cases hw' : w' = w
    · subst hw'
      simpa [GuardedCall.go, GuardedCall.setWorker, Worker.At, Worker.Fresh] using hw.1
    · simpa [GuardedCall.go, GuardedCall.setWorker, Function.update_of_ne hw'] using h w'
  | @submitted w hphase =>
    have hw := h w
    rw [hphase] at hw
    intro w'
    by_cases hw' : w' = w
    · subst hw'
      simpa [GuardedCall.go, GuardedCall.setThread, GuardedCall.setWorker, Worker.At, Worker.Submitted] using hw.2
    · simpa [GuardedCall.go, GuardedCall.setThread, GuardedCall.setWorker, Function.update_of_ne hw'] using h w'
  | @failed w base now hphase hpermit =>
    have hw := h w
    rw [hphase] at hw
    exact h.ofLeft (.inr ⟨hw.1, hw.2.1, by rw [hw.2.2, hpermit]; rfl⟩) rfl rfl
  | @failedHeld w base now hphase hpermit =>
    have hw := h w
    rw [hphase] at hw
    have hfailed : { c.worker w with releases := (c.worker w).releases + 1 : Worker }.Failed :=
      ⟨hw.1, hw.2.1, by rw [hw.2.2, hpermit]; rfl⟩
    intro w'
    by_cases hw' : w' = w
    · subst hw'
      simpa [GuardedCall.leave, GuardedCall.go, GuardedCall.release, GuardedCall.setWorker, Worker.At] using Or.inr hfailed
    · simpa [GuardedCall.leave, GuardedCall.go, GuardedCall.release, GuardedCall.setWorker, Function.update_of_ne hw'] using h w'
  | @registered w hphase =>
    have hw := h w
    rw [hphase] at hw
    obtain ⟨hthread, hcallback, hreleases⟩ := hw
    have hmanaged : { c.worker w with callback := if (c.worker w).permit then .set else .unset : Worker }.Managed := by
      cases hpermit : (c.worker w).permit <;> simp [Worker.Managed, hthread, hreleases, hpermit]
    intro w'
    by_cases hw' : w' = w
    · subst hw'
      cases w' <;> simpa [GuardedCall.go, GuardedCall.setWorker, Worker.At] using hmanaged
    · simpa [GuardedCall.go, GuardedCall.setWorker, Function.update_of_ne hw'] using h w'
  | started hthread => exact h.setThread (by rw [hthread]; decide) (by decide) (by rw [hthread]; exact False.elim)
  | put _ => exact h.of_same rfl rfl
  | reported hthread =>
    have hset : WorkerInv (c.setThread .stream .reported) :=
      h.setThread (by rw [hthread]; decide) (by decide) (by rw [hthread]; exact False.elim)
    exact hset.of_same rfl rfl
  | stopped hthread => exact h.setThread (by rw [hthread]; decide) (by decide) fun _ => trivial
  | quit hthread _ => exact h.setThread (by rw [hthread]; decide) (by decide) fun _ => trivial
  | finished hthread => exact h.setThread (by rw [hthread]; decide) (by simp) fun _ => trivial
  | @released w hover hset =>
    have hworker : WorkerInv (c.setWorker w { c.worker w with releases := (c.worker w).releases + 1, callback := .run }) :=
      h.setWorker ((h w).release hover hset)
    refine hworker.of_same rfl ?_
    simp [GuardedCall.release, GuardedCall.setWorker]
  | hangs hphase hfinished =>
    have hmanaged := h.managed hphase (by simp)
    have hdown := h.shutdown hmanaged.1
    refine hdown.ofLeft (.inl ?_) rfl rfl
    have hw := hdown .invoke
    simpa [GuardedCall.setThread, GuardedCall.setWorker, hphase, Worker.At] using hw
  | collected hphase _ => exact h.ofLeft (.inl (h.managed hphase (by simp))) rfl rfl
  | starves hphase =>
    have hmanaged := h.managed hphase (by simp)
    have hdown := h.shutdown hmanaged.1
    refine hdown.ofLeft (.inl ?_) rfl rfl
    have hw := hdown .stream
    simpa [GuardedCall.setThread, GuardedCall.setWorker, hphase, Worker.At] using hw
  | lateHandling hphase =>
    have hgo : WorkerInv (c.go .stream (.handling true)) := h.go (h.managed hphase (by simp))
    exact hgo.of_same rfl rfl
  | drained hphase _ =>
    have hgo : WorkerInv (c.go .stream (.handling false)) := h.go (h.managed hphase (by simp))
    exact hgo.of_same rfl rfl
  | drainedDone hphase _ =>
    have hgo : WorkerInv (c.go .stream .joining) := h.go (h.managed hphase (by simp))
    exact hgo.of_same rfl rfl
  | drainedError hphase _ => exact h.ofLeft (.inl (h.managed hphase (by simp))) rfl rfl
  | handled hphase => exact h.go (h.managed hphase (by simp))
  | handledLate hphase => exact h.ofLeft (.inl (h.managed hphase (by simp))) rfl rfl
  | @handledRaised now late e hphase => exact h.ofLeft (.inl (h.managed hphase (by cases late <;> simp))) rfl rfl
  | joined hphase _ _ => exact h.go (h.managed hphase (by simp))
  | concluded hphase _ => exact h.ofLeft (.inl (h.managed hphase (by simp))) rfl rfl
  | concludedRaised hphase _ => exact h.ofLeft (.inl (h.managed hphase (by simp))) rfl rfl
  | delegated hphase => exact h.go (h.managed hphase (by simp))
  | resumed hphase _ => exact h.ofLeft (.inl (h.managed hphase (by simp))) rfl rfl
  | cancelledReading hphase =>
    have hmanaged := h.managed hphase (by simp)
    have hdown := h.shutdown hmanaged.1
    refine hdown.ofLeft (.inl ?_) rfl rfl
    have hw := hdown .stream
    simpa [GuardedCall.setThread, GuardedCall.setWorker, hphase, Worker.At] using hw
  | cancelledJoining hphase => exact h.go (h.managed hphase (by simp))
  | cancelledDelegated hphase => exact h.ofLeft (.inl (h.managed hphase (by simp))) rfl rfl

/-! ### The bulkhead -/

/-- A permit that is out. -/
def Worker.Holds (worker : Worker) : Prop := worker.permit = true ∧ worker.releases = 0

@[simp] theorem Guards.record_inFlight (args : CallArgs) (g : Guards) (c : GuardedCall) (w : Wrapper) (now : ℚ)
    (outcome : Option Outcome) : (g.record args c w now outcome).inFlight = g.inFlight := by
  unfold Guards.record
  split
  · split <;> rfl
  · rfl

/-- What a step does to the permits of its call. -/
inductive PermitMove (g g' : Guards) (c c' : GuardedCall) : Prop where
  | same (hcount : g'.inFlight = g.inFlight) (hheld : ∀ w, (c'.worker w).Holds ↔ (c.worker w).Holds)
  | taken (w : Wrapper) (hcount : g'.inFlight = g.inFlight + 1) (hfree : ¬ (c.worker w).Holds) (hheld : (c'.worker w).Holds)
      (hother : ∀ w', w' ≠ w → c'.worker w' = c.worker w')
  | returned (w : Wrapper) (hcount : g'.inFlight = g.inFlight - 1) (hheld : (c.worker w).Holds) (hfree : ¬ (c'.worker w).Holds)
      (hother : ∀ w', w' ≠ w → c'.worker w' = c.worker w')

theorem PermitMove.of_worker {worker : Worker} (hcount : g'.inFlight = g.inFlight)
    (hworker : c'.worker = Function.update c.worker w worker) (hpermit : worker.permit = (c.worker w).permit)
    (hreleases : worker.releases = (c.worker w).releases) : PermitMove g g' c c' := by
  refine .same hcount fun w' => ?_
  rw [hworker, Function.update_apply]
  split
  next heq => rw [heq, Worker.Holds, Worker.Holds, hpermit, hreleases]
  · exact Iff.rfl

theorem PermitMove.of_same (hcount : g'.inFlight = g.inFlight) (hworker : c'.worker = c.worker) : PermitMove g g' c c' :=
  .same hcount fun w => by rw [hworker]

/-- A step takes a permit that is counted, gives one back, or leaves them. -/
theorem permitMove (h : WorkerInv c) (hmove : CallMove args i g c e g' c') : PermitMove g g' c c' := by
  cases hmove with
  | @acquired w now limit hphase _ =>
    have hw := h w
    rw [hphase] at hw
    refine .taken w rfl (fun hheld => ?_) ?_ fun w' hw' => ?_
    · exact Bool.false_ne_true (hw.2.symm.trans hheld.1)
    · simp [GuardedCall.go, GuardedCall.setWorker, Worker.Holds, hw.1.2.2]
    · simp [GuardedCall.go, GuardedCall.setWorker, hw']
  | @failedHeld w base now hphase hpermit =>
    have hw := h w
    rw [hphase] at hw
    refine .returned w rfl ⟨hpermit, hw.2.2⟩ ?_ fun w' hw' => ?_
    · simp [GuardedCall.leave, GuardedCall.go, GuardedCall.release, GuardedCall.setWorker, Worker.Holds]
    · simp [GuardedCall.leave, GuardedCall.go, GuardedCall.release, GuardedCall.setWorker, hw']
  | @released w hover hset =>
    refine .returned w rfl ((h w).holds_of_set hset) ?_ fun w' hw' => ?_
    · simp [GuardedCall.release, GuardedCall.setWorker, Worker.Holds]
    · simp [GuardedCall.release, GuardedCall.setWorker, hw']
  | submitted _ => exact .of_worker rfl rfl rfl rfl
  | registered _ => exact .of_worker rfl rfl rfl rfl
  | started _ => exact .of_worker rfl rfl rfl rfl
  | reported _ => exact .of_worker rfl rfl rfl rfl
  | stopped _ => exact .of_worker rfl rfl rfl rfl
  | quit _ _ => exact .of_worker rfl rfl rfl rfl
  | finished _ => exact .of_worker rfl rfl rfl rfl
  | hangs _ _ => exact .of_worker (Guards.record_inFlight ..) rfl rfl rfl
  | starves _ => exact .of_worker (Guards.record_inFlight ..) rfl rfl rfl
  | cancelledReading _ => exact .of_worker (Guards.record_inFlight ..) rfl rfl rfl
  | full _ _ => exact .of_same (Guards.record_inFlight ..) rfl
  | failed _ _ => exact .of_same (Guards.record_inFlight ..) rfl
  | collected _ _ => exact .of_same (Guards.record_inFlight ..) rfl
  | drainedError _ _ => exact .of_same (Guards.record_inFlight ..) rfl
  | handledLate _ => exact .of_same (Guards.record_inFlight ..) rfl
  | handledRaised _ => exact .of_same (Guards.record_inFlight ..) rfl
  | concluded _ _ => exact .of_same (Guards.record_inFlight ..) rfl
  | concludedRaised _ _ => exact .of_same (Guards.record_inFlight ..) rfl
  | resumed _ _ => exact .of_same (Guards.record_inFlight ..) rfl
  | cancelledDelegated _ => exact .of_same (Guards.record_inFlight ..) rfl
  | _ => exact .of_same rfl rfl

/-! ### Outcomes -/

/-- What holds of the attempt of a call whose steps are sound. -/
structure AttemptInv (args : CallArgs) (c : GuardedCall) : Prop where
  fresh : c.phase args.wrapper = .idle → c.attempt = none ∧ c.hung = false
  /-- Only the function that the call is of has an attempt. -/
  plain : args.wrapper = .invoke → c.phase .stream = .idle
  second : args.wrapper = .stream → c.phase .stream ≠ .delegated → ¬ (c.phase .stream).Over → c.phase .invoke = .idle
  unadmitted : c.attempt = none → c.outcomes = []
  calm : ¬ (c.phase args.wrapper).Over → c.outcomes = []
  /-- The limit has passed: the call is about to say so. -/
  late : c.hung = true → ¬ (c.phase args.wrapper).Over → args.wrapper = .stream ∧
    (c.phase .stream = .handling true ∨ c.phase .stream = .delegated ∧ c.phase .invoke = .left (.raised .callTimeout))
  timedOut : c.attempt.isSome → c.phase .stream = .delegated → c.phase .invoke = .left (.raised .callTimeout) → c.hung = true
  outcome : c.attempt.isSome → (c.phase args.wrapper).Over → ∃ o, c.outcomes = [o] ∧ (IsTimeout o ↔ c.hung = true)

theorem AttemptInv.init (args : CallArgs) : AttemptInv args {} where
  fresh _ := ⟨rfl, rfl⟩
  plain _ := rfl
  second _ _ _ := rfl
  unadmitted _ := rfl
  calm _ := rfl
  late h := by cases h
  timedOut h := by cases h
  outcome h := by cases h

theorem AttemptInv.of_same (h : AttemptInv args c) (hphase : c'.phase = c.phase) (hattempt : c'.attempt = c.attempt)
    (houtcomes : c'.outcomes = c.outcomes) (hhung : c'.hung = c.hung) : AttemptInv args c' where
  fresh hp := by rw [hphase] at hp; rw [hattempt, hhung]; exact h.fresh hp
  plain hw := by rw [hphase]; exact h.plain hw
  second hw hd ho := by rw [hphase] at hd ho ⊢; exact h.second hw hd ho
  unadmitted ha := by rw [hattempt] at ha; rw [houtcomes]; exact h.unadmitted ha
  calm ho := by rw [hphase] at ho; rw [houtcomes]; exact h.calm ho
  late hh ho := by rw [hhung] at hh; rw [hphase] at ho ⊢; exact h.late hh ho
  timedOut ha hd hi := by rw [hattempt] at ha; rw [hphase] at hd hi; rw [hhung]; exact h.timedOut ha hd hi
  outcome ha ho := by rw [hattempt] at ha; rw [hphase] at ho; rw [houtcomes, hhung]; exact h.outcome ha ho

theorem AttemptInv.not_hung (h : AttemptInv args c) {p : CallPhase} (hphase : c.phase args.wrapper = p) (hover : ¬ p.Over)
    (hhandling : p ≠ .handling true) (hdelegated : p ≠ .delegated) : c.hung = false := by
  rw [← hphase] at hover hhandling hdelegated
  refine Bool.eq_false_of_not_eq_true fun hh => ?_
  obtain ⟨hw, hp | ⟨hp, -⟩⟩ := h.late hh hover
  · exact hhandling (hw ▸ hp)
  · exact hdelegated (hw ▸ hp)

/-- A function that has begun is the one that the call is of, or the second one. -/
theorem AttemptInv.wrapper_cases (h : AttemptInv args c) (hphase : c.phase w ≠ .idle) :
    w = args.wrapper ∨ w = .invoke ∧ args.wrapper = .stream := by
  cases hw : args.wrapper with
  | stream =>
    cases w with
    | stream => exact .inl rfl
    | invoke => exact .inr ⟨rfl, rfl⟩
  | invoke =>
    cases w with
    | stream => exact absurd (h.plain hw) hphase
    | invoke => exact .inl rfl

theorem AttemptInv.streams (h : AttemptInv args c) (hphase : c.phase .stream ≠ .idle) : .stream = args.wrapper :=
  (h.wrapper_cases hphase).resolve_right fun hw => by cases hw.1

theorem AttemptInv.active (h : AttemptInv args c) (hw : args.wrapper = .stream) (hphase : c.phase .invoke ≠ .idle) :
    c.phase .stream = .delegated ∨ (c.phase .stream).Over := by
  by_contra hnot
  rw [not_or] at hnot
  exact hphase (h.second hw hnot.1 hnot.2)

theorem AttemptInv.goOwner (h : AttemptInv args c) (hw : w = args.wrapper) (hover : ¬ (c.phase w).Over)
    (hdelegated : c.phase w ≠ .delegated) {p : CallPhase} (hidle : p ≠ .idle) (hgoes : ¬ p.Over)
    (hhung : hung = true → w = .stream ∧ p = .handling true) : AttemptInv args { c.go w p with hung } := by
  subst hw
  have hself : (c.go args.wrapper p).phase args.wrapper = p := by rw [GuardedCall.phase_go, if_pos rfl]
  have hinvoke : args.wrapper = .stream → (c.go args.wrapper p).phase .invoke = .idle := by
    intro hw
    rw [hw] at hover hdelegated
    have hne : Wrapper.invoke ≠ args.wrapper := by rw [hw]; decide
    exact (Function.update_of_ne hne ..).trans (h.second hw hdelegated hover)
  constructor
  · exact fun hp => absurd (hself.symm.trans hp) hidle
  · intro hw
    have hne : Wrapper.stream ≠ args.wrapper := by rw [hw]; decide
    exact (Function.update_of_ne hne ..).trans (h.plain hw)
  · exact fun hw _ _ => hinvoke hw
  · exact h.unadmitted
  · exact fun _ => h.calm hover
  · intro hh _
    obtain ⟨hw, hp⟩ := hhung hh
    refine ⟨hw, .inl ?_⟩
    rw [hw, hp] at hself
    rw [hw, hp]
    exact hself
  · intro _ hd hi
    cases hw : args.wrapper with
    | stream =>
      rw [show _ = _ from hinvoke hw] at hi
      cases hi
    | invoke =>
      have hne : Wrapper.stream ≠ args.wrapper := by rw [hw]; decide
      have hstream : (c.go args.wrapper p).phase .stream = .idle := (Function.update_of_ne hne ..).trans (h.plain hw)
      cases hstream.symm.trans hd
  · exact fun _ ho => absurd (hself ▸ ho) hgoes

/-- The second call goes on, or comes to its end. -/
theorem AttemptInv.goSecond (h : AttemptInv args c) (hw : args.wrapper = .stream)
    (hactive : c.phase .stream = .delegated ∨ (c.phase .stream).Over) {p : CallPhase}
    (hkept : (c.phase .stream).Over → hung = c.hung)
    (hhung : c.phase .stream = .delegated → (hung = true → p = .left (.raised .callTimeout)) ∧
      (c.attempt.isSome → p = .left (.raised .callTimeout) → hung = true)) :
    AttemptInv args { c.go .invoke p with hung } := by
  have hstream : (c.go .invoke p).phase .stream = c.phase .stream := by rw [GuardedCall.phase_go, if_neg (by decide)]
  have hinvoke : (c.go .invoke p).phase .invoke = p := by rw [GuardedCall.phase_go, if_pos rfl]
  have howner : (c.go .invoke p).phase args.wrapper = c.phase .stream := by rw [hw, hstream]
  constructor
  · intro hp
    rcases hactive with hd | ho
    · cases hd.symm.trans (howner.symm.trans hp)
    · rw [← howner, show _ = _ from hp] at ho
      exact absurd ho id
  · intro hw'
    cases hw.symm.trans hw'
  · intro _ hd ho
    rcases hactive with hd' | ho'
    · exact absurd (hstream.trans hd') hd
    · exact absurd (hstream ▸ ho') ho
  · exact h.unadmitted
  · intro ho
    exact h.calm (by rw [hw, ← hstream, ← hw]; exact ho)
  · intro hh ho
    have hd : c.phase .stream = .delegated := hactive.resolve_right fun ho' => ho (howner ▸ ho')
    exact ⟨hw, .inr ⟨hstream.trans hd, hinvoke.trans ((hhung hd).1 hh)⟩⟩
  · intro ha hd hi
    exact (hhung (hstream.symm.trans hd)).2 ha (hinvoke.symm.trans hi)
  · intro ha ho
    have ho' : (c.phase .stream).Over := howner ▸ ho
    obtain ⟨o, houtcomes, htimeout⟩ := h.outcome ha (by rw [hw]; exact ho')
    exact ⟨o, houtcomes, htimeout.trans (by rw [← hkept ho'])⟩

theorem AttemptInv.enter (h : AttemptInv args c) {limit : ℤ} (hphase : c.phase args.wrapper = .acquiring limit)
    {attempt : String × BreakerAttempt} {openAfter : ℤ} : AttemptInv args { c with attempt := some attempt, openAfter } where
  fresh hp := by cases hphase.symm.trans hp
  plain := h.plain
  second := h.second
  unadmitted ha := by cases ha
  calm := h.calm
  late := h.late
  timedOut _ hd _ := by
    cases hw : args.wrapper with
    | stream =>
      rw [hw] at hphase
      cases hphase.symm.trans hd
    | invoke => cases (h.plain hw).symm.trans hd
  outcome _ ho := by
    have ho : (c.phase args.wrapper).Over := ho
    rw [hphase] at ho
    exact absurd ho id

/-- **The function that the call is of is left**, with its outcome. -/
theorem AttemptInv.leave (h : AttemptInv args c) (hw : w = args.wrapper) (hover : ¬ (c.phase w).Over)
    (hout : c.attempt.isSome → ∃ o, outcome = some o ∧ (IsTimeout o ↔ hung = true)) :
    AttemptInv args ({ c with hung }.leave args w ending outcome) := by
  subst hw
  have hphase : ({ c with hung }.leave args args.wrapper ending outcome).phase args.wrapper = .left ending :=
    Function.update_self ..
  have hstream : args.wrapper = .stream →
      ({ c with hung }.leave args args.wrapper ending outcome).phase .stream = .left ending := fun hw => by rw [← hw, hphase]
  have hplain : args.wrapper = .invoke → ({ c with hung }.leave args args.wrapper ending outcome).phase .stream = .idle := by
    intro hw
    have hne : Wrapper.stream ≠ args.wrapper := by rw [hw]; decide
    exact (Function.update_of_ne hne ..).trans (h.plain hw)
  have hdone : (({ c with hung }.leave args args.wrapper ending outcome).phase args.wrapper).Over := by rw [hphase]; trivial
  constructor
  · intro hp
    rw [hphase] at hp
    cases hp
  · exact hplain
  · intro hw _ ho
    rw [hstream hw] at ho
    exact absurd trivial ho
  · intro ha
    have ha : c.attempt = none := ha
    simp [GuardedCall.leave, GuardedCall.go, ha, h.unadmitted ha]
  · exact fun ho => absurd hdone ho
  · exact fun _ ho => absurd hdone ho
  · intro _ hd _
    cases hw : args.wrapper with
    | stream =>
      rw [hstream hw] at hd
      cases hd
    | invoke =>
      rw [hplain hw] at hd
      cases hd
  · intro ha _
    obtain ⟨o, rfl, htimeout⟩ := hout ha
    have ha : c.attempt.isSome := ha
    exact ⟨o, by simp [GuardedCall.leave, GuardedCall.go, ha, h.calm hover], htimeout⟩

theorem AttemptInv.leaveSecond (h : AttemptInv args c) (hw : args.wrapper = .stream)
    (hactive : c.phase .stream = .delegated ∨ (c.phase .stream).Over)
    (hkept : (c.phase .stream).Over → hung = c.hung)
    (hhung : c.phase .stream = .delegated → (hung = true → ending = .raised .callTimeout) ∧
      (c.attempt.isSome → ending = .raised .callTimeout → hung = true)) :
    AttemptInv args ({ c with hung }.leave args .invoke ending outcome) := by
  have hgo : AttemptInv args { c.go .invoke (.left ending) with hung } :=
    h.goSecond hw hactive hkept fun hd => ⟨fun hh => by rw [(hhung hd).1 hh], fun ha hp => (hhung hd).2 ha (by cases hp; rfl)⟩
  refine hgo.of_same rfl rfl ?_ rfl
  simp [GuardedCall.leave, GuardedCall.go, hw]

/-- A function that has begun, or may. -/
def Begun (args : CallArgs) (c : GuardedCall) (w : Wrapper) : Prop :=
  w = args.wrapper ∨ w = .invoke ∧ args.wrapper = .stream ∧ (c.phase .stream = .delegated ∨ (c.phase .stream).Over)

theorem AttemptInv.begun (h : AttemptInv args c) (hphase : c.phase w ≠ .idle) : Begun args c w := by
  rcases h.wrapper_cases hphase with hw | ⟨rfl, hw⟩
  · exact .inl hw
  · exact .inr ⟨rfl, hw, h.active hw hphase⟩

theorem AttemptInv.mayBegin (h : AttemptInv args c) (hbegin : c.MayBegin args w) : Begun args c w := by
  obtain ⟨-, hw | ⟨rfl, hdelegated⟩⟩ := hbegin
  · exact .inl hw
  · exact .inr ⟨rfl, (h.streams (by rw [hdelegated]; decide)).symm, .inl hdelegated⟩

theorem CallPhase.Early.not_over {p : CallPhase} (h : p.Early) : ¬ p.Over := by
  cases p <;> first | exact id | exact absurd h id

theorem CallPhase.Early.ne {p q : CallPhase} (h : p.Early) (hq : ¬ q.Early) : p ≠ q := by
  rintro rfl
  exact hq h

theorem AttemptInv.not_hung_early (h : AttemptInv args c) (hearly : (c.phase w).Early) :
    (w = args.wrapper → c.hung = false) ∧
      (w = .invoke → args.wrapper = .stream → c.phase .stream = .delegated → c.hung = false) := by
  constructor
  · rintro rfl
    exact h.not_hung rfl hearly.not_over (hearly.ne id) (hearly.ne id)
  · rintro rfl hw hd
    refine Bool.eq_false_of_not_eq_true fun hh => ?_
    obtain ⟨-, hp | ⟨-, hp⟩⟩ := h.late hh (by rw [hw, hd]; exact id)
    · cases hd.symm.trans hp
    · rw [hp] at hearly
      exact hearly

theorem AttemptInv.goEarly (h : AttemptInv args c) (hw : Begun args c w) (hearly : (c.phase w).Early) {p : CallPhase}
    (hidle : p ≠ .idle) (hgoes : ¬ p.Over) : AttemptInv args (c.go w p) := by
  obtain ⟨hself, hsecond⟩ := h.not_hung_early hearly
  rcases hw with hw | ⟨rfl, hw, hactive⟩
  · refine h.goOwner hw hearly.not_over (hearly.ne id) hidle hgoes fun hh => ?_
    rw [hself hw] at hh
    cases hh
  · refine h.goSecond hw hactive (fun _ => rfl) fun hd => ⟨fun hh => ?_, fun _ hp => absurd (by rw [hp]; trivial) hgoes⟩
    rw [hsecond rfl hw hd] at hh
    cases hh

/-- Either function is left before it waits, or when the future has ended. -/
theorem AttemptInv.leaveEarly (h : AttemptInv args c) (hw : Begun args c w) (hearly : (c.phase w).Early)
    (hout : w = args.wrapper → c.attempt.isSome → ∃ o, outcome = some o ∧ ¬ IsTimeout o)
    (hending : c.attempt.isSome → c.phase .stream = .delegated → ending ≠ .raised .callTimeout) :
    AttemptInv args (c.leave args w ending outcome) := by
  obtain ⟨hself, hsecond⟩ := h.not_hung_early hearly
  rcases hw with hw | ⟨rfl, hw, hactive⟩
  · refine h.leave hw hearly.not_over fun ha => ?_
    obtain ⟨o, ho, htimeout⟩ := hout hw ha
    exact ⟨o, ho, by simp [htimeout, hself hw]⟩
  · refine h.leaveSecond hw hactive (fun _ => rfl) fun hd => ⟨fun hh => ?_, fun ha he => absurd he (hending ha hd)⟩
    rw [hsecond rfl hw hd] at hh
    cases hh

theorem breakerOf_eq_some {provider : String} (h : args.breakerOf w = some provider) : w = args.wrapper := by
  unfold CallArgs.breakerOf at h
  split at h
  next hw => exact hw
  · cases h

theorem AttemptInv.goStream (h : AttemptInv args c) {p q : CallPhase} (hphase : c.phase .stream = p) (hidle : p ≠ .idle)
    (hover : ¬ p.Over) (hhandling : p ≠ .handling true) (hdelegated : p ≠ .delegated) (hq : q ≠ .idle) (hgoes : ¬ q.Over) :
    AttemptInv args (c.go .stream q) := by
  have hw : .stream = args.wrapper := h.streams (by rw [hphase]; exact hidle)
  refine h.goOwner hw (by rw [hphase]; exact hover) (by rw [hphase]; exact hdelegated) hq hgoes fun hh => ?_
  rw [h.not_hung (hw ▸ hphase) hover hhandling hdelegated] at hh
  cases hh

/-- The stream is left, and the limit has passed before its end or not. -/
theorem AttemptInv.leaveStream (h : AttemptInv args c) {p : CallPhase} (hphase : c.phase .stream = p) (hidle : p ≠ .idle)
    (hover : ¬ p.Over) {outcome : Outcome}
    (hout : c.attempt.isSome → (IsTimeout outcome ↔ hung = true)) :
    AttemptInv args ({ c with hung }.leave args .stream ending (some outcome)) :=
  h.leave (h.streams (by rw [hphase]; exact hidle)) (by rw [hphase]; exact hover) fun ha => ⟨outcome, rfl, hout ha⟩

theorem isTimeout_streamOutcome {openAfter : ℤ} {e : CallException} :
    IsTimeout (streamOutcome openAfter (.raised e)) ↔ e = .callTimeout := by
  by_cases he : e = .callTimeout <;> simp [streamOutcome, IsTimeout, he]

/-- **A sound step** keeps what holds of the attempt. -/
theorem AttemptInv.step (h : AttemptInv args c) (hmove : CallMove args i g c e g' c')
    (hsound : c.attempt.isSome → Unmistaken args c e) : AttemptInv args c' := by
  cases hmove with
  | disabled hbegin _ => exact h.goEarly (h.mayBegin hbegin) (by rw [hbegin.1]; trivial) (by decide) id
  | unnamed hbegin _ _ => exact h.goEarly (h.mayBegin hbegin) (by rw [hbegin.1]; trivial) (by simp) id
  | refused hbegin _ hbreaker _ =>
    have hw := breakerOf_eq_some hbreaker
    have hnone := (h.fresh (hw ▸ hbegin.1)).1
    exact h.leaveEarly (h.mayBegin hbegin) (by rw [hbegin.1]; trivial) (fun _ ha => by rw [hnone] at ha; cases ha)
      fun ha => by rw [hnone] at ha; cases ha
  | @admitted w cfg now provider b attempt hbegin _ hbreaker _ =>
    have hw := breakerOf_eq_some hbreaker
    have hgo : AttemptInv args (c.go w (.acquiring cfg.maxConcurrent)) :=
      h.goEarly (h.mayBegin hbegin) (by rw [hbegin.1]; trivial) (by simp) id
    exact hgo.enter (by rw [← hw, GuardedCall.phase_go, if_pos rfl])
  | full hphase _ =>
    refine h.leaveEarly (h.begun (by rw [hphase]; simp)) (by rw [hphase]; trivial) (fun _ _ => ⟨_, rfl, id⟩) fun _ _ => by simp
  | acquired hphase _ =>
    exact (h.goEarly (h.begun (by rw [hphase]; simp)) (by rw [hphase]; trivial) (by decide) id).of_same rfl rfl rfl rfl
  | submitted hphase =>
    exact (h.goEarly (h.begun (by rw [hphase]; simp)) (by rw [hphase]; trivial) (by decide) id).of_same rfl rfl rfl rfl
  | @failed w base now hphase _ =>
    refine h.leaveEarly (h.begun (by rw [hphase]; simp)) (by rw [hphase]; trivial) (fun _ _ => ⟨_, rfl, id⟩) fun _ _ => ?_
    cases base <;> decide
  | @failedHeld w base now hphase _ =>
    have hrelease : AttemptInv args (c.release w) := h.of_same rfl rfl rfl rfl
    have hphase : (c.release w).phase w = .entering := hphase
    refine hrelease.leaveEarly (hrelease.begun (by rw [hphase]; simp)) (by rw [hphase]; trivial) (fun _ _ => ⟨_, rfl, id⟩)
      fun _ _ => ?_
    cases base <;> decide
  | @registered w hphase =>
    refine (h.goEarly (h.begun (by rw [hphase]; simp)) (by rw [hphase]; trivial) ?_ ?_).of_same rfl rfl rfl rfl
    · cases w <;> decide
    · cases w <;> exact id
  | started _ => exact h.of_same rfl rfl rfl rfl
  | put _ => exact h.of_same rfl rfl rfl rfl
  | reported _ => exact h.of_same rfl rfl rfl rfl
  | stopped _ => exact h.of_same rfl rfl rfl rfl
  | quit _ _ => exact h.of_same rfl rfl rfl rfl
  | finished _ => exact h.of_same rfl rfl rfl rfl
  | released _ _ => exact h.of_same rfl rfl rfl rfl
  | hangs hphase hfinished =>
    have hdown : AttemptInv args (c.setThread .invoke (c.worker .invoke).thread.shutdown) := h.of_same rfl rfl rfl rfl
    have hphase : (c.setThread .invoke (c.worker .invoke).thread.shutdown).phase .invoke = .awaiting := hphase
    rcases hdown.begun (w := .invoke) (by rw [hphase]; decide) with hw | ⟨-, hw, hactive⟩
    · refine hdown.leave hw (by rw [hphase]; exact id) fun _ => ⟨_, rfl, ?_⟩
      simp [IsTimeout, GuardedCall.awaited, ← hw]
    · refine hdown.leaveSecond hw hactive (fun ho => ?_) fun hd => ⟨fun _ => rfl, fun _ _ => ?_⟩
      · have ho : (c.phase .stream).Over := ho
        have hne : c.phase .stream ≠ .delegated := fun hd => by rw [hd] at ho; exact ho
        simp [GuardedCall.awaited, GuardedCall.setThread, GuardedCall.setWorker, hw, hne]
      · have hd : c.phase .stream = .delegated := hd
        simp [GuardedCall.awaited, hd]
  | @collected now ending hphase hthread =>
    refine h.leaveEarly (h.begun (by rw [hphase]; simp)) (by rw [hphase]; trivial) (fun hw ha => ?_) fun ha hd => ?_
    · cases ending with
      | returned => exact ⟨.success, rfl, id⟩
      | raised e =>
        obtain ⟨hfast, hcaught⟩ := hsound ha e hthread (by simp [GuardedCall.awaited, ← hw])
        exact ⟨.otherError, by simp [Services.concluded, hfast, hcaught hw.symm], id⟩
    · cases ending with
      | returned => simp [Services.concluded]
      | raised e =>
        have hfast := (hsound ha e hthread (by simp [GuardedCall.awaited, hd])).1
        cases e <;> simp_all [Services.concluded, CallException.isTimeoutError, CallException.isException]
  | starves hphase =>
    have hdown : AttemptInv args (c.setThread .stream (c.worker .stream).thread.shutdown) := h.of_same rfl rfl rfl rfl
    refine hdown.leaveStream hphase (by decide) id fun ha => ?_
    have hfinished := hsound ha hphase
    simp [IsTimeout, hfinished]
  | lateHandling hphase =>
    have hw := h.streams (by rw [hphase]; decide)
    exact h.goOwner hw (by rw [hphase]; exact id) (by rw [hphase]; decide) (by decide) id fun _ => ⟨rfl, rfl⟩
  | drained hphase _ =>
    exact (h.goStream hphase (by decide) id (by decide) (by decide) (by decide) id).of_same rfl rfl rfl rfl
  | drainedDone hphase _ =>
    exact (h.goStream hphase (by decide) id (by decide) (by decide) (by decide) id).of_same rfl rfl rfl rfl
  | @drainedError now queue e hphase hqueue =>
    have hrest : AttemptInv args { c with queue } := h.of_same rfl rfl rfl rfl
    have hw := h.streams (by rw [hphase]; decide)
    have hnot := h.not_hung (hw ▸ hphase) id (by decide) (by decide)
    refine hrest.leaveStream hphase (by decide) id fun ha => ?_
    have he : e ≠ .callTimeout := by
      rintro rfl
      exact hsound ha queue hqueue
    rw [isTimeout_streamOutcome]
    simp [he, hnot]
  | handled hphase => exact h.goStream hphase (by decide) id (by decide) (by decide) (by decide) id
  | handledLate hphase =>
    refine h.leaveStream hphase (by decide) id fun ha => ?_
    simp [IsTimeout, hsound ha hphase]
  | @handledRaised now late e hphase =>
    refine h.leaveStream hphase (by simp) id fun ha => ?_
    rw [isTimeout_streamOutcome]
    exact hsound ha
  | joined hphase _ _ => exact h.goStream hphase (by decide) id (by decide) (by decide) (by decide) id
  | concluded hphase _ =>
    have hw := h.streams (by rw [hphase]; decide)
    have hnot := h.not_hung (hw ▸ hphase) id (by decide) (by decide)
    refine h.leaveStream hphase (by decide) id fun _ => ?_
    simp [IsTimeout, hnot]
  | concludedRaised hphase _ =>
    have hw := h.streams (by rw [hphase]; decide)
    have hnot := h.not_hung (hw ▸ hphase) id (by decide) (by decide)
    refine h.leaveStream hphase (by decide) id fun _ => ?_
    simp [IsTimeout, hnot]
  | delegated hphase => exact h.goStream hphase (by decide) id (by decide) (by decide) (by decide) id
  | @resumed now ending hphase hinvoke =>
    have hw := h.streams (by rw [hphase]; decide)
    have hlate : c.hung = true → ending = .raised .callTimeout := by
      intro hh
      obtain ⟨-, hp | ⟨-, hp⟩⟩ := h.late hh (by rw [← hw, hphase]; exact id)
      · cases hphase.symm.trans hp
      · cases hinvoke.symm.trans hp
        rfl
    refine h.leaveStream hphase (by decide) id fun ha => ?_
    cases ending with
    | returned =>
      have hnot : c.hung = false := Bool.eq_false_of_not_eq_true fun hh => by cases hlate hh
      simp [streamOutcome, IsTimeout, hnot]
    | raised e =>
      rw [isTimeout_streamOutcome]
      constructor
      · rintro rfl
        exact h.timedOut ha hphase hinvoke
      · intro hh
        cases hlate hh
        rfl
  | cancelledReading hphase =>
    have hdown : AttemptInv args (c.setThread .stream (c.worker .stream).thread.shutdown) := h.of_same rfl rfl rfl rfl
    have hw := h.streams (by rw [hphase]; decide)
    have hnot := h.not_hung (hw ▸ hphase) id (by decide) (by decide)
    refine hdown.leaveStream hphase (by decide) id fun _ => ?_
    simp [IsTimeout, hnot]
  | cancelledJoining hphase => exact h.goStream hphase (by decide) id (by decide) (by decide) (by decide) id
  | cancelledDelegated hphase =>
    refine h.leaveStream hphase (by decide) id fun ha => ?_
    have hnot : c.hung = false := hsound ha
    simp [IsTimeout, hnot]

end Local

/-! ### Runs -/

variable {args : ℕ → CallArgs} {s t : GuardState}

/-- A permit: given back once at the most, when it was taken and its thread has ended; and when its function has been left,
its thread has ended and no callback is left to run, it has been given back. -/
structure PermitKept (args : ℕ → CallArgs) (s : GuardState) (i : ℕ) (w : Wrapper) : Prop where
  once : ((s.calls i).worker w).releases ≤ 1
  ended : ((s.calls i).worker w).releases = 1 → ((s.calls i).worker w).permit = true ∧ ((s.calls i).worker w).thread.Over
  back : ((s.calls i).worker w).permit = true → ((s.calls i).phase w).Over → ((s.calls i).worker w).thread.Over →
    (¬ ∃ t, (guarded args).step s (i, .release w) t) → ((s.calls i).worker w).releases = 1

/-- One outcome of an admitted attempt, when the call is over; it is a timeout when the limit passed before the thread had
finished, and only then. -/
structure OneOutcome (args : CallArgs) (c : GuardedCall) : Prop where
  unadmitted : c.attempt = none → c.outcomes = []
  open_ : ¬ (c.phase args.wrapper).Over → c.outcomes = []
  closed : c.attempt.isSome → (c.phase args.wrapper).Over → ∃ o, c.outcomes = [o] ∧ (IsTimeout o ↔ c.hung = true)

theorem call_step {P : ℕ → GuardedCall → Prop} {e : ℕ × CallEvent} (h : ∀ i, P i (s.calls i))
    (hstep : (guarded args).step s e t)
    (hmove : ∀ g c, CallMove (args e.1) e.1 s.guards (s.calls e.1) e.2 g c → P e.1 c) : ∀ i, P i (t.calls i) := by
  obtain ⟨g, c, hm, rfl⟩ := hstep
  intro i
  simp only [Function.update_apply]
  split
  next hi => exact hi ▸ hmove g c hm
  · exact h i

theorem workerInv_of_reachable (h : (guarded args).Reachable s) : ∀ i, WorkerInv (s.calls i) := by
  refine h.induct (P := fun s => ∀ i, WorkerInv (s.calls i)) ?_ ?_
  · rintro s ⟨-, hcalls⟩ i w
    rw [hcalls]
    exact ⟨⟨rfl, rfl, rfl⟩, rfl⟩
  · intro s e t _ hinv hstep
    exact call_step hinv hstep fun _ _ hmove => (hinv e.1).step hmove

theorem attemptInv_of_reachable (h : ((guarded args).guard (SoundStep args)).Reachable s) :
    ∀ i, AttemptInv (args i) (s.calls i) := by
  refine h.induct (P := fun s => ∀ i, AttemptInv (args i) (s.calls i)) ?_ ?_
  · rintro s ⟨-, hcalls⟩ i
    rw [hcalls]
    exact .init (args i)
  · rintro s e t _ hinv ⟨hstep, hsound⟩
    exact call_step hinv hstep fun _ _ hmove => (hinv e.1).step hmove hsound

/-- The bulkhead counts the permits that are out. -/
def CountInv (s : GuardState) : Prop :=
  ∃ held : Finset (ℕ × Wrapper), (∀ i w, (i, w) ∈ held ↔ ((s.calls i).worker w).Holds) ∧ held.card = s.guards.inFlight

theorem CountInv.step {e : ℕ × CallEvent} (h : CountInv s) (hinv : ∀ i, WorkerInv (s.calls i))
    (hstep : (guarded args).step s e t) : CountInv t := by
  obtain ⟨held, hmem, hcard⟩ := h
  obtain ⟨i, event⟩ := e
  obtain ⟨g, c, hmove, rfl⟩ := hstep
  have hcall : ∀ j, j ≠ i → (Function.update s.calls i c) j = s.calls j := fun j hj => Function.update_of_ne hj ..
  have hself : (Function.update s.calls i c) i = c := Function.update_self ..
  cases permitMove (hinv i) hmove with
  | same hcount hheld =>
    refine ⟨held, fun j w => ?_, hcard.trans hcount.symm⟩
    by_cases hj : j = i
    · subst hj
      rw [hmem]
      simpa [hself] using (hheld w).symm
    · simpa [hcall j hj] using hmem j w
  | taken w hcount hfree hheld hother =>
    refine ⟨insert (i, w) held, fun j w' => ?_, ?_⟩
    · rw [Finset.mem_insert, Prod.mk.injEq, hmem]
      by_cases hj : j = i
      · subst hj
        by_cases hw : w' = w
        · subst hw
          simpa [hself] using hheld
        · simp [hw, hother w' hw]
      · simp [hj]
    · rw [Finset.card_insert_of_notMem (fun hin => hfree ((hmem i w).mp hin)), hcard]
      exact hcount.symm
  | returned w hcount hheld hfree hother =>
    have hin : (i, w) ∈ held := (hmem i w).mpr hheld
    refine ⟨held.erase (i, w), fun j w' => ?_, ?_⟩
    · rw [Finset.mem_erase, ne_eq, Prod.mk.injEq, hmem]
      by_cases hj : j = i
      · subst hj
        by_cases hw : w' = w
        · subst hw
          simpa [hself] using hfree
        · simp [hw, hother w' hw]
      · simp [hj]
    · rw [Finset.card_erase_of_mem hin, hcard]
      exact hcount.symm

theorem countInv_of_reachable (h : (guarded args).Reachable s) : CountInv s := by
  refine h.induct ?_ fun s e t hs hinv hstep => hinv.step (workerInv_of_reachable hs) hstep
  rintro s ⟨hzero, hcalls⟩
  refine ⟨∅, fun i w => ?_, by rw [hzero]; rfl⟩
  rw [hcalls]
  simp [Worker.Holds]

/-- **Calls under the guard**: in every run whose steps are sound, a call records one outcome on an attempt that it was
given, and it is a timeout exactly when the limit passed before the thread had finished; and in every run, a permit is
given back once, not before its thread has ended, and the bulkhead counts the permits that are out. -/
theorem guarded_calls (args : ℕ → CallArgs) :
    (∀ s, ((guarded args).guard (SoundStep args)).Reachable s → ∀ i, OneOutcome (args i) (s.calls i)) ∧
      ∀ s, (guarded args).Reachable s → (∀ i w, PermitKept args s i w) ∧ CountInv s := by
  refine ⟨fun s hs i => ?_, fun s hs => ⟨fun i w => ?_, countInv_of_reachable hs⟩⟩
  · have h := attemptInv_of_reachable hs i
    exact ⟨h.unadmitted, h.calm, h.outcome⟩
  · have h := workerInv_of_reachable hs i w
    refine ⟨h.once, h.ended, fun hpermit hover hthread hno => h.back hover hpermit fun hset => hno ?_⟩
    exact ⟨_, _, _, .released hthread hset, rfl⟩

/-! ### A failure that is read as something else -/

theorem reachable_move {i : ℕ} {c c' : GuardedCall} {g : Guards} (h : (guarded args).Reachable s)
    (hcall : s.calls i = c) (hmove : CallMove (args i) i s.guards c e g c') :
    ∃ t, (guarded args).Reachable t ∧ t.guards = g ∧ t.calls i = c' := by
  subst hcall
  exact ⟨_, h.step (L := guarded args) (a := (i, e)) ⟨g, c', hmove, rfl⟩, rfl, Function.update_self ..⟩

/-- A direct call, whose runnable ends at once. -/
theorem run_collect (ending : Ending) :
    ∃ s, (guarded fun _ => ⟨.invoke, some "mimo"⟩).Reachable s ∧ (s.calls 0).attempt.isSome ∧
      (s.calls 0).phase .invoke = .left (concluded 3 ending).1 ∧
      (s.calls 0).outcomes = (concluded 3 ending).2.toList ∧ (s.calls 0).hung = false := by
  have hstart : (guarded fun _ => ⟨.invoke, some "mimo"⟩).Reachable ⟨⟨0, fun _ => .new⟩, fun _ => {}⟩ :=
    ⟨[], .init ⟨rfl, rfl⟩⟩
  obtain ⟨s₁, h₁, hg₁, hc₁⟩ := reachable_move (i := 0) (e := .begin .invoke ⟨true, 8, 3, 30⟩ 0) hstart rfl
    (.admitted ⟨rfl, .inl rfl⟩ rfl rfl rfl)
  obtain ⟨s₂, h₂, -, hc₂⟩ := reachable_move (e := .acquire .invoke 0) h₁ hc₁ (.acquired rfl (by rw [hg₁]; decide))
  obtain ⟨s₃, h₃, -, hc₃⟩ := reachable_move (e := .submit .invoke) h₂ hc₂ (.submitted rfl)
  obtain ⟨s₄, h₄, -, hc₄⟩ := reachable_move (e := .register .invoke) h₃ hc₃ (.registered rfl)
  obtain ⟨s₅, h₅, -, hc₅⟩ := reachable_move (e := .start .invoke) h₄ hc₄ (.started rfl)
  obtain ⟨s₆, h₆, -, hc₆⟩ := reachable_move (e := .finish ending) h₅ hc₅ (.finished rfl)
  obtain ⟨s₇, h₇, -, hc₇⟩ := reachable_move (e := .collect 1) h₆ hc₆ (.collected rfl rfl)
  exact ⟨s₇, h₇, by rw [hc₇]; rfl, by rw [hc₇]; rfl, by rw [hc₇]; rfl, by rw [hc₇]; rfl⟩

/-- A runnable that raises a `BaseException` leaves its attempt without an outcome, and one that raises a `TimeoutError` at
once is counted as one that hangs. -/
theorem quick_failures_misread :
    (¬ ∀ (args : ℕ → CallArgs) (s : GuardState), (guarded args).Reachable s → ∀ i, (s.calls i).attempt.isSome →
      ((s.calls i).phase (args i).wrapper).Over → ∃ o, (s.calls i).outcomes = [o]) ∧
    ¬ ∀ (args : ℕ → CallArgs) (s : GuardState), (guarded args).Reachable s → ∀ i, (s.calls i).attempt.isSome →
      ((s.calls i).phase (args i).wrapper).Over → ((∃ o ∈ (s.calls i).outcomes, IsTimeout o) ↔ (s.calls i).hung = true) := by
  constructor
  · intro hall
    obtain ⟨s, hs, hattempt, hphase, houtcomes, -⟩ := run_collect (.raised .baseException)
    obtain ⟨o, ho⟩ := hall _ s hs 0 hattempt (by rw [hphase]; trivial)
    cases houtcomes.symm.trans ho
  · intro hall
    obtain ⟨s, hs, hattempt, hphase, houtcomes, hhung⟩ := run_collect (.raised .timeoutError)
    have hiff := hall _ s hs 0 hattempt (by rw [hphase]; trivial)
    rw [houtcomes, hhung] at hiff
    cases hiff.mp ⟨.timeout 3, List.mem_singleton_self _, trivial⟩

end Sreda.Services
