import Mathlib.Algebra.Order.Ring.Rat
import Mathlib.Logic.Function.Basic
import Sreda.Lib.SlidingWindow

/-!
# The rate limiter

`services/rate_limiter.py`: `InMemoryRateLimiter`. A call reads the monotonic clock and then takes the lock, so it is two
steps, and the calls of other threads come in between: a call that has read the clock waits, and any of the waiting calls may
be the next to take the lock. Times are exact.

## What is proved

* `run_keeps`: the answers and the log of a key are those of a sliding window over its own readings, in the order in which
  they took the lock; a window holds no more than `max_requests` allowed calls if no call takes the lock with a reading less
  than a window away from one that the log has dropped; a rejected call changes no log; in order, a call is rejected if and
  only if its window is full.
-/

namespace Sreda.Services.RateLimiter

open Sreda.Lib Sreda.Lib.SlidingWindow

/-- `InMemoryRateLimiter`. -/
structure InMemoryRateLimiter where
  maxRequests : ℕ
  window : ℚ
  window_pos : 0 < window

/-- A call of `check`, with its reading of the clock. -/
structure Call where
  key : String
  now : ℚ
deriving DecidableEq

structure World where
  clock : ℚ
  /-- The calls that have read the clock and not yet taken the lock. -/
  waiting : List Call
  log : String → List ℚ
  /-- The calls that have returned, in the order of their answers. -/
  answers : List (Call × Bool)

/-- A new limiter, at some time. -/
def World.init (clock : ℚ) : World := ⟨clock, [], fun _ => [], []⟩

/-- The part of `check` under the lock. -/
def InMemoryRateLimiter.locked (limiter : InMemoryRateLimiter) (log : String → List ℚ) (call : Call) :
    Bool × (String → List ℚ) :=
  let cutoff := call.now - limiter.window
  let bucket := (log call.key).dropWhile fun a => a ≤ cutoff
  if limiter.maxRequests ≤ bucket.length then (false, Function.update log call.key bucket)
  else (true, Function.update log call.key (bucket ++ [call.now]))

inductive Action where
  /-- A thread calls `check(key)` at a time. -/
  | call (key : String) (now : ℚ)
  /-- The waiting call at a place takes the lock. -/
  | lock (place : ℕ)

/-- One step of the threads; a clock that goes back and a place where no call waits are no steps. -/
def InMemoryRateLimiter.step (limiter : InMemoryRateLimiter) (w : World) : Action → Option World
  | .call key now =>
    if now < w.clock then none
    else if limiter.maxRequests = 0 then
      -- the answer is there before the clock is read
      some { w with clock := now, answers := w.answers ++ [(⟨key, now⟩, false)] }
    else some { w with clock := now, waiting := w.waiting ++ [⟨key, now⟩] }
  | .lock place =>
    w.waiting[place]?.map fun call =>
      let (allowed, log) := limiter.locked w.log call
      { w with waiting := w.waiting.eraseIdx place, log, answers := w.answers ++ [(call, allowed)] }

/-- The steps of any number of threads, one after the other. -/
def InMemoryRateLimiter.run (limiter : InMemoryRateLimiter) (start : ℚ) (actions : List Action) : Option World :=
  actions.foldlM limiter.step (World.init start)

/-- The answers to the calls with a key, by their readings. -/
def World.answersOf (w : World) (key : String) : List (ℚ × Bool) :=
  (w.answers.filter fun answer => answer.1.key = key).map fun answer => (answer.1.now, answer.2)

def World.readings (w : World) (key : String) : List ℚ := (w.answersOf key).map Prod.fst

/-- The readings of the calls with a key that were allowed. -/
def World.allowed (w : World) (key : String) : List ℚ := ((w.answersOf key).filter (·.2)).map Prod.fst

variable {limiter : InMemoryRateLimiter} {w w' : World}

/-- The sliding window of a key, over its readings in the order of the lock. -/
def World.record (limiter : InMemoryRateLimiter) (w : World) (key : String) : Record ℚ :=
  SlidingWindow.record limiter.maxRequests limiter.window (w.readings key)

/-- Each key has its own sliding window. -/
def Windowed (limiter : InMemoryRateLimiter) (w : World) : Prop :=
  ∀ key, w.answersOf key = (w.record limiter key).answers ∧ w.log key = (w.record limiter key).log

section Locked

variable (log : String → List ℚ) (call : Call)

theorem locked_fst : (limiter.locked log call).1 = (decideOne limiter.maxRequests limiter.window call.now (log call.key)).1 := by
  have hprune : (log call.key).dropWhile (fun a => a ≤ call.now - limiter.window) =
      prune limiter.window call.now (log call.key) := rfl
  rw [InMemoryRateLimiter.locked, decideOne, hprune]
  split <;> rfl

theorem locked_snd : (limiter.locked log call).2 =
    Function.update log call.key (decideOne limiter.maxRequests limiter.window call.now (log call.key)).2 := by
  have hprune : (log call.key).dropWhile (fun a => a ≤ call.now - limiter.window) =
      prune limiter.window call.now (log call.key) := rfl
  rw [InMemoryRateLimiter.locked, decideOne, hprune]
  split <;> rfl

end Locked

theorem answersOf_append {answer : Call × Bool} (h : w'.answers = w.answers ++ [answer]) (key : String) :
    w'.answersOf key = w.answersOf key ++ if answer.1.key = key then [(answer.1.now, answer.2)] else [] := by
  by_cases hkey : answer.1.key = key <;> simp [World.answersOf, h, hkey]

theorem readings_append {answer : Call × Bool} (h : w'.answers = w.answers ++ [answer]) (key : String) :
    w'.readings key = w.readings key ++ if answer.1.key = key then [answer.1.now] else [] := by
  rw [World.readings, answersOf_append h, List.map_append, ← World.readings]
  split <;> rfl

/-- **One answer**: the key of the call gets one more reading, the other keys keep their windows. -/
theorem Windowed.answer (h : Windowed limiter w) {call : Call} (hlog : w'.log = (limiter.locked w.log call).2)
    (hanswers : w'.answers = w.answers ++ [(call, (limiter.locked w.log call).1)]) : Windowed limiter w' := by
  intro key
  obtain ⟨hbefore, hlogBefore⟩ := h key
  rw [World.record, readings_append hanswers, answersOf_append hanswers, hlog, hbefore, locked_fst, locked_snd]
  by_cases hkey : call.key = key
  · subst hkey
    rw [if_pos rfl, if_pos rfl, record_snoc, Function.update_self, hlogBefore]
    exact ⟨rfl, rfl⟩
  · rw [if_neg hkey, if_neg hkey, List.append_nil, List.append_nil, Function.update_of_ne (Ne.symm hkey), hlogBefore]
    exact ⟨rfl, rfl⟩

/-- **A rejected call changes no log.** -/
theorem Windowed.locked_of_rejected (h : Windowed limiter w) {call : Call} (hrejected : (limiter.locked w.log call).1 = false) :
    (limiter.locked w.log call).2 = w.log := by
  rw [locked_fst] at hrejected
  have hlength : (w.log call.key).length ≤ limiter.maxRequests := by
    rw [(h call.key).2]
    exact length_log_le
  rw [locked_snd, log_admit_of_rejected hlength hrejected, Function.update_eq_self]

/-- **One step** answers nothing, or one call as the part under the lock does. -/
theorem Windowed.step_cases (h : Windowed limiter w) {action : Action} (hstep : limiter.step w action = some w') :
    w'.answers = w.answers ∧ w'.log = w.log ∨
      ∃ call, w'.answers = w.answers ++ [(call, (limiter.locked w.log call).1)] ∧ w'.log = (limiter.locked w.log call).2 := by
  cases action with
  | call key now =>
    rw [InMemoryRateLimiter.step] at hstep
    split_ifs at hstep with hclock hzero
    · cases hstep
      -- under the lock there would be no room either
      have hrejected : (limiter.locked w.log ⟨key, now⟩).1 = false := by
        rw [InMemoryRateLimiter.locked, if_pos (by rw [hzero]; exact Nat.zero_le _)]
      exact .inr ⟨⟨key, now⟩, by rw [hrejected], (h.locked_of_rejected hrejected).symm⟩
    · cases hstep
      exact .inl ⟨rfl, rfl⟩
  | lock place =>
    rw [InMemoryRateLimiter.step] at hstep
    obtain ⟨call, -, rfl⟩ := Option.map_eq_some_iff.mp hstep
    exact .inr ⟨call, rfl, rfl⟩

theorem Windowed.step (h : Windowed limiter w) {action : Action} (hstep : limiter.step w action = some w') :
    Windowed limiter w' := by
  rcases h.step_cases hstep with ⟨hanswers, hlog⟩ | ⟨call, hanswers, hlog⟩
  · intro key
    have hsame : w'.answersOf key = w.answersOf key := by rw [World.answersOf, World.answersOf, hanswers]
    rw [World.record, World.readings, hsame, hlog]
    exact h key
  · exact h.answer hlog hanswers

theorem windowed_of_steps : ∀ {actions : List Action} {w : World}, Windowed limiter w →
    actions.foldlM limiter.step w = some w' → Windowed limiter w'
  | [], _, h, hrun => by
    cases hrun
    exact h
  | action :: actions, _, h, hrun => by
    rw [List.foldlM_cons] at hrun
    obtain ⟨next, hstep, hrest⟩ := Option.bind_eq_some_iff.mp hrun
    exact windowed_of_steps (h.step hstep) hrest

theorem Windowed.allowed_eq (h : Windowed limiter w) (key : String) : w.allowed key = (w.record limiter key).allowed := by
  rw [World.allowed, (h key).1, Record.allowed]

/-- No call of the key has taken the lock with a reading less than a window away from one that was dropped before. -/
def Fresh (limiter : InMemoryRateLimiter) (w : World) (key : String) : Prop :=
  FreshRun limiter.maxRequests limiter.window (w.readings key)

/-- **The sliding window** of every key, in every run. -/
theorem run_keeps {start : ℚ} {actions : List Action} (h : limiter.run start actions = some w) :
    (∀ key, Fresh limiter w key → ∀ t,
      (w.allowed key).countP (fun a => InWindow limiter.window t a) ≤ limiter.maxRequests) ∧
    (∀ key, (w.readings key).Pairwise (· ≤ ·) → Fresh limiter w key) ∧
    (∀ key, w.answersOf key = (w.record limiter key).answers ∧ w.log key = (w.record limiter key).log) ∧
    (∀ action w', limiter.step w action = some w' →
      (∀ call, w'.answers = w.answers ++ [(call, false)] → w'.log = w.log) ∧
      ∀ call allowed, w'.answers = w.answers ++ [(call, allowed)] →
        (w.readings call.key ++ [call.now]).Pairwise (· ≤ ·) →
          (allowed = false ↔
            (w.allowed call.key).countP (fun a => InWindow limiter.window call.now a) = limiter.maxRequests)) := by
  have hwindowed : Windowed limiter w := windowed_of_steps (fun _ => ⟨rfl, rfl⟩) h
  refine ⟨?_, fun key => freshRun_of_sorted, hwindowed, ?_⟩
  · intro key hfresh t
    rw [hwindowed.allowed_eq]
    exact countP_allowed_le hfresh t
  · intro action w' hstep
    have hanswer : ∀ call allowed, w'.answers = w.answers ++ [(call, allowed)] →
        allowed = (limiter.locked w.log call).1 ∧ w'.log = (limiter.locked w.log call).2 := by
      intro call allowed happended
      rcases hwindowed.step_cases hstep with ⟨hsame, -⟩ | ⟨other, hanswers, hlog⟩
      · simp [hsame] at happended
      · rw [happended] at hanswers
        cases List.append_cancel_left hanswers
        exact ⟨rfl, hlog⟩
    constructor
    · intro call happended
      obtain ⟨hrejected, hlog⟩ := hanswer call false happended
      rw [hlog, hwindowed.locked_of_rejected hrejected.symm]
    · intro call allowed happended hsorted
      obtain ⟨rfl, -⟩ := hanswer call allowed happended
      rw [locked_fst, (hwindowed call.key).2, hwindowed.allowed_eq]
      exact admit_eq_false_iff hsorted

/-- Two requests in ten seconds. -/
def twoInTen : InMemoryRateLimiter := ⟨2, 10, by decide⟩

theorem run_keeps_one : ∃ w, twoInTen.run 0 [.call "k" 5, .lock 0] = some w ∧
    (w.allowed "k").countP (fun a => InWindow 10 5 a) ≤ 2 := by
  obtain ⟨w, hw⟩ : ∃ w, twoInTen.run 0 [.call "k" 5, .lock 0] = some w := Option.isSome_iff_exists.mp (by decide +kernel)
  have hkeeps := run_keeps hw
  have hsorted : (w.readings "k").Pairwise (· ≤ ·) := by
    have hreadings : (twoInTen.run 0 [.call "k" 5, .lock 0]).map (·.readings "k") = some [5] := by decide +kernel
    rw [hw, Option.map_some, Option.some.injEq] at hreadings
    rw [hreadings]
    exact List.pairwise_singleton _ _
  exact ⟨w, hw, hkeeps.1 "k" (hkeeps.2.1 "k" hsorted) 5⟩

/-- A call that has read the clock takes the lock after a later reading has emptied the log: its window holds three. -/
theorem late_reading_overfills : twoInTen.maxRequests = 2 ∧
    (twoInTen.run 0 [.call "k" 5, .call "k" 5, .lock 0, .lock 0, .call "k" 6, .call "k" 20, .lock 1, .lock 0]).map
      (fun w => (w.allowed "k").countP fun a => InWindow twoInTen.window 6 a) = some 3 := by
  decide +kernel

end Sreda.Services.RateLimiter
