import Sreda.Workers.QueueRuns
import Mathlib.Data.List.Range

/-!
# Attempts, fencing and outcomes of the message queue

The attempt number of a job counts its claims: in every run the claims of a job carry the
numbers `1, 2, …` in this order, and the last of them is the number in the row
(`QueueInv.claims`). A mark carries the number of the claim it belongs to, and lands only on
a `processing` row with that number; hence it is fenced, and a claim has at most one outcome
(`outcomes_fenced`).

`MAX_ATTEMPTS` bounds the attempts only along `mark_failed`. A claim that takes over an
expired lease does not look at the counter, so a job whose workers die is claimed without
bound (`attempts_unbounded`). `attempts_le_of_takeover` gives the runs in which the bound
holds: those that never take over a job on its last attempt.
-/

namespace Sreda.Workers

open JobTable Sreda.Lib

/-! ### What a history says of a job -/

/-- The attempt number with which an event handed out the job `id`. -/
def Event.claimOf (id : String) (e : Event) : Option ℕ :=
  match e.ret with
  | .claimed (some j) => if j.id = id then some j.attempt else none
  | _ => none

/-- The attempt numbers of the claims of a job, oldest first. -/
def claims (h : List Event) (id : String) : List ℕ := h.filterMap (Event.claimOf id)

/-- The job and the attempt number of a mark. -/
def Call.mark : Call → Option (String × ℕ)
  | .markDone jobId _ attempt | .markFailed jobId _ attempt _ => some (jobId, attempt)
  | _ => none

/-- The job and the attempt whose outcome an event recorded. -/
def Event.outcome (e : Event) : Option (String × ℕ) := if e.ret = .landed true then e.call.mark else none

/-- The outcomes recorded so far, by job and attempt. -/
def outcomes (h : List Event) : List (String × ℕ) := h.filterMap Event.outcome

@[simp] theorem claims_snoc (h : List Event) (e : Event) (id : String) :
    claims (h ++ [e]) id = claims h id ++ (e.claimOf id).toList := by
  cases he : e.claimOf id <;> simp [claims, he]

@[simp] theorem outcomes_snoc (h : List Event) (e : Event) : outcomes (h ++ [e]) = outcomes h ++ e.outcome.toList := by
  cases he : e.outcome <;> simp [outcomes, he]

section Steps

variable {s s' : QueueState} {e : Event}

/-- An event that hands out a job adds one to the attempt number in its row. -/
theorem claimOf_eq_some (h : queue.step s e s') {id : String} {a : ℕ} (ha : e.claimOf id = some a) :
    ∃ j ∈ s.table.rows, j.id = id ∧ a = j.attempt + 1 ∧
      (rowAfter s.table e.now e.call j).attempt = j.attempt + 1 := by
  unfold Event.claimOf at ha
  split at ha
  · next k hk =>
    obtain ⟨workerId, leaseSeconds, tie, j, hc, hsel, rfl⟩ := step_claimed h hk
    split at ha
    · next hid =>
      simp only [Option.some.injEq] at ha
      refine ⟨j, (selectNextJob_some hsel).1, hid, ha.symm, ?_⟩
      rw [hc, rowAfter, if_pos hsel]
      rfl
    · cases ha
  · cases ha

/-- A job that is not in the table is not handed out. -/
theorem claimOf_of_fresh (h : queue.step s e s') {id : String} (hfresh : ∀ j ∈ s.table.rows, j.id ≠ id) :
    e.claimOf id = none := by
  by_contra hne
  obtain ⟨a, ha⟩ := Option.ne_none_iff_exists'.mp hne
  obtain ⟨j, hj, hid, -⟩ := claimOf_eq_some h ha
  exact hfresh j hj hid

/-- An event that does not hand out the job leaves the attempt number in its row. -/
theorem claimOf_eq_none (h : queue.step s e s') {j : MessageJob} (ha : e.claimOf j.id = none) :
    (rowAfter s.table e.now e.call j).attempt = j.attempt := by
  rcases rowAfter_cases s.table e.now e.call j with h' | ⟨w, l, tie, hc, hsel, -⟩ | ⟨_, _, _, _, -, -, h'⟩ |
    ⟨_, _, _, -, -, h'⟩ | ⟨_, _, a, _, -, -, h'⟩
  · rw [h']
  · have hret : e.ret = .claimed (some ((claimSet w e.now l).set j)) := by
      rw [step_ret h, hc]
      rcases claimNextJob_cases s.table w e.now l tie with ⟨h1, -⟩ | ⟨k, h1, h2⟩
      · rw [h1] at hsel; cases hsel
      · rw [h1, Option.some.injEq] at hsel
        simp [exec, h2, hsel]
    simp [Event.claimOf, hret, claimSet] at ha
  · rw [h']; rfl
  · rw [h']; rfl
  · rw [h', failedSet]; split <;> rfl

/-- An event that records an outcome met the `processing` row with that attempt number,
and leaves it in another status. -/
theorem outcome_eq_some (h : queue.step s e s') {id : String} {a : ℕ} (ho : e.outcome = some (id, a)) :
    ∃ j ∈ s.table.rows, j.id = id ∧ j.attempt = a ∧ j.status = .processing ∧
      (rowAfter s.table e.now e.call j).attempt = a ∧ (rowAfter s.table e.now e.call j).status ≠ .processing := by
  unfold Event.outcome at ho
  split at ho
  · next hret =>
    rw [step_ret h] at hret
    cases hc : e.call with
    | markDone jobId workerId attempt =>
      rw [hc] at ho hret
      simp only [Call.mark, Option.some.injEq, Prod.mk.injEq] at ho
      obtain ⟨rfl, rfl⟩ := ho
      simp only [exec, Ret.landed.injEq, Workers.markDone, fencedUpdate_landed] at hret
      obtain ⟨j, hj, hf⟩ := hret
      obtain ⟨h1, -, h3, h4⟩ := fenced_iff.mp hf
      refine ⟨j, hj, h1, h3, h4, ?_⟩
      rw [rowAfter, if_pos hf]
      exact ⟨h3, by simp [doneSet]⟩
    | markFailed jobId workerId attempt error =>
      rw [hc] at ho hret
      simp only [Call.mark, Option.some.injEq, Prod.mk.injEq] at ho
      obtain ⟨rfl, rfl⟩ := ho
      simp only [exec, Ret.landed.injEq, Workers.markFailed, fencedUpdate_landed] at hret
      obtain ⟨j, hj, hf⟩ := hret
      obtain ⟨h1, -, h3, h4⟩ := fenced_iff.mp hf
      refine ⟨j, hj, h1, h3, h4, ?_⟩
      rw [rowAfter, if_pos hf, failedSet]
      split <;> exact ⟨h3, by simp [retrySet, deadLetterSet]⟩
    | enqueue | claim | extend => simp [hc, Call.mark] at ho
  · cases ho

end Steps

/-! ### The invariant -/

/-- What a history and the table after it have to do with each other. -/
structure QueueInv (h : List Event) (s : QueueState) : Prop where
  /-- Every row passes the CHECK. -/
  check : ∀ j ∈ s.table.rows, j.statusTimestampsOk
  /-- A pending row has attempts left. -/
  pending : ∀ j ∈ s.table.rows, j.status = .pending → j.attempt < maxAttempts
  /-- The claims of a job are numbered from `1` to the number in its row. -/
  claims : ∀ j ∈ s.table.rows, Workers.claims h j.id = List.range' 1 j.attempt
  /-- A job that is not in the table was never claimed. -/
  unclaimed : ∀ id, (∀ j ∈ s.table.rows, j.id ≠ id) → Workers.claims h id = []
  /-- An outcome belongs to a claim that is over. -/
  settled : ∀ o ∈ outcomes h, ∃ j ∈ s.table.rows, j.id = o.1 ∧ o.2 ≤ j.attempt ∧
    (o.2 = j.attempt → j.status ≠ .processing)
  /-- A claim has at most one outcome. -/
  once : (outcomes h).Nodup

theorem rowAfter_check {t : JobTable} {now : ℤ} {c : Call} {j : MessageJob} (h : j.statusTimestampsOk) :
    (rowAfter t now c j).statusTimestampsOk := by
  have started : j.status = .processing → j.startedAt.isSome ∧ j.finishedAt.isNone := fun hs => by
    simp [MessageJob.statusTimestampsOk, hs, JobStatus.terminal] at h
    simp [h]
  rcases rowAfter_cases t now c j with h' | ⟨_, _, _, -, hsel, h'⟩ | ⟨_, _, _, _, -, hf, h'⟩ | ⟨_, _, _, -, -, h'⟩ |
    ⟨_, _, a, _, -, -, h'⟩ <;> rw [h']
  · exact h
  · -- the selected row is pending or processing, so it has no `finished_at`
    have hfin : j.finishedAt.isNone := by
      rcases (claimable_iff.mp (selectNextJob_some hsel).2.1).1 with hp | he
      · simp [MessageJob.statusTimestampsOk, hp, JobStatus.terminal] at h
        simp [h]
      · simp only [MessageJob.leaseExpired, Bool.and_eq_true, decide_eq_true_eq] at he
        exact (started he.1).2
    cases hst : j.startedAt <;> simp [MessageJob.statusTimestampsOk, claimSet, hfin, hst]
  · have hs := (fenced_iff.mp hf).2.2.2
    have := started hs
    simp [MessageJob.statusTimestampsOk, extendSet, hs, this.1, this.2]
  · simp [MessageJob.statusTimestampsOk, doneSet, JobStatus.terminal]
  · unfold failedSet
    split <;> simp [MessageJob.statusTimestampsOk, retrySet, deadLetterSet, JobStatus.terminal]

/-- Only an explicit failure makes a row pending again, and only with attempts left. -/
theorem rowAfter_pending {t : JobTable} {now : ℤ} {c : Call} {j : MessageJob}
    (h : j.status = .pending → j.attempt < maxAttempts) (hp : (rowAfter t now c j).status = .pending) :
    (rowAfter t now c j).attempt < maxAttempts := by
  rcases rowAfter_cases t now c j with h' | ⟨_, _, _, -, -, h'⟩ | ⟨_, _, _, _, -, hf, h'⟩ | ⟨_, _, _, -, -, h'⟩ |
    ⟨_, _, a, _, -, hf, h'⟩ <;> rw [h'] at hp ⊢
  · exact h hp
  · simp [claimSet] at hp
  · have hs := (fenced_iff.mp hf).2.2.2
    simp [extendSet, hs] at hp
  · simp [doneSet] at hp
  · unfold failedSet at hp ⊢
    split at hp
    · next hlt =>
      have ha := (fenced_iff.mp hf).2.2.1
      simp [hlt, retrySet, ha]
    · simp [deadLetterSet] at hp

theorem queueInv_step {h : List Event} {s s' : QueueState} {e : Event} (hi : QueueInv h s) (hs : queue.step s e s') :
    QueueInv (h ++ [e]) s' := by
  have hadd : ∀ k ∈ added s.table e.now e.call, k.status = .pending ∧ k.attempt = 0 ∧ k.startedAt = none ∧
      k.finishedAt = none ∧ ∀ j ∈ s.table.rows, j.id ≠ k.id := by
    intro k hk
    obtain ⟨⟨_, _, _, _, _, _, _, rfl⟩, hfresh⟩ := added_spec hk
    exact ⟨rfl, rfl, rfl, rfl, hfresh⟩
  refine ⟨?check, ?pending, ?claims, ?unclaimed, ?settled, ?once⟩
  case check =>
    intro k hk
    rcases (mem_step hs).mp hk with ⟨j, hj, rfl⟩ | hk
    · exact rowAfter_check (hi.check j hj)
    · obtain ⟨h1, -, h2, h3, -⟩ := hadd k hk
      simp [MessageJob.statusTimestampsOk, h1, h2, h3]
  case pending =>
    intro k hk hp
    rcases (mem_step hs).mp hk with ⟨j, hj, rfl⟩ | hk
    · exact rowAfter_pending (hi.pending j hj) hp
    · rw [(hadd k hk).2.1]
      decide
  case claims =>
    intro k hk
    rw [claims_snoc]
    rcases (mem_step hs).mp hk with ⟨j, hj, rfl⟩ | hk
    · rw [rowAfter_id, hi.claims j hj]
      cases ha : e.claimOf j.id with
      | none => simp [claimOf_eq_none hs ha]
      | some a =>
        obtain ⟨j', hj', hid, rfl, hat⟩ := claimOf_eq_some hs ha
        obtain rfl := eq_of_id hj' hj hid
        rw [hat, List.range'_1_concat, Option.toList_some, Nat.add_comm]
    · obtain ⟨-, h0, -, -, hfresh⟩ := hadd k hk
      simp [hi.unclaimed k.id hfresh, claimOf_of_fresh hs hfresh, h0]
  case unclaimed =>
    intro id hid
    have hold : ∀ j ∈ s.table.rows, j.id ≠ id := fun j hj h' =>
      hid _ ((mem_step hs).mpr (.inl ⟨j, hj, rfl⟩)) (by simpa using h')
    simp [hi.unclaimed id hold, claimOf_of_fresh hs hold]
  case settled =>
    intro o ho
    rw [outcomes_snoc, List.mem_append] at ho
    rcases ho with ho | ho
    · -- an older outcome: the number only grows, and a row that left `processing` is claimed again first
      obtain ⟨j, hj, hid, hle, hne⟩ := hi.settled o ho
      refine ⟨_, (mem_step hs).mpr (.inl ⟨j, hj, rfl⟩), by simpa using hid, ?_⟩
      rcases rowAfter_cases s.table e.now e.call j with h' | ⟨_, _, _, -, -, h'⟩ | ⟨_, _, _, _, -, hf, h'⟩ |
        ⟨_, _, _, -, -, h'⟩ | ⟨_, _, a, _, -, -, h'⟩ <;> rw [h']
      · exact ⟨hle, hne⟩
      · simp only [claimSet]
        omega
      · exact ⟨hle, fun h => absurd (fenced_iff.mp hf).2.2.2 (hne h)⟩
      · exact ⟨hle, fun _ => by simp [doneSet]⟩
      · unfold failedSet
        split <;> exact ⟨hle, fun _ => by simp [retrySet, deadLetterSet]⟩
    · obtain ⟨id, a⟩ := o
      obtain ⟨j, hj, hid, -, -, hat, hst⟩ := outcome_eq_some hs (by simpa using ho)
      exact ⟨_, (mem_step hs).mpr (.inl ⟨j, hj, rfl⟩), by simpa using hid, hat.ge, fun _ => hst⟩
  case once =>
    rw [outcomes_snoc]
    cases ho : e.outcome with
    | none => simpa using hi.once
    | some o =>
      obtain ⟨id, a⟩ := o
      obtain ⟨j, hj, rfl, rfl, hproc, -⟩ := outcome_eq_some hs ho
      rw [Option.toList_some, List.nodup_append]
      refine ⟨hi.once, by simp, fun o ho o' ho' => ?_⟩
      rintro rfl
      simp only [List.mem_singleton] at ho'
      subst ho'
      obtain ⟨k, hk, hid, -, hne⟩ := hi.settled _ ho
      obtain rfl := eq_of_id hk hj hid
      exact hne rfl hproc

/-- Every history of the queue keeps the invariant. -/
theorem queueInv_hist {h : List Event} {s : QueueState} (hr : queue.Hist h s) : QueueInv h s := by
  refine Lts.Hist.induct (fun s hs => ?_) (fun _ _ _ _ _ ih hs => queueInv_step ih hs) hr
  have hrows : s.table.rows = [] := by rw [show s.table = .empty from hs]; rfl
  constructor <;> simp [hrows, Workers.claims, outcomes]

/-! ### Fencing -/

/-- What fencing gives, after the history `h`, in the state `s`. -/
structure OutcomesFenced (h : List Event) (s : QueueState) : Prop where
  /-- A mark by attempt `a` changes a row only if it is that job's row, the job is still
  `processing`, and the claims of the job so far are the numbers `1` to `a`: none came after. -/
  fenced : ∀ e s', queue.step s e s' → ∀ id a, e.call.mark = some (id, a) →
    ∀ j ∈ s.table.rows, j ∉ s'.table.rows →
      j.id = id ∧ j.status = .processing ∧ claims h id = List.range' 1 a
  /-- For each job and attempt at most one outcome is recorded. -/
  once : (outcomes h).Nodup
  /-- A claim hands out a row of the table with a larger attempt number. -/
  increases : ∀ e s', queue.step s e s' → ∀ k, e.ret = .claimed (some k) →
    k ∈ s'.table.rows ∧ ∃ j ∈ s.table.rows, j.id = k.id ∧ j.attempt < k.attempt
  /-- `done` and `dead_letter` are never left. -/
  terminal : ∀ as s', queue.Run s as s' → ∀ j ∈ s.table.rows, j.status.terminal → j ∈ s'.table.rows
  /-- Every row passes the CHECK. -/
  check : ∀ j ∈ s.table.rows, j.statusTimestampsOk

/-- **Outcomes are fenced**, after every history of the queue. -/
theorem outcomes_fenced {h : List Event} {s : QueueState} (hr : queue.Hist h s) : OutcomesFenced h s := by
  have hi := queueInv_hist hr
  refine ⟨?fenced, hi.once, ?increases, ?terminal, hi.check⟩
  case fenced =>
    intro e s' hs id a hm j hj hchanged
    have hne : rowAfter s.table e.now e.call j ≠ j := fun h' =>
      hchanged ((mem_step hs).mpr (.inl ⟨j, hj, h'.symm⟩))
    have key : ∀ w, fenced id w a j → j.id = id ∧ j.status = .processing ∧ claims h id = List.range' 1 a := by
      intro w hf
      obtain ⟨rfl, -, rfl, h4⟩ := fenced_iff.mp hf
      exact ⟨rfl, h4, hi.claims j hj⟩
    rcases rowAfter_cases s.table e.now e.call j with h' | ⟨_, _, _, hc, -, -⟩ | ⟨_, _, _, _, hc, -, -⟩ |
      ⟨_, w, _, hc, hf, -⟩ | ⟨_, w, _, _, hc, hf, -⟩
    · exact absurd h' hne
    · simp [hc, Call.mark] at hm
    · simp [hc, Call.mark] at hm
    all_goals
      simp only [hc, Call.mark, Option.some.injEq, Prod.mk.injEq] at hm
      obtain ⟨rfl, rfl⟩ := hm
      exact key w hf
  case increases =>
    intro e s' hs k hk
    obtain ⟨w, l, tie, j, hc, hsel, rfl⟩ := step_claimed hs hk
    have hj := (selectNextJob_some hsel).1
    refine ⟨(mem_step hs).mpr (.inl ⟨j, hj, ?_⟩), j, hj, rfl, by simp [claimSet]⟩
    rw [hc, rowAfter, if_pos hsel]
  case terminal =>
    intro as s' hr' j hj ht
    obtain ⟨k, hk, -, -, -, heq⟩ := row_persists hr' hj
    exact heq ht ▸ hk

/-- A job that fails once, is claimed again and is done; the first worker's late mark is refused. -/
def retriedJob : List (ℤ × Call) :=
  [(0, .enqueue "job_1" "tenant_1" "thread_1" "telegram" "100" "{}" 0),
   (seconds 1, .claim "w1" leaseDurationSec 0),
   (seconds 2, .markFailed "job_1" "w1" 1 "boom"),
   (seconds 3, .claim "w2" leaseDurationSec 0),
   (seconds 4, .markDone "job_1" "w1" 1),
   (seconds 5, .markDone "job_1" "w2" 2)]

theorem outcomes_fenced_retriedJob :
    OutcomesFenced (eventsOf emptyQueue retriedJob) (runCalls emptyQueue retriedJob) ∧
      outcomes (eventsOf emptyQueue retriedJob) = [("job_1", 1), ("job_1", 2)] :=
  ⟨outcomes_fenced (hist_runCalls _ (by decide)), by decide⟩

/-! ### The bound on the attempts -/

/-- Every attempt counter is at most `MAX_ATTEMPTS`. -/
def AttemptsBounded (t : JobTable) : Prop := ∀ j ∈ t.rows, j.attempt ≤ maxAttempts

instance (t : JobTable) : Decidable (AttemptsBounded t) := inferInstanceAs (Decidable (∀ j ∈ t.rows, _))

/-- The row a claim takes over from a dead worker has an attempt left. Nothing is asked of
a claim that picks a pending row, nor of any other call. -/
def TakeoverHasAttempt (s : QueueState) (e : Event) : Prop :=
  match e.call with
  | .claim _ _ tie => ∀ j ∈ selectNextJob s.table e.now tie, j.leaseExpired e.now → j.attempt < maxAttempts
  | _ => True

instance (s : QueueState) (e : Event) : Decidable (TakeoverHasAttempt s e) :=
  match e with
  | ⟨.claim .., _, _⟩ => by dsimp only [TakeoverHasAttempt]; infer_instance
  | ⟨.enqueue .., _, _⟩ | ⟨.extend .., _, _⟩ | ⟨.markDone .., _, _⟩ | ⟨.markFailed .., _, _⟩ => inferInstanceAs (Decidable True)

/-- A step from a table within the bound stays within it exactly when it takes over no job
on its last attempt. -/
theorem attemptsBounded_step_iff {h : List Event} {s s' : QueueState} {e : Event} (hr : queue.Hist h s)
    (hb : AttemptsBounded s.table) (hs : queue.step s e s') : AttemptsBounded s'.table ↔ TakeoverHasAttempt s e := by
  have hi := queueInv_hist hr
  constructor
  · intro hb'
    unfold TakeoverHasAttempt
    split
    · next w l tie hc =>
      intro j hsel _
      have := hb' _ ((mem_step hs).mpr (.inl ⟨j, (selectNextJob_some hsel).1, rfl⟩))
      rw [hc, rowAfter, if_pos (Option.mem_def.mp hsel)] at this
      exact this
    · trivial
  · intro hg k hk
    rcases (mem_step hs).mp hk with ⟨j, hj, rfl⟩ | hk
    · rcases rowAfter_cases s.table e.now e.call j with h' | ⟨w, l, tie, hc, hsel, h'⟩ | ⟨_, _, _, _, -, -, h'⟩ |
        ⟨_, _, _, -, -, h'⟩ | ⟨_, _, a, _, -, -, h'⟩ <;> rw [h']
      · exact hb j hj
      · -- a pending row has an attempt left in every run, a taken over one by the condition
        rcases (claimable_iff.mp (selectNextJob_some hsel).2.1).1 with hp | hx
        · exact hi.pending j hj hp
        · simp only [TakeoverHasAttempt, hc] at hg
          exact hg j hsel hx
      · exact hb j hj
      · exact hb j hj
      · unfold failedSet
        split <;> exact hb j hj
    · obtain ⟨⟨_, _, _, _, _, _, _, rfl⟩, -⟩ := added_spec hk
      exact Nat.zero_le _

/-- **The attempt counter is bounded** after every history that never takes over a job on its
last attempt, and no job was handed out more often; from there a step keeps the bound
exactly when it meets that condition. -/
theorem attempts_le_of_takeover {h : List Event} {s : QueueState} (hr : (queue.guard TakeoverHasAttempt).Hist h s) :
    AttemptsBounded s.table ∧ (∀ id, (claims h id).length ≤ maxAttempts) ∧
      ∀ e s', queue.step s e s' → (AttemptsBounded s'.table ↔ TakeoverHasAttempt s e) := by
  have hb : AttemptsBounded s.table := by
    refine Lts.Reachable.induct (P := fun s => AttemptsBounded s.table) (fun s hs => ?_) (fun s e s' hr hb hs => ?_)
      hr.reachable
    · rw [show s.table = .empty from hs]
      exact fun j hj => absurd hj (by simp)
    · obtain ⟨h, hr⟩ := hr.of_guard
      exact (attemptsBounded_step_iff hr hb hs.1).mpr hs.2
  refine ⟨hb, fun id => ?_, fun e s' hs => attemptsBounded_step_iff hr.of_guard hb hs⟩
  have hi := queueInv_hist hr.of_guard
  by_cases hid : ∃ j ∈ s.table.rows, j.id = id
  · obtain ⟨j, hj, rfl⟩ := hid
    rw [hi.claims j hj, List.length_range']
    exact hb j hj
  · rw [hi.unclaimed id fun j hj h' => hid ⟨j, hj, h'⟩]
    exact Nat.zero_le _

theorem attempts_le_of_takeover_retriedJob :
    AttemptsBounded (runCalls emptyQueue retriedJob).table ∧
      (claims (eventsOf emptyQueue retriedJob) "job_1").length ≤ maxAttempts :=
  have h := attempts_le_of_takeover (guard_runCalls retriedJob (by decide))
  ⟨h.1, h.2.1 "job_1"⟩

/-- A message whose worker dies each time: the job is taken over after every lease. -/
def poisonMessage : List (ℤ × Call) :=
  [(0, .enqueue "job_1" "tenant_1" "thread_1" "telegram" "100" "{}" 0),
   (seconds 1, .claim "w1" leaseDurationSec 0),
   (seconds 302, .claim "w2" leaseDurationSec 0),
   (seconds 603, .claim "w3" leaseDurationSec 0),
   (seconds 904, .claim "w4" leaseDurationSec 0)]

/-- The bound does not hold of every run: the fourth takeover of `poisonMessage` hands the job out. -/
theorem attempts_unbounded : ¬ ∀ s, queue.Reachable s → AttemptsBounded s.table := fun h =>
  absurd (h _ (hist_runCalls poisonMessage (by decide)).reachable) (by decide)

end Sreda.Workers
