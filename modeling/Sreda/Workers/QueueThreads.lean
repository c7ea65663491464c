import Mathlib.Data.List.MinMax
import Sreda.Workers.QueueFencing

/-!
# Threads of the message queue

Two promises of the queue about the jobs of one thread, and one about all jobs.

*Order.* A claim never overtakes: when it hands out a job, every job of the thread with a
smaller `enqueued_at` is over (`claim_in_order`). A job that failed and was requeued keeps
its place.

*Exclusion.* "Only one job per `thread_id` may be `status='processing'` with an active lease
at a time." `extend_lease` does not look at the clock, so a heartbeat that comes after its
lease has run out revives the lease even when another job of the thread has been claimed
meanwhile (`two_active`). `atMostOneActive_of_heartbeats` gives the runs in which the
promise holds.

*Progress.* A claim finds a job unless every job that is left waits for one under a running lease
(`claim_none_iff`), and no job is stranded (`exists_drained`).
-/

namespace Sreda.Workers

open JobTable Sreda.Lib

/-! ### Order -/

/-- A claimed job has no unfinished elder in its thread. -/
theorem claim_no_elder {h : List Event} {s s' : QueueState} {e : Event} (hr : queue.Hist h s)
    (hs : queue.step s e s') {j : MessageJob} (hj : e.ret = .claimed (some j)) {k : MessageJob}
    (hk : k ∈ s.table.rows) (ht : k.threadId = j.threadId) (hlt : k.enqueuedAt < j.enqueuedAt) :
    k.status.terminal := by
  obtain ⟨w, l, tie, i, -, hsel, rfl⟩ := step_claimed hs hj
  obtain ⟨hi, hcl, hold⟩ := selectNextJob_some hsel
  change k.threadId = i.threadId at ht
  change k.enqueuedAt < i.enqueuedAt at hlt
  obtain ⟨hfree, hblock⟩ := claimable_iff.mp hcl
  -- an elder that is pending or expired would have been selected: no job of the thread blocks it
  have hnot : ¬ (k.status = .pending ∨ k.leaseExpired e.now) := fun hfree' => by
    refine absurd (hold k hk (claimable_iff.mpr ⟨hfree', fun k' hk' ht' ha => ?_⟩)) (not_le.mpr hlt)
    have hid := hblock k' hk' (ht'.trans ht) ha
    obtain rfl := eq_of_id hk' hi hid
    rw [not_active_of_claimable hcl] at ha
    cases ha
  rcases MessageJob.status_cases e.now ((queueInv_hist hr).check k hk) with hp | ha | hx | hd
  · exact absurd (.inl hp) hnot
  · -- an elder under a running lease blocks the claim
    obtain rfl := eq_of_id hk hi (hblock k hk ht ha)
    exact absurd hlt (lt_irrefl _)
  · exact absurd (.inr hx) hnot
  · exact hd

/-- **Per-thread order.** When a claim returns job `j`, every job of its thread with a strictly
smaller `enqueued_at` is over. In particular a job that `mark_failed` has made pending again
is over before any later job of its thread is handed out. -/
theorem claim_in_order :
    (∀ s e s' j, queue.Reachable s → queue.step s e s' → e.ret = .claimed (some j) →
      ∀ k ∈ s.table.rows, k.threadId = j.threadId → k.enqueuedAt < j.enqueuedAt →
        k.status ≠ .pending ∧ k.status ≠ .processing) ∧
    (∀ s₁ e₁ s₂ as s e s' j, queue.Reachable s₁ → queue.step s₁ e₁ s₂ → queue.Run s₂ as s → queue.step s e s' →
      e.ret = .claimed (some j) → ∀ id w a err, e₁.call = .markFailed id w a err →
        ∀ k ∈ s₂.table.rows, k.id = id → k.threadId = j.threadId → k.enqueuedAt < j.enqueuedAt →
          ∃ k' ∈ s.table.rows, k'.id = id ∧ k'.status.terminal) := by
  constructor
  · intro s e s' j ⟨h, hr⟩ hs hj k hk ht hlt
    have := claim_no_elder hr hs hj hk ht hlt
    constructor <;> intro h' <;> simp [h', JobStatus.terminal] at this
  · intro s₁ e₁ s₂ as s e s' j hr hs₁ hrun hs hj id w a err _ k hk hid ht hlt
    obtain ⟨k', hk', hid', ht', hat', -⟩ := row_persists hrun hk
    obtain ⟨h, hr'⟩ := (hr.step hs₁).run hrun
    exact ⟨k', hk', hid'.trans hid, claim_no_elder hr' hs hj hk' (ht'.trans ht) (hat' ▸ hlt)⟩

/-- A requeued job before a later one of its thread. -/
def requeuedFirst : List (ℤ × Call) :=
  [(0, .enqueue "job_1" "tenant_1" "thread_1" "telegram" "100" "{}" 0),
   (seconds 1, .enqueue "job_2" "tenant_1" "thread_1" "telegram" "101" "{}" (seconds 1)),
   (seconds 2, .claim "w1" leaseDurationSec 0),
   (seconds 3, .markFailed "job_1" "w1" 1 "boom"),
   (seconds 4, .claim "w1" leaseDurationSec 0),
   (seconds 5, .markDone "job_1" "w1" 2)]

/-- The claim that follows `requeuedFirst` hands out the later job; the requeued one is over. -/
theorem claim_in_order_requeuedFirst :
    let s := runCalls emptyQueue requeuedFirst
    let e := eventOf s (seconds 6, .claim "w1" leaseDurationSec 0)
    ∃ j, e.ret = .claimed (some j) ∧ ∀ k ∈ s.table.rows, k.threadId = j.threadId → k.enqueuedAt < j.enqueuedAt →
      k.status ≠ .pending ∧ k.status ≠ .processing := by
  intro s e
  obtain ⟨j, hj⟩ : ∃ j, e.ret = .claimed (some j) := ⟨_, rfl⟩
  exact ⟨j, hj, claim_in_order.1 s e (runCall s (seconds 6, .claim "w1" leaseDurationSec 0)) j
    (hist_runCalls _ (by decide)).reachable ⟨by decide, rfl, rfl⟩ hj⟩

/-! ### Exclusion -/

/-- At most one job of each thread is `processing` with an unexpired lease. -/
def AtMostOneActive (t : JobTable) (now : ℤ) : Prop :=
  ∀ j ∈ t.rows, ∀ k ∈ t.rows, j.threadId = k.threadId → j.active now → k.active now → j.id = k.id

instance (t : JobTable) (now : ℤ) : Decidable (AtMostOneActive t now) :=
  inferInstanceAs (Decidable (∀ j ∈ t.rows, ∀ k ∈ t.rows, _))

theorem AtMostOneActive.mono {t : JobTable} {now later : ℤ} (h : AtMostOneActive t now) (hle : now ≤ later) :
    AtMostOneActive t later := fun j hj k hk ht ha hb =>
  h j hj k hk ht (MessageJob.active_of_le hle ha) (MessageJob.active_of_le hle hb)

/-- A heartbeat that lands, and leaves a running lease, comes while its job's lease is still
running or while no other job of the thread is held under one. Nothing is asked of any
other call. -/
def HeartbeatInTime (s : QueueState) (e : Event) : Prop :=
  match e.call with
  | .extend jobId workerId attempt leaseSeconds =>
    ∀ j ∈ s.table.rows, fenced jobId workerId attempt j → 0 ≤ seconds leaseSeconds →
      j.active e.now ∨ ∀ k ∈ s.table.rows, k.threadId = j.threadId → k.active e.now → k.id = j.id
  | _ => True

instance (s : QueueState) (e : Event) : Decidable (HeartbeatInTime s e) :=
  match e with
  | ⟨.extend .., _, _⟩ => by dsimp only [HeartbeatInTime]; infer_instance
  | ⟨.enqueue .., _, _⟩ | ⟨.claim .., _, _⟩ | ⟨.markDone .., _, _⟩ | ⟨.markFailed .., _, _⟩ => inferInstanceAs (Decidable True)

section Steps

variable {s s' : QueueState} {e : Event}

/-- A claim took the row, or a heartbeat landed on it and left a running lease. -/
def Renewed (s : QueueState) (e : Event) (j : MessageJob) : Prop :=
  (∃ workerId leaseSeconds tie, e.call = .claim workerId leaseSeconds tie ∧ selectNextJob s.table e.now tie = some j) ∨
    ∃ jobId workerId attempt leaseSeconds, e.call = .extend jobId workerId attempt leaseSeconds ∧
      fenced jobId workerId attempt j ∧ 0 ≤ seconds leaseSeconds

/-- What makes a row active: it was, or its lease was renewed. -/
theorem active_after {j : MessageJob} (ha : (rowAfter s.table e.now e.call j).active e.now) :
    j.active e.now ∨ Renewed s e j := by
  rcases rowAfter_cases s.table e.now e.call j with h' | ⟨w, l, tie, hc, hsel, -⟩ | ⟨_, _, _, l, hc, hf, h'⟩ |
    ⟨_, _, _, -, -, h'⟩ | ⟨_, _, a, _, -, -, h'⟩
  · exact .inl (h' ▸ ha)
  · exact .inr (.inl ⟨w, l, tie, hc, hsel⟩)
  · refine .inr (.inr ⟨_, _, _, l, hc, hf, ?_⟩)
    rw [h'] at ha
    simp only [MessageJob.active, extendSet, Option.any_some, Bool.and_eq_true, decide_eq_true_eq] at ha
    omega
  · rw [h', MessageJob.not_active_of_ne_processing (by simp [doneSet])] at ha
    cases ha
  · rw [h', MessageJob.not_active_of_ne_processing
      (by unfold failedSet; split <;> simp [retrySet, deadLetterSet])] at ha
    cases ha

/-- A renewal in time meets no other active job of the thread. -/
theorem Renewed.alone (hg : HeartbeatInTime s e) (hb : AtMostOneActive s.table e.now) {j k : MessageJob}
    (hj : j ∈ s.table.rows) (hk : k ∈ s.table.rows) (ht : j.threadId = k.threadId) (ha : j.active e.now)
    (hr : Renewed s e k) : j.id = k.id := by
  rcases hr with ⟨_, _, _, -, hsel⟩ | ⟨_, _, _, _, hc, hf, hl⟩
  · exact (claimable_iff.mp (selectNextJob_some hsel).2.1).2 j hj ht ha
  · simp only [HeartbeatInTime, hc] at hg
    rcases hg k hk hf hl with hka | halone
    · exact hb j hj k hk ht ha hka
    · exact halone j hj ht ha

theorem Renewed.unique {j k : MessageJob} (hj : Renewed s e j) (hk : Renewed s e k) : j.id = k.id := by
  rcases hj with ⟨_, _, _, hc, hsel⟩ | ⟨_, _, _, _, hc, hf, -⟩ <;>
    rcases hk with ⟨_, _, _, hc', hsel'⟩ | ⟨_, _, _, _, hc', hf', -⟩ <;> rw [hc] at hc'
  · simp only [Call.claim.injEq] at hc'
    obtain ⟨-, -, rfl⟩ := hc'
    rw [Option.some.inj (hsel.symm.trans hsel')]
  · cases hc'
  · cases hc'
  · simp only [Call.extend.injEq] at hc'
    rw [(fenced_iff.mp hf).1, (fenced_iff.mp hf').1, hc'.1]

/-- A step keeps the exclusion exactly when it is not a late heartbeat. -/
theorem atMostOneActive_step_iff (hb : AtMostOneActive s.table s.clock) (hs : queue.step s e s') :
    AtMostOneActive s'.table s'.clock ↔ HeartbeatInTime s e := by
  rw [hs.2.2]
  constructor
  · intro hb'
    unfold HeartbeatInTime
    split
    · next jobId w a l hc =>
      intro j hj hf hl
      refine or_iff_not_imp_left.mpr fun _ k hk ht hka => ?_
      by_contra hne
      have hkid : k.id ≠ jobId := fun h' => hne (h'.trans (fenced_iff.mp hf).1.symm)
      -- the heartbeat revives `j` and leaves `k` active
      have hj' : (extendSet e.now l).set j ∈ s'.table.rows :=
        (mem_step hs).mpr (.inl ⟨j, hj, by rw [hc, rowAfter, if_pos hf]⟩)
      have hk' : k ∈ s'.table.rows :=
        (mem_step hs).mpr (.inl ⟨k, hk, by rw [hc, rowAfter, if_neg fun h' => hkid (fenced_iff.mp h').1]⟩)
      have hja : ((extendSet e.now l).set j).active e.now := by
        simp [MessageJob.active, extendSet, (fenced_iff.mp hf).2.2.2, hl]
      have hid : k.id = ((extendSet e.now l).set j).id := hb' k hk' _ hj' ht hka hja
      exact hne hid
    · trivial
  · intro hg j' hj' k' hk' ht hja hka
    have hb := hb.mono hs.1
    have hadd : ∀ k ∈ added s.table e.now e.call, k.active e.now = false := by
      intro k hk
      obtain ⟨⟨_, _, _, _, _, _, _, rfl⟩, -⟩ := added_spec hk
      exact MessageJob.not_active_of_ne_processing (by simp [newJob])
    rcases (mem_step hs).mp hj' with ⟨j, hj, rfl⟩ | hj'
    · rcases (mem_step hs).mp hk' with ⟨k, hk, rfl⟩ | hk'
      · simp only [rowAfter_threadId, rowAfter_id] at ht ⊢
        rcases active_after hja with ha | ha <;> rcases active_after hka with ha' | ha'
        · exact hb j hj k hk ht ha ha'
        · exact ha'.alone hg hb hj hk ht ha
        · exact (ha.alone hg hb hk hj ht.symm ha').symm
        · exact ha.unique ha'
      · rw [hadd k' hk'] at hka
        cases hka
    · rw [hadd j' hj'] at hja
      cases hja

/-- **At most one active job of each thread**, at every time from the last transaction on, in
every state of every run in which no heartbeat comes late; and from such a state a step
keeps the property exactly when it is not a late heartbeat. -/
theorem atMostOneActive_of_heartbeats (hr : (queue.guard HeartbeatInTime).Reachable s) :
    (∀ now, s.clock ≤ now → AtMostOneActive s.table now) ∧
      ∀ e s', queue.step s e s' → (AtMostOneActive s'.table s'.clock ↔ HeartbeatInTime s e) := by
  have hb : AtMostOneActive s.table s.clock := by
    refine Lts.Reachable.induct (P := fun s => AtMostOneActive s.table s.clock) (fun s hs => ?_)
      (fun s e s' _ hb hs => ?_) hr
    · rw [show s.table = .empty from hs]
      exact fun j hj => absurd hj (by simp)
    · exact (atMostOneActive_step_iff hb hs.1).mpr hs.2
  exact ⟨fun now hle => hb.mono hle, fun e s' hs => atMostOneActive_step_iff hb hs⟩

end Steps

/-- A worker that keeps its lease alive while another message of the thread arrives. -/
def healthyWorker : List (ℤ × Call) :=
  [(0, .enqueue "job_1" "tenant_1" "thread_1" "telegram" "100" "{}" 0),
   (seconds 1, .claim "w1" leaseDurationSec 0),
   (seconds 61, .extend "job_1" "w1" 1 leaseDurationSec),
   (seconds 62, .enqueue "job_2" "tenant_1" "thread_1" "telegram" "101" "{}" (seconds 62)),
   (seconds 63, .claim "w2" leaseDurationSec 0)]

theorem atMostOneActive_of_heartbeats_healthyWorker :
    AtMostOneActive (runCalls emptyQueue healthyWorker).table (seconds 64) :=
  (atMostOneActive_of_heartbeats (guard_runCalls healthyWorker (by decide)).reachable).1 _ (by decide)

/-- A worker stalls past its lease; a message with an earlier `enqueued_at` has come in meanwhile
and is claimed; then the heartbeat of the first worker lands. -/
def lateHeartbeat : List (ℤ × Call) :=
  [(seconds 10, .enqueue "job_1" "tenant_1" "thread_1" "telegram" "101" "{}" (seconds 10)),
   (seconds 11, .claim "w1" leaseDurationSec 0),
   (seconds 12, .enqueue "job_2" "tenant_1" "thread_1" "telegram" "100" "{}" (seconds 9)),
   (seconds 312, .claim "w2" leaseDurationSec 0),
   (seconds 313, .extend "job_1" "w1" 1 leaseDurationSec)]

/-- The exclusion does not hold of every run: after `lateHeartbeat` both jobs of the thread are active. -/
theorem two_active : ¬ ∀ s, queue.Reachable s → AtMostOneActive s.table s.clock := fun h =>
  absurd (h _ (hist_runCalls lateHeartbeat (by decide)).reachable) (by decide)

/-! ### Progress -/

section Progress

variable {s s' s'' : QueueState} {e : Event}

/-- A claim finds no row exactly when none is claimable. -/
theorem selectNextJob_eq_none {t : JobTable} {now : ℤ} (tie : ℕ) :
    selectNextJob t now tie = none ↔ ∀ j ∈ t.rows, ¬ claimable t now j := by
  constructor
  · intro h j hj hcl
    have hmem : j ∈ t.rows.filter (claimable t now) := List.mem_filter.mpr ⟨hj, hcl⟩
    obtain ⟨m, hm⟩ := Option.ne_none_iff_exists'.mp
      (mt (List.argmin_eq_none (f := (·.enqueuedAt))).mp (List.ne_nil_of_mem hmem))
    have hpos : 0 < (oldest (t.rows.filter (claimable t now))).length :=
      List.length_pos_of_mem (mem_oldest.mpr ⟨List.argmin_mem hm, fun k hk => List.le_of_mem_argmin hk hm⟩)
    exact absurd (Nat.mod_lt tie hpos) (not_lt.mpr (List.getElem?_eq_none_iff.mp h))
  · intro h
    cases hsel : selectNextJob t now tie with
    | none => rfl
    | some j => exact absurd (selectNextJob_some hsel).2.1 (h j (selectNextJob_some hsel).1)

theorem not_terminal_of_claimable {t : JobTable} {now : ℤ} {j : MessageJob} (h : claimable t now j) : ¬ j.status.terminal := by
  rcases (claimable_iff.mp h).1 with hp | hx
  · simp [hp, JobStatus.terminal]
  · simp only [MessageJob.leaseExpired, Bool.and_eq_true, decide_eq_true_eq] at hx
    simp [hx.1, JobStatus.terminal]

/-- A table has no claimable row exactly when each job that is left waits for one of its thread under a running lease. -/
theorem none_claimable_iff {t : JobTable} (hcheck : ∀ j ∈ t.rows, j.statusTimestampsOk) (now : ℤ) :
    (∀ j ∈ t.rows, ¬ claimable t now j) ↔
      ∀ j ∈ t.rows, ¬ j.status.terminal → ∃ k ∈ t.rows, k.threadId = j.threadId ∧ k.active now := by
  constructor
  · intro h j hj hleft
    by_contra hn
    refine h j hj (claimable_iff.mpr ⟨?_, fun k hk ht ha => absurd ⟨k, hk, ht, ha⟩ hn⟩)
    rcases MessageJob.status_cases now (hcheck j hj) with hp | ha | hx | hd
    · exact .inl hp
    · exact absurd ⟨j, hj, rfl, ha⟩ hn
    · exact .inr hx
    · exact absurd hd hleft
  · intro h j hj hcl
    obtain ⟨k, hk, ht, ha⟩ := h j hj (not_terminal_of_claimable hcl)
    obtain rfl := eq_of_id hk hj ((claimable_iff.mp hcl).2 k hk ht ha)
    rw [not_active_of_claimable hcl] at ha
    cases ha

/-- **No thread waits for nothing**: at any time a claim finds no job exactly when each job that is left has a job of its
thread under a running lease. -/
theorem claim_none_iff (hr : queue.Reachable s) (workerId : String) (now leaseSeconds : ℤ) (tie : ℕ) :
    (claimNextJob s.table workerId now leaseSeconds tie).2 = none ↔
      ∀ j ∈ s.table.rows, ¬ j.status.terminal → ∃ k ∈ s.table.rows, k.threadId = j.threadId ∧ k.active now := by
  obtain ⟨as, has⟩ := hr
  rw [← none_claimable_iff (queueInv_hist has).check, ← selectNextJob_eq_none tie]
  rcases claimNextJob_cases s.table workerId now leaseSeconds tie with ⟨h1, h2⟩ | ⟨j, h1, h2⟩ <;> simp [h1, h2]

theorem claim_none_iff_healthyWorker :
    (claimNextJob (runCalls emptyQueue healthyWorker).table "w2" (seconds 64) leaseDurationSec 0).2 = none :=
  (claim_none_iff (hist_runCalls healthyWorker (by decide)).reachable "w2" _ _ _).mpr (by decide)

/-- A claim or a `mark_done` of the worker at the time. -/
def Event.WorkOf (workerId : String) (now : ℤ) (e : Event) : Prop :=
  e.now = now ∧
    ((∃ tie, e.call = .claim workerId leaseDurationSec tie) ∨ ∃ id attempt, e.call = .markDone id workerId attempt)

/-- A worker claims a job and ends it. -/
theorem exists_done (hr : queue.Reachable s) {now : ℤ} (hnow : s.clock ≤ now) (hidle : ∀ j ∈ s.table.rows, j.active now = false)
    (workerId : String) {j : MessageJob} (hj : j ∈ s.table.rows) (hleft : ¬ j.status.terminal) :
    ∃ i ∈ s.table.rows, ¬ i.status.terminal ∧ ∃ as s', queue.Run s as s' ∧ (∀ e ∈ as, e.WorkOf workerId now) ∧
      s'.clock = now ∧ s'.table.rows = s.table.rows.map fun k =>
        if k = i then (doneSet now).set ((claimSet workerId now leaseDurationSec).set k) else k := by
  obtain ⟨as, has⟩ := hr
  have hsome : ¬ ∀ k ∈ s.table.rows, ¬ claimable s.table now k := fun h => by
    obtain ⟨k, hk, -, ha⟩ := (none_claimable_iff (queueInv_hist has).check now).mp h j hj hleft
    rw [hidle k hk] at ha
    cases ha
  obtain ⟨i, hsel⟩ := Option.ne_none_iff_exists'.mp (mt (selectNextJob_eq_none 0).mp hsome)
  obtain ⟨hi, hcl, -⟩ := selectNextJob_some hsel
  let claim : Call := .claim workerId leaseDurationSec 0
  let s₁ := runCall s (now, claim)
  let done : Call := .markDone i.id workerId (i.attempt + 1)
  have hstep₁ : queue.step s (eventOf s (now, claim)) s₁ := ⟨hnow, rfl, rfl⟩
  have hstep₂ : queue.step s₁ (eventOf s₁ (now, done)) (runCall s₁ (now, done)) := ⟨le_rfl, rfl, rfl⟩
  refine ⟨i, hi, not_terminal_of_claimable hcl, _, _, (Lts.Run.single hstep₁).trans (.single hstep₂), ?_, rfl, ?_⟩
  · simp [Event.WorkOf, eventOf, claim, done]
  have h₁ : s₁.table.rows = s.table.rows.map (rowAfter s.table now claim) := (exec_rows _ _ _).trans (List.append_nil _)
  have h₂ : (runCall s₁ (now, done)).table.rows = s₁.table.rows.map (rowAfter s₁.table now done) :=
    (exec_rows _ _ _).trans (List.append_nil _)
  rw [h₂, h₁, List.map_map]
  refine List.map_congr_left fun k hk => ?_
  by_cases hki : k = i
  · subst hki
    simp [rowAfter, claim, done, hsel, fenced, claimSet]
  · have hid : k.id ≠ i.id := fun h => hki (eq_of_id hk hi h)
    simp [rowAfter, claim, done, hsel, Ne.symm hki, fenced, hid, hki]

/-- **No message is stranded**: from every state of the queue, once all leases have run out, one worker that claims and ends
jobs can bring every job that is left to `done`. -/
theorem exists_drained (hr : queue.Reachable s) {now : ℤ} (hnow : s.clock ≤ now)
    (hidle : ∀ j ∈ s.table.rows, j.active now = false) (workerId : String) :
    ∃ as s', queue.Run s as s' ∧ (∀ e ∈ as, e.WorkOf workerId now) ∧
      s'.table.rows.map (·.id) = s.table.rows.map (·.id) ∧
      ∀ j ∈ s'.table.rows, j.status = .done ∨ j ∈ s.table.rows ∧ j.status.terminal := by
  obtain ⟨ids, hids⟩ : ∃ ids : List String, ∀ j ∈ s.table.rows, ¬ j.status.terminal → j.id ∈ ids :=
    ⟨_, fun j hj _ => List.mem_map_of_mem hj⟩
  -- on the jobs that may be left
  induction hn : ids.length generalizing s ids with
  | zero =>
    rw [List.length_eq_zero_iff] at hn
    exact ⟨[], s, .nil s, by simp, rfl, fun j hj => .inr ⟨hj, by_contra fun h => absurd (hids j hj h) (by simp [hn])⟩⟩
  | succ n ih =>
    by_cases hover : ∀ j ∈ s.table.rows, j.status.terminal
    · exact ⟨[], s, .nil s, by simp, rfl, fun j hj => .inr ⟨hj, hover j hj⟩⟩
    push Not at hover
    obtain ⟨j, hj, hleft⟩ := hover
    obtain ⟨i, hi, hopen, as, s₁, hrun, hwork, hclock, hrows⟩ := exists_done hr hnow hidle workerId hj hleft
    have hmem : ∀ k ∈ s₁.table.rows, k.status = .done ∨ k ∈ s.table.rows ∧ k.id ≠ i.id := fun k hk => by
      rw [hrows, List.mem_map] at hk
      obtain ⟨k', hk', rfl⟩ := hk
      split
      · exact .inl rfl
      · next hne => exact .inr ⟨hk', fun h => hne (eq_of_id hk' hi h)⟩
    have hidle₁ : ∀ k ∈ s₁.table.rows, k.active now = false := fun k hk => by
      rcases hmem k hk with hdone | ⟨hk, -⟩
      · exact MessageJob.not_active_of_ne_processing (by simp [hdone])
      · exact hidle k hk
    have hids₁ : ∀ k ∈ s₁.table.rows, ¬ k.status.terminal → k.id ∈ ids.erase i.id := fun k hk hkopen => by
      rcases hmem k hk with hdone | ⟨hk, hne⟩
      · exact absurd (by simp [hdone, JobStatus.terminal]) hkopen
      · exact (List.mem_erase_of_ne hne).mpr (hids k hk hkopen)
    obtain ⟨bs, t, hrun', hwork', hid, hall⟩ := ih (hr.run hrun) hclock.le hidle₁ _ hids₁
      (by rw [List.length_erase_of_mem (hids i hi hopen), hn, Nat.add_sub_cancel])
    refine ⟨as ++ bs, t, hrun.trans hrun', List.forall_mem_append.mpr ⟨hwork, hwork'⟩, hid.trans ?_, fun k hk => ?_⟩
    · rw [hrows, List.map_map]
      refine List.map_congr_left fun k _ => ?_
      dsimp only [Function.comp_apply]
      split <;> rfl
    · rcases hall k hk with hdone | ⟨hk, hover⟩
      · exact .inl hdone
      · exact (hmem k hk).imp_right fun h => ⟨h.1, hover⟩

theorem exists_drained_healthyWorker : ∃ as s', queue.Run (runCalls emptyQueue healthyWorker) as s' ∧
    ∀ j ∈ s'.table.rows, j.status = .done ∨ j ∈ (runCalls emptyQueue healthyWorker).table.rows ∧ j.status.terminal := by
  obtain ⟨as, s', hrun, -, -, hall⟩ := exists_drained (hist_runCalls healthyWorker (by decide)).reachable
    (show _ ≤ seconds 1000 by decide) (by decide) "w3"
  exact ⟨as, s', hrun, hall⟩

/-- **A message is queued once and not lost**: from its enqueue on the table has one row with its id, in its thread and at its
place in the order, and another enqueue under its key returns that row. -/
theorem enqueued_once {as : List Event} {j : MessageJob} (h : queue.step s e s') (hj : e.ret = .enqueued (.job j))
    (hr : queue.Run s' as s'') :
    ∃ k ∈ s''.table.rows, (k.id = j.id ∧ k.threadId = j.threadId ∧ k.enqueuedAt = j.enqueuedAt) ∧
      (∀ k' ∈ s''.table.rows, k'.id = j.id → k' = k) ∧
      ∀ id tenantId threadId messagePayload when,
        enqueueMessage s''.table id tenantId threadId j.channel j.externalUpdateId messagePayload when =
          (s''.table, .duplicate k) := by
  have hkept : ∃ k ∈ s''.table.rows, k.id = j.id ∧ k.threadId = j.threadId ∧ k.enqueuedAt = j.enqueuedAt ∧
      k.dedupKey = j.dedupKey := by
    induction hr with
    | nil =>
      refine ⟨j, (mem_step h).mpr (.inr ?_), rfl, rfl, rfl, rfl⟩
      rw [step_ret h] at hj
      simp [added, hj]
    | snoc _ hs ih =>
      obtain ⟨k, hk, h1, h2, h3, h4⟩ := ih
      exact ⟨_, (mem_step hs).mpr (.inl ⟨k, hk, rfl⟩), by simp [h1], by simp [h2], by simp [h3], by simp [h4]⟩
  obtain ⟨k, hk, hid, hthread, hplace, hkey⟩ := hkept
  exact ⟨k, hk, ⟨hid, hthread, hplace⟩, fun k' hk' hid' => eq_of_id hk' hk (hid'.trans hid.symm),
    fun _ _ _ _ _ => enqueueMessage_of_key hk _ _ _ _ _ hkey⟩

theorem enqueued_once_first : ∃ k ∈ (runCall emptyQueue (0, .enqueue "job_1" "t" "th" "telegram" "7" "" 0)).table.rows,
    k.id = "job_1" := by
  have hstep : queue.step emptyQueue (eventOf emptyQueue (0, .enqueue "job_1" "t" "th" "telegram" "7" "" 0))
      (runCall emptyQueue (0, .enqueue "job_1" "t" "th" "telegram" "7" "" 0)) := ⟨le_rfl, rfl, rfl⟩
  obtain ⟨k, hk, ⟨hid, -⟩, -⟩ := enqueued_once hstep rfl (.nil _)
  exact ⟨k, hk, hid⟩

end Progress

end Sreda.Workers
