import Sreda.Workers.TelegramInbound

/-!
# One job for each update

## What is proved

No two updates that the queue has acknowledged share a job, as long as the numbers of the bots do not
meet: the table of inbound messages tells the updates of two bots apart, the table of jobs does not
(`own_jobs`). An update that meets the number of another bot is acknowledged with the job of the
other, and its message is gone.
-/

namespace Sreda.Workers

open Sreda.Lib

variable {dumps : Invocation → String} {s : IngestState}

/-! ### The promise and its condition -/

/-- Every update that the queue has acknowledged has a job of its own. -/
structure OwnJobs (s : IngestState) : Prop where
  exists_job : ∀ ack ∈ s.acks, ∃ job ∈ s.jobs.rows, job.id = ack.jobId
  own : (s.acks.map (·.jobId)).Nodup

/-- The two tables agree on the update: the queued updates with its key of a job have its entry in the
table of inbound messages, too. -/
def KeysAgree (s : IngestState) (inv : Invocation) : Prop :=
  ∀ ack ∈ s.acks, ack.inv.jobKey = inv.jobKey → inv.entry.isSome ∧ ack.inv.entry = inv.entry

/-- The condition: an update comes to the queue only where the tables agree on it. -/
def IngestEvent.Agrees (s : IngestState) : IngestEvent → Prop
  | .enqueue inv _ _ _ => KeysAgree s inv
  | _ => True

/-! ### The invariant -/

/-- What links the tables and the calls. -/
structure IngestInv (s : IngestState) : Prop where
  /-- An acknowledged update has a job with its key. -/
  acked : ∀ ack ∈ s.acks, ∃ job ∈ s.jobs.rows, job.id = ack.jobId ∧ job.dedupKey = ack.inv.jobKey
  /-- A job belongs to an acknowledged update. -/
  job : ∀ job ∈ s.jobs.rows, ∃ ack ∈ s.acks, ack.jobId = job.id
  own : (s.acks.map (·.jobId)).Nodup
  /-- The updates on their way and those that are acknowledged have rows of their own. -/
  row : ∀ inv ∈ s.inFlight ++ s.acks.map (·.inv), ∃ row ∈ s.inbound.rows.rows, row.id = inv.inboundId ∧ row.entry = inv.entry
  once : ((s.inFlight ++ s.acks.map (·.inv)).map (·.inboundId)).Nodup

theorem IngestInv.ownJobs (h : IngestInv s) : OwnJobs s := by
  refine ⟨fun ack hack => ?_, h.own⟩
  obtain ⟨job, hjob, hid, -⟩ := h.acked ack hack
  exact ⟨job, hjob, hid⟩

/-- The table of inbound messages tells the calls apart. -/
theorem IngestInv.eq_of_entry (h : IngestInv s) {inv inv' : Invocation} (hinv : inv ∈ s.inFlight ++ s.acks.map (·.inv))
    (hinv' : inv' ∈ s.inFlight ++ s.acks.map (·.inv)) (hsome : inv.entry.isSome) (heq : inv'.entry = inv.entry) :
    inv' = inv := by
  obtain ⟨entry, hentry⟩ := Option.isSome_iff_exists.mp hsome
  obtain ⟨row, hrow, hid, hrowEntry⟩ := h.row inv hinv
  obtain ⟨row', hrow', hid', hrowEntry'⟩ := h.row inv' hinv'
  obtain rfl : row = row' :=
    Indexed.eq_of_entry hrow hrow' (hrowEntry.trans hentry) (hrowEntry'.trans (heq.trans hentry))
  exact List.inj_on_of_nodup_map h.once hinv' hinv (hid'.symm.trans hid)

/-- An update on its way has a number that no queued update of the same bot has. -/
theorem IngestInv.entry_ne (h : IngestInv s) {inv : Invocation} (hinv : inv ∈ s.inFlight) {ack : Ack}
    (hack : ack ∈ s.acks) (hsome : inv.entry.isSome) : ack.inv.entry ≠ inv.entry := by
  intro heq
  have hack' : ack.inv ∈ s.acks.map (·.inv) := List.mem_map_of_mem hack
  have hsame := h.eq_of_entry (List.mem_append_left _ hinv) (List.mem_append_right _ hack') hsome heq
  exact List.disjoint_of_nodup_append (List.Nodup.of_map _ h.once) hinv (hsame ▸ hack')

/-- The tables agree on an update on its way exactly when no queued update has its key. -/
theorem IngestInv.keysAgree_iff (h : IngestInv s) {inv : Invocation} (hinv : inv ∈ s.inFlight) :
    KeysAgree s inv ↔ ∀ job ∈ s.jobs.rows, job.dedupKey ≠ inv.jobKey := by
  constructor
  · intro hagree job hjob hkey
    obtain ⟨ack, hack, hid⟩ := h.job job hjob
    obtain ⟨job', hjob', hid', hkey'⟩ := h.acked ack hack
    obtain rfl : job = job' := JobTable.eq_of_id hjob hjob' (hid.symm.trans hid'.symm)
    obtain ⟨hsome, heq⟩ := hagree ack hack (hkey'.symm.trans hkey)
    exact h.entry_ne hinv hack hsome heq
  · intro hnone ack hack hkey
    obtain ⟨job, hjob, -, hkey'⟩ := h.acked ack hack
    exact absurd (hkey'.trans hkey) (hnone job hjob)

/-! ### The queue path -/

variable {jobs : JobTable} {t : InboundTable} {botKey : String} {update : TelegramUpdate}

theorem requeryJob_of_mem {inv : Invocation} {job : MessageJob} (hjob : job ∈ jobs.rows)
    (hkey : job.dedupKey = inv.jobKey) : requeryJob jobs inv = some job.id := by
  rw [requeryJob, JobTable.find?_dedupKey hjob hkey, Option.map_some]

/-- A job with the key is taken for the update's own. -/
theorem enqueueUpdate_of_key {inv : Invocation} {job : MessageJob} (hjob : job ∈ jobs.rows)
    (hkey : job.dedupKey = inv.jobKey) (jobId : String) (now : ℤ) (fault : EnqueueFault) :
    enqueueUpdate dumps jobs inv jobId now fault = (jobs, some job.id) := by
  unfold enqueueUpdate
  rw [enqueueMessage_of_key hjob jobId inv.tenantId _ (dumps inv) now hkey]
  cases fault with
  | none => rfl
  | lost => rw [← requeryJob_of_mem hjob hkey]
  | landed => rw [← requeryJob_of_mem hjob hkey]

/-- Nothing is committed and nothing is acknowledged. -/
theorem enqueueUpdate_lost {inv : Invocation} (hnone : ∀ job ∈ jobs.rows, job.dedupKey ≠ inv.jobKey)
    (jobId : String) (now : ℤ) : enqueueUpdate dumps jobs inv jobId now .lost = (jobs, none) := by
  have hrequery : requeryJob jobs inv = none := by simpa [requeryJob] using hnone
  rw [← hrequery]
  rfl

theorem enqueueUpdate_new (dumps : Invocation → String) {inv : Invocation} {jobId : String} (now : ℤ)
    {fault : EnqueueFault}
    (hnone : ∀ job ∈ jobs.rows, job.dedupKey ≠ inv.jobKey) (hfresh : ∀ job ∈ jobs.rows, job.id ≠ jobId)
    (hfault : fault ≠ .lost) :
    ∃ (job : MessageJob) (jobs' : JobTable), job.id = jobId ∧ job.dedupKey = inv.jobKey ∧
      job.messagePayload = dumps inv ∧ jobs'.rows = jobs.rows ++ [job] ∧
      enqueueUpdate dumps jobs inv jobId now fault = (jobs', some jobId) := by
  obtain ⟨jobs', hrows, heq⟩ := enqueueMessage_of_free inv.tenantId
    (deriveThreadKey inv.tenantId "telegram" (inv.update.chatId.getD "None")) (dumps inv) now hfresh hnone
  refine ⟨_, jobs', rfl, rfl, rfl, hrows, ?_⟩
  unfold enqueueUpdate
  rw [heq]
  cases fault with
  | none => rfl
  | lost => exact absurd rfl hfault
  | landed =>
    have hmem : newJob jobId inv.tenantId (deriveThreadKey inv.tenantId "telegram" (inv.update.chatId.getD "None")) "telegram"
        inv.update.updateId.external (dumps inv) now ∈ jobs'.rows := by simp [hrows]
    exact Prod.ext rfl (requeryJob_of_mem hmem rfl)

/-! ### Steps -/

theorem findDuplicateInbound_eq_some {channelType updateId : String} {row : InboundMessage}
    (h : findDuplicateInbound t channelType botKey updateId = some row) :
    row ∈ t.rows.rows ∧ row.entry = some (channelType, botKey, updateId) := by
  refine ⟨List.mem_of_find?_eq_some h, ?_⟩
  simpa using List.find?_some h

theorem findDuplicateInbound_eq_none {channelType updateId : String} :
    findDuplicateInbound t channelType botKey updateId = none ↔
      ∀ row ∈ t.rows.rows, row.entry ≠ some (channelType, botKey, updateId) := by
  simp [findDuplicateInbound]

theorem entry_inboundRow {id : String} {tenantId : Option String} : (inboundRow id tenantId botKey update).entry =
      update.updateId.extract.map fun updateId => ("telegram", botKey, updateId) := rfl

/-- What is persisted as new: one more row, under an id and an entry that no other row has. -/
theorem persisted_spec {t' : InboundTable} {id : String} {tenantId : Option String}
    (h : persistTelegramInboundEvent t id tenantId botKey update = .persisted t') :
    t'.rows.rows = t.rows.rows ++ [inboundRow id tenantId botKey update] ∧ (∀ row ∈ t.rows.rows, row.id ≠ id) ∧
      ∀ row ∈ t.rows.rows, row.entry.isSome → row.entry ≠ (inboundRow id tenantId botKey update).entry := by
  unfold persistTelegramInboundEvent at h
  split at h
  · cases h
  next hfind =>
    split at h
    · cases h
    next inserted hinsert =>
      cases h
      obtain ⟨rows, hrows, hcommit⟩ := Option.bind_eq_some_iff.mp hinsert
      have hid : ∀ row ∈ t.rows.rows, row.id ≠ id := fun row hrow heq =>
        absurd (Keyed.insert?_eq_none.mpr ⟨row, hrow, heq⟩) (by rw [hrows]; simp)
      refine ⟨by rw [Indexed.rows_commit? hcommit, Keyed.rows_insert? hrows], hid, fun row hrow hsome heq => ?_⟩
      rw [entry_inboundRow] at heq
      cases hextract : update.updateId.extract with
      | none =>
        rw [heq, hextract] at hsome
        cases hsome
      | some updateId =>
        rw [hextract] at heq hfind
        exact findDuplicateInbound_eq_none.mp hfind row hrow heq

theorem persist_cases {t : IngestState} {env : IngressEnv} {inboundId : String}
    (h : s.persist botKey update env inboundId = some t) :
    (t = s ∧ ∃ row ∈ s.inbound.rows.rows, row.entry.isSome ∧
        row.entry = (inboundRow inboundId (some env.tenantId) botKey update).entry) ∨
      persistTelegramInboundEvent s.inbound inboundId (some env.tenantId) botKey update = .persisted t.inbound ∧
        t.jobs = s.jobs ∧ t.acks = s.acks ∧
        t.inFlight = if env.fate update = .queue then ⟨botKey, update, inboundId, env.tenantId⟩ :: s.inFlight else s.inFlight := by
  unfold IngestState.persist at h
  split at h
  · cases h
  next existing hpersist =>
    cases h
    refine .inl ⟨rfl, existing, ?_⟩
    unfold persistTelegramInboundEvent at hpersist
    split at hpersist
    next hfind =>
      cases hpersist
      obtain ⟨updateId, hextract, hfound⟩ := Option.bind_eq_some_iff.mp hfind
      obtain ⟨hmem, hentry⟩ := findDuplicateInbound_eq_some hfound
      exact ⟨hmem, by rw [hentry]; rfl, by rw [hentry, entry_inboundRow, hextract]; rfl⟩
    · split at hpersist <;> cases hpersist
  next inbound hpersist =>
    right
    split at h
    next hqueue =>
      cases h
      exact ⟨hpersist, rfl, rfl, (if_pos hqueue).symm⟩
    next hother =>
      cases h
      exact ⟨hpersist, rfl, rfl, (if_neg hother).symm⟩

/-- An update that is persisted as new has a row of its own. -/
theorem IngestInv.persist (h : IngestInv s) {t : IngestState}
    {env : IngressEnv} {inboundId : String} (ht : s.persist botKey update env inboundId = some t) : IngestInv t := by
  rcases persist_cases ht with ⟨rfl, -⟩ | ⟨hpersist, hjobs, hacks, hflight⟩
  · exact h
  · obtain ⟨hrows, hid, -⟩ := persisted_spec hpersist
    have hrow : ∀ inv ∈ s.inFlight ++ s.acks.map (·.inv), ∃ row ∈ t.inbound.rows.rows,
        row.id = inv.inboundId ∧ row.entry = inv.entry := by
      intro inv hinv
      obtain ⟨row, hrow, hspec⟩ := h.row inv hinv
      exact ⟨row, by rw [hrows]; exact List.mem_append_left _ hrow, hspec⟩
    refine ⟨by rw [hacks, hjobs]; exact h.acked, by rw [hacks, hjobs]; exact h.job, by rw [hacks]; exact h.own, ?_, ?_⟩
    · rw [hacks, hflight]
      split
      · intro inv hinv
        rcases List.mem_cons.mp hinv with rfl | hinv
        · exact ⟨_, by rw [hrows]; exact List.mem_append_right _ List.mem_cons_self, rfl, rfl⟩
        · exact hrow inv hinv
      · exact hrow
    · rw [hacks, hflight]
      split
      · refine List.nodup_cons.mpr ⟨fun hmem => ?_, h.once⟩
        obtain ⟨inv, hinv, heq⟩ := List.mem_map.mp hmem
        obtain ⟨row, hrow, hrowId, -⟩ := h.row inv hinv
        exact hid row hrow (hrowId.trans heq)
      · exact h.once

theorem IngestInv.abandon (h : IngestInv s) {inv : Invocation} : IngestInv (s.abandon inv) := by
  refine ⟨h.acked, h.job, h.own, fun inv' hinv' => h.row inv' ?_, h.once.sublist ?_⟩
  · rcases List.mem_append.mp hinv' with hflight | hack
    · exact List.mem_append_left _ (List.mem_of_mem_erase hflight)
    · exact List.mem_append_right _ hack
  · exact (List.erase_sublist.append_right _).map _

theorem IngestInv.work (h : IngestInv s) {now : ℤ} {call : Call} (hcall : call.byWorker = true) :
    IngestInv { s with jobs := (exec s.jobs now call).1 } := by
  have hadded : added s.jobs now call = [] := by
    cases call with
    | enqueue => cases hcall
    | claim | extend | markDone | markFailed => rfl
  refine ⟨fun ack hack => ?_, fun job hjob => ?_, h.own, h.row, h.once⟩
  · obtain ⟨job, hjob, hid, hkey⟩ := h.acked ack hack
    exact ⟨rowAfter s.jobs now call job, mem_exec.mpr (.inl ⟨job, hjob, rfl⟩), by rw [rowAfter_id, hid],
      by rw [rowAfter_dedupKey, hkey]⟩
  · rcases mem_exec.mp hjob with ⟨old, hold, rfl⟩ | hnew
    · rw [rowAfter_id]
      exact h.job old hold
    · rw [hadded] at hnew
      cases hnew

/-- **An update that comes to the queue** keeps the promise exactly when the tables agree on it. -/
theorem IngestInv.enqueue (h : IngestInv s) {inv : Invocation} {jobId : String} {now : ℤ} {fault : EnqueueFault}
    (hinv : inv ∈ s.inFlight) (hfresh : ∀ job ∈ s.jobs.rows, job.id ≠ jobId) :
    (KeysAgree s inv → IngestInv (s.enqueue dumps inv jobId now fault)) ∧
      (¬ KeysAgree s inv → ¬ OwnJobs (s.enqueue dumps inv jobId now fault)) := by
  rw [h.keysAgree_iff hinv]
  -- the call is on its way no longer, and acknowledged
  have hperm : (s.inFlight.erase inv ++ inv :: s.acks.map (·.inv)).Perm (s.inFlight ++ s.acks.map (·.inv)) :=
    List.perm_middle.trans ((List.perm_cons_erase hinv).symm.append_right _)
  constructor
  · intro hnone
    by_cases hfault : fault = .lost
    · subst hfault
      unfold IngestState.enqueue
      rw [enqueueUpdate_lost hnone]
      exact h.abandon
    · obtain ⟨job, jobs', hid, hkey, -, hrows, heq⟩ := enqueueUpdate_new dumps now hnone hfresh hfault
      unfold IngestState.enqueue
      rw [heq]
      refine ⟨?_, ?_, ?_, ?_, ?_⟩
      · intro ack hack
        rcases List.mem_cons.mp hack with rfl | hack
        · exact ⟨job, by simp [hrows], hid, hkey⟩
        · obtain ⟨old, hold, hspec⟩ := h.acked ack hack
          exact ⟨old, by simp [hrows, hold], hspec⟩
      · intro job' hjob'
        rw [show _ = _ from hrows] at hjob'
        rcases List.mem_append.mp hjob' with hold | hnew
        · obtain ⟨ack, hack, hackId⟩ := h.job job' hold
          exact ⟨ack, List.mem_cons_of_mem _ hack, hackId⟩
        · obtain rfl := List.mem_singleton.mp hnew
          exact ⟨⟨inv, jobId⟩, List.mem_cons_self, hid.symm⟩
      · refine List.nodup_cons.mpr ⟨fun hmem => ?_, h.own⟩
        obtain ⟨ack, hack, hackId⟩ := List.mem_map.mp hmem
        obtain ⟨old, hold, holdId, -⟩ := h.acked ack hack
        exact hfresh old hold (holdId.trans hackId)
      · exact fun inv' hinv' => h.row inv' (hperm.mem_iff.mp hinv')
      · exact (hperm.map _).nodup_iff.mpr h.once
  · intro hsome
    push Not at hsome
    obtain ⟨job, hjob, hkey⟩ := hsome
    obtain ⟨ack, hack, hackId⟩ := h.job job hjob
    intro hown
    have hnodup := hown.own
    unfold IngestState.enqueue at hnodup
    rw [enqueueUpdate_of_key hjob hkey] at hnodup
    exact (List.nodup_cons.mp hnodup).1 (List.mem_map.mpr ⟨ack, hack, hackId⟩)

/-! ### Every run -/

/-- **One step** keeps the invariant when it meets the condition, and breaks the promise when it does not. -/
theorem ingest_step {event : IngestEvent} {t : IngestState} (h : IngestInv s) (hs : (ingest dumps).step s event t) :
    (event.Agrees s → IngestInv t) ∧ (¬ event.Agrees s → ¬ OwnJobs t) := by
  cases event with
  | persist botKey update env inboundId => exact ⟨fun _ => h.persist hs.2, fun hn => absurd trivial hn⟩
  | enqueue inv jobId now fault =>
    obtain ⟨hinv, hfresh, rfl⟩ := hs
    exact h.enqueue hinv hfresh
  | abandon inv =>
    obtain ⟨-, rfl⟩ := hs
    exact ⟨fun _ => h.abandon, fun hn => absurd trivial hn⟩
  | work now call =>
    obtain ⟨hcall, rfl⟩ := hs
    exact ⟨fun _ => h.work hcall, fun hn => absurd trivial hn⟩

theorem ingestInv_empty : IngestInv .empty := by
  constructor <;> simp [IngestState.empty]

theorem ingestInv (h : ((ingest dumps).guard fun s event => event.Agrees s).Reachable s) : IngestInv s := by
  refine Lts.Reachable.induct (P := IngestInv) ?_ ?_ h
  · rintro _ rfl
    exact ingestInv_empty
  · exact fun s event t _ hinv hs => (ingest_step hinv hs.1).1 hs.2

/-- **One job for each update**: in every run whose updates come to the queue only where the tables agree
on them, no two acknowledged updates share a job; and after any further step it is so exactly when the
step does the same. -/
theorem own_jobs (dumps : Invocation → String) (s : IngestState)
    (h : ((ingest dumps).guard fun s event => event.Agrees s).Reachable s) :
    OwnJobs s ∧ ∀ event t, (ingest dumps).step s event t → (OwnJobs t ↔ event.Agrees s) := by
  refine ⟨(ingestInv h).ownJobs, fun event t hs => ?_⟩
  obtain ⟨hkeep, hbreak⟩ := ingest_step (ingestInv h) hs
  exact ⟨fun hown => not_not.mp fun hn => hbreak hn hown, fun hagrees => (hkeep hagrees).ownJobs⟩

/-! ### Two bots -/

/-- Update 42 of a bot. -/
def fortyTwo : TelegramUpdate := { updateId := .int 42, messageChatId := some "1", body := "" }

/-- The tenant is approved, and routed to the queue. -/
def routed : IngressEnv := { tenantId := "tenant_1", queueEnabled := true }

/-- Update 42 of the first bot. -/
def firstCall : Invocation := ⟨"sreda", fortyTwo, "in_1", "tenant_1"⟩

/-- Update 42 of the second bot. -/
def secondCall : Invocation := ⟨"sreda_home", fortyTwo, "in_2", "tenant_1"⟩

def noDumps : Invocation → String := fun _ => ""

/-- The first bot's update has been persisted. -/
def firstPersisted : IngestState := (IngestState.empty.persist "sreda" fortyTwo routed "in_1").getD .empty

/-- And enqueued. -/
def firstQueued : IngestState := firstPersisted.enqueue noDumps firstCall "job_1" 0 .none

/-- The second bot's update has been persisted. -/
def secondPersisted : IngestState := (firstQueued.persist "sreda_home" fortyTwo routed "in_2").getD .empty

theorem secondPersisted_reachable : ((ingest noDumps).guard fun s event => event.Agrees s).Reachable secondPersisted := by
  have hinit : (ingest noDumps).init .empty := rfl
  have hfirst : ((ingest noDumps).guard fun s event => event.Agrees s).Reachable firstPersisted :=
    (Lts.Hist.init (L := (ingest noDumps).guard _) hinit).reachable.step (a := .persist "sreda" fortyTwo routed "in_1")
      ⟨⟨by decide, rfl⟩, trivial⟩
  have hqueued : ((ingest noDumps).guard fun s event => event.Agrees s).Reachable firstQueued := by
    refine hfirst.step (a := .enqueue firstCall "job_1" 0 .none) ⟨⟨List.mem_cons_self, ?_, rfl⟩, ?_⟩
    · rintro job ⟨⟩
    · rintro ack ⟨⟩
  exact hqueued.step (a := .persist "sreda_home" fortyTwo routed "in_2") ⟨⟨by decide, rfl⟩, trivial⟩

/-- The update of the second bot is on its way. -/
theorem own_jobs_secondPersisted : OwnJobs secondPersisted ∧
    ∀ event t, (ingest noDumps).step secondPersisted event t → (OwnJobs t ↔ event.Agrees secondPersisted) :=
  own_jobs noDumps secondPersisted secondPersisted_reachable

/-- **Two bots meet**: the update of the second is taken for the one of the first. -/
theorem bots_collide : ¬ ∀ dumps s, (ingest dumps).Reachable s → OwnJobs s := by
  intro h
  have hstep : (ingest noDumps).step secondPersisted (.enqueue secondCall "job_2" 0 .none)
      (secondPersisted.enqueue noDumps secondCall "job_2" 0 .none) := ⟨List.mem_cons_self, by decide, rfl⟩
  refine (ingest_step (ingestInv secondPersisted_reachable) hstep).2 (fun hagrees => ?_)
    (h noDumps _ (secondPersisted_reachable.of_guard.step hstep))
  have hentry := (hagrees ⟨firstCall, "job_1"⟩ List.mem_cons_self rfl).2
  exact absurd hentry (by decide)

end Sreda.Workers
