import Sreda.Workers.Producers

/-!
# Runs of the proactive producers

Any number of processes tick; the tenants are deleted and the users write at any time.

## What is proved

* if every transaction that commits finds its row as unsettled as its scan has found it, and none begins for a deleted
  tenant, then each user gets the intro once in a channel, from the transaction that starts the onboarding; each tenant gets
  the Aha message once in a channel; the replies to an event come from one transaction; a settled event stays as it is; and
  nothing is enqueued for a tenant that was deleted before (`producer_runs`). `second_intro` is a kickoff that commits after
  another.
-/

namespace Sreda.Workers

open Sreda.Lib Sreda.Housewife

/-! ### The transactions -/

/-- A row that a process has found, or the first message of a user. -/
inductive ProducerJob where
  | kickoff (tenantId userId : String)
  | event (eventId tenantId : String)
  | aha (tenantId : String)
  | firstMessage (tenantId userId : String)
  deriving DecidableEq

/-- The tenant that a job may write to. -/
def ProducerJob.tenantId : ProducerJob → Option String
  | .kickoff tenantId _ | .event _ tenantId | .aha tenantId => some tenantId
  | .firstMessage _ _ => none

/-- Where a process is. -/
inductive TxStage where
  | idle
  /-- Before the read that decides; `messages` are enqueued if it lets them. -/
  | begun (job : ProducerJob) (tx : ℕ) (deleted : Bool) (messages : List ProducedMessage)
  /-- At the writes. When they fail, `handled` is the event to be marked. -/
  | planned (tx : ℕ) (deleted : Bool) (write : ProducerWrite) (messages : List ProducedMessage) (handled : Option String)
  /-- The handling of an event has failed. -/
  | failed (eventId : String)

/-- The tables, the number of the next transaction, and what each process has found. -/
structure ProducerState (π : Type) where
  db : ProducerDb
  nextTx : ℕ
  queue : π → List ProducerJob
  stage : π → TxStage

/-- A step. The rows of a scan are those of its table, in the order in which the database returns them. -/
inductive ProducerAct (π : Type) where
  | scanKickoff (p : π) (rows : List SkillConfig) (limit : ℕ) (current : ℤ)
  | scanAha (p : π) (rows : List ProducerTenant) (limit : ℕ) (current : ℤ)
  | scanEvents (p : π) (rows : List ProactiveEvent) (limit : ℕ)
  | receive (p : π) (tenantId userId : String)
  | begin (p : π) (env : ProducerEnv)
  | select (p : π) (now : ℤ)
  | commit (p : π)
  | fail (p : π)
  | delete (tenantId : String) (now : ℤ)

namespace ProducerDb

variable (cfg : TopicConfig) (db : ProducerDb)

/-- The deletion of the tenant is committed. -/
def Deleted (tenantId : String) : Prop := ∃ tenant ∈ db.tenants.get? tenantId, tenant.deletedAt ≠ none

instance (tenantId : String) : Decidable (db.Deleted tenantId) :=
  inferInstanceAs (Decidable (∃ tenant ∈ db.tenants.get? tenantId, tenant.deletedAt ≠ none))

/-- The status of an onboarding, as the calls read it. -/
def status (tenantId userId : String) : OnboardingStatus := (cfg.getRawState (db.onboarding tenantId userId)).status

/-- The soft deletion of a tenant. -/
def deleteTenant (tenantId : String) (now : ℤ) : ProducerDb :=
  { db with
    tenants := db.tenants.update (·.id = tenantId) (fun tenant => { tenant with deletedAt := some now }) fun _ => rfl }

/-- What the first statements of a transaction make of a job. -/
def start (env : ProducerEnv) (tx : ℕ) : ProducerJob → TxStage
  | .kickoff tenantId userId =>
    match env.fire tenantId userId with
    | none => .idle
    | some messages => .begun (.kickoff tenantId userId) tx (db.Deleted tenantId) messages
  | .firstMessage tenantId userId => .begun (.firstMessage tenantId userId) tx (db.Deleted tenantId) []
  | .aha tenantId =>
    match db.tenants.get? tenantId with
    | none => .idle
    | some _ => .begun (.aha tenantId) tx (db.Deleted tenantId) (env.tryAha tenantId)
  | .event eventId tenantId =>
    match db.events.get? eventId with
    | none => .idle
    | some event =>
      match env.handleEvent event with
      | none => .failed eventId
      | some (status, messages) =>
        .planned tx (db.Deleted tenantId) (.event eventId event.status status) messages (some eventId)

/-- The mark of an event whose handling has failed. -/
def startMark (tx : ℕ) (eventId : String) : TxStage :=
  match db.eventStatus eventId with
  | none => .idle
  | some loaded => .planned tx false (.event eventId loaded .skipped) [] none

/-- The read that decides. -/
def select (now : ℤ) (tx : ℕ) (deleted : Bool) (messages : List ProducedMessage) : ProducerJob → Option TxStage
  | .kickoff tenantId userId | .firstMessage tenantId userId =>
    let write := cfg.start now (cfg.getRawState (db.onboarding tenantId userId))
    some (.planned tx deleted (.onboarding tenantId userId (db.configs.get? (tenantId, userId)).isSome write) messages none)
  | .aha tenantId =>
    if tenantId ∈ db.sentinels then some .idle else some (.planned tx deleted (.sentinel tenantId) messages none)
  | .event _ _ => none

end ProducerDb

/-- Where a process goes on when its writes have failed. -/
def afterFailure : Option String → TxStage
  | none => .idle
  | some eventId => .failed eventId

namespace ProducerState

variable {π : Type} [DecidableEq π] (cfg : TopicConfig)

/-- The process is at a stage. -/
def move (s : ProducerState π) (p : π) (stage : TxStage) : ProducerState π :=
  { s with stage := Function.update s.stage p stage }

/-- The process has found the jobs. -/
def find (s : ProducerState π) (p : π) (jobs : List ProducerJob) : ProducerState π :=
  { s with queue := Function.update s.queue p jobs }

/-- A transaction begins: the next job, or the mark of an event. -/
def begin (s : ProducerState π) (p : π) (env : ProducerEnv) : Option (ProducerState π) :=
  match s.stage p, s.queue p with
  | .idle, job :: rest =>
    some { s with
      nextTx := s.nextTx + 1, queue := Function.update s.queue p rest,
      stage := Function.update s.stage p (s.db.start env s.nextTx job) }
  | .failed eventId, _ =>
    some { s with nextTx := s.nextTx + 1, stage := Function.update s.stage p (s.db.startMark s.nextTx eventId) }
  | _, _ => none

/-- The writes and the commit, or the failure of the writes. -/
def commit (s : ProducerState π) (p : π) : Option (ProducerState π) :=
  match s.stage p with
  | .planned tx deleted write messages handled =>
    match s.db.apply write with
    | some db => some { s.move p .idle with db := db.enqueue tx deleted messages }
    | none => some (s.move p (afterFailure handled))
  | .idle | .begun .. | .failed _ => none

/-- The steps. -/
inductive Step (s : ProducerState π) : ProducerAct π → ProducerState π → Prop where
  | scanKickoff {p : π} {rows : List SkillConfig} {limit : ℕ} {current : ℤ} (hfree : s.queue p = []) (hidle : s.stage p = .idle)
      (hrows : rows.Perm s.db.configs.rows) :
      Step s (.scanKickoff p rows limit current)
        (s.find p ((kickoffScan s.db rows limit current).map fun key => .kickoff key.1 key.2))
  | scanAha {p : π} {rows : List ProducerTenant} {limit : ℕ} {current : ℤ} (hfree : s.queue p = []) (hidle : s.stage p = .idle)
      (hrows : rows.Perm s.db.tenants.rows) :
      Step s (.scanAha p rows limit current) (s.find p ((ahaScan rows limit current).map .aha))
  | scanEvents {p : π} {rows : List ProactiveEvent} {limit : ℕ} (hfree : s.queue p = []) (hidle : s.stage p = .idle)
      (hrows : rows.Perm s.db.events.rows) (hsorted : rows.Pairwise fun a b => a.createdAt ≤ b.createdAt) :
      Step s (.scanEvents p rows limit) (s.find p ((eventScan s.db rows limit).map fun job => .event job.1 job.2))
  | receive {p : π} {tenantId userId : String} (hfree : s.queue p = []) (hidle : s.stage p = .idle) :
      Step s (.receive p tenantId userId) (s.find p [.firstMessage tenantId userId])
  | begin {p : π} {env : ProducerEnv} {s' : ProducerState π} (h : s.begin p env = some s') : Step s (.begin p env) s'
  | select {p : π} {now : ℤ} {job : ProducerJob} {tx : ℕ} {deleted : Bool} {messages : List ProducedMessage} {stage : TxStage}
      (hat : s.stage p = .begun job tx deleted messages) (h : s.db.select cfg now tx deleted messages job = some stage) :
      Step s (.select p now) (s.move p stage)
  | commit {p : π} {s' : ProducerState π} (h : s.commit p = some s') : Step s (.commit p) s'
  | failBegun {p : π} {job : ProducerJob} {tx : ℕ} {deleted : Bool} {messages : List ProducedMessage}
      (hat : s.stage p = .begun job tx deleted messages) : Step s (.fail p) (s.move p .idle)
  | failPlanned {p : π} {tx : ℕ} {deleted : Bool} {write : ProducerWrite} {messages : List ProducedMessage} {handled : Option String}
      (hat : s.stage p = .planned tx deleted write messages handled) : Step s (.fail p) (s.move p (afterFailure handled))
  | failMark {p : π} {eventId : String} (hat : s.stage p = .failed eventId) : Step s (.fail p) (s.move p .idle)
  | delete {tenantId : String} {now : ℤ} : Step s (.delete tenantId now) { s with db := s.db.deleteTenant tenantId now }

/-- The producers, from tables with an empty outbox. -/
def producers : Lts (ProducerState π) (ProducerAct π) where
  init s := s.db.outbox = [] ∧ ∀ p, s.stage p = .idle
  step := Step cfg

/-! ### The condition and the guarantees -/

end ProducerState

namespace ProducerDb

variable (cfg : TopicConfig) (db : ProducerDb)

/-- The row of a write is still unsettled, if something depends on it. -/
def Unsettled (messages : List ProducedMessage) : ProducerWrite → Prop
  | .onboarding tenantId userId _ _ => messages ≠ [] → db.status cfg tenantId userId = .notStarted
  | .event eventId _ _ => db.eventStatus eventId = some .classified
  | .sentinel tenantId => messages ≠ [] → tenantId ∉ db.sentinels

/-- The channels of the messages of a producer. -/
def channels (producer : Producer) : List String :=
  (db.outbox.filter (·.message.producer = producer)).map (·.message.channelType)

/-- **What is sent, is sent once.** -/
structure SentOnce (db : ProducerDb) : Prop where
  kickoff : ∀ tenantId userId, (db.channels (.kickoff tenantId userId)).Nodup
  aha : ∀ tenantId, (db.channels (.aha tenantId)).Nodup
  event : ∀ eventId, ∀ row ∈ db.outbox, ∀ row' ∈ db.outbox, row.message.producer = .proactive eventId →
    row'.message.producer = .proactive eventId → row.tx = row'.tx
  deleted : ∀ row ∈ db.outbox, row.deleted = false

/-- From one state to the next: an intro comes with the start of the onboarding, and a settled event stays as it is. -/
structure KeptBy (db db' : ProducerDb) : Prop where
  intro : ∀ tenantId userId, db'.channels (.kickoff tenantId userId) ≠ db.channels (.kickoff tenantId userId) →
    db.status cfg tenantId userId = .notStarted ∧ db'.status cfg tenantId userId = .inProgress
  settled : ∀ eventId, db.eventStatus eventId = some .consumed ∨ db.eventStatus eventId = some .skipped →
    db'.eventStatus eventId = db.eventStatus eventId

end ProducerDb

namespace ProducerState

variable {π : Type} [DecidableEq π] (cfg : TopicConfig)

/-- **The condition**: no transaction begins a job for a deleted tenant, and each that commits finds its row unsettled. -/
def Timely (s : ProducerState π) : ProducerAct π → Prop
  | .begin p _ => s.stage p = .idle → ∀ job ∈ (s.queue p).head?, ∀ tenantId ∈ job.tenantId, ¬ s.db.Deleted tenantId
  | .commit p => ∀ tx deleted write messages handled, s.stage p = .planned tx deleted write messages handled →
      s.db.Unsettled cfg messages write
  | .scanKickoff .. | .scanAha .. | .scanEvents .. | .receive .. | .select .. | .fail _ | .delete .. => True

/-- The producers whose steps meet the condition. -/
def timely : Lts (ProducerState π) (ProducerAct π) := (producers cfg).guard fun s act => s.Timely cfg act

end ProducerState

/-! ### What a transaction holds -/

/-- Messages of one producer, one for a channel. -/
structure FromProducer (producer : Producer) (messages : List ProducedMessage) : Prop where
  producer : ∀ message ∈ messages, message.producer = producer
  channels : (messages.map (·.channelType)).Nodup

theorem FromProducer.nil (producer : Producer) : FromProducer producer [] :=
  ⟨(fun _ h => by cases h), List.nodup_nil⟩

namespace ProducerEnv

variable {env : ProducerEnv}

theorem fromProducer_routings (producer : Producer) (tenantId : String) (userId : Option String) (workspaceId text : String)
    (decision : ProactiveDecision) :
    FromProducer producer (env.routings.map (env.message producer tenantId userId workspaceId text decision)) where
  producer := by
    intro message hmem
    obtain ⟨routing, -, rfl⟩ := List.mem_map.mp hmem
    rfl
  channels := by
    rw [List.map_map]
    exact resolveOutboxRoutings_nodup _ _ _

variable {tenantId userId : String} {job : ProducerJob}

theorem fromProducer_fire {messages : List ProducedMessage}
    (h : env.fire tenantId userId = some messages) : FromProducer (.kickoff tenantId userId) messages := by
  unfold fire at h
  split at h
  · cases h
  · split at h
    · cases h
    · obtain ⟨workspaceId, -, rfl⟩ := Option.map_eq_some_iff.mp h
      exact fromProducer_routings _ _ _ _ _ _

theorem fromProducer_tryAha (env : ProducerEnv) (tenantId : String) : FromProducer (.aha tenantId) (env.tryAha tenantId) := by
  unfold tryAha
  split
  · exact fromProducer_routings _ _ _ _ _ _
  · exact .nil _

/-- A handled event is settled, and its messages are its own. -/
theorem handleEvent_spec {event : ProactiveEvent} {status : EventStatus} {messages : List ProducedMessage}
    (h : env.handleEvent event = some (status, messages)) :
    (status = .consumed ∨ status = .skipped) ∧ ∀ message ∈ messages, message.producer = .proactive event.id := by
  unfold handleEvent at h
  split at h
  · cases h
    exact ⟨.inr rfl, fun _ hmem => by cases hmem⟩
  · split at h
    · cases h
      exact ⟨.inr rfl, fun _ hmem => by cases hmem⟩
    · split at h
      · cases h
      · split at h
        · cases h
          exact ⟨.inr rfl, fun _ hmem => by cases hmem⟩
        · split at h
          · cases h
            exact ⟨.inl rfl, fun _ hmem => by cases hmem⟩
          · cases h
          · obtain ⟨rfl, rfl⟩ := Prod.mk.inj (Option.some.inj h)
            refine ⟨.inl rfl, fun message hmem => ?_⟩
            obtain ⟨reply, -, hmem⟩ := List.mem_flatMap.mp hmem
            obtain ⟨routing, -, rfl⟩ := List.mem_map.mp hmem
            rfl

end ProducerEnv

/-! ### The invariant -/

/-- The row of a producer is settled: it is not to send any more. -/
def ProducerDb.Settled (cfg : TopicConfig) (db : ProducerDb) : Producer → Prop
  | .kickoff tenantId userId => db.status cfg tenantId userId ≠ .notStarted
  | .proactive eventId => db.eventStatus eventId ≠ some .classified
  | .aha tenantId => tenantId ∈ db.sentinels

section Invariant

variable {cfg : TopicConfig} {db db' : ProducerDb} {messages : List ProducedMessage} {write : ProducerWrite} {deleted : Bool}

/-- What is settled in `db` is settled in `db'`. -/
def Later (cfg : TopicConfig) (db db' : ProducerDb) : Prop := ∀ producer, db.Settled cfg producer → db'.Settled cfg producer

/-- The producer that a write is of. -/
def ProducerWrite.producer : ProducerWrite → Producer
  | .onboarding tenantId userId _ _ => .kickoff tenantId userId
  | .event eventId _ _ => .proactive eventId
  | .sentinel tenantId => .aha tenantId

/-- What a planned write is like: if nothing has settled its row since it was read, it does. -/
def WriteInv (cfg : TopicConfig) (db : ProducerDb) : ProducerWrite → Prop
  | .onboarding tenantId userId _ state => (∀ new ∈ state, new.status = .inProgress) ∧
      (state = none → db.Settled cfg (.kickoff tenantId userId))
  | .event eventId loaded status => (status = .consumed ∨ status = .skipped) ∧
      (loaded ≠ .classified → db.Settled cfg (.proactive eventId))
  | .sentinel _ => True

theorem WriteInv.mono (h : WriteInv cfg db write) (hlater : Later cfg db db') : WriteInv cfg db' write := by
  cases write with
  | onboarding tenantId userId loaded state => exact ⟨h.1, fun hnone => hlater _ (h.2 hnone)⟩
  | event eventId loaded status => exact ⟨h.1, fun hloaded => hlater _ (h.2 hloaded)⟩
  | sentinel tenantId => trivial

/-- The messages of a transaction are of its producer, one for a channel, and none is for a deleted tenant. -/
structure MessagesInv (producer : Producer) (deleted : Bool) (messages : List ProducedMessage) : Prop where
  own : ∀ message ∈ messages, message.producer = producer
  channels : (∀ eventId, producer ≠ .proactive eventId) → (messages.map (·.channelType)).Nodup
  deleted : messages ≠ [] → deleted = false

theorem MessagesInv.nil (producer : Producer) (deleted : Bool) : MessagesInv producer deleted [] :=
  ⟨(fun _ h => by cases h), (fun _ => List.nodup_nil), fun h => absurd rfl h⟩

/-- What a process holds. -/
def TxInv (cfg : TopicConfig) (db : ProducerDb) : TxStage → Prop
  | .begun job _ deleted messages =>
    match job with
    | .kickoff tenantId userId => MessagesInv (.kickoff tenantId userId) deleted messages
    | .firstMessage _ _ => messages = []
    | .aha tenantId => MessagesInv (.aha tenantId) deleted messages
    | .event _ _ => True
  | .planned _ deleted write messages _ => MessagesInv write.producer deleted messages ∧ WriteInv cfg db write
  | .idle | .failed _ => True

theorem TxInv.mono {stage : TxStage} (h : TxInv cfg db stage) (hlater : Later cfg db db') : TxInv cfg db' stage := by
  cases stage with
  | planned tx deleted write messages handled => exact ⟨h.1, h.2.mono hlater⟩
  | begun | idle | failed => exact h

/-- **The invariant**: a message has settled its row, in the one transaction that has sent it. -/
structure SentInv (cfg : TopicConfig) (db : ProducerDb) : Prop where
  settled : ∀ row ∈ db.outbox, db.Settled cfg row.message.producer
  channels : ∀ producer, (∀ eventId, producer ≠ .proactive eventId) → (db.channels producer).Nodup
  tx : ∀ row ∈ db.outbox, ∀ row' ∈ db.outbox, row.message.producer = row'.message.producer → row.tx = row'.tx
  deleted : ∀ row ∈ db.outbox, row.deleted = false

theorem SentInv.sentOnce (h : SentInv cfg db) : db.SentOnce where
  kickoff tenantId userId := h.channels _ fun _ heq => by cases heq
  aha tenantId := h.channels _ fun _ heq => by cases heq
  event eventId row hrow row' hrow' hproducer hproducer' := h.tx row hrow row' hrow' (hproducer.trans hproducer'.symm)
  deleted := h.deleted

theorem mem_enqueue {row : Enqueued} {tx : ℕ} {deleted : Bool} (hmem : row ∈ (db.enqueue tx deleted messages).outbox) :
    row ∈ db.outbox ∨ ∃ message ∈ messages, row = ⟨message, tx, deleted⟩ := by
  rcases List.mem_append.mp hmem with hold | hnew
  · exact .inl hold
  · obtain ⟨message, hmessage, rfl⟩ := List.mem_map.mp hnew
    exact .inr ⟨message, hmessage, rfl⟩

theorem channels_enqueue (db : ProducerDb) (tx : ℕ) (deleted : Bool) (messages : List ProducedMessage) (producer : Producer) :
    (db.enqueue tx deleted messages).channels producer =
      db.channels producer ++ (messages.filter (·.producer = producer)).map (·.channelType) := by
  rw [ProducerDb.channels, ProducerDb.enqueue, List.filter_append, List.map_append, List.filter_map, List.map_map]
  rfl

theorem channels_eq_nil {producer : Producer} (h : ∀ row ∈ db.outbox, row.message.producer ≠ producer) :
    db.channels producer = [] := by
  rw [ProducerDb.channels, List.filter_eq_nil_iff.mpr fun row hrow => by simp [h row hrow], List.map_nil]

/-- **Messages are enqueued** by a transaction that settles a row that was not settled. -/
theorem SentInv.enqueue (h : SentInv cfg db) (houtbox : db'.outbox = db.outbox) (hlater : Later cfg db db')
    {producer : Producer} {deleted : Bool} (hmessages : MessagesInv producer deleted messages)
    (hopen : messages ≠ [] → ¬ db.Settled cfg producer) (hsettled : messages ≠ [] → db'.Settled cfg producer) (tx : ℕ) :
    SentInv cfg (db'.enqueue tx deleted messages) := by
  have hfirst : messages ≠ [] → ∀ row ∈ db'.outbox, row.message.producer ≠ producer := by
    intro hne row hrow heq
    rw [houtbox] at hrow
    exact hopen hne (heq ▸ h.settled row hrow)
  have hne : ∀ message ∈ messages, messages ≠ [] := fun message hmem => List.ne_nil_of_mem hmem
  refine ⟨?_, ?_, ?_, ?_⟩
  · intro row hmem
    rcases mem_enqueue hmem with hold | ⟨message, hmessage, rfl⟩
    · exact hlater _ (h.settled row (houtbox ▸ hold))
    · change db'.Settled cfg message.producer
      rw [hmessages.own message hmessage]
      exact hsettled (hne message hmessage)
  · intro producer' hproducer'
    have hold : (db'.channels producer').Nodup := by
      rw [ProducerDb.channels, houtbox]
      exact h.channels producer' hproducer'
    rw [channels_enqueue]
    by_cases hsame : producer' = producer
    · subst hsame
      rw [List.filter_eq_self.mpr fun message hmem => by simp [hmessages.own message hmem]]
      by_cases hnil : messages = []
      · rw [hnil, List.map_nil, List.append_nil]
        exact hold
      · rw [channels_eq_nil (hfirst hnil), List.nil_append]
        exact hmessages.channels hproducer'
    · rw [List.filter_eq_nil_iff.mpr fun message hmem => by simp [hmessages.own message hmem, Ne.symm hsame],
        List.map_nil, List.append_nil]
      exact hold
  · intro row hrow row' hrow' heq
    rcases mem_enqueue hrow with hold | ⟨message, hmessage, rfl⟩
    · rcases mem_enqueue hrow' with hold' | ⟨message', hmessage', rfl⟩
      · exact h.tx row (houtbox ▸ hold) row' (houtbox ▸ hold') heq
      · exact absurd (heq.trans (hmessages.own message' hmessage')) (hfirst (hne message' hmessage') row hold)
    · rcases mem_enqueue hrow' with hold' | ⟨message', hmessage', rfl⟩
      · exact absurd (heq.symm.trans (hmessages.own message hmessage)) (hfirst (hne message hmessage) row' hold')
      · rfl
  · intro row hmem
    rcases mem_enqueue hmem with hold | ⟨message, hmessage, rfl⟩
    · exact h.deleted row (houtbox ▸ hold)
    · exact hmessages.deleted (hne message hmessage)

/-! ### The writes -/

theorem status_of_onboarding {state : OnboardingState}
    (h : db.onboarding tenantId userId = some state) : db.status cfg tenantId userId = state.status := by
  rw [ProducerDb.status, h]
  rfl

theorem onboarding_setOnboarding (state : OnboardingState)
    (hrow : (db.configs.get? (tenantId, userId)).isSome = true) (tenantId' userId' : String) :
    (db.setOnboarding tenantId userId state).onboarding tenantId' userId' =
      if (tenantId', userId') = (tenantId, userId) then some state else db.onboarding tenantId' userId' := by
  have hset : ∀ config : SkillConfig, { config with onboarding := some state }.key = config.key := fun _ => rfl
  rw [ProducerDb.onboarding, ProducerDb.setOnboarding, Keyed.get?_update hset]
  split
  · next heq =>
    obtain ⟨config, hconfig⟩ := Option.isSome_iff_exists.mp hrow
    rw [heq, hconfig]
    simp [(Keyed.get?_eq_some.mp hconfig).2]
  · next hne =>
    rw [ProducerDb.onboarding]
    cases hget : db.configs.get? (tenantId', userId') with
    | none => rfl
    | some config =>
      have hkey : config.key ≠ (tenantId, userId) := by
        rw [(Keyed.get?_eq_some.mp hget).2]
        exact hne
      simp [hkey]

theorem eventStatus_setStatus (eventId : String) (status : EventStatus) (eventId' : String) :
    (db.setStatus eventId status).eventStatus eventId' =
      if eventId' = eventId then (db.eventStatus eventId).map fun _ => status else db.eventStatus eventId' := by
  have hset : ∀ event : ProactiveEvent, { event with status }.id = event.id := fun _ => rfl
  rw [ProducerDb.eventStatus, ProducerDb.setStatus, Keyed.get?_update hset]
  split
  · next heq =>
    rw [heq, ProducerDb.eventStatus]
    cases hget : db.events.get? eventId with
    | none => rfl
    | some event => simp [(Keyed.get?_eq_some.mp hget).2]
  · next hne =>
    rw [ProducerDb.eventStatus]
    cases hget : db.events.get? eventId' with
    | none => rfl
    | some event =>
      have hid : event.id ≠ eventId := by
        rw [(Keyed.get?_eq_some.mp hget).2]
        exact hne
      simp [hid]

/-- The write of an onboarding changes that onboarding. -/
theorem apply_onboarding {loaded : Bool} {state : Option OnboardingState}
    (h : db.apply (.onboarding tenantId userId loaded state) = some db') :
    db'.outbox = db.outbox ∧ db'.events = db.events ∧ db'.sentinels = db.sentinels ∧
      ∀ tenantId' userId', db'.onboarding tenantId' userId' =
        if (tenantId', userId') = (tenantId, userId) then state.or (db.onboarding tenantId' userId')
        else db.onboarding tenantId' userId' := by
  match state, loaded, h with
  | none, _, h =>
    obtain rfl := Option.some.inj h
    exact ⟨rfl, rfl, rfl, fun tenantId' userId' => by simp⟩
  | some new, true, h =>
    simp only [ProducerDb.apply] at h
    split at h
    · next hrow =>
      obtain rfl := Option.some.inj h
      exact ⟨rfl, rfl, rfl, fun tenantId' userId' => onboarding_setOnboarding new hrow tenantId' userId'⟩
    · cases h
  | some new, false, h =>
    obtain ⟨configs, hinsert, rfl⟩ := Option.map_eq_some_iff.mp h
    refine ⟨rfl, rfl, rfl, fun tenantId' userId' => ?_⟩
    split
    · next heq =>
      have hmem : (⟨tenantId, userId, some new⟩ : SkillConfig) ∈ configs.rows := by
        rw [Keyed.rows_insert? hinsert]
        exact List.mem_append_right _ (List.mem_singleton_self _)
      have hget : configs.get? (tenantId, userId) = some ⟨tenantId, userId, some new⟩ := Keyed.get?_key hmem
      rw [ProducerDb.onboarding, heq, hget]
      rfl
    · next hne => rw [ProducerDb.onboarding, Keyed.get?_insert?_ne hinsert hne, ProducerDb.onboarding]

/-- **A committed write**: it settles its row, if its row was not settled, and no other row is opened. -/
structure ApplySpec (cfg : TopicConfig) (db : ProducerDb) (write : ProducerWrite) (db' : ProducerDb) : Prop where
  outbox : db'.outbox = db.outbox
  later : Later cfg db db'
  settles : ¬ db.Settled cfg write.producer → db'.Settled cfg write.producer
  started : ∀ tenantId userId, write.producer = .kickoff tenantId userId → db.status cfg tenantId userId = .notStarted →
    db'.status cfg tenantId userId = .inProgress
  event : ∀ eventId, write.producer ≠ .proactive eventId → db'.eventStatus eventId = db.eventStatus eventId

theorem apply_onboarding_spec {loaded : Bool} {state : Option OnboardingState}
    (hwrite : WriteInv cfg db (.onboarding tenantId userId loaded state))
    (happly : db.apply (.onboarding tenantId userId loaded state) = some db') :
    ApplySpec cfg db (.onboarding tenantId userId loaded state) db' := by
  obtain ⟨hnew, hnone⟩ := hwrite
  obtain ⟨houtbox, hevents, hsentinels, honboarding⟩ := apply_onboarding happly
  have hother : ∀ tenantId' userId', (tenantId', userId') ≠ (tenantId, userId) →
      db'.status cfg tenantId' userId' = db.status cfg tenantId' userId' := by
    intro tenantId' userId' hne
    rw [ProducerDb.status, honboarding, if_neg hne, ProducerDb.status]
  have hself : (∃ new, state = some new ∧ db'.status cfg tenantId userId = .inProgress) ∨
      state = none ∧ db'.status cfg tenantId userId = db.status cfg tenantId userId := by
    have hrow := honboarding tenantId userId
    rw [if_pos rfl] at hrow
    cases state with
    | some new => exact .inl ⟨new, rfl, (status_of_onboarding hrow).trans (hnew new rfl)⟩
    | none =>
      refine .inr ⟨rfl, ?_⟩
      rw [ProducerDb.status, hrow, Option.none_or, ProducerDb.status]
  have hsettled : db'.Settled cfg (.kickoff tenantId userId) := by
    rcases hself with ⟨new, -, hprogress⟩ | ⟨hstate, hsame⟩
    · change db'.status cfg tenantId userId ≠ _
      rw [hprogress]
      decide
    · change db'.status cfg tenantId userId ≠ _
      rw [hsame]
      exact hnone hstate
  refine ⟨houtbox, ?_, fun _ => hsettled, ?_, ?_⟩
  · intro producer hold
    cases producer with
    | kickoff tenantId' userId' =>
      by_cases heq : (tenantId', userId') = (tenantId, userId)
      · obtain ⟨rfl, rfl⟩ := Prod.mk.inj heq
        exact hsettled
      · change db'.status cfg tenantId' userId' ≠ _
        rw [hother tenantId' userId' heq]
        exact hold
    | proactive eventId =>
      change db'.eventStatus eventId ≠ _
      rw [ProducerDb.eventStatus, hevents]
      exact hold
    | aha tenantId' =>
      change tenantId' ∈ db'.sentinels
      rw [hsentinels]
      exact hold
  · intro tenantId' userId' heq hstatus
    obtain ⟨rfl, rfl⟩ : tenantId = tenantId' ∧ userId = userId' := by simpa [ProducerWrite.producer] using heq
    rcases hself with ⟨new, -, hprogress⟩ | ⟨hstate, -⟩
    · exact hprogress
    · exact absurd hstatus (hnone hstate)
  · intro eventId _
    rw [ProducerDb.eventStatus, hevents, ProducerDb.eventStatus]

theorem apply_event_spec {eventId : String} {loaded status : EventStatus} (hwrite : WriteInv cfg db (.event eventId loaded status))
    (happly : db.apply (.event eventId loaded status) = some db') : ApplySpec cfg db (.event eventId loaded status) db' := by
  obtain ⟨hstatus, hloaded⟩ := hwrite
  have hne : status ≠ .classified := by
    rcases hstatus with rfl | rfl
    · decide
    · decide
  obtain rfl := Option.some.inj happly
  split
  · next heq =>
    refine ⟨rfl, fun _ h => h, ?_, (fun _ _ h => by cases h), fun _ _ => rfl⟩
    intro hopen
    exact absurd (hloaded (heq ▸ hne)) hopen
  · have hevent : ∀ eventId', (db.setStatus eventId status).eventStatus eventId' = _ := eventStatus_setStatus eventId status
    have hsettled : (db.setStatus eventId status).Settled cfg (.proactive eventId) := by
      change (db.setStatus eventId status).eventStatus eventId ≠ _
      rw [hevent, if_pos rfl]
      cases db.eventStatus eventId with
      | none => simp
      | some _ => simpa using hne
    refine ⟨rfl, ?_, fun _ => hsettled, (fun _ _ h => by cases h), ?_⟩
    · intro producer hold
      cases producer with
      | kickoff | aha => exact hold
      | proactive eventId' =>
        by_cases heq : eventId' = eventId
        · exact heq ▸ hsettled
        · change (db.setStatus eventId status).eventStatus eventId' ≠ _
          rw [hevent, if_neg heq]
          exact hold
    · intro eventId' hother
      rw [hevent, if_neg fun heq => hother (by rw [heq]; rfl)]

theorem apply_spec (hwrite : WriteInv cfg db write) (happly : db.apply write = some db') : ApplySpec cfg db write db' := by
  cases write with
  | onboarding tenantId userId loaded state => exact apply_onboarding_spec hwrite happly
  | event eventId loaded status => exact apply_event_spec hwrite happly
  | sentinel tenantId =>
    obtain rfl := Option.some.inj happly
    refine ⟨rfl, ?_, fun _ => List.mem_cons_self, (fun _ _ h => by cases h), fun _ _ => rfl⟩
    intro producer hold
    cases producer with
    | kickoff | proactive => exact hold
    | aha tenantId' => exact List.mem_cons_of_mem tenantId hold

theorem not_settled_of_unsettled (h : db.Unsettled cfg messages write) (hne : messages ≠ []) :
    ¬ db.Settled cfg write.producer := by
  cases write with
  | onboarding tenantId userId loaded state => exact fun hsettled => hsettled (h hne)
  | event eventId loaded status => exact fun hsettled => hsettled h
  | sentinel tenantId => exact h hne

theorem keptBy_commit (hmessages : MessagesInv write.producer deleted messages) (hopen : db.Unsettled cfg messages write)
    (hspec : ApplySpec cfg db write db') (tx : ℕ) : db.KeptBy cfg (db'.enqueue tx deleted messages) where
  intro := by
    intro tenantId userId hchanged
    rw [channels_enqueue, ProducerDb.channels, hspec.outbox] at hchanged
    have hne : messages.filter (·.producer = .kickoff tenantId userId) ≠ [] := by
      intro hnil
      rw [hnil, List.map_nil, List.append_nil] at hchanged
      exact hchanged rfl
    obtain ⟨message, hmem⟩ := List.exists_mem_of_ne_nil _ hne
    obtain ⟨hmem, hproducer⟩ := List.mem_filter.mp hmem
    have hwrite : write.producer = .kickoff tenantId userId :=
      (hmessages.own message hmem).symm.trans (of_decide_eq_true hproducer)
    have hstatus := not_settled_of_unsettled hopen (List.ne_nil_of_mem hmem)
    rw [hwrite] at hstatus
    exact ⟨not_not.mp hstatus, hspec.started tenantId userId hwrite (not_not.mp hstatus)⟩
  settled := by
    intro eventId hsettled
    by_cases hwrite : write.producer = .proactive eventId
    · cases write with
      | event eventId' loaded status =>
        obtain rfl : eventId' = eventId := by simpa [ProducerWrite.producer] using hwrite
        rcases hsettled with h | h <;> cases (show _ = _ from hopen).symm.trans h
      | onboarding | sentinel => cases hwrite
    · exact hspec.event eventId hwrite

/-! ### The reads -/

theorem deleted_of_not (h : ¬ db.Deleted tenantId) : decide (db.Deleted tenantId) = false :=
  decide_eq_false h

theorem FromProducer.messagesInv {producer : Producer} (h : FromProducer producer messages) {deleted : Bool}
    (hdeleted : deleted = false) : MessagesInv producer deleted messages :=
  ⟨h.producer, fun _ => h.channels, fun _ => hdeleted⟩

theorem settled_of_loaded {eventId : String} {event : ProactiveEvent} (hget : db.events.get? eventId = some event)
    (hloaded : event.status ≠ .classified) : db.Settled cfg (.proactive eventId) := by
  change db.eventStatus eventId ≠ _
  rw [ProducerDb.eventStatus, hget, Option.map_some]
  exact fun heq => hloaded (Option.some.inj heq)

theorem txInv_start (env : ProducerEnv) (tx : ℕ)
    (hlive : ∀ tenantId ∈ job.tenantId, ¬ db.Deleted tenantId) : TxInv cfg db (db.start env tx job) := by
  cases job with
  | kickoff tenantId userId =>
    simp only [ProducerDb.start]
    split
    · trivial
    · next messages hfire =>
      exact (ProducerEnv.fromProducer_fire hfire).messagesInv (deleted_of_not (hlive tenantId rfl))
  | firstMessage tenantId userId => rfl
  | aha tenantId =>
    simp only [ProducerDb.start]
    split
    · trivial
    · exact (env.fromProducer_tryAha tenantId).messagesInv (deleted_of_not (hlive tenantId rfl))
  | event eventId tenantId =>
    simp only [ProducerDb.start]
    split
    · trivial
    · next event hget =>
      split
      · trivial
      · next status messages hhandle =>
        obtain ⟨hstatus, hproducer⟩ := ProducerEnv.handleEvent_spec hhandle
        obtain rfl := (Keyed.get?_eq_some.mp hget).2
        refine ⟨⟨hproducer, fun h => absurd rfl (h event.id), fun _ => deleted_of_not (hlive tenantId rfl)⟩, hstatus, ?_⟩
        exact settled_of_loaded hget

theorem txInv_startMark (db : ProducerDb) (tx : ℕ) (eventId : String) : TxInv cfg db (db.startMark tx eventId) := by
  unfold ProducerDb.startMark
  split
  · trivial
  · next loaded hloaded =>
    obtain ⟨event, hget, rfl⟩ := Option.map_eq_some_iff.mp hloaded
    exact ⟨.nil _ _, .inr rfl, settled_of_loaded hget⟩

theorem txInv_select {now : ℤ} {tx : ℕ} {deleted : Bool} {stage : TxStage}
    (hinv : TxInv cfg db (.begun job tx deleted messages)) (h : db.select cfg now tx deleted messages job = some stage) :
    TxInv cfg db stage := by
  have honboarding : ∀ tenantId userId loaded, WriteInv cfg db
      (.onboarding tenantId userId loaded (cfg.start now (cfg.getRawState (db.onboarding tenantId userId)))) := by
    intro tenantId userId loaded
    refine ⟨?_, ?_⟩
    · intro new hnew
      unfold TopicConfig.start at hnew
      split at hnew
      · cases hnew
      · cases hnew
      · cases hnew
      · obtain rfl := Option.some.inj hnew
        rfl
    · intro hnone hopen
      rw [TopicConfig.start, show (cfg.getRawState (db.onboarding tenantId userId)).status = .notStarted from hopen] at hnone
      cases hnone
  cases job with
  | kickoff tenantId userId =>
    obtain rfl := Option.some.inj h
    exact ⟨hinv, honboarding tenantId userId _⟩
  | firstMessage tenantId userId =>
    obtain rfl := Option.some.inj h
    obtain rfl : messages = [] := hinv
    exact ⟨.nil _ _, honboarding tenantId userId _⟩
  | aha tenantId =>
    simp only [ProducerDb.select] at h
    split at h
    · obtain rfl := Option.some.inj h
      trivial
    · obtain rfl := Option.some.inj h
      exact ⟨hinv, trivial⟩
  | event => cases h

end Invariant

namespace ProducerState

variable {π : Type} [DecidableEq π] {cfg : TopicConfig} {s s' : ProducerState π} {act : ProducerAct π}

/-- What every state of a timely run keeps. -/
structure Inv (cfg : TopicConfig) (s : ProducerState π) : Prop where
  sent : SentInv cfg s.db
  stages : ∀ p, TxInv cfg s.db (s.stage p)

theorem Inv.move (h : s.Inv cfg) (p : π) {stage : TxStage} (hstage : TxInv cfg s.db stage) : (s.move p stage).Inv cfg := by
  refine ⟨h.sent, (Function.forall_update_iff s.stage fun _ stage => TxInv cfg s.db stage).mpr ⟨hstage, ?_⟩⟩
  exact fun p' _ => h.stages p'

theorem txInv_afterFailure (db : ProducerDb) (handled : Option String) : TxInv cfg db (afterFailure handled) := by
  cases handled with
  | none => trivial
  | some eventId => trivial

theorem Inv.commit (h : s.Inv cfg) {p : π} (htimely : s.Timely cfg (.commit p)) (hcommit : s.commit p = some s') :
    s'.Inv cfg ∧ s.db.KeptBy cfg s'.db := by
  unfold ProducerState.commit at hcommit
  split at hcommit
  · next tx deleted write messages handled hat =>
    have hopen := htimely tx deleted write messages handled hat
    have hplan := h.stages p
    rw [hat] at hplan
    obtain ⟨hmessages, hwrite⟩ := hplan
    split at hcommit
    · next db happly =>
      obtain rfl := Option.some.inj hcommit
      have hspec := apply_spec hwrite happly
      refine ⟨⟨?_, ?_⟩, keptBy_commit hmessages hopen hspec tx⟩
      · exact h.sent.enqueue hspec.outbox hspec.later hmessages (not_settled_of_unsettled hopen)
          (fun hne => hspec.settles (not_settled_of_unsettled hopen hne)) tx
      · refine (Function.forall_update_iff s.stage fun _ stage => TxInv cfg _ stage).mpr ⟨trivial, fun p' _ => ?_⟩
        exact (h.stages p').mono hspec.later
    · obtain rfl := Option.some.inj hcommit
      exact ⟨h.move p (txInv_afterFailure _ _), ⟨fun _ _ hne => absurd rfl hne, fun _ _ => rfl⟩⟩
  · cases hcommit
  · cases hcommit
  · cases hcommit

/-- **A timely step.** -/
theorem Inv.step (h : s.Inv cfg) (htimely : s.Timely cfg act) (hstep : Step cfg s act s') :
    s'.Inv cfg ∧ s.db.KeptBy cfg s'.db := by
  have hquiet : s.db.KeptBy cfg s.db := ⟨fun _ _ hne => absurd rfl hne, fun _ _ => rfl⟩
  cases hstep with
  | scanKickoff | scanAha | scanEvents | receive => exact ⟨⟨h.sent, h.stages⟩, hquiet⟩
  | @begin p env s' hbegin =>
    unfold ProducerState.begin at hbegin
    split at hbegin
    · next job rest hidle hqueue =>
      obtain rfl := Option.some.inj hbegin
      have hlive := htimely hidle job (by rw [hqueue]; rfl)
      exact ⟨⟨h.sent, (h.move p (txInv_start env s.nextTx hlive)).stages⟩, hquiet⟩
    · next eventId _ =>
      obtain rfl := Option.some.inj hbegin
      exact ⟨⟨h.sent, (h.move p (txInv_startMark s.db s.nextTx eventId)).stages⟩, hquiet⟩
    · cases hbegin
  | @select p now job tx deleted messages stage hat hselect =>
    have hinv := h.stages p
    rw [hat] at hinv
    exact ⟨h.move p (txInv_select hinv hselect), hquiet⟩
  | commit hcommit => exact h.commit htimely hcommit
  | failBegun => exact ⟨h.move _ trivial, hquiet⟩
  | failPlanned => exact ⟨h.move _ (txInv_afterFailure _ _), hquiet⟩
  | failMark => exact ⟨h.move _ trivial, hquiet⟩
  | delete =>
    -- the deletion of a tenant leaves the rows of the producers
    exact ⟨⟨⟨h.sent.settled, h.sent.channels, h.sent.tx, h.sent.deleted⟩, h.stages⟩, ⟨fun _ _ hne => absurd rfl hne, fun _ _ => rfl⟩⟩

theorem inv_of_reachable (h : (timely cfg).Reachable s) : s.Inv cfg := by
  refine h.induct (P := Inv cfg) ?_ ?_
  · rintro s ⟨houtbox, hidle⟩
    have hnone : ∀ row, row ∉ s.db.outbox := by
      intro row hrow
      rw [houtbox] at hrow
      cases hrow
    refine ⟨⟨?_, ?_, ?_, ?_⟩, fun p => ?_⟩
    · exact fun row hrow => absurd hrow (hnone row)
    · intro producer _
      rw [channels_eq_nil fun row hrow => absurd hrow (hnone row)]
      exact List.nodup_nil
    · exact fun row hrow => absurd hrow (hnone row)
    · exact fun row hrow => absurd hrow (hnone row)
    · rw [hidle p]
      trivial
  · rintro s act s' - ih ⟨hstep, htimely⟩
    exact (ih.step htimely hstep).1

end ProducerState

/-- **The producers**: in timely runs what is sent is sent once and never for a tenant that was deleted before, an intro comes
with the start of its onboarding, and a settled event stays as it is. -/
theorem producer_runs {π : Type} [DecidableEq π] (cfg : TopicConfig) :
    (∀ s : ProducerState π, (ProducerState.timely cfg).Reachable s → s.db.SentOnce) ∧
    (∀ (s : ProducerState π) act s', (ProducerState.timely cfg).Reachable s → (ProducerState.timely cfg).step s act s' →
      s.db.KeptBy cfg s'.db) := by
  refine ⟨?_, ?_⟩
  · intro s hreach
    exact (ProducerState.inv_of_reachable hreach).sent.sentOnce
  · intro s act s' hreach hstep
    exact ((ProducerState.inv_of_reachable hreach).step hstep.2 hstep.1).2

/-- A kickoff is due. -/
def dueConfig : SkillConfig where
  tenantId := "t"
  userId := "u"
  onboarding := some { TopicConfig.current.defaultState with kickoffScheduledAt := some 0 }

/-- One user, whose kickoff is due. -/
def dueDb : ProducerDb where
  tenants := ⟨[⟨"t", none, none⟩], by decide⟩
  configs := ⟨[dueConfig], by decide⟩
  events := .empty
  sentinels := []
  outbox := []

/-- The user has an account. -/
def dueEnv : ProducerEnv where
  preferredChannel := none
  user := some ⟨"u", "t", some "1", none, none⟩
  workspaceId := some "w"
  dietMember := none
  handler := none
  hasQuota := true
  telegramBotKeys := []
  systemBotKey := "sreda"

theorem dueDb_scan : kickoffScan dueDb [dueConfig] 50 0 = [("t", "u")] := by decide +kernel

/-! ### One transaction after the other -/

/-- A transaction without another in between: what it commits, if it does. -/
def ProducerDb.runTx (cfg : TopicConfig) (env : ProducerEnv) (tx : ℕ) (now : ℤ) (db : ProducerDb) (job : ProducerJob) :
    Option ProducerDb :=
  match db.start env tx job with
  | .begun job tx deleted messages =>
    match db.select cfg now tx deleted messages job with
    | some (.planned tx deleted write messages _) => (db.apply write).map (·.enqueue tx deleted messages)
    | some (.begun ..) | some .idle | some (.failed _) | none => none
  | .planned tx deleted write messages _ => (db.apply write).map (·.enqueue tx deleted messages)
  | .idle | .failed _ => none

section Transaction

variable {π : Type} [DecidableEq π] {cfg : TopicConfig} {s s' : ProducerState π} {act : ProducerAct π}

theorem ProducerState.Step.reachable (hstep : Step cfg s act s') (h : (producers cfg).Reachable s) :
    (producers cfg).Reachable s' := h.step hstep

theorem reachable_commit {p : π} {tx : ℕ} {deleted : Bool} {write : ProducerWrite} {messages : List ProducedMessage}
    {handled : Option String} {db : ProducerDb} (hreach : (ProducerState.producers cfg).Reachable s)
    (hat : s.stage p = .planned tx deleted write messages handled)
    (h : (s.db.apply write).map (·.enqueue tx deleted messages) = some db) :
    ∃ s', (ProducerState.producers cfg).Reachable s' ∧ s'.db = db ∧
      ∀ p', p' ≠ p → s'.stage p' = s.stage p' ∧ s'.queue p' = s.queue p' := by
  obtain ⟨written, happly, rfl⟩ := Option.map_eq_some_iff.mp h
  have hcommit : s.commit p = some { s.move p .idle with db := written.enqueue tx deleted messages } := by
    simp only [ProducerState.commit, hat, happly]
  refine ⟨_, ProducerState.Step.reachable (.commit hcommit) hreach, rfl, fun p' hne => ⟨?_, rfl⟩⟩
  exact Function.update_of_ne hne _ _

/-- **A transaction without another in between** is what its process does in two or three steps. -/
theorem reachable_runTx {p : π} (env : ProducerEnv) (now : ℤ) {rest : List ProducerJob} {db : ProducerDb}
    (hreach : (ProducerState.producers cfg).Reachable s) (hidle : s.stage p = .idle) (hqueue : s.queue p = job :: rest)
    (htx : s.db.runTx cfg env s.nextTx now job = some db) :
    ∃ s', (ProducerState.producers cfg).Reachable s' ∧ s'.db = db ∧
      ∀ p', p' ≠ p → s'.stage p' = s.stage p' ∧ s'.queue p' = s.queue p' := by
  let begun : ProducerState π :=
    { s with
      nextTx := s.nextTx + 1, queue := Function.update s.queue p rest,
      stage := Function.update s.stage p (s.db.start env s.nextTx job) }
  have hbegin : s.begin p env = some begun := by
    simp only [ProducerState.begin, hidle, hqueue, begun]
  have hreach' := ProducerState.Step.reachable (.begin hbegin) hreach
  have hstage : begun.stage p = s.db.start env s.nextTx job := Function.update_self _ _ _
  have hother : ∀ p', p' ≠ p → begun.stage p' = s.stage p' ∧ begun.queue p' = s.queue p' := fun p' hne =>
    ⟨Function.update_of_ne hne _ _, Function.update_of_ne hne _ _⟩
  unfold ProducerDb.runTx at htx
  split at htx
  · next job' tx deleted messages hstart =>
    split at htx
    · next tx' deleted' write messages' handled hselect =>
      have hselected := ProducerState.Step.reachable (.select (hstage.trans hstart) hselect) hreach'
      obtain ⟨s', hreach'', hdb, hrest⟩ := reachable_commit hselected (Function.update_self _ _ _) htx
      refine ⟨s', hreach'', hdb, fun p' hne => ?_⟩
      obtain ⟨hstage', hqueue'⟩ := hrest p' hne
      exact ⟨(hstage'.trans (Function.update_of_ne hne _ _)).trans (hother p' hne).1, hqueue'.trans (hother p' hne).2⟩
    all_goals cases htx
  · next tx deleted write messages handled hstart =>
    obtain ⟨s', hreach'', hdb, hrest⟩ := reachable_commit hreach' (hstage.trans hstart) htx
    refine ⟨s', hreach'', hdb, fun p' hne => ?_⟩
    exact ⟨(hrest p' hne).1.trans (hother p' hne).1, (hrest p' hne).2.trans (hother p' hne).2⟩
  all_goals cases htx

end Transaction

/-- **A second intro**: two workers have found the user, and the second one commits after the first. -/
theorem second_intro :
    ∃ s : ProducerState Bool, (ProducerState.producers TopicConfig.current).Reachable s ∧ ¬ s.db.SentOnce := by
  let s₀ : ProducerState Bool := ⟨dueDb, 0, fun _ => [], fun _ => .idle⟩
  have hinit : (ProducerState.producers TopicConfig.current).Reachable s₀ := ⟨_, .init ⟨rfl, fun _ => rfl⟩⟩
  let s₁ : ProducerState Bool :=
    s₀.find false ((kickoffScan dueDb [dueConfig] 50 0).map fun key => ProducerJob.kickoff key.1 key.2)
  have hscan : (ProducerState.producers TopicConfig.current).Reachable s₁ :=
    ProducerState.Step.reachable (.scanKickoff rfl rfl (.refl _)) hinit
  let s₂ : ProducerState Bool :=
    s₁.find true ((kickoffScan dueDb [dueConfig] 50 0).map fun key => ProducerJob.kickoff key.1 key.2)
  have hscan' : (ProducerState.producers TopicConfig.current).Reachable s₂ :=
    ProducerState.Step.reachable (.scanKickoff rfl rfl (.refl _)) hscan
  have hjobs : (kickoffScan dueDb [dueConfig] 50 0).map (fun key => ProducerJob.kickoff key.1 key.2) = [.kickoff "t" "u"] := by
    rw [dueDb_scan]
    rfl
  obtain ⟨s₃, hreach, hdb, hother⟩ := reachable_runTx (p := false) dueEnv 1 hscan' rfl hjobs rfl
  obtain ⟨hidle, hqueue⟩ := hother true (by decide)
  obtain ⟨s₄, hreach', hdb', -⟩ :=
    reachable_runTx (p := true) dueEnv 2 hreach (hidle.trans rfl) (hqueue.trans hjobs) (by
      rw [hdb]
      rfl)
  refine ⟨s₄, hreach', fun honce => ?_⟩
  have hnodup := honce.kickoff "t" "u"
  have hchannels : s₄.db.channels (.kickoff "t" "u") = ["telegram", "telegram"] := by
    rw [hdb', channels_enqueue, channels_enqueue]
    rfl
  rw [hchannels] at hnodup
  exact absurd hnodup (by decide)

end Sreda.Workers
