import Sreda.Workers.QueueRuns

/-!
# Telegram updates on their way to the queue

`services/telegram_inbound.py`, `handle_telegram_update`, with `persist_telegram_inbound_event`
(`services/inbound_messages.py`) and `enqueue_message`: an update is persisted in one transaction and
enqueued in another. Two deliveries of the same update of the same bot are told apart by the table of
inbound messages, and by the table of jobs once more.

Any number of calls run at the same time, for any bots and with any updates. A call that is between
its two transactions may never come to the second: the process crashes, or something raises.

What a call finds around it is a parameter of the step: the state of the tenant, the settings, and
what becomes of the transaction of the queue. `acks` and `inFlight` are not stored anywhere: they are
the calls that the queue has acknowledged, and those that are between the transactions.

Left out: the texts of an update and what is sent to the user, the status of an inbound message, and
the turns that are processed inline.
-/

namespace Sreda.Workers

open Sreda.Lib

/-! ### Updates -/

/-- `payload["update_id"]`. -/
inductive UpdateId where
  | missing
  | null
  | int (n : ℤ)
  /-- Any other value, as `str` prints it. -/
  | other (text : String)
  deriving DecidableEq

/-- `_extract_update_id`. -/
def UpdateId.extract : UpdateId → Option String
  | .missing | .null => none
  | .int n => some (toString n)
  | .other text => some text

/-- `str(payload.get("update_id", ""))`. -/
def UpdateId.external : UpdateId → String
  | .missing => ""
  | .null => "None"
  | .int n => toString n
  | .other text => text

/-- A payload. -/
structure TelegramUpdate where
  updateId : UpdateId
  /-- The chat of the message. -/
  messageChatId : Option String
  /-- The chat of the message under a pressed button. -/
  callbackChatId : Option String := none
  /-- The rest of it. -/
  body : String
  deriving DecidableEq

/-- `onboarding.chat_id` -/
def TelegramUpdate.chatId (update : TelegramUpdate) : Option String := update.messageChatId.or update.callbackChatId

/-! ### Inbound messages -/

/-- `InboundMessage`. -/
structure InboundMessage where
  id : String
  tenantId : Option String
  channelType : String
  botKey : String
  externalUpdateId : Option String
  senderChatId : Option String
  deriving DecidableEq

/-- The entry of a row in `ux_inbound_dedup_channel_bot_update`. -/
def InboundMessage.entry (row : InboundMessage) : Option (String × String × String) :=
  row.externalUpdateId.map fun updateId => (row.channelType, row.botKey, updateId)

/-- The table. -/
abbrev InboundTable := Indexed InboundMessage.id InboundMessage.entry

/-- What `persist_telegram_inbound_event` ends with. -/
inductive PersistResult where
  | persisted (table : InboundTable)
  | duplicate (existing : InboundMessage)
  | integrityError

/-- `_find_duplicate_inbound`. -/
def findDuplicateInbound (t : InboundTable) (channelType botKey updateId : String) : Option InboundMessage :=
  t.rows.rows.find? fun row => row.entry = some (channelType, botKey, updateId)

/-- The row of a new update. -/
def inboundRow (id : String) (tenantId : Option String) (botKey : String) (update : TelegramUpdate) : InboundMessage where
  id := id
  tenantId := tenantId
  channelType := "telegram"
  botKey := botKey
  externalUpdateId := update.updateId.extract
  senderChatId := update.messageChatId

/-- `persist_telegram_inbound_event`; `id` is the fresh one. An update without an id is always new. -/
def persistTelegramInboundEvent (t : InboundTable) (id : String) (tenantId : Option String) (botKey : String)
    (update : TelegramUpdate) : PersistResult :=
  match update.updateId.extract.bind (findDuplicateInbound t "telegram" botKey) with
  | some existing => .duplicate existing
  | none =>
    match (t.rows.insert? (inboundRow id tenantId botKey update)).bind Indexed.commit? with
    | none => .integrityError
    | some t' => .persisted t'

/-! ### What becomes of an update -/

/-- What a call finds around it. -/
structure IngressEnv where
  /-- The update belongs to the login of an admin. -/
  adminLogin : Bool := false
  /-- The tenant is not deleted. -/
  tenantActive : Bool := true
  /-- `SignupBlocked` -/
  signupBlocked : Bool := false
  tenantId : String
  /-- The welcome has just been sent, and consumes the update. -/
  welcomeJustSent : Bool := false
  /-- `EntitlementGate.check(…).allowed` -/
  allowed : Bool := true
  /-- `tenant.approved_at is not None` -/
  approved : Bool := true
  /-- `settings.telegram_bot_token` -/
  botToken : Bool := true
  /-- `is_queue_enabled_for(tenant_id)` -/
  queueEnabled : Bool

/-- What `handle_telegram_update` decides about an update. -/
inductive Fate where
  /-- It is not even persisted. -/
  | dropped
  | ignored
  | inline
  | queue
  deriving DecidableEq

/-- The branches of `handle_telegram_update`. -/
def IngressEnv.fate (env : IngressEnv) (update : TelegramUpdate) : Fate :=
  if env.adminLogin then .dropped
  else if !env.tenantActive then .dropped
  else if env.signupBlocked then .dropped
  else if env.welcomeJustSent then .ignored
  else if !env.allowed then .ignored
  else if !env.approved then .ignored
  else if !(env.botToken && update.chatId.isSome) then .ignored
  else if env.queueEnabled then .queue
  else .inline

/-! ### The queue -/

/-- A call that has persisted its update and goes on to the queue. -/
structure Invocation where
  botKey : String
  update : TelegramUpdate
  inboundId : String
  tenantId : String
  deriving DecidableEq

/-- The entry of the update in the table of inbound messages. -/
def Invocation.entry (inv : Invocation) : Option (String × String × String) :=
  inv.update.updateId.extract.map fun updateId => ("telegram", inv.botKey, updateId)

/-- The key of the update in the table of jobs. -/
def Invocation.jobKey (inv : Invocation) : String × String := ("telegram", inv.update.updateId.external)

/-- `derive_thread_key`. -/
def deriveThreadKey (tenantId channel externalChatId : String) : String :=
  tenantId ++ "::" ++ channel ++ "::" ++ externalChatId

/-- What becomes of the transaction of the queue. -/
inductive EnqueueFault where
  | none
  /-- It raises, and nothing is committed. -/
  | lost
  /-- It raises although it was committed. -/
  | landed
  deriving DecidableEq

/-- The job with the key of the update. -/
def requeryJob (jobs : JobTable) (inv : Invocation) : Option String :=
  (jobs.rows.find? fun job => job.dedupKey = inv.jobKey).map (·.id)

/-- The queue path: the new table, and the job with which the update is acknowledged; without one the
update is processed inline. `jobId` is the fresh id, `dumps` writes the message of a job. -/
def enqueueUpdate (dumps : Invocation → String) (jobs : JobTable) (inv : Invocation) (jobId : String) (now : ℤ)
    (fault : EnqueueFault) : JobTable × Option String :=
  let (jobs', result) := enqueueMessage jobs jobId inv.tenantId
    (deriveThreadKey inv.tenantId "telegram" (inv.update.chatId.getD "None")) "telegram" inv.update.updateId.external
    (dumps inv) now
  match fault with
  | .lost => (jobs, requeryJob jobs inv)
  | .landed => (jobs', requeryJob jobs' inv)
  | .none =>
    match result with
    | .job job => (jobs', some job.id)
    -- taken for a second delivery of the same update
    | .duplicate existing => (jobs', some existing.id)
    | .integrityError => (jobs', requeryJob jobs' inv)

/-! ### The system -/

/-- An update that the queue has acknowledged, and the job. -/
structure Ack where
  inv : Invocation
  jobId : String
  deriving DecidableEq

/-- The tables, and the calls. -/
structure IngestState where
  inbound : InboundTable
  jobs : JobTable
  inFlight : List Invocation
  acks : List Ack

/-- Nothing has been delivered. -/
def IngestState.empty : IngestState := ⟨.empty, .empty, [], []⟩

namespace IngestState

variable (dumps : Invocation → String) (s : IngestState)

/-- The first transaction: an update that is there already is let go. Nothing when it raises. -/
def persist (botKey : String) (update : TelegramUpdate) (env : IngressEnv) (inboundId : String) : Option IngestState :=
  match persistTelegramInboundEvent s.inbound inboundId (some env.tenantId) botKey update with
  | .integrityError => none
  | .duplicate _ => some s
  | .persisted inbound =>
    if env.fate update = .queue then
      some { s with inbound, inFlight := ⟨botKey, update, inboundId, env.tenantId⟩ :: s.inFlight }
    else some { s with inbound }

/-- The second transaction. -/
def enqueue (inv : Invocation) (jobId : String) (now : ℤ) (fault : EnqueueFault) : IngestState :=
  let (jobs, acked) := enqueueUpdate dumps s.jobs inv jobId now fault
  { s with
    jobs
    inFlight := s.inFlight.erase inv
    acks := (acked.map (Ack.mk inv)).toList ++ s.acks }

/-- The call never comes to the second transaction. -/
def abandon (inv : Invocation) : IngestState := { s with inFlight := s.inFlight.erase inv }

end IngestState

/-- A step. -/
inductive IngestEvent where
  | persist (botKey : String) (update : TelegramUpdate) (env : IngressEnv) (inboundId : String)
  | enqueue (inv : Invocation) (jobId : String) (now : ℤ) (fault : EnqueueFault)
  | abandon (inv : Invocation)
  /-- A statement of a worker. -/
  | work (now : ℤ) (call : Call)

/-- The statements of the workers. -/
def Call.byWorker : Call → Bool
  | .enqueue .. => false
  | _ => true

/-- Any deliveries to any bots, with the workers at work. -/
def ingest (dumps : Invocation → String) : Lts IngestState IngestEvent where
  init s := s = .empty
  step s event t :=
    match event with
    | .persist botKey update env inboundId =>
      env.fate update ≠ .dropped ∧ s.persist botKey update env inboundId = some t
    | .enqueue inv jobId now fault =>
      inv ∈ s.inFlight ∧ (∀ job ∈ s.jobs.rows, job.id ≠ jobId) ∧ t = s.enqueue dumps inv jobId now fault
    | .abandon inv => inv ∈ s.inFlight ∧ t = s.abandon inv
    | .work now call => call.byWorker = true ∧ t = { s with jobs := (exec s.jobs now call).1 }

end Sreda.Workers
