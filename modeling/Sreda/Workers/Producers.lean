import Mathlib.Data.List.Perm.Basic
import Sreda.Housewife.Onboarding
import Sreda.Workers.OutboxDelivery
import Sreda.Workers.ReminderWorker

/-!
# Proactive producers

The workers that write to a user who has not asked: the kickoff of the onboarding (`workers/housewife_onboarding_worker.py`),
the Aha message of the day after the approval (`workers/onboarding_aha_worker.py`) and the replies to classified events
(`workers/proactive_events.py`). A tick scans its table in one transaction and then opens a transaction for each row that it
has found. Statements are atomic and read what is committed; the writes of a transaction and its commit are one step.

The transaction of a user's own first message, which starts the onboarding, and the soft deletion of a tenant come in
between. What a transaction reads of other tables is given to it, and so is what a handler answers; reply buttons and the
reasons of a skipped event are left out.
-/

namespace Sreda.Workers

open Sreda.Lib Sreda.Services Sreda.Housewife

/-! ### Channels -/

/-- What `resolve_outbox_routings` reads of a user. -/
structure RoutedUser where
  id : String
  tenantId : String
  telegramAccountId : Option String
  maxChatId : Option String
  lastBotKey : Option String

/-- `resolve_outbox_routings`. -/
def resolveOutboxRoutings (preferredChannel : Option String) (user : Option RoutedUser) (telegramBotKeys : List String) :
    List OutboxRouting :=
  match user with
  | none => []
  | some user =>
    let tgBotKey := (truthy user.lastBotKey).filter (· ∈ telegramBotKeys)
    let telegram := (truthy user.telegramAccountId).map fun chatId => (⟨"telegram", chatId, tgBotKey⟩ : OutboxRouting)
    let max := (truthy user.maxChatId).map fun chatId => (⟨"max", chatId, none⟩ : OutboxRouting)
    if preferredChannel = some "max" then max.toList ++ telegram.toList else telegram.toList ++ max.toList

theorem resolveOutboxRoutings_nodup (preferredChannel : Option String) (user : Option RoutedUser)
    (telegramBotKeys : List String) :
    ((resolveOutboxRoutings preferredChannel user telegramBotKeys).map (·.channel)).Nodup := by
  unfold resolveOutboxRoutings
  cases user with
  | none => exact List.nodup_nil
  | some user =>
    dsimp only
    generalize truthy user.telegramAccountId = telegram
    generalize truthy user.maxChatId = max
    split
    · cases telegram <;> cases max <;> simp
    · cases telegram <;> cases max <;> simp

/-! ### The tables -/

/-- `Tenant`. -/
structure ProducerTenant where
  id : String
  approvedAt : Option ℤ
  deletedAt : Option ℤ

/-- `TenantUserSkillConfig` of the housewife, with the onboarding of its document. -/
structure SkillConfig where
  tenantId : String
  userId : String
  onboarding : Option OnboardingState

def SkillConfig.key (config : SkillConfig) : String × String := (config.tenantId, config.userId)

/-- The `status` of an event. -/
inductive EventStatus where
  | new | needsClassification | classified | consumed | skipped
  deriving DecidableEq

/-- `InboundEvent`; `relevant` says that its score is enough. -/
structure ProactiveEvent where
  id : String
  tenantId : String
  userId : Option String
  relevant : Bool
  createdAt : ℤ
  status : EventStatus

/-- Which producer a message comes from. -/
inductive Producer where
  | kickoff (tenantId userId : String)
  | proactive (eventId : String)
  | aha (tenantId : String)
  deriving DecidableEq

/-- A row of the outbox. -/
structure ProducedMessage where
  producer : Producer
  tenantId : String
  userId : Option String
  workspaceId : String
  channelType : String
  chatId : String
  text : String
  status : OutboxStatus
  scheduledAt : Option ℤ
  dropReason : Option String
  botKey : String

/-- A message with the number of its transaction; `deleted` says that the tenant was deleted when the transaction began. -/
structure Enqueued where
  message : ProducedMessage
  tx : ℕ
  deleted : Bool

/-- The tables; of the reminders, the tenants of those whose memo is `aha2:<tenant_id>`. -/
structure ProducerDb where
  tenants : Keyed ProducerTenant.id
  configs : Keyed SkillConfig.key
  events : Keyed ProactiveEvent.id
  sentinels : List String
  outbox : List Enqueued

namespace ProducerDb

/-- `Tenant.deleted_at.is_(None)`, for a tenant that there is. -/
def Live (db : ProducerDb) (tenantId : String) : Prop := ∃ tenant ∈ db.tenants.get? tenantId, tenant.deletedAt = none

instance (db : ProducerDb) (tenantId : String) : Decidable (db.Live tenantId) :=
  inferInstanceAs (Decidable (∃ tenant ∈ db.tenants.get? tenantId, tenant.deletedAt = none))

/-- The stored onboarding of a user. -/
def onboarding (db : ProducerDb) (tenantId userId : String) : Option OnboardingState :=
  (db.configs.get? (tenantId, userId)).bind (·.onboarding)

/-- The status of an event. -/
def eventStatus (db : ProducerDb) (eventId : String) : Option EventStatus := (db.events.get? eventId).map (·.status)

end ProducerDb

/-! ### The scans -/

/-- What `process_pending` of the kickoff asks of a row. -/
def SkillConfig.Due (config : SkillConfig) (current : ℤ) : Prop :=
  ∃ state ∈ config.onboarding, state.status = .notStarted ∧ ∃ at' ∈ state.kickoffScheduledAt, at' ≤ current

instance (config : SkillConfig) (current : ℤ) : Decidable (config.Due current) :=
  inferInstanceAs (Decidable (∃ state ∈ config.onboarding, state.status = .notStarted ∧
    ∃ at' ∈ state.kickoffScheduledAt, at' ≤ current))

/-- The scan of the kickoff, over the rows in the order of the database. -/
def kickoffScan (db : ProducerDb) (rows : List SkillConfig) (limit : ℕ) (current : ℤ) : List (String × String) :=
  ((((rows.filter fun config => db.Live config.tenantId).take (limit * 5)).filter (·.Due current)).take limit).map (·.key)

def aha2MinAge : ℤ := 20 * 3_600_000_000
def aha2MaxAge : ℤ := 48 * 3_600_000_000
def aha2SendHourStartUtc : ℤ := 10
def aha2SendHourEndUtc : ℤ := 13

/-- The hours in which Aha messages are sent. -/
def AhaWindow (current : ℤ) : Prop :=
  let hour := current / 3_600_000_000 % 24
  aha2SendHourStartUtc ≤ hour ∧ hour < aha2SendHourEndUtc

instance (current : ℤ) : Decidable (AhaWindow current) := inferInstanceAs (Decidable (_ ∧ _))

/-- Approved 20 to 48 hours ago, and not deleted. -/
def ProducerTenant.InAge (tenant : ProducerTenant) (current : ℤ) : Prop :=
  tenant.deletedAt = none ∧ ∃ approved ∈ tenant.approvedAt, current - aha2MaxAge ≤ approved ∧ approved ≤ current - aha2MinAge

instance (tenant : ProducerTenant) (current : ℤ) : Decidable (tenant.InAge current) :=
  inferInstanceAs (Decidable (tenant.deletedAt = none ∧
    ∃ approved ∈ tenant.approvedAt, current - aha2MaxAge ≤ approved ∧ approved ≤ current - aha2MinAge))

/-- The scan of the Aha worker. -/
def ahaScan (rows : List ProducerTenant) (limit : ℕ) (current : ℤ) : List String :=
  if AhaWindow current then ((rows.filter (·.InAge current)).take limit).map (·.id) else []

/-- `list_ready_for_delivery`, over the rows in the order of their creation. -/
def eventScan (db : ProducerDb) (rows : List ProactiveEvent) (limit : ℕ) : List (String × String) :=
  ((rows.filter fun event => event.status = .classified ∧ event.relevant ∧ db.Live event.tenantId).take limit).map fun event =>
    (event.id, event.tenantId)

/-! ### What a transaction finds -/

/-- What `decide_proactive` decides. -/
inductive ProactiveDecision where
  | send
  | defer (until' : ℤ)
  | drop (reason : String)

/-- A reply of a handler, with its decision. -/
structure ProactiveReply where
  text : String
  decision : ProactiveDecision

/-- What a registered handler does. -/
inductive HandlerAnswer where
  | raises
  | replies (replies : List ProactiveReply)

/-- What a transaction reads of other tables, and the settings of its worker. -/
structure ProducerEnv where
  preferredChannel : Option String
  /-- `session.get(User, …)`; of the Aha worker, the first user that has an account. -/
  user : Option RoutedUser
  /-- `_resolve_workspace_id`. -/
  workspaceId : Option String
  /-- The name of the first member of the family with a keyword in the notes. -/
  dietMember : Option String
  /-- The registered handler. -/
  handler : Option HandlerAnswer
  hasQuota : Bool
  telegramBotKeys : List String
  systemBotKey : String

namespace ProducerEnv

variable (env : ProducerEnv)

/-- The routings of the user. -/
def routings : List OutboxRouting := resolveOutboxRoutings env.preferredChannel env.user env.telegramBotKeys

/-- A message for a channel. -/
def message (producer : Producer) (tenantId : String) (userId : Option String) (workspaceId text : String)
    (decision : ProactiveDecision) (routing : OutboxRouting) : ProducedMessage where
  producer := producer
  tenantId := tenantId
  userId := userId
  workspaceId := workspaceId
  channelType := routing.channel
  chatId := routing.chatId
  text := text
  status := match decision with
    | .send | .defer _ => .pending
    | .drop _ => .dropped
  scheduledAt := match decision with
    | .defer until' => some until'
    | .send | .drop _ => none
  dropReason := match decision with
    | .drop reason => some reason
    | .send | .defer _ => none
  botKey := (truthy routing.botKey).getD env.systemBotKey

/-- `_INTRO_MESSAGE`. -/
def introMessage : String :=
  "Привет! Я Среда — персональный ассистент.\n\nЧто я умею:\n" ++
    "• Напоминаю о делах — скажи «напомни в 18:00 забрать Машу»\n" ++
    "• Помню важное про семью — диеты, расписания, привычки\n" ++
    "• Ищу в интернете и читаю сайты — погода, расписания, факты\n" ++
    "• Понимаю голосовые сообщения\n\n" ++
    "Давай познакомимся — задам несколько коротких вопросов. " ++
    "Любой можно пропустить: скажи «потом» или «пропусти».\n\n" ++
    "Для начала — как мне к тебе обращаться?"

/-- `_fire`, up to `start`: the messages, or none where it returns `False`. -/
def fire (tenantId userId : String) : Option (List ProducedMessage) :=
  if ∃ user ∈ env.user, user.tenantId ≠ tenantId then none
  else if env.routings.isEmpty then none
  else
    (truthy env.workspaceId).map fun workspaceId =>
      env.routings.map (env.message (.kickoff tenantId userId) tenantId (some userId) workspaceId introMessage .send)

/-- `_resolve_routings` of an event. -/
def eventRoutings (event : ProactiveEvent) : List OutboxRouting :=
  if truthy event.userId ≠ none ∧ ∃ user ∈ env.user, user.tenantId = event.tenantId then env.routings else []

/-- `_handle_event`: the status that it marks and the messages, or nothing when it raises. -/
def handleEvent (event : ProactiveEvent) : Option (EventStatus × List ProducedMessage) :=
  match env.handler with
  | none => some (.skipped, [])
  | some answer =>
    if !env.hasQuota then some (.skipped, [])
    else
      match answer with
      | .raises => none
      | .replies replies =>
        if (env.eventRoutings event).isEmpty then some (.skipped, [])
        else
          match replies, env.workspaceId with
          | [], _ => some (.consumed, [])
          | _ :: _, none => none
          | replies, some workspaceId =>
            some (.consumed, replies.flatMap fun reply =>
              (env.eventRoutings event).map
                (env.message (.proactive event.id) event.tenantId event.userId workspaceId reply.text reply.decision))

/-- `_try_send_aha2`, behind the sentinel: the messages. -/
def tryAha (tenantId : String) : List ProducedMessage :=
  match env.dietMember, env.user, truthy env.workspaceId with
  | some memberName, some user, some workspaceId =>
    env.routings.map (env.message (.aha tenantId) tenantId (some user.id) workspaceId
      ("🍽️ У " ++ memberName ++ " есть диета — могу собрать меню на неделю под неё. Подойдёт всем в семье.") .send)
  | _, _, _ => []

end ProducerEnv

/-! ### What a transaction writes -/

/-- The write that decides about a row. -/
inductive ProducerWrite where
  /-- `start`: the record that it persists, if it does, and whether there was a row when it read. -/
  | onboarding (tenantId userId : String) (loaded : Bool) (state : Option OnboardingState)
  /-- `mark_status`, of an event that was loaded with a status. -/
  | event (eventId : String) (loaded status : EventStatus)
  /-- `_create_sentinel`. -/
  | sentinel (tenantId : String)

namespace ProducerDb

variable (db : ProducerDb)

/-- `UPDATE … SET status = …`. -/
def setStatus (eventId : String) (status : EventStatus) : ProducerDb :=
  { db with events := db.events.update (·.id = eventId) (fun event => { event with status }) fun _ => rfl }

/-- `UPDATE … SET skill_params_json = …`. -/
def setOnboarding (tenantId userId : String) (state : OnboardingState) : ProducerDb :=
  { db with
    configs := db.configs.update (·.key = (tenantId, userId)) (fun config => { config with onboarding := some state })
      fun _ => rfl }

/-- The write of a transaction; nothing when it is refused. A status that has not changed since it was loaded is not
written. -/
def apply : ProducerWrite → Option ProducerDb
  | .onboarding _ _ _ none => some db
  | .onboarding tenantId userId true (some state) =>
    if (db.configs.get? (tenantId, userId)).isSome then some (db.setOnboarding tenantId userId state) else none
  | .onboarding tenantId userId false (some state) =>
    (db.configs.insert? ⟨tenantId, userId, some state⟩).map fun configs => { db with configs }
  | .event eventId loaded status => some (if status = loaded then db else db.setStatus eventId status)
  | .sentinel tenantId => some { db with sentinels := tenantId :: db.sentinels }

/-- The rows of the outbox are added. -/
def enqueue (tx : ℕ) (deleted : Bool) (messages : List ProducedMessage) : ProducerDb :=
  { db with outbox := db.outbox ++ messages.map fun message => ⟨message, tx, deleted⟩ }

end ProducerDb

end Sreda.Workers
