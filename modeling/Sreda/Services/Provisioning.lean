import Mathlib.Logic.Function.Basic
import Sreda.Services.Accounts

/-!
# Provisioning of accounts

`ensure_telegram_user_bundle_by_id` and `ensure_max_user_bundle` (`services/onboarding.py`), with the guard of
`services/signup_abuse.py`. Calls of any number of processes run at the same time. The steps of a call are its
transactions: the resolution of the account; the reads for a user that is there; the repair of its tenant, what it reads
apart from what it commits; and for a new user the check of the guard, which takes the advisory lock, apart from the
commit that gives the lock back.

The hashes of accounts and the answers of the configuration are any. Names and display names are left out.
-/

namespace Sreda.Services

open Sreda.Lib

/-! ### Calls and their results -/

inductive SignupChannel where
  | telegram | max
  deriving DecidableEq

/-- `str.strip`. -/
def stripText (text : String) : String := String.ofList (PyText.strip text.toList)

/-- A call: the account as it is given, its chat in MAX and the bot in Telegram. -/
structure EnsureCall where
  channel : SignupChannel
  externalId : String
  maxChatId : Option String := none
  botKey : String := "sreda"
  deriving DecidableEq

namespace EnsureCall

variable (call : EnsureCall)

/-- The account: MAX strips it. -/
def accountId : String :=
  match call.channel with
  | .telegram => call.externalId
  | .max => stripText call.externalId

/-- `chat_id_str`. -/
def chatId : Option String := (call.maxChatId.map stripText).filter (· ≠ "")

/-- `tg_bot_key` and `update_max_chat_id`, each given by its channel only. -/
def tgBotKey : Option String :=
  match call.channel with
  | .telegram => some call.botKey
  | .max => none

def updateMaxChatId : Option String :=
  match call.channel with
  | .telegram => none
  | .max => call.chatId

end EnsureCall

/-- `TelegramOnboardingResult` and `MaxOnboardingResult`. -/
structure OnboardingResult where
  isNewUser : Bool := false
  accountId : Option String := none
  maxChatId : Option String := none
  tenantId : Option String := none
  workspaceId : Option String := none
  userId : Option String := none
  assistantId : Option String := none
  deriving DecidableEq

/-- What a call raises. -/
inductive EnsureError where
  /-- `SignupBlocked`. -/
  | signupBlocked (reason : String)
  /-- `AmbiguousExternalIdentity`. -/
  | ambiguous (matchCount : ℕ)
  | account (error : AccountError)
  deriving DecidableEq

/-- `ResolvedIdentity`. -/
structure ResolvedIdentity where
  tenantId : String
  userId : String
  approvedAt : Option ℤ
  deriving DecidableEq

section Hashes

/-- `hash_tg_account` and `hmac_signup_source`. -/
structure AccountHashes where
  hashTgAccount : String → String
  hmacSignupSource : String → String

variable (H : AccountHashes)

/-- The account of the call is the user's. -/
def EnsureCall.isOf (call : EnsureCall) (user : UserAccount) : Bool :=
  match call.channel with
  | .telegram => user.tgAccountHash = some (H.hashTgAccount call.accountId)
  | .max => user.maxAccountId = some call.accountId

/-- The ids of a new bundle, and its user: the listener of `telegram_account_id` hashes the account, unless it is blank. -/
def EnsureCall.bundle (call : EnsureCall) : Bundle :=
  match call.channel with
  | .telegram =>
    { tenantId := "tenant_tg_" ++ call.accountId
      workspaceId := "workspace_tg_" ++ call.accountId
      userId := "user_tg_" ++ call.accountId
      assistantId := "assistant_tg_" ++ call.accountId
      tgAccountHash := if stripText call.accountId = "" then none else some (H.hashTgAccount call.accountId)
      lastBotKey := some call.botKey }
  | .max =>
    { tenantId := "tenant_max_" ++ call.accountId
      workspaceId := "workspace_max_" ++ call.accountId
      userId := "user_max_" ++ call.accountId
      assistantId := "assistant_max_" ++ call.accountId
      maxAccountId := some call.accountId
      maxChatId := call.chatId }

/-! ### Who is it -/

/-- `sreda_resolve_external_identity`: the users of the account, joined with their tenants. -/
def AccountDb.identities (db : AccountDb) (call : EnsureCall) : List ResolvedIdentity :=
  (db.users.rows.rows.filter (call.isOf H)).filterMap fun user =>
    (db.tenants.get? user.tenantId).map fun tenant => ⟨user.tenantId, user.id, tenant.approvedAt⟩

/-- `resolve_external_identity`. -/
def resolveExternalIdentity (db : AccountDb) (call : EnsureCall) : Except EnsureError (Option ResolvedIdentity) :=
  match db.identities H call with
  | [] => .ok none
  | [identity] => .ok (some identity)
  | identities => .error (.ambiguous identities.length)

end Hashes

/-! ### A user that is there -/

/-- `_stamp_last_bot_key`, and `max_chat_id`, which is only set where it is empty. -/
def UserAccount.stamp (user : UserAccount) (botKey updateMaxChatId : Option String) : UserAccount where
  id := user.id
  tenantId := user.tenantId
  tgAccountHash := user.tgAccountHash
  maxAccountId := user.maxAccountId
  maxChatId := if updateMaxChatId.isSome ∧ user.maxChatId.getD "" = "" then updateMaxChatId else user.maxChatId
  lastBotKey := if botKey.getD "" ≠ "" then botKey else user.lastBotKey

/-- The user is stamped. -/
def AccountDb.stampUser (db : AccountDb) (userId : String) (botKey updateMaxChatId : Option String) : AccountDb :=
  { db with
    users := db.users.retire (·.id = userId) (·.stamp botKey updateMaxChatId) (fun _ => rfl) fun _ => .inr rfl }

/-- `ORDER BY id … LIMIT 1`. -/
def firstById {α : Type} (id : α → String) (rows : List α) : Option α :=
  rows.foldl (fun best row => if best.any (id · ≤ id row) then best else some row) none

/-- `_serve_existing_bundle_reads`, up to the repair: what is written, the result, and whether the tenant has an active
subscription. -/
def serveExistingBundleReads (db : AccountDb) (identity : ResolvedIdentity) (botKey updateMaxChatId : Option String) :
    AccountDb × OnboardingResult × Bool :=
  let db := db.stampUser identity.userId botKey updateMaxChatId
  let assistant := firstById Assistant.id (db.assistants.rows.filter (·.tenantId = identity.tenantId))
  let workspace := firstById Workspace.id (db.workspaces.rows.filter (·.tenantId = identity.tenantId))
  let result : OnboardingResult :=
    { maxChatId := (db.users.get? identity.userId).bind (·.maxChatId)
      tenantId := some identity.tenantId
      workspaceId := (assistant.map (·.workspaceId)).orElse fun _ => workspace.map (·.id)
      userId := some identity.userId
      assistantId := assistant.map (·.id) }
  (db, result, db.billing.hasActiveSub identity.tenantId)

/-! ### The guard -/

/-- `SignupAbuseGuard`. -/
structure SignupGuard where
  freeTierActiveMax : ℤ := 70
  signupOpen : Bool := true
  botSignupOpen : Bool := true
  deriving DecidableEq

/-- The subscription is an active free one, without grandfathering. -/
def BillingStore.isFreeTierActive (s : BillingStore) (sub : TenantSubscription) : Bool :=
  (s.plans.get? sub.planId).any (·.planKey = "sreda_free") && sub.status = .active && sub.grandfatheredAt.isNone

/-- `sreda_signup_free_tier_active_count`. -/
def BillingStore.freeTierActiveCount (s : BillingStore) : ℕ := s.subscriptions.rows.countP s.isFreeTierActive

/-- `sreda_signup_recent_attempts_count`. -/
def recentAttemptsCount (attempts : List SignupAttempt) (channel sourceIdHash : String) (cutoff : ℤ) : ℕ :=
  attempts.countP fun attempt => attempt.channel = channel && attempt.sourceIdHash = sourceIdHash && cutoff < attempt.attemptedAt

/-- `_RATE_LIMIT_MAX`. -/
def signupRateLimitMax : ℕ := 3

/-- `timedelta(hours=_RATE_WINDOW_HOURS)`. -/
def signupWindow : ℤ := days 1

def SignupChannel.text : SignupChannel → String
  | .telegram => "telegram"
  | .max => "max"

/-- `check_inside_tx`, without the lock: the reason of a refusal, or the attempt that is recorded. The two times are those
of the window and of the record. -/
def SignupGuard.checkInsideTx (H : AccountHashes) (guard : SignupGuard) (db : AccountDb) (channel : SignupChannel)
    (sourceId : String) (windowNow recordNow : ℤ) : Except String SignupAttempt :=
  if ¬ guard.signupOpen then .error "signups_closed"
  else if ¬ guard.botSignupOpen then .error "signups_closed"
  else if guard.freeTierActiveMax ≤ db.billing.freeTierActiveCount then .error "free_tier_full"
  else
    let sourceIdHash := H.hmacSignupSource sourceId
    if signupRateLimitMax ≤ recentAttemptsCount db.attempts channel.text sourceIdHash (windowNow - signupWindow) then .error "rate_limited"
    else .ok ⟨channel.text, sourceIdHash, recordNow⟩

/-! ### The steps of a call -/

/-- Where a call stands between its transactions. -/
inductive EnsurePhase where
  | idle
  /-- The account is of no user. -/
  | unknown (call : EnsureCall)
  | known (call : EnsureCall) (identity : ResolvedIdentity)
  /-- The tenant is to be repaired. -/
  | repairing (tenantId : String) (result : OnboardingResult)
  /-- The repair has found no active subscription of the tenant. -/
  | granting (tenantId : String) (plan : SubscriptionPlan) (result : OnboardingResult)
  deriving DecidableEq

variable {π : Type} [DecidableEq π]

/-- The transaction that holds the advisory lock: its check has passed. -/
structure PendingSignup (π : Type) where
  process : π
  call : EnsureCall
  guard : SignupGuard
  windowNow : ℤ
  attempt : SignupAttempt
  /-- What the guard has counted. -/
  counted : ℕ
  /-- How many repairs had granted a subscription at that time. -/
  repairs : ℕ

/-- The database, the processes, and the transaction with the lock. `repairs` counts the grants of repairs. -/
structure ProvisionState (π : Type) where
  db : AccountDb
  phases : π → EnsurePhase
  pending : Option (PendingSignup π)
  repairs : ℕ

/-- A step, of one process. The answers of the configuration, the times and the `uuid4` of a new id are given. -/
inductive EnsureAct (π : Type) where
  | resolve (p : π) (call : EnsureCall)
  | serve (p : π)
  | repair (p : π) (now : ℤ)
  | grant (p : π) (now : ℤ) (subId : String)
  /-- `registry` is what the registry of bots says of signups, nothing for a bot that it does not know. -/
  | check (p : π) (guard : SignupGuard) (registry : Option Bool) (windowNow recordNow : ℤ)
  | commit (p : π) (now : ℤ) (subId : String)

/-- How a call ends. -/
abbrev EnsureOutcome := Except EnsureError OnboardingResult

namespace ProvisionState

variable (H : AccountHashes) (s : ProvisionState π)

/-- The process goes on. -/
def move (p : π) (phase : EnsurePhase) : ProvisionState π := { s with phases := Function.update s.phases p phase }

/-- The process ends its call. -/
def done (p : π) (outcome : EnsureOutcome) : ProvisionState π × Option EnsureOutcome := (s.move p .idle, some outcome)

/-- The account is resolved; a call without an account ends at once. -/
def resolve (p : π) (call : EnsureCall) : ProvisionState π × Option EnsureOutcome :=
  if call.accountId = "" then s.done p (.ok {})
  else
    match resolveExternalIdentity H s.db call with
    | .error e => s.done p (.error e)
    | .ok none => (s.move p (.unknown call), none)
    | .ok (some identity) => (s.move p (.known call identity), none)

/-- The reads for a user that is there. -/
def serve (p : π) (call : EnsureCall) (identity : ResolvedIdentity) : ProvisionState π × Option EnsureOutcome :=
  let (db, result, hasActiveSub) := serveExistingBundleReads s.db identity call.tgBotKey call.updateMaxChatId
  let s := { s with db }
  let result := { result with accountId := some call.accountId }
  if identity.approvedAt.isNone || !hasActiveSub then (s.move p (.repairing identity.tenantId result), none)
  else s.done p (.ok result)

/-- `_auto_approve_and_grant_free_tier` up to its insertion. -/
def repair (p : π) (tenantId : String) (result : OnboardingResult) (now : ℤ) : ProvisionState π × Option EnsureOutcome :=
  match s.db.billing.freePlan with
  | none => { s with db := s.db.approve tenantId now }.done p (.ok result)
  | some plan =>
    if s.db.billing.hasActiveSub tenantId then { s with db := s.db.approve tenantId now }.done p (.ok result)
    else (s.move p (.granting tenantId plan result), none)

/-- The insertion of the repair and its commit. -/
def grant (p : π) (tenantId : String) (plan : SubscriptionPlan) (result : OnboardingResult) (now : ℤ) (subId : String) :
    ProvisionState π × Option EnsureOutcome :=
  let billing := s.db.billing.insertSubscription (freeTierSubscription plan tenantId now subId)
  match (s.db.approve tenantId now).withBilling billing with
  | .error e => s.done p (.error (.account e))
  | .ok db => { s with db, repairs := s.repairs + 1 }.done p (.ok result)

/-- The guard: a bot that is not known is refused, else the check is made under the lock. -/
def check (p : π) (call : EnsureCall) (guard : SignupGuard) (registry : Option Bool) (windowNow recordNow : ℤ) :
    Option (ProvisionState π × Option EnsureOutcome) :=
  let botSignupOpen := match call.channel with
    | .telegram => registry
    | .max => some true
  match botSignupOpen with
  | none => some (s.done p (.error (.signupBlocked "signups_closed")))
  | some botSignupOpen =>
    let guard := { guard with botSignupOpen }
    if s.pending.isSome then none
    else
      match guard.checkInsideTx H s.db call.channel call.accountId windowNow recordNow with
      | .error reason => some (s.done p (.error (.signupBlocked reason)))
      | .ok attempt =>
        let pending :=
          { process := p, call, guard, windowNow, attempt, counted := s.db.billing.freeTierActiveCount, repairs := s.repairs }
        some ({ s with pending := some pending }.move p .idle, none)

/-- The bundle, the grant and the commit. The attempt is in the same transaction. -/
def commit (pending : PendingSignup π) (now : ℤ) (subId : String) : ProvisionState π × Option EnsureOutcome :=
  let bundle := pending.call.bundle H
  let s' := { s with pending := none }
  match provisionBundle { s.db with attempts := s.db.attempts ++ [pending.attempt] } bundle now subId with
  | .error e => (s', some (.error (.account e)))
  | .ok (db, created) =>
    let result : OnboardingResult :=
      { isNewUser := created
        accountId := some pending.call.accountId
        maxChatId := bundle.maxChatId
        tenantId := some bundle.tenantId
        workspaceId := some bundle.workspaceId
        userId := some bundle.userId
        assistantId := some bundle.assistantId }
    ({ s' with db }, some (.ok result))

/-- A step; nothing where the process is not at it, or waits for the lock. -/
def next : EnsureAct π → Option (ProvisionState π × Option EnsureOutcome)
  | .resolve p call =>
    if s.phases p = .idle ∧ s.pending.all (·.process ≠ p) then some (s.resolve H p call) else none
  | .serve p =>
    match s.phases p with
    | .known call identity => some (s.serve p call identity)
    | _ => none
  | .repair p now =>
    match s.phases p with
    | .repairing tenantId result => some (s.repair p tenantId result now)
    | _ => none
  | .grant p now subId =>
    match s.phases p with
    | .granting tenantId plan result => some (s.grant p tenantId plan result now subId)
    | _ => none
  | .check p guard registry windowNow recordNow =>
    match s.phases p with
    | .unknown call => s.check H p call guard registry windowNow recordNow
    | _ => none
  | .commit p now subId => (s.pending.filter (·.process = p)).map fun pending => s.commit H pending now subId

end ProvisionState

end Sreda.Services
