import Sreda.Services.Provisioning
import Sreda.Workers.TelegramInbound

/-!
# The gates on the way of a Telegram update

`handle_telegram_update` (`services/telegram_inbound.py`) from the update to the turn: the login of an admin, the soft
deletion, `ensure_telegram_user_bundle` with the repair of a tenant (`services/onboarding.py`), the welcome, the table of
inbound messages, and `EntitlementGate` (`services/entitlement_gate.py`). The updates come one after the other.

What an update finds around it is given: the settings, whether it belongs to the login of an admin, and what becomes of a
message to the user. The salt of the account hashes is configured. The secure record of the payload and the status of an
inbound message are left out.

## What is proved

* an update of a tenant that is suspended is refused by the gate, with its subscriptions as they were, if and only if
  `Refusing` holds before it (`refused_iff`); a tenant whose updates all do stays suspended (`blocked_runs`).
  `turn_of_suspended` is one that does not: the repair grants a subscription;
* an update of a deleted tenant is dropped, and nothing is written (`handle_deleted`).
-/

namespace Sreda.Workers

open Sreda.Lib Sreda.Services

/-! ### The database and the surroundings -/

/-- The tables, and the users whose welcome was sent. -/
structure IngressDb where
  accounts : AccountDb
  inbound : InboundTable
  /-- `welcome_sent_at` of a tenant and a user. -/
  welcomeSent : List (String × String)

/-- What an update finds around it: the answers of the configuration, the times and the new ids. -/
structure UpdateEnv where
  botKey : String
  /-- `_handle_admin_login_start` or `_handle_admin_login_confirm` takes the update. -/
  adminLogin : Bool := false
  signup : SignupGuard := {}
  /-- What the registry of bots says of signups, nothing for a bot that it does not know. -/
  registry : Option Bool := some true
  now : ℤ
  subId : String
  inboundId : String
  /-- `settings.telegram_bot_token` -/
  botToken : Bool := true
  /-- The welcome is sent, and its flag is written. -/
  welcomeDelivered : Bool := true

/-- What becomes of an update. -/
inductive UpdateOutcome where
  | adminLogin
  /-- The tenant is deleted. -/
  | dropped
  | signupBlocked (reason : String)
  /-- An exception. -/
  | raised
  | duplicate
  /-- The welcome consumes the update. -/
  | welcomed
  /-- `EntitlementGate` refuses it. -/
  | refused (reason : String)
  | pending
  | noChat
  /-- It goes on to the queue, or to the turn. -/
  | turn
  deriving DecidableEq, Repr

/-- An update with its surroundings. -/
abbrev Delivery := TelegramUpdate × UpdateEnv

/-! ### The steps -/

section Steps

variable (H : AccountHashes)

/-- The call for the account of a chat. -/
def telegramCall (chatId botKey : String) : EnsureCall := { channel := .telegram, externalId := chatId, botKey }

/-- `ResolvedIdentity.tenant_active` -/
def AccountDb.tenantActive (db : AccountDb) (identity : ResolvedIdentity) : Bool :=
  (db.tenants.get? identity.tenantId).any (·.deletedAt.isNone)

/-- The account resolves to a tenant that is deleted. -/
def resolvesToDeleted (db : AccountDb) (update : TelegramUpdate) (botKey : String) : Bool :=
  match update.chatId with
  | none => false
  | some chatId =>
    match resolveExternalIdentity H db (telegramCall chatId botKey) with
    | .ok (some identity) => !AccountDb.tenantActive db identity
    | .ok none | .error _ => false

/-- A user that is there: the reads, and the repair of the tenant. -/
def serveExisting (db : AccountDb) (identity : ResolvedIdentity) (chatId : String) (env : UpdateEnv) :
    AccountDb × Except EnsureError OnboardingResult :=
  let (db, result, hasActiveSub) := serveExistingBundleReads db identity (some env.botKey) none
  let result := { result with accountId := some chatId }
  if identity.approvedAt.isNone || !hasActiveSub then
    match autoApproveAndGrantFreeTier db identity.tenantId env.now env.subId with
    | .error e => (db, .error (.account e))
    | .ok db => (db, .ok result)
  else (db, .ok result)

/-- A new user: the guard, and the bundle. -/
def provisionUser (db : AccountDb) (chatId : String) (env : UpdateEnv) : AccountDb × Except EnsureError OnboardingResult :=
  match env.registry with
  | none => (db, .error (.signupBlocked "signups_closed"))
  | some botSignupOpen =>
    match ({ env.signup with botSignupOpen } : SignupGuard).checkInsideTx H db .telegram chatId env.now env.now with
    | .error reason => (db, .error (.signupBlocked reason))
    | .ok attempt =>
      let bundle := (telegramCall chatId env.botKey).bundle H
      match provisionBundle { db with attempts := db.attempts ++ [attempt] } bundle env.now env.subId with
      | .error e => (db, .error (.account e))
      | .ok (db, created) =>
        (db, .ok {
          isNewUser := created, accountId := some chatId, tenantId := some bundle.tenantId, workspaceId := some bundle.workspaceId
          userId := some bundle.userId, assistantId := some bundle.assistantId })

/-- `ensure_telegram_user_bundle`. -/
def ensureTelegramUserBundle (db : AccountDb) (update : TelegramUpdate) (env : UpdateEnv) :
    AccountDb × Except EnsureError OnboardingResult :=
  match update.chatId with
  | none => (db, .ok {})
  | some chatId =>
    if chatId = "" then (db, .ok {})
    else
      match resolveExternalIdentity H db (telegramCall chatId env.botKey) with
      | .error e => (db, .error e)
      | .ok (some identity) => serveExisting db identity chatId env
      | .ok none => provisionUser H db chatId env

/-- The welcome: whether it is sent now, and the flags. -/
def sendWelcome (welcomeSent : List (String × String)) (onboarding : OnboardingResult) (env : UpdateEnv) :
    Bool × List (String × String) :=
  match onboarding.tenantId, onboarding.userId, onboarding.accountId with
  | some tenantId, some userId, some _ =>
    if env.botToken && !welcomeSent.contains (tenantId, userId) && env.welcomeDelivered then
      (true, (tenantId, userId) :: welcomeSent)
    else (false, welcomeSent)
  | _, _, _ => (false, welcomeSent)

/-- `EntitlementGate.check`, of a tenant or of none. -/
def gateOf (billing : BillingStore) : Option String → GateResult
  | some tenantId => entitlementCheck billing tenantId
  | none => { allowed := false, reason := "no_active_subscription" }

/-- From the gate to the turn. -/
def admitTurn (db : AccountDb) (onboarding : OnboardingResult) (env : UpdateEnv) : UpdateOutcome :=
  let gate := gateOf db.billing onboarding.tenantId
  if !gate.allowed then .refused gate.reason
  else if !((onboarding.tenantId.bind fun tenantId => db.tenants.get? tenantId).any (·.approvedAt.isSome)) then .pending
  else if !(env.botToken && onboarding.accountId.isSome) then .noChat
  else .turn

/-- `handle_telegram_update`. -/
def handleTelegramUpdate (db : IngressDb) (delivery : Delivery) : IngressDb × UpdateOutcome :=
  let (update, env) := delivery
  if env.adminLogin then (db, .adminLogin)
  else if resolvesToDeleted H db.accounts update env.botKey then (db, .dropped)
  else
    match ensureTelegramUserBundle H db.accounts update env with
    | (accounts, .error (.signupBlocked reason)) => ({ db with accounts }, .signupBlocked reason)
    | (accounts, .error _) => ({ db with accounts }, .raised)
    | (accounts, .ok onboarding) =>
      let (welcomeJustSent, welcomeSent) := sendWelcome db.welcomeSent onboarding env
      -- the row names a tenant for a message only
      let tenantId := update.messageChatId.bind fun _ => onboarding.tenantId
      match persistTelegramInboundEvent db.inbound env.inboundId tenantId env.botKey update with
      | .integrityError => ({ db with accounts, welcomeSent }, .raised)
      | .duplicate _ => ({ db with accounts, welcomeSent }, .duplicate)
      | .persisted inbound =>
        let db := { db with accounts, welcomeSent, inbound }
        if welcomeJustSent then (db, .welcomed) else (db, admitTurn accounts onboarding env)

/-! ### What is asked of an update -/

/-- The subscriptions of a tenant. -/
def IngressDb.subscriptionsOf (db : IngressDb) (tenantId : String) : List TenantSubscription :=
  db.accounts.billing.subscriptions.rows.filter (·.tenantId = tenantId)

/-- The tenant is approved, is not deleted, and has a suspended subscription of the housewife skill and no active one. -/
structure Blocked (db : IngressDb) (tenantId : String) : Prop where
  tenant : ∃ tenant, db.accounts.tenants.get? tenantId = some tenant ∧ tenant.approvedAt ≠ none ∧ tenant.deletedAt = none
  suspended : ∃ row ∈ db.accounts.billing.gateRows tenantId, row.1.status = .suspended
  noneActive : db.accounts.billing.hasActiveSub tenantId = false

/-- The update is of a user of the tenant. -/
def FromUser (db : IngressDb) (tenantId userId : String) (delivery : Delivery) : Prop :=
  ∃ chatId identity, delivery.1.chatId = some chatId ∧ chatId ≠ "" ∧
    resolveExternalIdentity H db.accounts (telegramCall chatId delivery.2.botKey) = .ok (some identity) ∧
    identity.tenantId = tenantId ∧ identity.userId = userId

/-- The update is refused as suspended, and the subscriptions of the tenant stay. -/
def Refused (db : IngressDb) (tenantId : String) (delivery : Delivery) : Prop :=
  (handleTelegramUpdate H db delivery).2 = .refused "suspended" ∧
    (handleTelegramUpdate H db delivery).1.subscriptionsOf tenantId = db.subscriptionsOf tenantId

end Steps

/-- The update has not been persisted, and its row has a new id. -/
structure NewUpdate (inbound : InboundTable) (delivery : Delivery) : Prop where
  id : ∀ row ∈ inbound.rows.rows, row.id ≠ delivery.2.inboundId
  update : ∀ updateId, delivery.1.updateId.extract = some updateId →
    ∀ row ∈ inbound.rows.rows, row.entry ≠ some ("telegram", delivery.2.botKey, updateId)

/-- **When an update is refused**, read off the rows before it and its surroundings: it is not of the login of an admin and
it is new, its user has had the welcome or does not get it now, and there is no plan `sreda_free`. -/
structure Refusing (db : IngressDb) (tenantId userId : String) (delivery : Delivery) : Prop where
  login : delivery.2.adminLogin = false
  new : NewUpdate db.inbound delivery
  welcome : delivery.2.botToken = true → delivery.2.welcomeDelivered = true → (tenantId, userId) ∈ db.welcomeSent
  plan : db.accounts.billing.freePlan = none

/-! ### The table of inbound messages -/

theorem persisted_iff {inbound : InboundTable} {delivery : Delivery} (tenantId : Option String) :
    (∃ inbound', persistTelegramInboundEvent inbound delivery.2.inboundId tenantId delivery.2.botKey delivery.1 =
      .persisted inbound') ↔ NewUpdate inbound delivery := by
  obtain ⟨update, env⟩ := delivery
  have hduplicate : update.updateId.extract.bind (findDuplicateInbound inbound "telegram" env.botKey) = none ↔
      ∀ updateId, update.updateId.extract = some updateId →
        ∀ row ∈ inbound.rows.rows, row.entry ≠ some ("telegram", env.botKey, updateId) := by
    rw [Option.bind_eq_none_iff]
    simp [findDuplicateInbound]
  unfold persistTelegramInboundEvent
  cases hfind : update.updateId.extract.bind (findDuplicateInbound inbound "telegram" env.botKey) with
  | some existing =>
    refine iff_of_false (fun ⟨_, h⟩ => by cases h) fun hnew => ?_
    rw [hduplicate.mpr hnew.update] at hfind
    cases hfind
  | none =>
    have hupdate := hduplicate.mp hfind
    cases hinsert : inbound.rows.insert? (inboundRow env.inboundId tenantId env.botKey update) with
    | none =>
      obtain ⟨row, hrow, hid⟩ := Keyed.insert?_eq_none.mp hinsert
      exact iff_of_false (fun ⟨_, h⟩ => by cases h) fun hnew => hnew.id row hrow hid
    | some rows =>
      have hentries : (rows.rows.filterMap InboundMessage.entry).Nodup := by
        refine (Indexed.nodup_insert_iff hinsert).mpr fun entry hentry row hrow heq => ?_
        obtain ⟨updateId, hupdateId, rfl⟩ := Option.map_eq_some_iff.mp hentry
        exact hupdate updateId hupdateId row hrow heq
      refine iff_of_true ⟨⟨rows, hentries⟩, ?_⟩ ⟨Keyed.fresh_of_insert? hinsert, hupdate⟩
      simp only [Option.bind_some, Indexed.commit?, dif_pos hentries]

/-! ### The repair -/

section Blocked

variable {H : AccountHashes} {db : IngressDb} {tenantId userId : String} {delivery : Delivery}

/-- What a user of a blocked tenant gets without a plan to grant: nothing but the stamp. -/
theorem serveExisting_without_plan (chatId : String) (env : UpdateEnv) {identity : ResolvedIdentity} (hblocked : Blocked db tenantId)
    (htenant : identity.tenantId = tenantId) (hplan : db.accounts.billing.freePlan = none) :
    ∃ onboarding, serveExisting db.accounts identity chatId env =
        (db.accounts.stampUser identity.userId (some env.botKey) none, .ok onboarding) ∧
      onboarding.tenantId = some tenantId ∧ onboarding.userId = some identity.userId ∧ onboarding.accountId = some chatId := by
  obtain ⟨tenant, hget, happroved, -⟩ := hblocked.tenant
  have happrove : (db.accounts.stampUser identity.userId (some env.botKey) none).approve tenantId env.now =
      db.accounts.stampUser identity.userId (some env.botKey) none := by
    have hsame : ∀ row ∈ db.accounts.tenants.rows, (decide (row.id = tenantId) && row.approvedAt.isNone) = false := by
      intro row hrow
      by_cases hid : row.id = tenantId
      · obtain rfl : row = tenant := Option.some.inj ((hid ▸ Keyed.get?_key hrow).symm.trans hget)
        simpa [Option.isSome_iff_ne_none] using fun _ => happroved
      · simp [hid]
    rw [AccountDb.approve]
    congr 1
    exact Keyed.update_of_false hsame
  refine ⟨{ (serveExistingBundleReads db.accounts identity (some env.botKey) none).2.1 with accountId := some chatId }, ?_,
    congrArg some htenant, rfl, rfl⟩
  have hactive : (db.accounts.stampUser identity.userId (some env.botKey) none).billing.hasActiveSub tenantId = false :=
    hblocked.noneActive
  have hfree : (db.accounts.stampUser identity.userId (some env.botKey) none).billing.freePlan = none := hplan
  simp only [serveExisting, serveExistingBundleReads, htenant, hactive, Bool.not_false, Bool.or_true, if_true,
    autoApproveAndGrantFreeTier, hfree, happrove]

/-- With a plan to grant, a user of a blocked tenant gets an error, or the tenant gets a subscription. -/
theorem serveExisting_with_plan (chatId : String) (env : UpdateEnv) {identity : ResolvedIdentity} {plan : SubscriptionPlan}
    (hblocked : Blocked db tenantId) (htenant : identity.tenantId = tenantId) (hplan : db.accounts.billing.freePlan = some plan) :
    (∃ accounts e, serveExisting db.accounts identity chatId env = (accounts, .error (.account e))) ∨
      ∃ accounts onboarding, serveExisting db.accounts identity chatId env = (accounts, .ok onboarding) ∧
        accounts.billing.subscriptions.rows =
          db.accounts.billing.subscriptions.rows ++ [freeTierSubscription plan tenantId env.now env.subId] := by
  have hactive : (db.accounts.stampUser identity.userId (some env.botKey) none).billing.hasActiveSub tenantId = false :=
    hblocked.noneActive
  have hfree : (db.accounts.stampUser identity.userId (some env.botKey) none).billing.freePlan = some plan := hplan
  have hserve : serveExisting db.accounts identity chatId env =
      match ((db.accounts.stampUser identity.userId (some env.botKey) none).approve tenantId env.now).withBilling
        (db.accounts.billing.insertSubscription (freeTierSubscription plan tenantId env.now env.subId)) with
      | .error e => (db.accounts.stampUser identity.userId (some env.botKey) none, .error (.account e))
      | .ok accounts =>
        (accounts,
          .ok { (serveExistingBundleReads db.accounts identity (some env.botKey) none).2.1 with accountId := some chatId }) := by
    simp only [serveExisting, serveExistingBundleReads, htenant, hactive, Bool.not_false, Bool.or_true, if_true,
      autoApproveAndGrantFreeTier, hfree]
    rfl
  rw [hserve]
  cases hbilling : db.accounts.billing.insertSubscription (freeTierSubscription plan tenantId env.now env.subId) with
  | error e => exact .inl ⟨_, _, rfl⟩
  | ok billing => exact .inr ⟨_, _, rfl, (insertSubscription_spec hbilling).2.1⟩

/-! ### The gate -/

/-- The gate refuses a blocked tenant as suspended. -/
theorem entitlementCheck_blocked (hblocked : Blocked db tenantId) :
    entitlementCheck db.accounts.billing tenantId = { allowed := false, reason := "suspended" } := by
  have hnone : (db.accounts.billing.gateRows tenantId).find? (·.1.status = .active) = none := by
    rw [List.find?_eq_none]
    rintro ⟨sub, plan⟩ hrow hactive
    obtain ⟨hmem, hfeature⟩ := List.mem_filter.mp hrow
    obtain ⟨hsub, htenant, -⟩ := mem_subscriptionPlanRows.mp hmem
    have hany : db.accounts.billing.hasActiveSub tenantId = true := by
      refine List.any_eq_true.mpr ⟨sub, hsub, ?_⟩
      simp only [Bool.and_eq_true, decide_eq_true_eq] at *
      exact ⟨⟨htenant, hfeature⟩, hactive⟩
    rw [hblocked.noneActive] at hany
    cases hany
  obtain ⟨row, hrow, hstatus⟩ := hblocked.suspended
  have hany : (db.accounts.billing.gateRows tenantId).any (·.1.status = .suspended) = true :=
    List.any_eq_true.mpr ⟨row, hrow, decide_eq_true hstatus⟩
  simp only [entitlementCheck, hnone, hany, if_true]

theorem resolvesToDeleted_eq (hfrom : FromUser H db tenantId userId delivery) {tenant : TenantAccount}
    (htenant : db.accounts.tenants.get? tenantId = some tenant) :
    resolvesToDeleted H db.accounts delivery.1 delivery.2.botKey = tenant.deletedAt.isSome := by
  obtain ⟨chatId, identity, hchat, -, hresolve, rfl, -⟩ := hfrom
  simp only [resolvesToDeleted, hchat, hresolve, AccountDb.tenantActive, htenant, Option.any_some]
  cases tenant.deletedAt <;> rfl

theorem ensureTelegramUserBundle_eq (hfrom : FromUser H db tenantId userId delivery) :
    ∃ chatId identity, identity.tenantId = tenantId ∧ identity.userId = userId ∧
      ensureTelegramUserBundle H db.accounts delivery.1 delivery.2 = serveExisting db.accounts identity chatId delivery.2 := by
  obtain ⟨chatId, identity, hchat, hne, hresolve, htenant, huser⟩ := hfrom
  refine ⟨chatId, identity, htenant, huser, ?_⟩
  simp only [ensureTelegramUserBundle, hchat, if_neg hne, hresolve]

/-- The rows of the accounts are those that the bundle leaves. -/
theorem accounts_handle (hlogin : delivery.2.adminLogin = false)
    (hactive : resolvesToDeleted H db.accounts delivery.1 delivery.2.botKey = false) :
    (handleTelegramUpdate H db delivery).1.accounts = (ensureTelegramUserBundle H db.accounts delivery.1 delivery.2).1 := by
  unfold handleTelegramUpdate
  dsimp only
  rw [hlogin, hactive, if_neg Bool.false_ne_true, if_neg Bool.false_ne_true]
  split
  next heq => rw [heq]
  next heq => rw [heq]
  next heq =>
    rw [heq]
    split
    · rfl
    · rfl
    · split <;> rfl

/-- The welcome is sent to a user who has not had it, if it can be. -/
theorem sendWelcome_eq (env : UpdateEnv) (welcomeSent : List (String × String)) {onboarding : OnboardingResult} {chatId : String}
    (htenant : onboarding.tenantId = some tenantId) (huser : onboarding.userId = some userId)
    (haccount : onboarding.accountId = some chatId) :
    ((sendWelcome welcomeSent onboarding env).1 = false ↔
        (env.botToken = true → env.welcomeDelivered = true → (tenantId, userId) ∈ welcomeSent)) ∧
      ((sendWelcome welcomeSent onboarding env).1 = false → (sendWelcome welcomeSent onboarding env).2 = welcomeSent) := by
  simp only [sendWelcome, htenant, huser, haccount]
  by_cases hmem : (tenantId, userId) ∈ welcomeSent
  · simp [hmem]
  · cases env.botToken <;> cases env.welcomeDelivered <;> simp [hmem]

theorem resolvesToDeleted_of_blocked (hblocked : Blocked db tenantId) (hfrom : FromUser H db tenantId userId delivery) :
    resolvesToDeleted H db.accounts delivery.1 delivery.2.botKey = false := by
  obtain ⟨tenant, hget, -, hdeleted⟩ := hblocked.tenant
  rw [resolvesToDeleted_eq hfrom hget, hdeleted]
  rfl

/-- An update of a blocked tenant, without a plan to grant: the stamp, the welcome, the table and the gate. -/
theorem handle_without_plan (hblocked : Blocked db tenantId) (hfrom : FromUser H db tenantId userId delivery)
    (hlogin : delivery.2.adminLogin = false) (hplan : db.accounts.billing.freePlan = none) :
    ∃ sent welcomeSent, (sent = false ↔ (delivery.2.botToken = true → delivery.2.welcomeDelivered = true →
        (tenantId, userId) ∈ db.welcomeSent)) ∧ (sent = false → welcomeSent = db.welcomeSent) ∧
      handleTelegramUpdate H db delivery =
        let accounts := db.accounts.stampUser userId (some delivery.2.botKey) none
        match persistTelegramInboundEvent db.inbound delivery.2.inboundId (delivery.1.messageChatId.bind fun _ => some tenantId)
          delivery.2.botKey delivery.1 with
        | .integrityError => ({ db with accounts, welcomeSent }, .raised)
        | .duplicate _ => ({ db with accounts, welcomeSent }, .duplicate)
        | .persisted inbound => ({ accounts, welcomeSent, inbound }, if sent then .welcomed else .refused "suspended") := by
  obtain ⟨chatId, identity, htenant, huser, hensure⟩ := ensureTelegramUserBundle_eq hfrom
  obtain ⟨onboarding, hserve, htenantId, huserId, haccount⟩ :=
    serveExisting_without_plan chatId delivery.2 hblocked htenant hplan
  obtain ⟨hsent, hsame⟩ :=
    sendWelcome_eq delivery.2 db.welcomeSent htenantId (huserId.trans (congrArg some huser)) haccount
  refine ⟨_, _, hsent, hsame, ?_⟩
  have hactive := resolvesToDeleted_of_blocked hblocked hfrom
  have hgate : admitTurn (db.accounts.stampUser userId (some delivery.2.botKey) none) onboarding delivery.2 = .refused "suspended" := by
    have hcheck := entitlementCheck_blocked hblocked
    simp only [admitTurn, htenantId, gateOf]
    rw [show (db.accounts.stampUser userId (some delivery.2.botKey) none).billing = db.accounts.billing from rfl, hcheck]
    rfl
  unfold handleTelegramUpdate
  dsimp only
  rw [hlogin, hactive, if_neg Bool.false_ne_true, if_neg Bool.false_ne_true, hensure, hserve, huser]
  dsimp only
  rw [htenantId]
  cases persistTelegramInboundEvent db.inbound delivery.2.inboundId (delivery.1.messageChatId.bind fun _ => some tenantId)
      delivery.2.botKey delivery.1 with
  | integrityError => rfl
  | duplicate existing => rfl
  | persisted inbound =>
    dsimp only
    split
    · rfl
    · rw [hgate]

/-- A plan to grant: the update raises, or the subscriptions of the tenant have changed. -/
theorem not_refused_with_plan (hblocked : Blocked db tenantId) (hfrom : FromUser H db tenantId userId delivery)
    (hlogin : delivery.2.adminLogin = false) {plan : SubscriptionPlan} (hplan : db.accounts.billing.freePlan = some plan) :
    ¬ Refused H db tenantId delivery := by
  rintro ⟨houtcome, hsame⟩
  obtain ⟨chatId, identity, htenant, -, hensure⟩ := ensureTelegramUserBundle_eq hfrom
  have hactive := resolvesToDeleted_of_blocked hblocked hfrom
  rcases serveExisting_with_plan chatId delivery.2 hblocked htenant hplan with
    ⟨accounts, e, hserve⟩ | ⟨accounts, onboarding, hserve, hrows⟩
  · unfold handleTelegramUpdate at houtcome
    dsimp only at houtcome
    rw [hlogin, hactive, if_neg Bool.false_ne_true, if_neg Bool.false_ne_true, hensure, hserve] at houtcome
    cases houtcome
  · have haccounts : (handleTelegramUpdate H db delivery).1.accounts = accounts := by
      rw [accounts_handle hlogin hactive, hensure, hserve]
    have hlength := congrArg List.length hsame
    simp only [IngressDb.subscriptionsOf, haccounts, hrows, List.filter_append, List.length_append] at hlength
    have hgranted :
        ([freeTierSubscription plan tenantId delivery.2.now delivery.2.subId].filter (·.tenantId = tenantId)).length = 1 := by
      simp [freeTierSubscription]
    omega

/-- **An update of a blocked tenant** is refused, with its subscriptions as they were, if and only if `Refusing` holds. -/
theorem refused_iff (hblocked : Blocked db tenantId) (hfrom : FromUser H db tenantId userId delivery) :
    Refused H db tenantId delivery ↔ Refusing db tenantId userId delivery := by
  constructor
  · intro hrefused
    have hlogin : delivery.2.adminLogin = false := by
      by_contra h
      rw [Bool.not_eq_false] at h
      obtain ⟨houtcome, -⟩ := hrefused
      unfold handleTelegramUpdate at houtcome
      dsimp only at houtcome
      rw [h] at houtcome
      cases houtcome
    cases hplan : db.accounts.billing.freePlan with
    | some plan => exact absurd hrefused (not_refused_with_plan hblocked hfrom hlogin hplan)
    | none =>
      obtain ⟨sent, welcomeSent, hsent, -, hhandle⟩ := handle_without_plan hblocked hfrom hlogin hplan
      have houtcome := hrefused.1
      rw [hhandle] at houtcome
      cases hpersist : persistTelegramInboundEvent db.inbound delivery.2.inboundId
          (delivery.1.messageChatId.bind fun _ => some tenantId) delivery.2.botKey delivery.1 with
      | integrityError => rw [hpersist] at houtcome; cases houtcome
      | duplicate existing => rw [hpersist] at houtcome; cases houtcome
      | persisted inbound =>
        rw [hpersist] at houtcome
        cases sent with
        | true => cases houtcome
        | false => exact ⟨hlogin, (persisted_iff _).mp ⟨inbound, hpersist⟩, hsent.mp rfl, hplan⟩
  · intro hrefusing
    obtain ⟨sent, welcomeSent, hsent, -, hhandle⟩ := handle_without_plan hblocked hfrom hrefusing.login hrefusing.plan
    obtain ⟨inbound, hpersist⟩ := (persisted_iff (delivery.1.messageChatId.bind fun _ => some tenantId)).mpr hrefusing.new
    rw [Refused, hhandle, hpersist, hsent.mpr hrefusing.welcome]
    exact ⟨rfl, rfl⟩

/-- What stays of a blocked tenant after such an update. -/
theorem blocked_handle (hblocked : Blocked db tenantId) (hfrom : FromUser H db tenantId userId delivery)
    (hrefusing : Refusing db tenantId userId delivery) : Blocked (handleTelegramUpdate H db delivery).1 tenantId := by
  obtain ⟨sent, welcomeSent, -, -, hhandle⟩ := handle_without_plan hblocked hfrom hrefusing.login hrefusing.plan
  obtain ⟨inbound, hpersist⟩ := (persisted_iff (delivery.1.messageChatId.bind fun _ => some tenantId)).mpr hrefusing.new
  rw [hhandle, hpersist]
  exact ⟨hblocked.tenant, hblocked.suspended, hblocked.noneActive⟩

/-- **An update of a deleted tenant** is dropped, and nothing is written. -/
theorem handle_deleted (hfrom : FromUser H db tenantId userId delivery) {tenant : TenantAccount}
    (htenant : db.accounts.tenants.get? tenantId = some tenant) (hdeleted : tenant.deletedAt ≠ none) :
    handleTelegramUpdate H db delivery = (db, if delivery.2.adminLogin then .adminLogin else .dropped) := by
  have hresolves : resolvesToDeleted H db.accounts delivery.1 delivery.2.botKey = true := by
    rw [resolvesToDeleted_eq hfrom htenant]
    exact Option.isSome_iff_ne_none.mpr hdeleted
  unfold handleTelegramUpdate
  dsimp only
  rw [hresolves]
  cases delivery.2.adminLogin <;> rfl

end Blocked

/-! ### Sequences of updates -/

/-- The updates of the users of a tenant, one after the other. -/
def tenantUpdates (H : AccountHashes) (tenantId : String) : Lts IngressDb Delivery where
  init _ := True
  step db delivery db' := (∃ userId, FromUser H db tenantId userId delivery) ∧ db' = (handleTelegramUpdate H db delivery).1

/-- The updates that are refused. -/
def refusingUpdates (H : AccountHashes) (tenantId : String) : Lts IngressDb Delivery :=
  (tenantUpdates H tenantId).guard fun db delivery =>
    ∀ userId, FromUser H db tenantId userId delivery → Refusing db tenantId userId delivery

/-- **Sequences of updates.** While the updates of a blocked tenant meet `Refusing`, it stays blocked, its subscriptions stay
as they were, and its next update is refused by the gate as suspended, with the subscriptions as they were, if and only if it
meets it too. After any updates of a deleted tenant everything is as it was. -/
theorem blocked_runs (H : AccountHashes) (tenantId : String) :
    (∀ db deliveries db', Blocked db tenantId → (refusingUpdates H tenantId).Run db deliveries db' →
      db'.subscriptionsOf tenantId = db.subscriptionsOf tenantId ∧ Blocked db' tenantId ∧
        ∀ userId delivery, FromUser H db' tenantId userId delivery →
          (Refused H db' tenantId delivery ↔ Refusing db' tenantId userId delivery)) ∧
    ∀ db deliveries db' tenant, db.accounts.tenants.get? tenantId = some tenant → tenant.deletedAt ≠ none →
      (tenantUpdates H tenantId).Run db deliveries db' →
        db' = db ∧ ∀ userId delivery, FromUser H db' tenantId userId delivery →
          handleTelegramUpdate H db' delivery = (db', if delivery.2.adminLogin then .adminLogin else .dropped) := by
  constructor
  · intro db deliveries db' hblocked hrun
    have hkept : db'.subscriptionsOf tenantId = db.subscriptionsOf tenantId ∧ Blocked db' tenantId := by
      refine hrun.keeps (P := fun db' => db'.subscriptionsOf tenantId = db.subscriptionsOf tenantId ∧ Blocked db' tenantId) ?_
        ⟨rfl, hblocked⟩
      rintro db₁ delivery db₂ ⟨hsame, hblocked₁⟩ ⟨⟨⟨userId, hfrom⟩, rfl⟩, hrefusing⟩
      exact ⟨((refused_iff hblocked₁ hfrom).mpr (hrefusing userId hfrom)).2.trans hsame,
        blocked_handle hblocked₁ hfrom (hrefusing userId hfrom)⟩
    exact ⟨hkept.1, hkept.2, fun userId delivery hfrom => refused_iff hkept.2 hfrom⟩
  · intro db deliveries db' tenant htenant hdeleted hrun
    have hsame : db' = db := by
      refine hrun.keeps (P := fun db' => db' = db) ?_ rfl
      rintro db₁ delivery db₂ rfl ⟨⟨userId, hfrom⟩, rfl⟩
      rw [handle_deleted hfrom htenant hdeleted]
    subst hsame
    exact ⟨rfl, fun userId delivery hfrom => handle_deleted hfrom htenant hdeleted⟩

/-! #### A tenant that was suspended -/

/-- A paid plan of the housewife skill. -/
def paidPlan : SubscriptionPlan where
  id := "plan_pro"
  planKey := "housewife_pro"
  featureKey := "housewife_assistant"
  priceRub := 990

/-- A user of an approved tenant whose paid subscription is suspended. -/
def suspendedDb (plans : Keyed SubscriptionPlan.id) : IngressDb where
  accounts :=
    { billing :=
        { plans
          subscriptions := ⟨[{ grantedSubscription none with planId := "plan_pro", status := .suspended }], List.nodup_singleton _⟩
          cycles := .empty
          orders := []
          items := [] }
      tenants := ⟨[⟨"tenant_1", some 0, none⟩], List.nodup_singleton _⟩
      workspaces := .empty
      users := ⟨⟨[{ id := "user_1", tenantId := "tenant_1", tgAccountHash := some "h7" }], List.nodup_singleton _⟩,
        List.nodup_singleton _⟩
      assistants := .empty
      features := .empty
      attempts := [] }
  inbound := .empty
  welcomeSent := [("tenant_1", "user_1")]

/-- Hashes that can be read. -/
def readableHashes : AccountHashes where
  hashTgAccount account := "h" ++ account
  hmacSignupSource source := "s" ++ source

/-- A message in the chat of the user. -/
def suspendedMessage : Delivery :=
  ({ updateId := .int 1, messageChatId := some "7", body := "" },
    { botKey := "sreda", now := 5, subId := "sub_2", inboundId := "in_1" })

theorem suspendedMessage_fromUser (plans : Keyed SubscriptionPlan.id) :
    FromUser readableHashes (suspendedDb plans) "tenant_1" "user_1" suspendedMessage :=
  ⟨"7", ⟨"tenant_1", "user_1", some 0⟩, rfl, by decide, rfl, rfl, rfl⟩

theorem blocked_runs_refused : Refused readableHashes (suspendedDb ⟨[paidPlan], by decide⟩) "tenant_1" suspendedMessage := by
  have hblocked : Blocked (suspendedDb ⟨[paidPlan], by decide⟩) "tenant_1" :=
    ⟨⟨_, rfl, by decide, rfl⟩, ⟨_, List.mem_singleton_self _, rfl⟩, by decide⟩
  refine (((blocked_runs readableHashes "tenant_1").1 _ [] _ hblocked (.nil _)).2.2 "user_1" _ (suspendedMessage_fromUser _)).mpr ?_
  exact ⟨rfl, ⟨(fun _ h => by cases h), fun _ _ _ h => by cases h⟩, fun _ _ => List.mem_singleton_self _, by decide⟩

/-- **A turn of a suspended tenant**: the repair grants the free subscription, and the gate lets the update pass. -/
theorem turn_of_suspended :
    Blocked (suspendedDb ⟨[paidPlan, sredaFree], by decide⟩) "tenant_1" ∧
      FromUser readableHashes (suspendedDb ⟨[paidPlan, sredaFree], by decide⟩) "tenant_1" "user_1" suspendedMessage ∧
      (handleTelegramUpdate readableHashes (suspendedDb ⟨[paidPlan, sredaFree], by decide⟩) suspendedMessage).2 = .turn ∧
      (handleTelegramUpdate readableHashes (suspendedDb ⟨[paidPlan, sredaFree], by decide⟩) suspendedMessage).1.subscriptionsOf
        "tenant_1" ≠ (suspendedDb ⟨[paidPlan, sredaFree], by decide⟩).subscriptionsOf "tenant_1" :=
  ⟨⟨⟨_, rfl, by decide, rfl⟩, ⟨_, List.mem_singleton_self _, rfl⟩, by decide⟩, suspendedMessage_fromUser _, by decide, by decide⟩

end Sreda.Workers
