import Sreda.Services.Entitlement

/-!
# Accounts and their free subscription

The tables of an account, and the transactions that fill them: `insert_only_bundle` (`db/repositories/seed.py`), the grant
of the free subscription to a new tenant and its repair for an old one (`services/onboarding.py`), and the flag of a
feature that `start_simple_subscription` and `cancel_simple_subscription` keep beside the subscription.

A transaction that raises writes nothing. The hash of a Telegram account is a function; names and display names are left
out.
-/

namespace Sreda.Services

open Sreda.Lib

/-! ### The tables -/

/-- `Tenant`, with its approval. -/
structure TenantAccount where
  id : String
  approvedAt : Option ℤ
  deletedAt : Option ℤ := none
  deriving DecidableEq

/-- `Workspace`. -/
structure Workspace where
  id : String
  tenantId : String
  deriving DecidableEq

/-- `User`. -/
structure UserAccount where
  id : String
  tenantId : String
  tgAccountHash : Option String := none
  maxAccountId : Option String := none
  maxChatId : Option String := none
  lastBotKey : Option String := none
  deriving DecidableEq

/-- `Assistant`. -/
structure Assistant where
  id : String
  tenantId : String
  workspaceId : String
  deriving DecidableEq

/-- `TenantFeature`; its id is made of the tenant and the feature. -/
structure TenantFeature where
  tenantId : String
  featureKey : String
  enabled : Bool
  deriving DecidableEq

def TenantFeature.key (feature : TenantFeature) : String × String := (feature.tenantId, feature.featureKey)

/-- `SignupAttempt`. -/
structure SignupAttempt where
  channel : String
  sourceIdHash : String
  attemptedAt : ℤ
  deriving DecidableEq

/-- The tables. A Telegram account is that of one user only, an account of MAX is not kept so by the table. -/
structure AccountDb where
  billing : BillingStore
  tenants : Keyed TenantAccount.id
  workspaces : Keyed Workspace.id
  users : Indexed UserAccount.id UserAccount.tgAccountHash
  assistants : Keyed Assistant.id
  features : Keyed TenantFeature.key
  attempts : List SignupAttempt

/-- The tenant is there. -/
def AccountDb.HasTenant (db : AccountDb) (tenantId : String) : Prop := ∃ tenant ∈ db.tenants.rows, tenant.id = tenantId

/-- What a transaction raises. -/
inductive AccountError where
  | billing (error : BillingError)
  /-- `RuntimeError`: there is no plan `sreda_free`. -/
  | freePlanMissing
  deriving DecidableEq

/-! ### The bundle -/

/-- The ids of a bundle, and the account of its user. -/
structure Bundle where
  tenantId : String
  workspaceId : String
  userId : String
  assistantId : String
  tgAccountHash : Option String := none
  maxAccountId : Option String := none
  maxChatId : Option String := none
  lastBotKey : Option String := none
  deriving DecidableEq

def Bundle.user (bundle : Bundle) : UserAccount where
  id := bundle.userId
  tenantId := bundle.tenantId
  tgAccountHash := bundle.tgAccountHash
  maxAccountId := bundle.maxAccountId
  maxChatId := bundle.maxChatId
  lastBotKey := bundle.lastBotKey

/-- The feature that every bundle has. -/
def coreAssistant : String := "core_assistant"

/-- `insert_only_bundle`, all in one savepoint: `none` when one of the rows violates a unique constraint. -/
def insertOnlyBundle (db : AccountDb) (bundle : Bundle) (now : ℤ) : Option AccountDb := do
  let tenants ← db.tenants.insert? { id := bundle.tenantId, approvedAt := some now }
  let workspaces ← db.workspaces.insert? ⟨bundle.workspaceId, bundle.tenantId⟩
  let users ← (db.users.rows.insert? bundle.user).bind Indexed.commit?
  let assistants ← db.assistants.insert? ⟨bundle.assistantId, bundle.tenantId, bundle.workspaceId⟩
  let features ← db.features.insert? ⟨bundle.tenantId, coreAssistant, true⟩
  return { db with tenants, workspaces, users, assistants, features }

/-- The keys of the rows of a bundle are free. -/
structure AccountDb.Free (db : AccountDb) (bundle : Bundle) : Prop where
  tenant : ∀ tenant ∈ db.tenants.rows, tenant.id ≠ bundle.tenantId
  workspace : ∀ workspace ∈ db.workspaces.rows, workspace.id ≠ bundle.workspaceId
  user : ∀ user ∈ db.users.rows.rows,
    user.id ≠ bundle.userId ∧ (bundle.tgAccountHash ≠ none → user.tgAccountHash ≠ bundle.tgAccountHash)
  assistant : ∀ assistant ∈ db.assistants.rows, assistant.id ≠ bundle.assistantId
  feature : ∀ feature ∈ db.features.rows, feature.key ≠ (bundle.tenantId, coreAssistant)

/-- The rows of a bundle are there, and nothing else has changed. -/
structure AccountDb.Added (db db' : AccountDb) (bundle : Bundle) (now : ℤ) : Prop where
  tenants : db'.tenants.rows = db.tenants.rows ++ [{ id := bundle.tenantId, approvedAt := some now }]
  workspaces : db'.workspaces.rows = db.workspaces.rows ++ [⟨bundle.workspaceId, bundle.tenantId⟩]
  users : db'.users.rows.rows = db.users.rows.rows ++ [bundle.user]
  assistants : db'.assistants.rows = db.assistants.rows ++ [⟨bundle.assistantId, bundle.tenantId, bundle.workspaceId⟩]
  features : db'.features.rows = db.features.rows ++ [⟨bundle.tenantId, coreAssistant, true⟩]
  billing : db'.billing = db.billing
  attempts : db'.attempts = db.attempts

section Insert

variable {db db' : AccountDb} {bundle : Bundle} {now : ℤ}

/-- **What a bundle inserts**: its five rows, whose keys were free. -/
theorem insertOnlyBundle_spec (h : insertOnlyBundle db bundle now = some db') : db.Free bundle ∧ db.Added db' bundle now := by
  simp only [insertOnlyBundle, Option.bind_eq_bind, Option.bind_eq_some_iff, Option.pure_def, Option.some.injEq] at h
  obtain ⟨tenants, htenants, workspaces, hworkspaces, users, ⟨rows, hrows, husers⟩, assistants, hassistants, features,
    hfeatures, rfl⟩ := h
  have hcommit : users.rows = rows := Indexed.rows_commit? husers
  have hunique := (Indexed.nodup_insert_iff hrows).mp (hcommit ▸ users.unique)
  refine ⟨⟨Keyed.fresh_of_insert? htenants, Keyed.fresh_of_insert? hworkspaces, fun user huser => ?_,
    Keyed.fresh_of_insert? hassistants, Keyed.fresh_of_insert? hfeatures⟩, ⟨Keyed.rows_insert? htenants,
    Keyed.rows_insert? hworkspaces, ?_, Keyed.rows_insert? hassistants, Keyed.rows_insert? hfeatures, rfl, rfl⟩⟩
  · refine ⟨Keyed.fresh_of_insert? hrows user huser, fun hsome heq => ?_⟩
    obtain ⟨hash, hhash⟩ := Option.ne_none_iff_exists'.mp hsome
    exact hunique hash hhash user huser (heq.trans hhash)
  · rw [hcommit]
    exact Keyed.rows_insert? hrows

/-- The rows of a bundle are inserted if and only if their keys are free. -/
theorem exists_insertOnlyBundle : (∃ db', insertOnlyBundle db bundle now = some db') ↔ db.Free bundle := by
  constructor
  · rintro ⟨db', h⟩
    exact (insertOnlyBundle_spec h).1
  · intro hfree
    obtain ⟨tenants, htenants⟩ := Keyed.exists_insert? (a := (⟨bundle.tenantId, some now, none⟩ : TenantAccount)) hfree.tenant
    obtain ⟨workspaces, hworkspaces⟩ := Keyed.exists_insert? (a := (⟨bundle.workspaceId, bundle.tenantId⟩ : Workspace)) hfree.workspace
    obtain ⟨rows, hrows⟩ := Keyed.exists_insert? (a := bundle.user) fun user huser => (hfree.user user huser).1
    obtain ⟨assistants, hassistants⟩ :=
      Keyed.exists_insert? (a := (⟨bundle.assistantId, bundle.tenantId, bundle.workspaceId⟩ : Assistant)) hfree.assistant
    obtain ⟨features, hfeatures⟩ := Keyed.exists_insert? (a := (⟨bundle.tenantId, coreAssistant, true⟩ : TenantFeature)) hfree.feature
    have hunique : (rows.rows.filterMap UserAccount.tgAccountHash).Nodup := by
      refine (Indexed.nodup_insert_iff hrows).mpr fun hash hhash user huser heq => ?_
      have hbundle : bundle.tgAccountHash = some hash := hhash
      exact (hfree.user user huser).2 (by rw [hbundle]; simp) (heq.trans hbundle.symm)
    refine ⟨{ db with tenants, workspaces, users := ⟨rows, hunique⟩, assistants, features }, ?_⟩
    simp only [insertOnlyBundle, htenants, hworkspaces, hrows, hassistants, hfeatures, Option.bind_eq_bind, Option.bind_some,
      Indexed.commit?, dif_pos hunique, Option.pure_def]

end Insert

/-! ### The free subscription -/

/-- The plan `sreda_free`. -/
def BillingStore.freePlan (s : BillingStore) : Option SubscriptionPlan := s.getPlanOptional "sreda_free"

/-- The subscription that is granted: without an end date. -/
def freeTierSubscription (plan : SubscriptionPlan) (tenantId : String) (now : ℤ) (subId : String) : TenantSubscription where
  id := subId
  tenantId := tenantId
  planId := plan.id
  featureKey := plan.featureKey
  status := .active
  startsAt := some now
  nextCycleQuantity := some 1
  updatedAt := now

/-- A new row of the table of subscriptions. -/
def BillingStore.insertSubscription (s : BillingStore) (sub : TenantSubscription) : Except BillingError BillingStore :=
  match s.subscriptions.insert? sub with
  | none => .error .primaryKey
  | some subscriptions => if activePerFeature subscriptions.rows then .ok { s with subscriptions } else .error .activePerFeature

/-- The billing tables are written. -/
def AccountDb.withBilling (db : AccountDb) (billing : Except BillingError BillingStore) : Except AccountError AccountDb :=
  match billing with
  | .error e => .error (.billing e)
  | .ok billing => .ok { db with billing }

/-- `_grant_free_tier_insert_only`. -/
def grantFreeTierInsertOnly (db : AccountDb) (tenantId : String) (now : ℤ) (subId : String) : Except AccountError AccountDb :=
  match db.billing.freePlan with
  | none => .error .freePlanMissing
  | some plan => db.withBilling (db.billing.insertSubscription (freeTierSubscription plan tenantId now subId))

/-- The bundle with its grant, in one transaction; whether it was created. -/
def provisionBundle (db : AccountDb) (bundle : Bundle) (now : ℤ) (subId : String) : Except AccountError (AccountDb × Bool) :=
  match insertOnlyBundle db bundle now with
  | none => .ok (db, false)
  | some db => do return (← grantFreeTierInsertOnly db bundle.tenantId now subId, true)

section Grant

variable {db db' : AccountDb} {s s' : BillingStore} {sub : TenantSubscription}

theorem insertSubscription_spec (h : s.insertSubscription sub = .ok s') :
    s'.plans = s.plans ∧ s'.subscriptions.rows = s.subscriptions.rows ++ [sub] ∧ activePerFeature s'.subscriptions.rows = true := by
  unfold BillingStore.insertSubscription at h
  split at h
  · cases h
  next subscriptions hinsert =>
    split at h
    next hindex =>
      cases h
      exact ⟨rfl, Keyed.rows_insert? hinsert, hindex⟩
    · cases h

theorem withBilling_ok {billing : Except BillingError BillingStore} (h : db.withBilling billing = .ok db') :
    ∃ s, billing = .ok s ∧ db' = { db with billing := s } := by
  unfold AccountDb.withBilling at h
  split at h
  · cases h
  next s =>
    cases h
    exact ⟨s, rfl, rfl⟩

/-- **A provisioning**: nothing, when a row of the bundle was there; else the bundle and its subscription. -/
theorem provisionBundle_cases {bundle : Bundle} {now : ℤ} {subId : String} {created : Bool}
    (h : provisionBundle db bundle now subId = .ok (db', created)) :
    (created = false ∧ db' = db) ∨
      (created = true ∧ db.Free bundle ∧ ∃ db₁ plan billing, db.Added db₁ bundle now ∧ db.billing.freePlan = some plan ∧
        db.billing.insertSubscription (freeTierSubscription plan bundle.tenantId now subId) = .ok billing ∧
        db' = { db₁ with billing }) := by
  unfold provisionBundle at h
  split at h
  · cases h
    exact .inl ⟨rfl, rfl⟩
  next db₁ hbundle =>
    obtain ⟨hfree, hadded⟩ := insertOnlyBundle_spec hbundle
    cases hgrant : grantFreeTierInsertOnly db₁ bundle.tenantId now subId with
    | error e =>
      rw [hgrant] at h
      cases h
    | ok db₂ =>
      rw [hgrant] at h
      cases h
      unfold grantFreeTierInsertOnly at hgrant
      split at hgrant
      · cases hgrant
      next plan hplan =>
        obtain ⟨billing, hbilling, rfl⟩ := withBilling_ok hgrant
        rw [hadded.billing] at hbilling hplan
        exact .inr ⟨rfl, hfree, db₁, plan, billing, hadded, hplan, hbilling, rfl⟩

end Grant

/-- The tenant has a subscription of the housewife skill with status active. -/
def BillingStore.hasActiveSub (s : BillingStore) (tenantId : String) : Bool :=
  s.subscriptions.rows.any fun sub => sub.tenantId = tenantId && sub.featureKey = housewifeFeatureKey && sub.status = .active

/-- The tenant is approved, if it was not. -/
def AccountDb.approve (db : AccountDb) (tenantId : String) (now : ℤ) : AccountDb :=
  { db with
    tenants := db.tenants.update (fun tenant => tenant.id = tenantId && tenant.approvedAt.isNone)
      (fun tenant => { tenant with approvedAt := some now }) fun _ => rfl }

/-- `_auto_approve_and_grant_free_tier`. -/
def autoApproveAndGrantFreeTier (db : AccountDb) (tenantId : String) (now : ℤ) (subId : String) : Except AccountError AccountDb :=
  match db.billing.freePlan with
  | none => .ok (db.approve tenantId now)
  | some plan =>
    if db.billing.hasActiveSub tenantId then .ok (db.approve tenantId now)
    else (db.approve tenantId now).withBilling (db.billing.insertSubscription (freeTierSubscription plan tenantId now subId))

/-! ### The flag of a feature -/

/-- `_ensure_feature_enabled`. -/
def ensureFeatureEnabled (features : Keyed TenantFeature.key) (tenantId featureKey : String) (enabled : Bool) :
    Keyed TenantFeature.key :=
  match features.insert? ⟨tenantId, featureKey, enabled⟩ with
  | some features => features
  | none =>
    features.update (fun feature => feature.key = (tenantId, featureKey)) (fun feature => { feature with enabled }) fun _ => rfl

/-- `start_simple_subscription`, with the flag. -/
def startSubscription (db : AccountDb) (tenantId planKey : String) (now : ℤ) (subId : String) :
    Except AccountError (AccountDb × SubscriptionResult) :=
  match startSimpleSubscription db.billing tenantId planKey now subId with
  | .error e => .error (.billing e)
  | .ok (billing, result) =>
    match db.billing.getPlanOptional planKey, result with
    | some plan, .connected =>
      .ok ({ db with billing, features := ensureFeatureEnabled db.features tenantId plan.featureKey true }, result)
    | _, _ => .ok ({ db with billing }, result)

/-- `cancel_simple_subscription`, with the flag. -/
def cancelSubscription (db : AccountDb) (tenantId planKey : String) (now : ℤ) :
    Except AccountError (AccountDb × SubscriptionResult) :=
  match cancelSimpleSubscription db.billing tenantId planKey now with
  | .error e => .error (.billing e)
  | .ok (billing, result) =>
    match db.billing.getPlanOptional planKey, result with
    | some plan, .disconnected =>
      .ok ({ db with billing, features := ensureFeatureEnabled db.features tenantId plan.featureKey false }, result)
    | _, _ => .ok ({ db with billing }, result)

/-- `renew_cycle`, which leaves the flags. -/
def renewSubscriptions (db : AccountDb) (tenantId : String) (now : ℤ) (orderId : String) :
    Except AccountError (AccountDb × RenewalResult) :=
  match renewCycle db.billing tenantId now orderId with
  | .error e => .error (.billing e)
  | .ok (billing, result) => .ok ({ db with billing }, result)

end Sreda.Services
