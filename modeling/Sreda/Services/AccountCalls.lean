import Sreda.Services.ActiveSubscriptions

/-!
# The calls that change subscriptions

The grant to a new tenant, the repair of an old one, a start, a cancellation and a renewal, each one a transaction, in any
order. A call clashes when it fails with a uniqueness violation or with more rows than one; its own refusals do not count.

`AccountDb.Fits` says, of the rows before a call, when the call neither clashes nor leaves an active subscription without
the flag of its feature.

## What is proved

* a call keeps what is asked of it if and only if it fits (`keeps_exec_iff`), and so do all calls of a run of such calls
  (`fitting_runs`). `paid_after_free` is a start that does not.
-/

namespace Sreda.Services

open Sreda.Lib

/-! ### The calls -/

/-- A call. The times and the `uuid4` of new ids are given. -/
inductive AccountCall where
  | provision (bundle : Bundle) (now : ℤ) (subId : String)
  | repair (tenantId : String) (now : ℤ) (subId : String)
  | start (tenantId planKey : String) (now : ℤ) (subId : String)
  | cancel (tenantId planKey : String) (now : ℤ)
  | renew (tenantId : String) (now : ℤ) (orderId : String)

/-- A call, as one transaction. -/
def AccountDb.exec (db : AccountDb) : AccountCall → Except AccountError AccountDb
  | .provision bundle now subId => (provisionBundle db bundle now subId).map Prod.fst
  | .repair tenantId now subId => autoApproveAndGrantFreeTier db tenantId now subId
  | .start tenantId planKey now subId => (startSubscription db tenantId planKey now subId).map Prod.fst
  | .cancel tenantId planKey now => (cancelSubscription db tenantId planKey now).map Prod.fst
  | .renew tenantId now orderId => (renewSubscriptions db tenantId now orderId).map Prod.fst

/-- A uniqueness violation or a multiple-rows error. -/
def AccountError.IsClash : AccountError → Prop
  | .billing .activePerFeature | .billing .primaryKey | .billing .multipleResults => True
  | .billing (.deprecatedPlan _) | .freePlanMissing => False

/-- The flag of the feature is enabled. -/
def AccountDb.Enabled (db : AccountDb) (tenantId featureKey : String) : Prop :=
  ∃ feature ∈ db.features.rows, feature.key = (tenantId, featureKey) ∧ feature.enabled = true

/-- The feature of every active subscription is enabled. -/
def AccountDb.Flags (db : AccountDb) : Prop :=
  ∀ sub ∈ db.billing.subscriptions.rows, sub.status = .active → db.Enabled sub.tenantId sub.featureKey

/-- What is asked of a call: no clash, and the flags after it. -/
def Faultless : Except AccountError AccountDb → Prop
  | .error e => ¬ e.IsClash
  | .ok db => db.Flags

/-- What the constraints of the tables keep, and the listener that copies the feature of a plan. -/
structure AccountDb.Consistent (db : AccountDb) : Prop where
  index : activePerFeature db.billing.subscriptions.rows = true
  synced : db.billing.Synced
  tenants : ∀ sub ∈ db.billing.subscriptions.rows, db.HasTenant sub.tenantId
  featureTenants : ∀ feature ∈ db.features.rows, db.HasTenant feature.tenantId

/-- A new id is not taken, and a call for an old tenant is for one that is there. -/
def AccountDb.Legal (db : AccountDb) : AccountCall → Prop
  | .provision _ _ subId => ∀ sub ∈ db.billing.subscriptions.rows, sub.id ≠ subId
  | .repair tenantId _ subId | .start tenantId _ _ subId =>
    (∀ sub ∈ db.billing.subscriptions.rows, sub.id ≠ subId) ∧ db.HasTenant tenantId
  | .cancel tenantId _ _ | .renew tenantId _ _ => db.HasTenant tenantId

/-! ### When a call fits -/

/-- An active subscription of the tenant has the feature. -/
def BillingStore.ActiveOf (s : BillingStore) (tenantId featureKey : String) : Prop :=
  ∃ sub ∈ s.subscriptions.rows, sub.status = .active ∧ sub.tenantId = tenantId ∧ sub.featureKey = featureKey

/-- **When a call fits**, read off the rows before it.

* a grant: the free plan is one of the feature that the bundle enables;
* a repair that grants: nothing of the free plan's feature is active, and the feature is enabled;
* a start: the tenant has at most one subscription to the plan, and either that one is active for the billing service, or
  no subscription of the same feature is active but to this plan;
* a cancellation: the tenant has at most one subscription to the plan, and nothing else of the feature is active;
* a renewal: what it charges never becomes active beside another one of its feature, and is of enabled features. -/
def AccountDb.Fits (db : AccountDb) : AccountCall → Prop
  | .provision bundle _ _ => db.Free bundle → ∀ plan, db.billing.freePlan = some plan → plan.featureKey = coreAssistant
  | .repair tenantId _ _ =>
    ∀ plan, db.billing.freePlan = some plan → ¬ db.billing.ActiveOf tenantId housewifeFeatureKey →
      ¬ db.billing.ActiveOf tenantId plan.featureKey ∧ db.Enabled tenantId plan.featureKey
  | .start tenantId planKey now _ =>
    ∀ plan, db.billing.getPlanOptional planKey = some plan → plan.isActive = true → isFeatureDisabled plan.featureKey = false →
      (db.billing.planRows tenantId plan).length ≤ 1 ∧
        ((∃ sub ∈ db.billing.planRows tenantId plan, isSubscriptionActive sub now = true) ∨
          ∀ sub ∈ db.billing.subscriptions.rows, sub.status = .active → sub.tenantId = tenantId → sub.featureKey = plan.featureKey →
            sub.planId = plan.id)
  | .cancel tenantId planKey _ =>
    ∀ plan, db.billing.getPlanOptional planKey = some plan → isFeatureDisabled plan.featureKey = false →
      (db.billing.planRows tenantId plan).length ≤ 1 ∧
        ∀ sub ∈ db.billing.planRows tenantId plan, 0 < sub.quantity →
          ∀ other ∈ db.billing.subscriptions.rows, other.status = .active → other.tenantId = tenantId →
            other.featureKey = plan.featureKey → other.id = sub.id
  | .renew tenantId _ _ =>
    db.billing.getCycle tenantId ≠ none →
      (∀ a ∈ db.billing.subscriptions.rows, ∀ b ∈ db.billing.subscriptions.rows, SameFeature a b → a.id ≠ b.id →
        ¬ db.billing.RenewalClash tenantId a b) ∧
        ∀ sub ∈ db.billing.subscriptions.rows, db.billing.Charged tenantId sub → db.Enabled sub.tenantId sub.featureKey

/-! ### The flag of a feature -/

variable {billing : BillingStore} {db' : AccountDb} {sub : TenantSubscription} {r : SubscriptionResult}

section Calls

variable {db : AccountDb} {tenantId featureKey : String} {now : ℤ} {subId : String}

theorem mem_ensureFeatureEnabled {features : Keyed TenantFeature.key} {enabled : Bool} {feature : TenantFeature} :
    feature ∈ (ensureFeatureEnabled features tenantId featureKey enabled).rows ↔
      feature = ⟨tenantId, featureKey, enabled⟩ ∨ feature ∈ features.rows ∧ feature.key ≠ (tenantId, featureKey) := by
  unfold ensureFeatureEnabled
  cases hinsert : features.insert? ⟨tenantId, featureKey, enabled⟩ with
  | some features' =>
    have hfresh : ∀ feature ∈ features.rows, feature.key ≠ (tenantId, featureKey) := Keyed.fresh_of_insert? hinsert
    simp only [Keyed.rows_insert? hinsert, List.mem_append, List.mem_singleton]
    constructor
    · exact fun h => h.symm.imp_right fun hold => ⟨hold, hfresh feature hold⟩
    · exact fun h => h.symm.imp_left And.left
  | none =>
    obtain ⟨old, hold, hkey⟩ := Keyed.insert?_eq_none.mp hinsert
    have hget : features.get? (tenantId, featureKey) = some old := Keyed.get?_eq_some.mpr ⟨hold, hkey⟩
    have hset : { old with enabled } = (⟨tenantId, featureKey, enabled⟩ : TenantFeature) := by
      obtain ⟨htenant, hfeature⟩ := Prod.mk.inj hkey
      exact TenantFeature.mk.injEq .. ▸ ⟨htenant, hfeature, rfl⟩
    have hkeys : ∀ feature : TenantFeature, TenantFeature.key { feature with enabled } = feature.key := fun _ => rfl
    exact (Keyed.mem_update_row hkeys hget).trans (by rw [hset])

/-- What is enabled after a flag is set: the feature, if it is set so, and what was enabled of the others. -/
theorem enabled_ensureFeatureEnabled {enabled : Bool} {tenantId' featureKey' : String} :
    AccountDb.Enabled { db with billing, features := ensureFeatureEnabled db.features tenantId featureKey enabled } tenantId' featureKey' ↔
      if (tenantId', featureKey') = (tenantId, featureKey) then enabled = true else db.Enabled tenantId' featureKey' := by
  simp only [AccountDb.Enabled, mem_ensureFeatureEnabled]
  split
  next hsame =>
    constructor
    · rintro ⟨feature, rfl | ⟨-, hne⟩, hkey, henabled⟩
      · exact henabled
      · exact absurd (hkey.trans hsame) hne
    · exact fun henabled => ⟨_, .inl rfl, hsame.symm, henabled⟩
  next hne =>
    constructor
    · rintro ⟨feature, rfl | ⟨hfeature, -⟩, hkey, henabled⟩
      · exact absurd hkey.symm hne
      · exact ⟨feature, hfeature, hkey, henabled⟩
    · rintro ⟨feature, hfeature, hkey, henabled⟩
      exact ⟨feature, .inr ⟨hfeature, fun h => hne (hkey.symm.trans h)⟩, hkey, henabled⟩

/-! ### The grants -/

/-- **A grant**: an active subscription with a new id. -/
theorem keeps_insertSubscription (db : AccountDb) (sub : TenantSubscription)
    (hfresh : ∀ other ∈ db.billing.subscriptions.rows, other.id ≠ sub.id) (hactive : sub.status = .active) (hindex : activePerFeature db.billing.subscriptions.rows = true) (hflags : db.Flags) :
    Faultless (db.withBilling (db.billing.insertSubscription sub)) ↔
      ¬ db.billing.ActiveOf sub.tenantId sub.featureKey ∧ db.Enabled sub.tenantId sub.featureKey := by
  obtain ⟨subscriptions, hinsert⟩ := Keyed.exists_insert? hfresh
  have hindex' := activePerFeature_insert? hinsert hactive hindex
  have hclash : activePerFeature subscriptions.rows = true ↔ ¬ db.billing.ActiveOf sub.tenantId sub.featureKey := by
    rw [hindex']
    exact ⟨fun h ⟨other, hother, hstatus, hsame⟩ => h other hother hstatus hsame,
      fun h other hother hstatus hsame => h ⟨other, hother, hstatus, hsame⟩⟩
  rw [← hclash]
  simp only [BillingStore.insertSubscription, hinsert]
  split
  next htaken =>
    rw [and_iff_right htaken]
    show AccountDb.Flags _ ↔ _
    simp only [AccountDb.Flags, Keyed.rows_insert? hinsert, List.mem_append, List.mem_singleton]
    constructor
    · exact fun h => h sub (.inr rfl) hactive
    · rintro henabled other (hother | rfl) hstatus
      · exact hflags other hother hstatus
      · exact henabled
  next htaken => exact iff_of_false (fun h => h trivial) fun h => htaken h.1

theorem enabled_added {bundle : Bundle} (h : db.Added db' bundle now) :
    db'.Enabled tenantId featureKey ↔ db.Enabled tenantId featureKey ∨ (bundle.tenantId = tenantId ∧ coreAssistant = featureKey) := by
  simp only [AccountDb.Enabled, h.features, List.mem_append, List.mem_singleton]
  constructor
  · rintro ⟨feature, hold | rfl, hkey, henabled⟩
    · exact .inl ⟨feature, hold, hkey, henabled⟩
    · exact .inr (Prod.mk.inj hkey)
  · rintro (⟨feature, hold, hrest⟩ | ⟨rfl, rfl⟩)
    · exact ⟨feature, .inl hold, hrest⟩
    · exact ⟨_, .inr rfl, rfl, rfl⟩

/-- **The grant to a new tenant**, whose rows name nothing that is there. -/
theorem keeps_provision {bundle : Bundle} (hdb : db.Consistent) (hflags : db.Flags)
    (hfresh : ∀ sub ∈ db.billing.subscriptions.rows, sub.id ≠ subId) :
    Faultless (db.exec (.provision bundle now subId)) ↔ db.Fits (.provision bundle now subId) := by
  show Faultless ((provisionBundle db bundle now subId).map Prod.fst) ↔ (db.Free bundle → _)
  unfold provisionBundle
  cases hbundle : insertOnlyBundle db bundle now with
  | none =>
    refine iff_of_true hflags fun hfree => ?_
    obtain ⟨db₁, hsome⟩ : ∃ db₁, insertOnlyBundle db bundle now = some db₁ := exists_insertOnlyBundle.mpr hfree
    rw [hbundle] at hsome
    cases hsome
  | some db₁ =>
    obtain ⟨hfree, hadded⟩ := insertOnlyBundle_spec hbundle
    rw [forall_prop_of_true hfree]
    dsimp only [grantFreeTierInsertOnly]
    rw [show db₁.billing.freePlan = db.billing.freePlan by rw [hadded.billing]]
    cases hplan : db.billing.freePlan with
    | none => exact iff_of_true id fun plan h => by cases h
    | some plan =>
      have hnone : ∀ sub ∈ db.billing.subscriptions.rows, sub.tenantId ≠ bundle.tenantId := by
        intro sub hsub heq
        obtain ⟨tenant, htenant, hid⟩ := hdb.tenants sub hsub
        exact hfree.tenant tenant htenant (hid.trans heq)
      have hflags₁ : db₁.Flags := by
        intro sub hsub hactive
        rw [hadded.billing] at hsub
        exact (enabled_added hadded).mpr (.inl (hflags sub hsub hactive))
      have hgrant := keeps_insertSubscription db₁ (freeTierSubscription plan bundle.tenantId now subId)
        (by rwa [hadded.billing]) rfl (by rw [hadded.billing]; exact hdb.index) hflags₁
      have hkeeps : ∀ r : Except AccountError AccountDb,
          Faultless ((do return (← r, true) : Except AccountError (AccountDb × Bool)).map Prod.fst) ↔ Faultless r := by
        rintro (_ | _) <;> exact Iff.rfl
      rw [hkeeps, hgrant, enabled_added hadded]
      constructor
      · rintro ⟨-, ⟨feature, hfeature, hkey, -⟩ | ⟨-, hcore⟩⟩ _ ⟨⟩
        · obtain ⟨tenant, htenant, hid⟩ := hdb.featureTenants feature hfeature
          exact absurd (hid.trans (Prod.mk.inj hkey).1) (hfree.tenant tenant htenant)
        · exact hcore.symm
      · intro hcore
        refine ⟨?_, .inr ⟨rfl, (hcore plan rfl).symm⟩⟩
        rintro ⟨sub, hsub, -, htenant, -⟩
        rw [hadded.billing] at hsub
        exact hnone sub hsub htenant

/-- **The repair of an old tenant**. -/
theorem keeps_repair (hdb : db.Consistent) (hflags : db.Flags) (hfresh : ∀ sub ∈ db.billing.subscriptions.rows, sub.id ≠ subId) :
    Faultless (db.exec (.repair tenantId now subId)) ↔ db.Fits (.repair tenantId now subId) := by
  have happrove : (db.approve tenantId now).Flags ↔ db.Flags := Iff.rfl
  have hhas : db.billing.hasActiveSub tenantId = true ↔ db.billing.ActiveOf tenantId housewifeFeatureKey := by
    simp only [BillingStore.hasActiveSub, BillingStore.ActiveOf, List.any_eq_true, Bool.and_eq_true, decide_eq_true_eq]
    exact exists_congr fun sub => and_congr_right fun _ => ⟨fun h => ⟨h.2, h.1⟩, fun h => ⟨h.2, h.1⟩⟩
  show Faultless (autoApproveAndGrantFreeTier db tenantId now subId) ↔ _
  unfold autoApproveAndGrantFreeTier AccountDb.Fits
  cases hplan : db.billing.freePlan with
  | none => exact iff_of_true (happrove.mpr hflags) fun plan h => by cases h
  | some plan =>
    dsimp only
    split
    next hactive => exact iff_of_true (happrove.mpr hflags) fun _ _ hnone => absurd (hhas.mp hactive) hnone
    next hnone =>
      refine (keeps_insertSubscription (db.approve tenantId now) (freeTierSubscription plan tenantId now subId) hfresh rfl hdb.index
        hflags).trans ?_
      constructor
      · rintro h _ ⟨⟩ -
        exact h
      · exact fun h => h plan rfl fun hactive => hnone (hhas.mpr hactive)

/-! ### Start, cancel and renew -/

theorem planRows_synced (hdb : db.Consistent) {planKey : String} {plan : SubscriptionPlan}
    (hplan : db.billing.getPlanOptional planKey = some plan)
    (hsub : sub ∈ db.billing.planRows tenantId plan) :
    sub ∈ db.billing.subscriptions.rows ∧ sub.tenantId = tenantId ∧ sub.planId = plan.id ∧ sub.featureKey = plan.featureKey := by
  obtain ⟨hmem, hrow⟩ := List.mem_filter.mp hsub
  obtain ⟨htenant, hid⟩ := of_decide_eq_true hrow
  have hget : db.billing.plans.get? sub.planId = some plan :=
    Keyed.get?_eq_some.mpr ⟨List.mem_of_find?_eq_some hplan, hid.symm⟩
  exact ⟨hmem, htenant, hid, hdb.synced sub hmem plan hget⟩

/-- The tenant has at most one subscription to the plan, or the lookup fails. -/
theorem getSubscriptionOptional_cases (s : BillingStore) (tenantId : String) (plan : SubscriptionPlan) :
    (s.planRows tenantId plan = [] ∧ s.getSubscriptionOptional tenantId plan = .ok none) ∨
      (∃ sub, s.planRows tenantId plan = [sub] ∧ s.getSubscriptionOptional tenantId plan = .ok (some sub)) ∨
        (¬ (s.planRows tenantId plan).length ≤ 1 ∧ s.getSubscriptionOptional tenantId plan = .error .multipleResults) := by
  unfold BillingStore.getSubscriptionOptional
  match h : s.planRows tenantId plan with
  | [] => exact .inl ⟨rfl, rfl⟩
  | [sub] => exact .inr (.inl ⟨sub, rfl, rfl⟩)
  | _ :: _ :: _ => exact .inr (.inr ⟨by simp, rfl⟩)

/-- The flags after a feature is enabled together with one of its subscriptions. -/
theorem flags_enable (hflags : db.Flags) (hrows : ∀ sub ∈ billing.subscriptions.rows,
      (sub.tenantId = tenantId ∧ sub.featureKey = featureKey) ∨ sub ∈ db.billing.subscriptions.rows) :
    ({ db with billing, features := ensureFeatureEnabled db.features tenantId featureKey true } : AccountDb).Flags := by
  intro sub hsub hactive
  rw [enabled_ensureFeatureEnabled]
  split
  · rfl
  next hne =>
    rcases hrows sub hsub with ⟨rfl, rfl⟩ | hold
    · exact absurd rfl hne
    · exact hflags sub hold hactive

section Start

variable {planKey : String} {plan : SubscriptionPlan}

/-- A start that is refused, or finds a subscription that is active, writes nothing. -/
theorem keeps_start_same (hflags : db.Flags) (hr : r ≠ .connected)
    (hcall : startSimpleSubscription db.billing tenantId planKey now subId = .ok (db.billing, r)) :
    Faultless (db.exec (.start tenantId planKey now subId)) := by
  have hsame : startSubscription db tenantId planKey now subId = .ok (db, r) := by
    simp only [startSubscription, hcall]
    cases db.billing.getPlanOptional planKey <;> cases r <;> first | rfl | exact absurd rfl hr
  rw [AccountDb.exec, hsame]
  exact hflags

theorem keeps_start_connected (hflags : db.Flags) (hplan : db.billing.getPlanOptional planKey = some plan)
    (hcall : startSimpleSubscription db.billing tenantId planKey now subId = .ok (billing, .connected))
    (hrows : ∀ sub ∈ billing.subscriptions.rows,
      (sub.tenantId = tenantId ∧ sub.featureKey = plan.featureKey) ∨ sub ∈ db.billing.subscriptions.rows) :
    Faultless (db.exec (.start tenantId planKey now subId)) := by
  simp only [AccountDb.exec, startSubscription, hcall, hplan]
  exact flags_enable hflags hrows

/-- A start that fails does so with a clash, but for a plan that is deprecated. -/
theorem keeps_start_error {e : BillingError} (hcall : startSimpleSubscription db.billing tenantId planKey now subId = .error e) :
    Faultless (db.exec (.start tenantId planKey now subId)) ↔ ¬ AccountError.IsClash (.billing e) := by
  simp only [AccountDb.exec, startSubscription, hcall]
  exact Iff.rfl

/-- The condition of a start, once the plan is found to be one that can be started. -/
def AccountDb.StartFits (db : AccountDb) (tenantId : String) (plan : SubscriptionPlan) (now : ℤ) : Prop :=
  (db.billing.planRows tenantId plan).length ≤ 1 ∧
    ((∃ sub ∈ db.billing.planRows tenantId plan, isSubscriptionActive sub now = true) ∨
      ∀ sub ∈ db.billing.subscriptions.rows, sub.status = .active → sub.tenantId = tenantId → sub.featureKey = plan.featureKey →
        sub.planId = plan.id)

/-- A start without a subscription to the plan makes one. -/
theorem keeps_start_new (hdb : db.Consistent) (hflags : db.Flags) (hfresh : ∀ sub ∈ db.billing.subscriptions.rows, sub.id ≠ subId)
    (hplan : db.billing.getPlanOptional planKey = some plan) (hactive : plan.isActive = true)
    (hdisabled : isFeatureDisabled plan.featureKey = false) (hrows : db.billing.planRows tenantId plan = [])
    (hget : db.billing.getSubscriptionOptional tenantId plan = .ok none) :
    Faultless (db.exec (.start tenantId planKey now subId)) ↔ db.StartFits tenantId plan now := by
  let new : TenantSubscription := { id := subId, tenantId, planId := plan.id, featureKey := plan.featureKey, updatedAt := now }
  obtain ⟨subscriptions, hinsert⟩ : ∃ subscriptions, db.billing.subscriptions.insert? (new.start plan now) = some subscriptions :=
    Keyed.exists_insert? hfresh
  have hindex := activePerFeature_insert? hinsert rfl hdb.index
  by_cases hkept : activePerFeature subscriptions.rows = true
  · have hcall : startSimpleSubscription db.billing tenantId planKey now subId =
        .ok ({ db.billing with subscriptions }, .connected) := by
      simp [startSimpleSubscription, hplan, hactive, hdisabled, hget, hinsert, hkept, new]
    refine iff_of_true (keeps_start_connected hflags hplan hcall ?_) ⟨by simp [hrows], .inr ?_⟩
    · intro sub hsub
      rw [Keyed.rows_insert? hinsert, List.mem_append, List.mem_singleton] at hsub
      rcases hsub with hold | rfl
      · exact .inr hold
      · exact .inl ⟨rfl, rfl⟩
    · exact fun sub hsub hstatus htenant hfeature => absurd ⟨htenant, hfeature⟩ (hindex.mp hkept sub hsub hstatus)
  · refine iff_of_false (fun h => (keeps_start_error (e := .activePerFeature) ?_).mp h trivial) fun ⟨_, h⟩ => hkept (hindex.mpr ?_)
    · simp [startSimpleSubscription, hplan, hactive, hdisabled, hget, hinsert, hkept, new]
    · rintro other hother hstatus ⟨htenant, hfeature⟩
      have hnone : other ∉ db.billing.planRows tenantId plan := by simp [hrows]
      rcases h with ⟨sub, hsub, -⟩ | h
      · simp [hrows] at hsub
      · exact hnone (List.mem_filter.mpr ⟨hother, decide_eq_true ⟨htenant, h other hother hstatus htenant hfeature⟩⟩)

/-- A start with a subscription to the plan makes it active. -/
theorem keeps_start_old (hdb : db.Consistent) (hflags : db.Flags)
    (hplan : db.billing.getPlanOptional planKey = some plan) (hactive : plan.isActive = true)
    (hdisabled : isFeatureDisabled plan.featureKey = false)
    (hrows : db.billing.planRows tenantId plan = [sub])
    (hget : db.billing.getSubscriptionOptional tenantId plan = .ok (some sub)) :
    Faultless (db.exec (.start tenantId planKey now subId)) ↔ db.StartFits tenantId plan now := by
  have hmem : sub ∈ db.billing.planRows tenantId plan := by simp [hrows]
  obtain ⟨hsub, htenant, hid, hfeature⟩ := planRows_synced hdb hplan hmem
  by_cases hrunning : isSubscriptionActive sub now = true
  · refine iff_of_true (keeps_start_same (r := .alreadyConnected) hflags (by decide) ?_)
      ⟨by simp [hrows], .inl ⟨sub, hmem, hrunning⟩⟩
    simp [startSimpleSubscription, hplan, hactive, hdisabled, hget, hrunning]
  have hset : ∀ row : TenantSubscription, (row.start plan now).id = row.id := fun _ => rfl
  let billing := db.billing.setSubscription sub (·.start plan now) hset
  have hindex : activePerFeature billing.subscriptions.rows = true ↔
      ∀ other ∈ db.billing.subscriptions.rows, other.status = .active → SameFeature other sub → other.id = sub.id :=
    activePerFeature_update hset hsub rfl ⟨rfl, rfl⟩ hdb.index
  by_cases hkept : activePerFeature billing.subscriptions.rows = true
  · have hcall : startSimpleSubscription db.billing tenantId planKey now subId = .ok (billing, .connected) := by
      simp only [billing] at hkept
      simp [startSimpleSubscription, hplan, hactive, hdisabled, hget, hrunning, hkept, billing]
    refine iff_of_true (keeps_start_connected hflags hplan hcall ?_) ⟨by simp [hrows], .inr ?_⟩
    · intro row hrow
      obtain ⟨old, hold, rfl⟩ := (Keyed.mem_update hset).mp hrow
      split
      next heq =>
        obtain rfl := db.billing.subscriptions.eq_of_key hold hsub (of_decide_eq_true heq)
        exact .inl ⟨htenant, hfeature⟩
      next => exact .inr hold
    · intro other hother hstatus htenant' hfeature'
      have hsame := hindex.mp hkept other hother hstatus ⟨htenant'.trans htenant.symm, hfeature'.trans hfeature.symm⟩
      rw [db.billing.subscriptions.eq_of_key hother hsub hsame]
      exact hid
  · refine iff_of_false (fun h => (keeps_start_error (e := .activePerFeature) ?_).mp h trivial) fun ⟨_, h⟩ => hkept (hindex.mpr ?_)
    · simp only [billing] at hkept
      simp [startSimpleSubscription, hplan, hactive, hdisabled, hget, hrunning, hkept]
    · rintro other hother hstatus ⟨htenant', hfeature'⟩
      rcases h with ⟨found, hfound, hrunning'⟩ | h
      · rw [hrows, List.mem_singleton] at hfound
        exact absurd (hfound ▸ hrunning') hrunning
      · have hother' : other ∈ db.billing.planRows tenantId plan :=
          List.mem_filter.mpr ⟨hother, decide_eq_true ⟨htenant'.trans htenant,
            h other hother hstatus (htenant'.trans htenant) (hfeature'.trans hfeature)⟩⟩
        rw [hrows, List.mem_singleton] at hother'
        rw [hother']

/-- **A start**. -/
theorem keeps_start (hdb : db.Consistent) (hflags : db.Flags) (hfresh : ∀ sub ∈ db.billing.subscriptions.rows, sub.id ≠ subId) :
    Faultless (db.exec (.start tenantId planKey now subId)) ↔ db.Fits (.start tenantId planKey now subId) := by
  simp only [AccountDb.Fits]
  cases hplan : db.billing.getPlanOptional planKey with
  | none =>
    refine iff_of_true (keeps_start_same (r := .planNotFound) hflags (by decide) ?_) fun plan h => by cases h
    rw [startSimpleSubscription, hplan]
  | some plan =>
    simp only [Option.some.injEq, forall_eq']
    cases hactive : plan.isActive with
    | false =>
      refine iff_of_true ((keeps_start_error (e := .deprecatedPlan planKey) ?_).mpr id) fun h => by cases h
      simp [startSimpleSubscription, hplan, hactive]
    | true =>
      cases hdisabled : isFeatureDisabled plan.featureKey with
      | true =>
        refine iff_of_true (keeps_start_same (r := .disabled) hflags (by decide) ?_) fun _ h => by cases h
        simp [startSimpleSubscription, hplan, hactive, hdisabled]
      | false =>
        rw [forall_prop_of_true rfl, forall_prop_of_true rfl]
        rcases getSubscriptionOptional_cases db.billing tenantId plan with ⟨hrows, hget⟩ | ⟨sub, hrows, hget⟩ | ⟨hmany, hget⟩
        · exact keeps_start_new hdb hflags hfresh hplan hactive hdisabled hrows hget
        · exact keeps_start_old hdb hflags hplan hactive hdisabled hrows hget
        · refine iff_of_false (fun h => (keeps_start_error (e := .multipleResults) ?_).mp h trivial) fun h => hmany h.1
          simp [startSimpleSubscription, hplan, hactive, hdisabled, hget]

end Start

/-- The flags after a feature is disabled and one subscription is no longer active. -/
theorem flags_cancel {set : TenantSubscription → TenantSubscription} (hflags : db.Flags)
    (hset : ∀ sub, (set sub).id = sub.id) (hsub : sub ∈ db.billing.subscriptions.rows) (hcancelled : (set sub).status ≠ .active) :
    ({ db with billing := db.billing.setSubscription sub set hset,
               features := ensureFeatureEnabled db.features tenantId featureKey false } : AccountDb).Flags ↔
      ∀ other ∈ db.billing.subscriptions.rows, other.id ≠ sub.id → other.status = .active →
        ¬ (other.tenantId = tenantId ∧ other.featureKey = featureKey) := by
  have hmem : ∀ row, row ∈ (db.billing.setSubscription sub set hset).subscriptions.rows ↔
      row = set sub ∨ row ∈ db.billing.subscriptions.rows ∧ row.id ≠ sub.id :=
    fun row => Keyed.mem_update_row hset (Keyed.get?_key hsub)
  simp only [AccountDb.Flags, hmem, enabled_ensureFeatureEnabled, Prod.mk.injEq]
  constructor
  · intro h other hother hne hstatus hsame
    have hfalse := h other (.inr ⟨hother, hne⟩) hstatus
    rw [if_pos hsame] at hfalse
    cases hfalse
  · rintro h row (rfl | ⟨hother, hne⟩) hstatus
    · exact absurd hstatus hcancelled
    · rw [if_neg (h row hother hne hstatus)]
      exact hflags row hother hstatus

/-- **A cancellation**. -/
theorem keeps_cancel {planKey : String} (hdb : db.Consistent) (hflags : db.Flags) :
    Faultless (db.exec (.cancel tenantId planKey now)) ↔ db.Fits (.cancel tenantId planKey now) := by
  simp only [AccountDb.Fits, AccountDb.exec, cancelSubscription, cancelSimpleSubscription]
  cases hplan : db.billing.getPlanOptional planKey with
  | none => exact iff_of_true hflags fun plan h => by cases h
  | some plan =>
    simp only [Option.some.injEq, forall_eq']
    cases hdisabled : isFeatureDisabled plan.featureKey with
    | true => exact iff_of_true hflags fun h => by cases h
    | false =>
      rw [forall_prop_of_true rfl]
      rcases getSubscriptionOptional_cases db.billing tenantId plan with ⟨hrows, hget⟩ | ⟨sub, hrows, hget⟩ | ⟨hmany, hget⟩
      · simp only [hget, hrows]
        exact iff_of_true hflags ⟨by simp, by simp⟩
      · simp only [hget, hrows]
        have hmem : sub ∈ db.billing.planRows tenantId plan := by simp [hrows]
        obtain ⟨hsub, htenant, -, hfeature⟩ := planRows_synced hdb hplan hmem
        by_cases hquantity : sub.quantity ≤ 0
        · rw [if_pos hquantity]
          refine iff_of_true hflags ⟨by simp, fun row hrow hpos => ?_⟩
          rw [List.mem_singleton.mp hrow] at hpos
          omega
        · rw [if_neg hquantity]
          have hset : ∀ row : TenantSubscription, (row.cancel now).id = row.id := fun _ => rfl
          show AccountDb.Flags { db with
            billing := db.billing.setSubscription sub (·.cancel now) hset
            features := ensureFeatureEnabled db.features tenantId plan.featureKey false } ↔ _
          rw [flags_cancel hflags hset hsub fun h => by cases h]
          constructor
          · refine fun h => ⟨by simp, fun row hrow _ other hother hstatus htenant' hfeature' => ?_⟩
            rw [List.mem_singleton.mp hrow]
            by_contra hne
            exact h other hother hne hstatus ⟨htenant', hfeature'⟩
          · rintro ⟨-, h⟩ other hother hne hstatus ⟨htenant', hfeature'⟩
            exact hne (h sub (List.mem_singleton_self sub) (by omega) other hother hstatus htenant' hfeature')
      · simp only [hget]
        exact iff_of_false (fun h => h trivial) fun h => hmany h.1

/-- **A renewal**. -/
theorem keeps_renew {orderId : String} (hdb : db.Consistent) (hflags : db.Flags) :
    Faultless (db.exec (.renew tenantId now orderId)) ↔ db.Fits (.renew tenantId now orderId) := by
  simp only [AccountDb.Fits, AccountDb.exec, renewSubscriptions, renewCycle]
  cases hcycle : db.billing.getCycle tenantId with
  | none => exact iff_of_true hflags fun h => absurd rfl h
  | some cycle =>
    rw [forall_prop_of_true (by simp)]
    by_cases hnothing : (db.billing.renewable tenantId).1 = []
    · have hcharged : ∀ sub ∈ db.billing.subscriptions.rows, ¬ db.billing.Charged tenantId sub := by
        intro sub hsub hcharged
        obtain ⟨item, hitem, -⟩ := (charged_iff hsub).mp hcharged
        rw [hnothing] at hitem
        cases hitem
      simp only [if_pos hnothing]
      exact iff_of_true hflags ⟨fun a ha b _ _ _ hclash => hcharged a ha hclash.1, fun sub hsub h => absurd h (hcharged sub hsub)⟩
    simp only [if_neg hnothing]
    have hiff : flushes db.billing.subscriptions.rows (db.billing.renewRow tenantId cycle now orderId) = true ↔ _ :=
      flushes_iff hdb.index
    rw [← hiff]
    by_cases hflush : flushes db.billing.subscriptions.rows (db.billing.renewRow tenantId cycle now orderId) = true
    · simp only [if_pos hflush]
      rw [and_iff_right hflush]
      show AccountDb.Flags { db with billing := db.billing.renew tenantId cycle now orderId } ↔ _
      have hmem : ∀ row, row ∈ (db.billing.renew tenantId cycle now orderId).subscriptions.rows ↔
          ∃ sub ∈ db.billing.subscriptions.rows, row = db.billing.renewRow tenantId cycle now orderId sub :=
        fun row => Keyed.mem_update (db.billing.renewRow_id tenantId cycle now orderId)
      have hsame : ∀ sub, SameFeature (db.billing.renewRow tenantId cycle now orderId sub) sub := sameFeature_renewRow
      constructor
      · intro h sub hsub hcharged
        obtain ⟨htenant, hfeature⟩ := hsame sub
        have henabled := h _ ((hmem _).mpr ⟨sub, hsub, rfl⟩) ((status_renewRow hsub).mpr (.inl hcharged))
        rwa [htenant, hfeature] at henabled
      · intro h row hrow hactive
        obtain ⟨sub, hsub, rfl⟩ := (hmem row).mp hrow
        obtain ⟨htenant, hfeature⟩ := hsame sub
        show db.Enabled _ _
        rw [htenant, hfeature]
        rcases (status_renewRow hsub).mp hactive with hcharged | ⟨-, hold⟩
        · exact h sub hsub hcharged
        · exact hflags sub hsub hold
    · simp only [if_neg hflush]
      exact iff_of_false (fun h => h trivial) fun h => hflush h.1

/-- **What a call keeps**: it neither clashes nor leaves an active subscription without its flag, if and only if it fits. -/
theorem keeps_exec_iff (hdb : db.Consistent) (hflags : db.Flags) {call : AccountCall} (hlegal : db.Legal call) :
    Faultless (db.exec call) ↔ db.Fits call := by
  cases call with
  | provision bundle now subId => exact keeps_provision hdb hflags hlegal
  | repair tenantId now subId => exact keeps_repair hdb hflags hlegal.1
  | start tenantId planKey now subId => exact keeps_start hdb hflags hlegal.1
  | cancel tenantId planKey now => exact keeps_cancel hdb hflags
  | renew tenantId now orderId => exact keeps_renew hdb hflags

/-! ### What every call keeps -/

/-- What a call makes of the billing tables: the index holds, and a subscription is an old one of the same tenant, plan and
feature, or a new one of this tenant on some plan. -/
structure BillingStore.Next (s s' : BillingStore) (newTenant : Option String) : Prop where
  plans : s'.plans = s.plans
  index : activePerFeature s.subscriptions.rows = true → activePerFeature s'.subscriptions.rows = true
  subs : ∀ sub ∈ s'.subscriptions.rows,
    (∃ old ∈ s.subscriptions.rows, SameFeature sub old ∧ sub.planId = old.planId) ∨
      (newTenant = some sub.tenantId ∧ ∃ plan ∈ s.plans.rows, plan.id = sub.planId ∧ plan.featureKey = sub.featureKey)

namespace BillingStore.Next

variable {s s' : BillingStore} {newTenant : Option String}

theorem refl (s : BillingStore) (newTenant : Option String) : s.Next s newTenant :=
  ⟨rfl, id, fun sub hsub => .inl ⟨sub, hsub, ⟨rfl, rfl⟩, rfl⟩⟩

/-- An update that keeps the tenant, the plan and the feature of every row. -/
theorem update {p : TenantSubscription → Bool} {set : TenantSubscription → TenantSubscription} (hset : ∀ sub, (set sub).id = sub.id)
    (hplans : s'.plans = s.plans) (hsubs : s'.subscriptions = s.subscriptions.update p set hset)
    (hsame : ∀ sub, SameFeature (set sub) sub ∧ (set sub).planId = sub.planId)
    (hindex : activePerFeature s.subscriptions.rows = true → activePerFeature s'.subscriptions.rows = true) :
    s.Next s' newTenant := by
  refine ⟨hplans, hindex, fun sub hsub => ?_⟩
  rw [hsubs] at hsub
  obtain ⟨old, hold, rfl⟩ := (Keyed.mem_update hset).mp hsub
  refine .inl ⟨old, hold, ?_⟩
  split
  · exact hsame old
  · exact ⟨⟨rfl, rfl⟩, rfl⟩

theorem insert {subscriptions : Keyed TenantSubscription.id} {plan : SubscriptionPlan}
    (hplan : plan ∈ s.plans.rows) (hinsert : s.subscriptions.insert? sub = some subscriptions)
    (hindex : activePerFeature subscriptions.rows = true) (hid : plan.id = sub.planId)
    (hfeature : plan.featureKey = sub.featureKey) :
    s.Next { s with subscriptions } (some sub.tenantId) := by
  refine ⟨rfl, fun _ => hindex, fun row hrow => ?_⟩
  rw [Keyed.rows_insert? hinsert, List.mem_append, List.mem_singleton] at hrow
  rcases hrow with hold | rfl
  · exact .inl ⟨row, hold, ⟨rfl, rfl⟩, rfl⟩
  · exact .inr ⟨rfl, plan, hplan, hid, hfeature⟩

theorem insertSubscription {plan : SubscriptionPlan} (hplan : plan ∈ s.plans.rows)
    (hid : plan.id = sub.planId) (hfeature : plan.featureKey = sub.featureKey) (h : s.insertSubscription sub = .ok s') :
    s.Next s' (some sub.tenantId) := by
  unfold BillingStore.insertSubscription at h
  split at h
  · cases h
  next subscriptions hinsert =>
    split at h
    next hindex =>
      cases h
      exact insert hplan hinsert hindex hid hfeature
    · cases h

theorem start {planKey : String} (h : startSimpleSubscription s tenantId planKey now subId = .ok (s', r)) :
    s.Next s' (some tenantId) := by
  unfold startSimpleSubscription at h
  split at h
  · cases h
    exact refl s _
  next plan hplan =>
    split at h
    · cases h
    split at h
    · cases h
      exact refl s _
    split at h
    · cases h
    next sub hget =>
      split at h
      · cases h
        exact refl s _
      dsimp only at h
      split at h
      next hindex =>
        cases h
        have hset : ∀ row : TenantSubscription, (row.start plan now).id = row.id := fun _ => rfl
        exact update hset rfl rfl (fun _ => ⟨⟨rfl, rfl⟩, rfl⟩) fun _ => hindex
      · cases h
    · dsimp only at h
      split at h
      · cases h
      next subscriptions hinsert =>
        split at h
        next hindex =>
          cases h
          exact insert (List.mem_of_find?_eq_some hplan) hinsert hindex rfl rfl
        · cases h

/-- A cancellation takes a row out of the index. -/
theorem cancel {planKey : String} (h : cancelSimpleSubscription s tenantId planKey now = .ok (s', r)) :
    s.Next s' none := by
  unfold cancelSimpleSubscription at h
  split at h
  · cases h
    exact refl s _
  split at h
  · cases h
    exact refl s _
  split at h
  · cases h
  · cases h
    exact refl s _
  split at h
  · cases h
    exact refl s _
  · cases h
    have hset : ∀ row : TenantSubscription, (row.cancel now).id = row.id := fun _ => rfl
    refine update hset rfl rfl (fun _ => ⟨⟨rfl, rfl⟩, rfl⟩) fun hindex => activePerFeature_of_fewer hindex fun row hrow hactive => ?_
    obtain ⟨old, hold, rfl⟩ := (Keyed.mem_update hset).mp hrow
    split at hactive
    · cases hactive
    next hne => rwa [if_neg hne]

theorem renew {orderId : String} {r : RenewalResult} (h : renewCycle s tenantId now orderId = .ok (s', r)) : s.Next s' none := by
  unfold renewCycle at h
  split at h
  · cases h
    exact refl s _
  next cycle hcycle =>
    split at h
    · cases h
      exact refl s _
    split at h
    next hflush =>
      cases h
      refine update (s.renewRow_id tenantId cycle now orderId) rfl rfl
        (fun sub => ⟨sameFeature_renewRow sub, planId_renewRow sub⟩) fun _ => ?_
      simpa [BillingStore.renew] using index_of_flushes hflush
    · cases h

end BillingStore.Next

theorem consistent_of_next (hdb : db.Consistent) {newTenant : Option String}
    (hnext : db.billing.Next db'.billing newTenant) (htenant : ∀ id ∈ newTenant, db'.HasTenant id)
    (htenants : ∀ id, db.HasTenant id → db'.HasTenant id)
    (hfeatures : ∀ feature ∈ db'.features.rows,
      (∃ old ∈ db.features.rows, old.tenantId = feature.tenantId) ∨ db'.HasTenant feature.tenantId) :
    db'.Consistent where
  index := hnext.index hdb.index
  synced := by
    intro sub hsub plan hplan
    rw [hnext.plans] at hplan
    rcases hnext.subs sub hsub with ⟨old, hold, ⟨-, hfeature⟩, hid⟩ | ⟨-, plan', hplan', hid, hfeature⟩
    · rw [hfeature]
      exact hdb.synced old hold plan (hid ▸ hplan)
    · rw [← hid, Keyed.get?_key hplan'] at hplan
      rw [← Option.some.inj hplan, hfeature]
  tenants := by
    intro sub hsub
    rcases hnext.subs sub hsub with ⟨old, hold, ⟨hsame, -⟩, -⟩ | ⟨hnew, -⟩
    · rw [hsame]
      exact htenants _ (hdb.tenants old hold)
    · exact htenant _ hnew
  featureTenants := by
    intro feature hfeature
    rcases hfeatures feature hfeature with ⟨old, hold, hsame⟩ | hthere
    · rw [← hsame]
      exact htenants _ (hdb.featureTenants old hold)
    · exact hthere

theorem consistent_withBilling {plan : SubscriptionPlan} (hdb : db.Consistent)
    (hplan : plan ∈ db.billing.plans.rows) (hid : plan.id = sub.planId) (hfeature : plan.featureKey = sub.featureKey)
    (htenant : db.HasTenant sub.tenantId) (h : db.withBilling (db.billing.insertSubscription sub) = .ok db') : db'.Consistent := by
  unfold AccountDb.withBilling at h
  split at h
  · cases h
  next billing hbilling =>
    cases h
    refine consistent_of_next hdb (BillingStore.Next.insertSubscription hplan hid hfeature hbilling) ?_ (fun _ h => h)
      fun feature hfeature => .inl ⟨feature, hfeature, rfl⟩
    rintro _ ⟨⟩
    exact htenant

/-- The tables after a call that may set the flag of a feature. -/
theorem consistent_flagged {newTenant : Option String} {features : Keyed TenantFeature.key}
    (hdb : db.Consistent) (htenant : db.HasTenant tenantId) (hnext : db.billing.Next billing newTenant)
    (hnew : ∀ id ∈ newTenant, id = tenantId)
    (hfeatures : features = db.features ∨ ∃ featureKey enabled, features = ensureFeatureEnabled db.features tenantId featureKey enabled) :
    AccountDb.Consistent { db with billing, features } := by
  refine consistent_of_next hdb hnext (fun id hid => hnew id hid ▸ htenant) (fun _ h => h) fun feature hfeature => ?_
  rcases hfeatures with rfl | ⟨featureKey, enabled, rfl⟩
  · exact .inl ⟨feature, hfeature, rfl⟩
  · rcases mem_ensureFeatureEnabled.mp hfeature with rfl | ⟨hold, -⟩
    · exact .inr htenant
    · exact .inl ⟨feature, hold, rfl⟩

/-- **What every call keeps**. -/
theorem consistent_exec {call : AccountCall} (hdb : db.Consistent) (hlegal : db.Legal call)
    (h : db.exec call = .ok db') : db'.Consistent := by
  cases call with
  | provision bundle now subId =>
    simp only [AccountDb.exec, provisionBundle] at h
    split at h
    · cases h
      exact hdb
    next db₁ hbundle =>
      obtain ⟨hfree, hadded⟩ := insertOnlyBundle_spec hbundle
      have htenants : ∀ id, db.HasTenant id → db₁.HasTenant id := by
        rintro id ⟨tenant, htenant, hid⟩
        exact ⟨tenant, by rw [hadded.tenants]; exact List.mem_append_left _ htenant, hid⟩
      have htenant : db₁.HasTenant bundle.tenantId :=
        ⟨_, by rw [hadded.tenants]; exact List.mem_append_right _ (List.mem_singleton_self _), rfl⟩
      have hdb₁ : db₁.Consistent := by
        refine consistent_of_next hdb (by rw [hadded.billing]; exact .refl _ none) (by simp) htenants fun feature hfeature => ?_
        rw [hadded.features, List.mem_append, List.mem_singleton] at hfeature
        rcases hfeature with hold | rfl
        · exact .inl ⟨feature, hold, rfl⟩
        · exact .inr htenant
      simp only [grantFreeTierInsertOnly] at h
      split at h
      · cases h
      next plan hplan =>
        cases hgrant : db₁.withBilling (db₁.billing.insertSubscription (freeTierSubscription plan bundle.tenantId now subId)) with
        | error e =>
          rw [hgrant] at h
          cases h
        | ok db₂ =>
          rw [hgrant] at h
          cases h
          exact consistent_withBilling hdb₁ (List.mem_of_find?_eq_some hplan) rfl rfl htenant hgrant
  | repair tenantId now subId =>
    have htenants : ∀ id, db.HasTenant id → (db.approve tenantId now).HasTenant id := by
      rintro id ⟨tenant, htenant, rfl⟩
      have hset : ∀ tenant : TenantAccount, { tenant with approvedAt := some now }.id = tenant.id := fun _ => rfl
      refine ⟨_, (Keyed.mem_update hset).mpr ⟨tenant, htenant, rfl⟩, ?_⟩
      split <;> rfl
    have happrove : (db.approve tenantId now).Consistent := by
      refine consistent_of_next hdb (.refl _ none) (by simp) htenants fun feature hfeature => .inl ⟨feature, hfeature, rfl⟩
    simp only [AccountDb.exec, autoApproveAndGrantFreeTier] at h
    split at h
    · cases h
      exact happrove
    next plan hplan =>
      split at h
      · cases h
        exact happrove
      · exact consistent_withBilling happrove (List.mem_of_find?_eq_some hplan) rfl rfl (htenants _ hlegal.2) h
  | start tenantId planKey now subId =>
    simp only [AccountDb.exec, startSubscription] at h
    split at h
    · cases h
    next billing r hcall =>
      have hnext := BillingStore.Next.start hcall
      split at h <;> cases h
      · exact consistent_flagged hdb hlegal.2 hnext (by simp) (.inr ⟨_, _, rfl⟩)
      · exact consistent_flagged hdb hlegal.2 hnext (by simp) (.inl rfl)
  | cancel tenantId planKey now =>
    simp only [AccountDb.exec, cancelSubscription] at h
    split at h
    · cases h
    next billing r hcall =>
      have hnext := BillingStore.Next.cancel hcall
      split at h <;> cases h
      · exact consistent_flagged hdb hlegal hnext (by simp) (.inr ⟨_, _, rfl⟩)
      · exact consistent_flagged hdb hlegal hnext (by simp) (.inl rfl)
  | renew tenantId now orderId =>
    simp only [AccountDb.exec, renewSubscriptions] at h
    split at h
    · cases h
    next billing r hcall =>
      cases h
      exact consistent_of_next hdb (.renew hcall) (by simp) (fun _ h => h) fun feature hfeature => .inl ⟨feature, hfeature, rfl⟩

end Calls

/-! ### Runs of calls -/

/-- The calls as a transition system. It starts with tables that meet their constraints, where the flags are right; a call
that raises writes nothing. -/
def accountCalls : Lts AccountDb AccountCall where
  init db := db.Consistent ∧ db.Flags
  step db call db' := db.Legal call ∧ (db.exec call = .ok db' ∨ (∃ e, db.exec call = .error e) ∧ db' = db)

theorem consistent_reachable {db : AccountDb} (h : accountCalls.Reachable db) : db.Consistent := by
  refine h.induct (P := AccountDb.Consistent) (fun _ (hinit : _ ∧ _) => hinit.1) fun db call db' _ hdb hstep => ?_
  obtain ⟨hlegal, hok | ⟨-, rfl⟩⟩ := hstep
  · exact consistent_exec hdb hlegal hok
  · exact hdb

/-- **Runs of calls that fit**: the flags are right in every state, and there a call neither clashes nor leaves them wrong if
and only if it fits. -/
theorem fitting_runs {calls : List AccountCall} {db : AccountDb} (h : (accountCalls.guard AccountDb.Fits).Hist calls db) :
    db.Flags ∧ ∀ call, db.Legal call → (Faultless (db.exec call) ↔ db.Fits call) := by
  have hflags : db.Flags := by
    refine h.induct (P := fun _ db => db.Flags) (fun _ (hinit : _ ∧ _) => hinit.2) fun calls db call db' hhist hflags hstep => ?_
    obtain ⟨⟨hlegal, hresult⟩, hfits⟩ := hstep
    have hkeeps := (keeps_exec_iff (consistent_reachable hhist.of_guard.reachable) hflags hlegal).mpr hfits
    rcases hresult with hok | ⟨-, rfl⟩
    · rwa [hok] at hkeeps
    · exact hflags
  exact ⟨hflags, fun call hlegal => keeps_exec_iff (consistent_reachable h.of_guard.reachable) hflags hlegal⟩

/-- The paid plan of the housewife skill. -/
def housewifeBase : SubscriptionPlan where
  id := "plan_housewife_base"
  planKey := "housewife_assistant_base"
  featureKey := "housewife_assistant"
  priceRub := 990

/-- A tenant without subscriptions. -/
def freshAccounts : AccountDb where
  billing :=
    { plans := ⟨[sredaFree, housewifeBase], by decide⟩, subscriptions := .empty, cycles := .empty, orders := [], items := [] }
  tenants := ⟨[{ id := "tenant_1", approvedAt := some 0 }], by decide⟩
  workspaces := .empty
  users := .empty
  assistants := .empty
  features := .empty
  attempts := []

def startFree : AccountCall := .start "tenant_1" "sreda_free" 0 "sub_1"

/-- The tenant after it has started the free plan. -/
def freeAccounts : AccountDb := (freshAccounts.exec startFree).toOption.getD freshAccounts

theorem legal_startFree : freshAccounts.Legal startFree :=
  ⟨List.forall_mem_nil _, _, List.mem_singleton_self _, rfl⟩

theorem exec_startFree : freshAccounts.exec startFree = .ok freeAccounts := rfl

theorem freshAccounts_init : accountCalls.init freshAccounts := 
  ⟨⟨rfl, List.forall_mem_nil _, List.forall_mem_nil _, List.forall_mem_nil _⟩, List.forall_mem_nil _⟩

theorem fitting_runs_free :
    freeAccounts.Flags ∧ ∀ call, freeAccounts.Legal call → (Faultless (freeAccounts.exec call) ↔ freeAccounts.Fits call) := by
  have hfits : freshAccounts.Fits startFree := fun _ _ _ _ => ⟨Nat.zero_le 1, .inr (List.forall_mem_nil _)⟩
  have hhist : (accountCalls.guard AccountDb.Fits).Hist [startFree] freeAccounts :=
    ⟨freshAccounts, freshAccounts_init, .single ⟨⟨legal_startFree, .inl exec_startFree⟩, hfits⟩⟩
  exact fitting_runs hhist

/-- The paid plan is started while the free one is active: the index has both as one feature. -/
theorem paid_after_free : ¬ ∀ db, accountCalls.Reachable db → ∀ call, db.Legal call → Faultless (db.exec call) := by
  intro hall
  have hreach : accountCalls.Reachable freeAccounts :=
    ⟨[startFree], freshAccounts, freshAccounts_init, .single ⟨legal_startFree, .inl exec_startFree⟩⟩
  have hlegal : freeAccounts.Legal (.start "tenant_1" "housewife_assistant_base" 1 "sub_2") := by
    refine ⟨?_, _, List.mem_singleton_self _, rfl⟩
    decide
  have hkeeps := hall freeAccounts hreach _ hlegal
  have hclash : freeAccounts.exec (.start "tenant_1" "housewife_assistant_base" 1 "sub_2") =
      .error (.billing .activePerFeature) := rfl
  rw [hclash] at hkeeps
  exact hkeeps trivial

end Sreda.Services
