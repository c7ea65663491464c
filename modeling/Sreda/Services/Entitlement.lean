import Sreda.Services.Budget

/-!
# Who has access

The four deciders of access over the table of subscriptions: `EntitlementGate.check` (`entitlement_gate.py`),
`active_feature_keys` (`agent_capabilities.py`), `_active_subscription` of the budget and `_is_subscription_active` of
the billing service.

## What is proved

* when they agree (`deciders_agree_iff`): there is a subscription that the billing service takes for active together with
  one that the budget does, or there is none that any of them does. `unlimited_disagrees` is a free subscription without
  an end date, which the billing service alone takes for inactive.
-/

namespace Sreda.Services

open Sreda.Lib

/-- `HOUSEWIFE_FEATURE_KEY`. -/
def housewifeFeatureKey : String := "housewife_assistant"

/-! ### The gate -/

/-- `GateResult`. -/
structure GateResult where
  allowed : Bool
  reason : String
  planKey : Option String := none
  isGrandfathered : Bool := false
  deriving DecidableEq

/-- The subscriptions of the housewife skill that the gate looks at. -/
def BillingStore.gateRows (s : BillingStore) (tenantId : String) : List (TenantSubscription × SubscriptionPlan) :=
  (s.subscriptionPlanRows tenantId).filter (·.1.featureKey = housewifeFeatureKey)

/-- `EntitlementGate.check`. -/
def entitlementCheck (s : BillingStore) (tenantId : String) : GateResult :=
  match (s.gateRows tenantId).find? (·.1.status = .active) with
  | some (sub, plan) =>
    { allowed := true, reason := "ok", planKey := some plan.planKey, isGrandfathered := sub.grandfatheredAt.isSome }
  | none =>
    if (s.gateRows tenantId).any (·.1.status = .suspended) then { allowed := false, reason := "suspended" }
    else { allowed := false, reason := "no_active_subscription" }

/-! ### The capabilities -/

/-- No end date, or one in the future. -/
def TenantSubscription.unexpired (sub : TenantSubscription) (now : ℤ) : Bool := sub.activeUntil.all (now < ·)

/-- `status in {"active", "scheduled_for_cancel"}`. -/
def TenantSubscription.isLive (sub : TenantSubscription) : Bool := sub.status = .active || sub.status = .scheduledForCancel

/-- The rows that `active_feature_keys` takes for active. -/
def BillingStore.capableRows (s : BillingStore) (tenantId : String) (now : ℤ) : List (TenantSubscription × SubscriptionPlan) :=
  (s.subscriptionPlanRows tenantId).filter fun row => 0 < row.1.quantity && row.1.isLive && row.1.unexpired now

/-- `active_feature_keys`. -/
def activeFeatureKeys (s : BillingStore) (tenantId : String) (now : ℤ) : List String :=
  ((s.capableRows tenantId now).map (·.2.featureKey)).filter (· ≠ "")

/-! ### The four deciders -/

section Deciders

variable (s : BillingStore) (tenantId featureKey : String) (now : ℤ)

/-- The billing service takes one of the subscriptions of the feature for active. -/
def billingActive : Prop := ∃ row ∈ s.subscriptionPlanRows tenantId, row.2.featureKey = featureKey ∧ isSubscriptionActive row.1 now = true

/-- The four agree. -/
structure DecidersAgree : Prop where
  budget : featureKey ∈ activeFeatureKeys s tenantId now ↔ ∃ found, activeSubscription s tenantId featureKey now = some found
  billing : featureKey ∈ activeFeatureKeys s tenantId now ↔ billingActive s tenantId featureKey now
  gate : featureKey = housewifeFeatureKey → (featureKey ∈ activeFeatureKeys s tenantId now ↔ (entitlementCheck s tenantId).allowed = true)

/-- The feature keys of the subscriptions are those of their plans, as `_sync_subscription_feature_key` writes them. -/
def BillingStore.Synced : Prop := ∀ sub ∈ s.subscriptions.rows, ∀ plan, s.plans.get? sub.planId = some plan → sub.featureKey = plan.featureKey

/-- The subscriptions of the feature. -/
def BillingStore.featureRows : List TenantSubscription :=
  ((s.subscriptionPlanRows tenantId).filter (·.2.featureKey = featureKey)).map Prod.fst

/-- No subscription of the tenant starts in the future. -/
def BillingStore.Started : Prop := ∀ row ∈ s.subscriptionPlanRows tenantId, ∀ start ∈ row.1.startsAt, start ≤ now

/-- There is a live subscription with a quantity and an end date in the future, and one with status active that has not
expired. -/
def BothActive : Prop :=
  (∃ sub ∈ s.featureRows tenantId featureKey, 0 < sub.quantity ∧ sub.isLive = true ∧ ∃ u ∈ sub.activeUntil, now < u) ∧
    ∃ sub ∈ s.featureRows tenantId featureKey, sub.status = .active ∧ sub.unexpired now = true

/-- There is no live subscription with a quantity that has not expired, and none with status active that has not; for the
housewife skill none with status active at all. -/
def NoneActive : Prop :=
  ∀ sub ∈ s.featureRows tenantId featureKey,
    ¬ (0 < sub.quantity ∧ sub.isLive = true ∧ sub.unexpired now = true) ∧
      ¬ (sub.status = .active ∧ (sub.unexpired now = true ∨ featureKey = housewifeFeatureKey))

end Deciders

section Agree

variable {s : BillingStore} {tenantId featureKey : String} {now : ℤ}

theorem mem_featureRows {sub : TenantSubscription} :
    sub ∈ s.featureRows tenantId featureKey ↔ ∃ plan, (sub, plan) ∈ s.subscriptionPlanRows tenantId ∧ plan.featureKey = featureKey := by
  simp only [BillingStore.featureRows, List.mem_map, List.mem_filter, decide_eq_true_eq, Prod.exists, exists_and_right, exists_eq_right]

theorem mem_activeFeatureKeys (hkey : featureKey ≠ "") :
    featureKey ∈ activeFeatureKeys s tenantId now ↔
      ∃ sub ∈ s.featureRows tenantId featureKey, 0 < sub.quantity ∧ sub.isLive = true ∧ sub.unexpired now = true := by
  simp only [activeFeatureKeys, BillingStore.capableRows, List.mem_filter, List.mem_map, Bool.and_eq_true, decide_eq_true_eq]
  constructor
  · rintro ⟨⟨row, ⟨hrow, ⟨hquantity, hlive⟩, hunexpired⟩, hfeature⟩, -⟩
    exact ⟨row.1, mem_featureRows.mpr ⟨row.2, hrow, hfeature⟩, hquantity, hlive, hunexpired⟩
  · rintro ⟨sub, hsub, hquantity, hlive, hunexpired⟩
    obtain ⟨plan, hrow, hfeature⟩ := mem_featureRows.mp hsub
    exact ⟨⟨(sub, plan), ⟨hrow, ⟨hquantity, hlive⟩, hunexpired⟩, hfeature⟩, hkey⟩

theorem activeSubscription_iff (hstarted : s.Started tenantId now) :
    (∃ found, activeSubscription s tenantId featureKey now = some found) ↔
      ∃ sub ∈ s.featureRows tenantId featureKey, sub.status = .active ∧ sub.unexpired now = true := by
  rw [← Option.isSome_iff_exists, activeSubscription, List.find?_isSome]
  constructor
  · rintro ⟨row, hrow, htest⟩
    obtain ⟨hmem, hactive⟩ := List.mem_filter.mp hrow
    obtain ⟨hstatus, hfeature⟩ := of_decide_eq_true hactive
    exact ⟨row.1, mem_featureRows.mpr ⟨row.2, hmem, hfeature⟩, hstatus, (Bool.and_eq_true_iff.mp htest).2⟩
  · rintro ⟨sub, hsub, hstatus, hunexpired⟩
    obtain ⟨plan, hrow, hfeature⟩ := mem_featureRows.mp hsub
    refine ⟨(sub, plan), List.mem_filter.mpr ⟨hrow, decide_eq_true ⟨hstatus, hfeature⟩⟩, Bool.and_eq_true_iff.mpr ⟨?_, hunexpired⟩⟩
    cases hstart : sub.startsAt with
    | none => rfl
    | some start =>
      have hpast := hstarted (sub, plan) hrow start hstart
      simpa using hpast

theorem billingActive_iff :
    billingActive s tenantId featureKey now ↔
      ∃ sub ∈ s.featureRows tenantId featureKey, 0 < sub.quantity ∧ sub.isLive = true ∧ ∃ u ∈ sub.activeUntil, now < u := by
  unfold billingActive
  constructor
  · rintro ⟨row, hrow, hfeature, hactive⟩
    obtain ⟨hquantity, huntil, hstatus⟩ := of_decide_eq_true hactive
    exact ⟨row.1, mem_featureRows.mpr ⟨row.2, hrow, hfeature⟩, hquantity, by simpa [TenantSubscription.isLive] using hstatus, huntil⟩
  · rintro ⟨sub, hsub, hquantity, hlive, huntil⟩
    obtain ⟨plan, hrow, hfeature⟩ := mem_featureRows.mp hsub
    exact ⟨(sub, plan), hrow, hfeature, decide_eq_true ⟨hquantity, huntil, by simpa [TenantSubscription.isLive] using hlive⟩⟩

/-- A joined row is a subscription with its plan. -/
theorem mem_subscriptionPlanRows {row : TenantSubscription × SubscriptionPlan} :
    row ∈ s.subscriptionPlanRows tenantId ↔
      row.1 ∈ s.subscriptions.rows ∧ row.1.tenantId = tenantId ∧ s.plans.get? row.1.planId = some row.2 := by
  obtain ⟨sub, plan⟩ := row
  simp only [BillingStore.subscriptionPlanRows, List.mem_filterMap, List.mem_filter, Option.map_eq_some_iff, decide_eq_true_eq]
  constructor
  · rintro ⟨sub', ⟨hsub, htenant⟩, plan', hplan, heq⟩
    obtain ⟨rfl, rfl⟩ := Prod.mk.inj heq
    exact ⟨hsub, htenant, hplan⟩
  · rintro ⟨hsub, htenant, hplan⟩
    exact ⟨sub, ⟨hsub, htenant⟩, plan, hplan, rfl⟩

/-- **The gate** allows a tenant if and only if it has a subscription of the skill with status active. -/
theorem entitlementCheck_allowed (hsynced : s.Synced) :
    (entitlementCheck s tenantId).allowed = true ↔ ∃ sub ∈ s.featureRows tenantId housewifeFeatureKey, sub.status = .active := by
  have hfind : (entitlementCheck s tenantId).allowed = ((s.gateRows tenantId).find? (·.1.status = .active)).isSome := by
    unfold entitlementCheck
    split
    next hsome => rw [hsome]; rfl
    next hnone => rw [hnone]; split <;> rfl
  rw [hfind, List.find?_isSome]
  constructor
  · rintro ⟨row, hrow, hstatus⟩
    obtain ⟨hmem, hgate⟩ := List.mem_filter.mp hrow
    obtain ⟨hsub, -, hplan⟩ := mem_subscriptionPlanRows.mp hmem
    exact ⟨row.1, mem_featureRows.mpr ⟨row.2, hmem, (hsynced _ hsub _ hplan).symm.trans (of_decide_eq_true hgate)⟩,
      of_decide_eq_true hstatus⟩
  · rintro ⟨sub, hsub, hstatus⟩
    obtain ⟨plan, hrow, hfeature⟩ := mem_featureRows.mp hsub
    obtain ⟨hmem, -, hplan⟩ := mem_subscriptionPlanRows.mp hrow
    exact ⟨(sub, plan), List.mem_filter.mpr ⟨hrow, decide_eq_true ((hsynced _ hmem _ hplan).trans hfeature)⟩, decide_eq_true hstatus⟩

theorem unexpired_of_future {sub : TenantSubscription} (h : ∃ u ∈ sub.activeUntil, now < u) : sub.unexpired now = true := by
  obtain ⟨u, hu, hlt⟩ := h
  rw [TenantSubscription.unexpired, show sub.activeUntil = some u from hu]
  exact decide_eq_true hlt

/-- **When the deciders agree.** For every store and time, over the subscriptions of a feature none of which starts in
the future: if and only if the billing service and the budget both find an active one, or none of the deciders does. -/
theorem deciders_agree_iff (hkey : featureKey ≠ "") (hsynced : s.Synced) (hstarted : s.Started tenantId now) :
    DecidersAgree s tenantId featureKey now ↔ BothActive s tenantId featureKey now ∨ NoneActive s tenantId featureKey now := by
  constructor
  · rintro ⟨hbudget, hbilling, hgate⟩
    rw [mem_activeFeatureKeys hkey] at hbudget hbilling hgate
    rw [activeSubscription_iff hstarted] at hbudget
    rw [billingActive_iff] at hbilling
    by_cases hcapable : ∃ sub ∈ s.featureRows tenantId featureKey, 0 < sub.quantity ∧ sub.isLive = true ∧ sub.unexpired now = true
    · exact .inl ⟨hbilling.mp hcapable, hbudget.mp hcapable⟩
    · refine .inr fun sub hsub => ⟨fun hrow => hcapable ⟨sub, hsub, hrow⟩, ?_⟩
      rintro ⟨hstatus, hunexpired | rfl⟩
      · exact hcapable (hbudget.mpr ⟨sub, hsub, hstatus, hunexpired⟩)
      · exact hcapable ((hgate rfl).mpr ((entitlementCheck_allowed hsynced).mpr ⟨sub, hsub, hstatus⟩))
  · rintro (⟨hbilling, hbudget⟩ | hnone)
    · -- every one of the four says yes
      have hcapable : featureKey ∈ activeFeatureKeys s tenantId now := by
        obtain ⟨sub, hsub, hquantity, hlive, huntil⟩ := hbilling
        exact (mem_activeFeatureKeys hkey).mpr ⟨sub, hsub, hquantity, hlive, unexpired_of_future huntil⟩
      refine ⟨iff_of_true hcapable ((activeSubscription_iff hstarted).mpr hbudget), iff_of_true hcapable (billingActive_iff.mpr hbilling), ?_⟩
      rintro rfl
      obtain ⟨sub, hsub, hstatus, -⟩ := hbudget
      exact iff_of_true hcapable ((entitlementCheck_allowed hsynced).mpr ⟨sub, hsub, hstatus⟩)
    · -- every one of the four says no
      have hcapable : featureKey ∉ activeFeatureKeys s tenantId now := by
        rw [mem_activeFeatureKeys hkey]
        rintro ⟨sub, hsub, hrow⟩
        exact (hnone sub hsub).1 hrow
      refine ⟨iff_of_false hcapable ?_, iff_of_false hcapable ?_, ?_⟩
      · rw [activeSubscription_iff hstarted]
        rintro ⟨sub, hsub, hstatus, hunexpired⟩
        exact (hnone sub hsub).2 ⟨hstatus, .inl hunexpired⟩
      · rw [billingActive_iff]
        rintro ⟨sub, hsub, hquantity, hlive, huntil⟩
        exact (hnone sub hsub).1 ⟨hquantity, hlive, unexpired_of_future huntil⟩
      · rintro rfl
        rw [entitlementCheck_allowed hsynced]
        refine iff_of_false hcapable ?_
        rintro ⟨sub, hsub, hstatus⟩
        exact (hnone sub hsub).2 ⟨hstatus, .inr rfl⟩

end Agree

/-! #### A subscription without an end date -/

/-- `sreda_free`, as the migration writes it. -/
def sredaFree : SubscriptionPlan where
  id := "plan_sreda_free"
  planKey := "sreda_free"
  featureKey := "housewife_assistant"
  priceRub := 0

/-- The subscription that a new tenant is granted. -/
def grantedSubscription (endsAt : Option ℤ) : TenantSubscription where
  id := "sub_1"
  tenantId := "tenant_1"
  planId := "plan_sreda_free"
  featureKey := "housewife_assistant"
  status := .active
  startsAt := some 0
  activeUntil := endsAt
  nextCycleQuantity := some 1
  updatedAt := 0

/-- A tenant with this subscription. -/
def grantedStore (endsAt : Option ℤ) : BillingStore where
  plans := ⟨[sredaFree], by decide⟩
  subscriptions := ⟨[grantedSubscription endsAt], List.nodup_singleton _⟩
  cycles := .empty
  orders := []
  items := []

theorem grantedStore_synced (endsAt : Option ℤ) : (grantedStore endsAt).Synced := by
  intro sub hsub plan hplan
  obtain rfl := List.mem_singleton.mp hsub
  obtain rfl : sredaFree = plan := Option.some.inj hplan
  rfl

theorem grantedStore_started (endsAt : Option ℤ) : (grantedStore endsAt).Started "tenant_1" 1 := by
  intro row hrow start hstart
  obtain ⟨hsub, -, -⟩ := mem_subscriptionPlanRows.mp hrow
  rw [List.mem_singleton.mp hsub] at hstart
  obtain rfl : (0 : ℤ) = start := Option.some.inj hstart
  decide

theorem deciders_agree_started : DecidersAgree (grantedStore (some 100)) "tenant_1" "housewife_assistant" 1 := by
  refine (deciders_agree_iff (by decide) (grantedStore_synced _) (grantedStore_started _)).mpr (.inl ⟨?_, ?_⟩)
  · exact ⟨grantedSubscription (some 100), by decide, by decide, by decide, 100, rfl, by decide⟩
  · exact ⟨grantedSubscription (some 100), by decide, by decide, by decide⟩

/-- Without an end date the subscription is active for all but the billing service. -/
theorem unlimited_disagrees : ¬ ∀ (s : BillingStore) (tenantId featureKey : String) (now : ℤ), featureKey ≠ "" → s.Synced →
    s.Started tenantId now → DecidersAgree s tenantId featureKey now := by
  intro hall
  have hagree := hall (grantedStore none) "tenant_1" "housewife_assistant" 1 (by decide) (grantedStore_synced _) (grantedStore_started _)
  obtain ⟨sub, hsub, -, -, u, hu, -⟩ := billingActive_iff.mp (hagree.billing.mp (by decide))
  have hrows : (grantedStore none).featureRows "tenant_1" "housewife_assistant" = [grantedSubscription none] := by decide
  rw [hrows, List.mem_singleton] at hsub
  rw [hsub] at hu
  cases hu

end Sreda.Services
