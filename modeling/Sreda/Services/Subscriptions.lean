import Mathlib
import Sreda.Lib.Keyed

/-!
# Subscriptions of a tenant

`services/billing.py`, `BillingService`: `next_payment_for_display`, `renew_cycle`,
`start_simple_subscription` and `cancel_simple_subscription`, over the tables of
`db/models/billing.py`. Times are instants in microseconds.

The table of subscriptions has a partial unique index: a tenant has at most one active
subscription of a feature. A flush writes the changed rows in the order of their ids and the
index is checked after each of them, so a renewal may fail with an `IntegrityError`; nothing is
written then.

Left out: the texts and keyboards of the answers, the table of features and the onboarding that
a start schedules, which no function here reads.

## What is proved

What is displayed is the total of the order that a renewal creates (`fst_nextPayment`,
`amount_eq_total`), what a renewal does (`renewCycle_cases`) and what becomes of each
subscription (`Renewal.row_cases`).
-/

namespace Sreda.Services

open Sreda.Lib

/-! ### The tables -/

/-- `timedelta(days=n)`. -/
def days (n : ℤ) : ℤ := n * 86400000000

/-- `RETIRED_FEATURE_KEYS`. -/
def retiredFeatureKeys : List String := ["eds_monitor"]

/-- `is_feature_disabled`. -/
def isFeatureDisabled (featureKey : String) : Bool := featureKey ∈ retiredFeatureKeys

/-- `SubscriptionPlan`. -/
structure SubscriptionPlan where
  id : String
  planKey : String
  featureKey : String
  priceRub : ℤ
  billingPeriodDays : ℤ := 30
  isActive : Bool := true
  deriving DecidableEq

/-- The values of `TenantSubscription.status`. -/
inductive SubscriptionStatus where
  | pendingPayment | active | scheduledForCancel | expired | cancelled | suspended
  /-- Any other text. -/
  | other (text : String)
  deriving DecidableEq

/-- `TenantSubscription`. -/
structure TenantSubscription where
  id : String
  tenantId : String
  planId : String
  featureKey : String
  status : SubscriptionStatus := .pendingPayment
  startsAt : Option ℤ := none
  activeUntil : Option ℤ := none
  cancelAtPeriodEnd : Bool := false
  quantity : ℤ := 1
  nextCycleQuantity : Option ℤ := none
  lastPaymentOrderId : Option String := none
  updatedAt : ℤ
  grandfatheredAt : Option ℤ := none
  deriving DecidableEq

/-- `TenantBillingCycle`. -/
structure TenantBillingCycle where
  id : String
  tenantId : String
  billingAnchorAt : ℤ
  nextPaymentDueAt : ℤ
  createdAt : ℤ
  updatedAt : ℤ
  deriving DecidableEq

/-- `PaymentOrder`: a stub order is paid as soon as it is created. -/
structure PaymentOrder where
  id : String
  tenantId : String
  billingCycleId : Option String
  orderType : String
  amountRub : ℤ
  description : String
  deriving DecidableEq

/-- `PaymentOrderItem`. -/
structure PaymentOrderItem where
  paymentOrderId : String
  tenantId : String
  planId : String
  amountRub : ℤ
  quantity : ℤ
  periodStart : ℤ
  periodEnd : ℤ
  calculationType : String
  deriving DecidableEq

/-- The database of the billing service. -/
structure BillingStore where
  plans : Keyed SubscriptionPlan.id
  subscriptions : Keyed TenantSubscription.id
  cycles : Keyed TenantBillingCycle.id
  orders : List PaymentOrder
  items : List PaymentOrderItem

/-- What a call raises. -/
inductive BillingError where
  /-- `DeprecatedPlanError`. -/
  | deprecatedPlan (planKey : String)
  /-- `IntegrityError` of `ux_tenant_subs_active_per_feature`. -/
  | activePerFeature
  /-- `IntegrityError` of the primary key. -/
  | primaryKey
  /-- `MultipleResultsFound`. -/
  | multipleResults
  deriving DecidableEq

/-! ### The queries -/

/-- The younger one of two cycles. -/
def younger : Option TenantBillingCycle → TenantBillingCycle → Option TenantBillingCycle
  | none, cycle => some cycle
  | some best, cycle => if best.createdAt < cycle.createdAt then some cycle else some best

/-- `_get_cycle`: the youngest cycle of the tenant. -/
def BillingStore.getCycle (s : BillingStore) (tenantId : String) : Option TenantBillingCycle :=
  (s.cycles.rows.filter (·.tenantId = tenantId)).foldl younger none

/-- `_get_plan_optional`. -/
def BillingStore.getPlanOptional (s : BillingStore) (planKey : String) : Option SubscriptionPlan :=
  s.plans.rows.find? (·.planKey = planKey)

/-- The subscriptions of the tenant to a plan. -/
def BillingStore.planRows (s : BillingStore) (tenantId : String) (plan : SubscriptionPlan) : List TenantSubscription :=
  s.subscriptions.rows.filter fun sub => sub.tenantId = tenantId ∧ sub.planId = plan.id

/-- `_get_subscription_optional`, with the plan found. -/
def BillingStore.getSubscriptionOptional (s : BillingStore) (tenantId : String) (plan : SubscriptionPlan) :
    Except BillingError (Option TenantSubscription) :=
  match s.planRows tenantId plan with
  | [] => .ok none
  | [sub] => .ok (some sub)
  | _ => .error .multipleResults

/-- The subscriptions of the tenant, joined with their plans. -/
def BillingStore.subscriptionPlanRows (s : BillingStore) (tenantId : String) :
    List (TenantSubscription × SubscriptionPlan) :=
  (s.subscriptions.rows.filter (·.tenantId = tenantId)).filterMap fun sub =>
    (s.plans.get? sub.planId).map fun plan => (sub, plan)

/-- `_get_next_cycle_quantity`. -/
def getNextCycleQuantity (sub : TenantSubscription) : ℤ :=
  match sub.nextCycleQuantity with
  | some quantity => max quantity 0
  | none => max sub.quantity 0

/-- `_is_subscription_active`. -/
def isSubscriptionActive (sub : TenantSubscription) (now : ℤ) : Bool :=
  0 < sub.quantity ∧ (∃ u ∈ sub.activeUntil, now < u) ∧
    (sub.status = .active ∨ sub.status = .scheduledForCancel)

/-! ### The unique index -/

/-- `ux_tenant_subs_active_per_feature`. -/
def activePerFeature (rows : List TenantSubscription) : Bool :=
  ((rows.filter (·.status = .active)).map fun sub => (sub.tenantId, sub.featureKey)).Nodup

/-- A flush of the changes `set`: the rows are written in the order of their ids, and the index
holds after each of them. -/
def flushes (rows : List TenantSubscription) (set : TenantSubscription → TenantSubscription) : Bool :=
  let ids := (rows.map (·.id)).mergeSort
  (List.range (ids.length + 1)).all fun n =>
    activePerFeature (rows.map fun sub => if sub.id ∈ ids.take n then set sub else sub)

/-! ### The next payment -/

/-- One row of the loop of `next_payment_for_display`. -/
def addShown (amountRub : ℤ) (row : TenantSubscription × SubscriptionPlan) : ℤ :=
  if isFeatureDisabled row.2.featureKey ∨ ¬ row.2.isActive then amountRub
  else if getNextCycleQuantity row.1 ≤ 0 then amountRub
  else amountRub + row.2.priceRub * getNextCycleQuantity row.1

/-- `next_payment_for_display`. The time is not read. -/
def nextPaymentForDisplay (s : BillingStore) (tenantId : String) (_now : ℤ) : ℤ × Option ℤ :=
  match s.getCycle tenantId with
  | none => (0, none)
  | some cycle =>
    let amountRub := (s.subscriptionPlanRows tenantId).foldl addShown 0
    if amountRub ≤ 0 then (0, none) else (amountRub, some cycle.nextPaymentDueAt)

/-! ### The renewal -/

/-- An entry of `renewable_items`. -/
structure RenewableItem where
  subscription : TenantSubscription
  plan : SubscriptionPlan
  quantity : ℤ
  deriving DecidableEq

/-- What the item costs. -/
def RenewableItem.amountRub (item : RenewableItem) : ℤ := item.plan.priceRub * item.quantity

/-- One row of the loop of `renew_cycle`. -/
def addRenewable (acc : List RenewableItem × ℤ) (row : TenantSubscription × SubscriptionPlan) :
    List RenewableItem × ℤ :=
  if getNextCycleQuantity row.1 ≤ 0 then acc
  else (acc.1 ++ [⟨row.1, row.2, getNextCycleQuantity row.1⟩],
    acc.2 + row.2.priceRub * getNextCycleQuantity row.1)

/-- The rows without the retired features and the deprecated plans. -/
def BillingStore.liveRows (s : BillingStore) (tenantId : String) : List (TenantSubscription × SubscriptionPlan) :=
  (s.subscriptionPlanRows tenantId).filter fun row => !isFeatureDisabled row.2.featureKey && row.2.isActive

/-- `renewable_items` and `total_amount_rub`. -/
def BillingStore.renewable (s : BillingStore) (tenantId : String) : List RenewableItem × ℤ :=
  (s.liveRows tenantId).foldl addRenewable ([], 0)

/-- What a renewal writes into a subscription that it charges. -/
def TenantSubscription.renewed (sub : TenantSubscription) (quantity newDueDate : ℤ) (orderId : String) (now : ℤ) :
    TenantSubscription :=
  { sub with
    status := .active
    activeUntil := some newDueDate
    quantity := quantity
    nextCycleQuantity := some quantity
    cancelAtPeriodEnd := false
    lastPaymentOrderId := some orderId
    updatedAt := now }

/-- What a renewal writes into a live subscription that it does not charge. -/
def TenantSubscription.expire (sub : TenantSubscription) (now : ℤ) : TenantSubscription :=
  { sub with status := .expired, quantity := 0, nextCycleQuantity := some 0, updatedAt := now }

/-- What a renewal makes of a row of the table. -/
def renewRow (items : List RenewableItem) (live : List TenantSubscription) (newDueDate : ℤ) (orderId : String)
    (now : ℤ) (sub : TenantSubscription) : TenantSubscription :=
  match items.find? (·.subscription.id = sub.id) with
  | some item => sub.renewed item.quantity newDueDate orderId now
  | none => if sub.id ∈ live.map (·.id) then sub.expire now else sub

theorem renewRow_id (items : List RenewableItem) (live : List TenantSubscription) (newDueDate : ℤ) (orderId : String)
    (now : ℤ) (sub : TenantSubscription) : (renewRow items live newDueDate orderId now sub).id = sub.id := by
  unfold renewRow
  split
  · rfl
  · split <;> rfl

/-- The item of the order for a renewable subscription. -/
def RenewableItem.orderItem (item : RenewableItem) (order : PaymentOrder) (cycle : TenantBillingCycle)
    (newDueDate : ℤ) : PaymentOrderItem where
  paymentOrderId := order.id
  tenantId := order.tenantId
  planId := item.plan.id
  amountRub := item.plan.priceRub * item.quantity
  quantity := item.quantity
  periodStart := cycle.nextPaymentDueAt
  periodEnd := newDueDate
  calculationType := "full_cycle"

/-- `_create_paid_stub_order`, as `renew_cycle` calls it. -/
def createRenewalOrder (id tenantId : String) (cycle : TenantBillingCycle) (amountRub : ℤ) : PaymentOrder where
  id := id
  tenantId := tenantId
  billingCycleId := some cycle.id
  orderType := "cycle_renewal"
  amountRub := amountRub
  description := "Продление подписок"

/-- The answers of `renew_cycle`. -/
inductive RenewalResult where
  /-- «Пока нечего продлевать.» -/
  | noCycle
  /-- «На следующий период нет подписок для продления.» -/
  | nothingToRenew
  /-- «Подписка продлена.», with the next payment. -/
  | renewed (next : ℤ × Option ℤ)
  deriving DecidableEq

/-- `new_due_date`. -/
def TenantBillingCycle.newDueDate (cycle : TenantBillingCycle) : ℤ := cycle.nextPaymentDueAt + days 30

/-- What the renewal of a cycle makes of a row of the table of subscriptions. -/
def BillingStore.renewRow (s : BillingStore) (tenantId : String) (cycle : TenantBillingCycle) (now : ℤ)
    (orderId : String) : TenantSubscription → TenantSubscription :=
  Services.renewRow (s.renewable tenantId).1 ((s.liveRows tenantId).map (·.1)) cycle.newDueDate orderId now

theorem BillingStore.renewRow_id (s : BillingStore) (tenantId : String) (cycle : TenantBillingCycle) (now : ℤ)
    (orderId : String) (sub : TenantSubscription) : (s.renewRow tenantId cycle now orderId sub).id = sub.id :=
  Services.renewRow_id _ _ _ _ _ sub

/-- The order of the renewal of a cycle. -/
def BillingStore.renewalOrder (s : BillingStore) (tenantId : String) (cycle : TenantBillingCycle) (orderId : String) :
    PaymentOrder :=
  createRenewalOrder orderId tenantId cycle (s.renewable tenantId).2

/-- The items of the order. -/
def BillingStore.renewalItems (s : BillingStore) (tenantId : String) (cycle : TenantBillingCycle) (orderId : String) :
    List PaymentOrderItem :=
  (s.renewable tenantId).1.map (·.orderItem (s.renewalOrder tenantId cycle orderId) cycle cycle.newDueDate)

/-- What the renewal of a cycle commits. -/
def BillingStore.renew (s : BillingStore) (tenantId : String) (cycle : TenantBillingCycle) (now : ℤ)
    (orderId : String) : BillingStore where
  plans := s.plans
  subscriptions :=
    s.subscriptions.update (fun _ => true) (s.renewRow tenantId cycle now orderId)
      (s.renewRow_id tenantId cycle now orderId)
  cycles := s.cycles.update (·.id = cycle.id)
    (fun c => { c with
      billingAnchorAt := c.nextPaymentDueAt, nextPaymentDueAt := cycle.newDueDate, updatedAt := now })
    fun _ => rfl
  orders := s.orders ++ [s.renewalOrder tenantId cycle orderId]
  items := s.items ++ s.renewalItems tenantId cycle orderId

/-- `renew_cycle`. The `uuid4` in the id of the order is `orderId`. -/
def renewCycle (s : BillingStore) (tenantId : String) (now : ℤ) (orderId : String) :
    Except BillingError (BillingStore × RenewalResult) :=
  match s.getCycle tenantId with
  | none => .ok (s, .noCycle)
  | some cycle =>
    if (s.renewable tenantId).1 = [] then .ok (s, .nothingToRenew)
    else if flushes s.subscriptions.rows (s.renewRow tenantId cycle now orderId) then
      let s' := s.renew tenantId cycle now orderId
      .ok (s', .renewed (nextPaymentForDisplay s' tenantId now))
    else .error .activePerFeature

/-! ### Start and cancel -/

/-- The answers of `start_simple_subscription` and `cancel_simple_subscription`. -/
inductive SubscriptionResult where
  | planNotFound | disabled | alreadyConnected | notActive | connected | disconnected
  deriving DecidableEq

/-- What a start writes: a free plan is perpetual, about 100 years. -/
def TenantSubscription.start (sub : TenantSubscription) (plan : SubscriptionPlan) (now : ℤ) : TenantSubscription :=
  { sub with
    status := .active
    startsAt := some now
    activeUntil := some (if plan.priceRub = 0 then now + days 36500 else now + days plan.billingPeriodDays)
    cancelAtPeriodEnd := false
    quantity := 1
    nextCycleQuantity := some 1
    updatedAt := now }

/-- What a cancellation writes. -/
def TenantSubscription.cancel (sub : TenantSubscription) (now : ℤ) : TenantSubscription :=
  { sub with
    status := .cancelled
    quantity := 0
    nextCycleQuantity := some 0
    cancelAtPeriodEnd := true
    updatedAt := now }

/-- One row of the table is written. -/
def BillingStore.setSubscription (s : BillingStore) (sub : TenantSubscription)
    (set : TenantSubscription → TenantSubscription) (hset : ∀ sub, (set sub).id = sub.id) : BillingStore :=
  { s with subscriptions := s.subscriptions.update (·.id = sub.id) set hset }

/-- `start_simple_subscription`. The `uuid4` in the id of a new subscription is `subId`. -/
def startSimpleSubscription (s : BillingStore) (tenantId planKey : String) (now : ℤ) (subId : String) :
    Except BillingError (BillingStore × SubscriptionResult) :=
  match s.getPlanOptional planKey with
  | none => .ok (s, .planNotFound)
  | some plan =>
    if ¬ plan.isActive then .error (.deprecatedPlan planKey)
    else if isFeatureDisabled plan.featureKey then .ok (s, .disabled)
    else
      match s.getSubscriptionOptional tenantId plan with
      | .error e => .error e
      | .ok (some sub) =>
        if isSubscriptionActive sub now then .ok (s, .alreadyConnected)
        else
          let s' := s.setSubscription sub (·.start plan now) fun _ => rfl
          if activePerFeature s'.subscriptions.rows then .ok (s', .connected) else .error .activePerFeature
      | .ok none =>
        let sub : TenantSubscription := { id := subId, tenantId, planId := plan.id, featureKey := plan.featureKey, updatedAt := now }
        match s.subscriptions.insert? (sub.start plan now) with
        | none => .error .primaryKey
        | some subscriptions =>
          if activePerFeature subscriptions.rows then .ok ({ s with subscriptions }, .connected)
          else .error .activePerFeature

/-- `cancel_simple_subscription`. -/
def cancelSimpleSubscription (s : BillingStore) (tenantId planKey : String) (now : ℤ) :
    Except BillingError (BillingStore × SubscriptionResult) :=
  match s.getPlanOptional planKey with
  | none => .ok (s, .planNotFound)
  | some plan =>
    if isFeatureDisabled plan.featureKey then .ok (s, .disabled)
    else
      match s.getSubscriptionOptional tenantId plan with
      | .error e => .error e
      | .ok none => .ok (s, .notActive)
      | .ok (some sub) =>
        if sub.quantity ≤ 0 then .ok (s, .notActive)
        else .ok (s.setSubscription sub (·.cancel now) fun _ => rfl, .disconnected)

/-! ### What is charged -/

/-- The item that a row makes. -/
def itemOf (row : TenantSubscription × SubscriptionPlan) : RenewableItem := ⟨row.1, row.2, getNextCycleQuantity row.1⟩

theorem foldl_addRenewable (rows : List (TenantSubscription × SubscriptionPlan)) (acc : List RenewableItem × ℤ) :
    rows.foldl addRenewable acc =
      (acc.1 ++ (rows.filter (0 < getNextCycleQuantity ·.1)).map itemOf,
        acc.2 + (((rows.filter (0 < getNextCycleQuantity ·.1)).map itemOf).map (·.amountRub)).sum) := by
  induction rows generalizing acc with
  | nil => simp
  | cons row rows ih =>
    rw [List.foldl_cons, ih]
    by_cases h : getNextCycleQuantity row.1 ≤ 0
    · have h' : ¬ 0 < getNextCycleQuantity row.1 := by omega
      simp [addRenewable, h, h']
    · have h' : 0 < getNextCycleQuantity row.1 := by omega
      simp [addRenewable, h, h', itemOf, RenewableItem.amountRub, Int.add_assoc]

theorem foldl_addShown (rows : List (TenantSubscription × SubscriptionPlan)) (amountRub : ℤ)
    (acc : List RenewableItem × ℤ) (h : amountRub = acc.2) :
    rows.foldl addShown amountRub =
      ((rows.filter fun row => !isFeatureDisabled row.2.featureKey && row.2.isActive).foldl addRenewable acc).2 := by
  induction rows generalizing amountRub acc with
  | nil => exact h
  | cons row rows ih =>
    rw [List.foldl_cons]
    by_cases hlive : isFeatureDisabled row.2.featureKey ∨ ¬ row.2.isActive
    · have hskip : (!isFeatureDisabled row.2.featureKey && row.2.isActive) = false := by
        rcases hlive with hd | ha <;> simp_all
      rw [List.filter_cons_of_neg (by simp [hskip])]
      exact ih _ _ (by rw [addShown, if_pos hlive, h])
    · have hkeep : (!isFeatureDisabled row.2.featureKey && row.2.isActive) = true := by
        rw [not_or, not_not] at hlive
        simp [hlive]
      rw [List.filter_cons_of_pos (by simp [hkeep]), List.foldl_cons]
      refine ih _ _ ?_
      rw [addShown, if_neg hlive, addRenewable, h]
      split <;> rfl

/-- The items are those of the live rows with something in the next cycle. -/
theorem renewable_fst (s : BillingStore) (tenantId : String) :
    (s.renewable tenantId).1 = ((s.liveRows tenantId).filter (0 < getNextCycleQuantity ·.1)).map itemOf := by
  rw [BillingStore.renewable, foldl_addRenewable, List.nil_append]

theorem renewable_snd (s : BillingStore) (tenantId : String) :
    (s.renewable tenantId).2 = ((s.renewable tenantId).1.map (·.amountRub)).sum := by
  rw [renewable_fst, BillingStore.renewable, foldl_addRenewable]
  omega

/-- **What is displayed** is the total of a renewal, nothing when there is no cycle or the total
is not positive. -/
theorem fst_nextPayment {s : BillingStore} {tenantId : String} {cycle : TenantBillingCycle}
    (h : s.getCycle tenantId = some cycle) (now : ℤ) :
    (nextPaymentForDisplay s tenantId now).1 = max (s.renewable tenantId).2 0 := by
  have hshown : (s.subscriptionPlanRows tenantId).foldl addShown 0 = (s.renewable tenantId).2 :=
    foldl_addShown _ _ ([], 0) rfl
  simp only [nextPaymentForDisplay, h, hshown]
  split
  · show (0 : ℤ) = _
    omega
  · show (s.renewable tenantId).2 = _
    omega

theorem amount_eq_total (s : BillingStore) (tenantId : String) (cycle : TenantBillingCycle) (orderId : String) :
    (s.renewalOrder tenantId cycle orderId).amountRub =
      ((s.renewalItems tenantId cycle orderId).map (·.amountRub)).sum := by
  have hitems : (s.renewalItems tenantId cycle orderId).map (·.amountRub) =
      (s.renewable tenantId).1.map (·.amountRub) := by
    rw [BillingStore.renewalItems, List.map_map]
    rfl
  rw [hitems, ← renewable_snd]
  rfl

/-! ### What a renewal does -/

/-- **A renewal**: nothing, when there is no cycle or no item; else everything it writes. -/
theorem renewCycle_cases {s s' : BillingStore} {tenantId orderId : String} {now : ℤ} {r : RenewalResult}
    (h : renewCycle s tenantId now orderId = .ok (s', r)) :
    (s' = s ∧ (s.getCycle tenantId = none ∨ (s.renewable tenantId).1 = [])) ∨
      ∃ cycle, s.getCycle tenantId = some cycle ∧ (s.renewable tenantId).1 ≠ [] ∧
        s' = s.renew tenantId cycle now orderId := by
  unfold renewCycle at h
  split at h
  case h_1 hc =>
    cases h
    exact .inl ⟨rfl, .inl hc⟩
  case h_2 cycle hc =>
    split at h
    case isTrue hi =>
      cases h
      exact .inl ⟨rfl, .inr hi⟩
    case isFalse hi =>
      split at h
      · cases h
        exact .inr ⟨cycle, hc, hi, rfl⟩
      · cases h

/-- The subscription is one that a renewal of the tenant looks at: of its own, on a plan that is
neither retired nor deprecated. -/
def BillingStore.Live (s : BillingStore) (tenantId : String) (sub : TenantSubscription) : Prop :=
  sub.tenantId = tenantId ∧
    ∃ plan, s.plans.get? sub.planId = some plan ∧ isFeatureDisabled plan.featureKey = false ∧ plan.isActive = true

/-- The subscription is one that a renewal of the tenant charges. -/
def BillingStore.Charged (s : BillingStore) (tenantId : String) (sub : TenantSubscription) : Prop :=
  s.Live tenantId sub ∧ 0 < getNextCycleQuantity sub

theorem mem_liveRows {s : BillingStore} {tenantId : String} {sub : TenantSubscription} {plan : SubscriptionPlan} :
    (sub, plan) ∈ s.liveRows tenantId ↔
      sub ∈ s.subscriptions.rows ∧ sub.tenantId = tenantId ∧ s.plans.get? sub.planId = some plan ∧
        isFeatureDisabled plan.featureKey = false ∧ plan.isActive = true := by
  simp only [BillingStore.liveRows, BillingStore.subscriptionPlanRows, List.mem_filter, List.mem_filterMap,
    decide_eq_true_eq, Option.map_eq_some_iff, Prod.mk.injEq, Bool.and_eq_true, Bool.not_eq_true']
  constructor
  · rintro ⟨⟨sub', ⟨hmem, ht⟩, plan', hp, rfl, rfl⟩, hlive⟩
    exact ⟨hmem, ht, hp, hlive⟩
  · rintro ⟨hmem, ht, hp, hlive⟩
    exact ⟨⟨sub, ⟨hmem, ht⟩, plan, hp, rfl, rfl⟩, hlive⟩

theorem live_iff {s : BillingStore} {tenantId : String} {sub : TenantSubscription}
    (hmem : sub ∈ s.subscriptions.rows) : s.Live tenantId sub ↔ ∃ plan, (sub, plan) ∈ s.liveRows tenantId := by
  constructor
  · rintro ⟨ht, plan, hp, hlive⟩
    exact ⟨plan, mem_liveRows.mpr ⟨hmem, ht, hp, hlive⟩⟩
  · rintro ⟨plan, hrow⟩
    obtain ⟨-, ht, hp, hlive⟩ := mem_liveRows.mp hrow
    exact ⟨ht, plan, hp, hlive⟩

theorem charged_iff {s : BillingStore} {tenantId : String} {sub : TenantSubscription}
    (hmem : sub ∈ s.subscriptions.rows) :
    s.Charged tenantId sub ↔ ∃ item ∈ (s.renewable tenantId).1, item.subscription = sub := by
  rw [renewable_fst, BillingStore.Charged, live_iff hmem]
  simp only [List.mem_map, List.mem_filter, decide_eq_true_eq]
  constructor
  · rintro ⟨⟨plan, hrow⟩, hq⟩
    exact ⟨_, ⟨(sub, plan), ⟨hrow, hq⟩, rfl⟩, rfl⟩
  · rintro ⟨_, ⟨⟨sub', plan⟩, ⟨hrow, hq⟩, rfl⟩, rfl⟩
    exact ⟨⟨plan, hrow⟩, hq⟩

theorem mem_renewable {s : BillingStore} {tenantId : String} {item : RenewableItem}
    (h : item ∈ (s.renewable tenantId).1) :
    item.subscription ∈ s.subscriptions.rows ∧ item.quantity = getNextCycleQuantity item.subscription := by
  rw [renewable_fst, List.mem_map] at h
  obtain ⟨⟨sub, plan⟩, hrow, rfl⟩ := h
  exact ⟨(mem_liveRows.mp (List.mem_filter.mp hrow).1).1, rfl⟩

section Rows

variable {s : BillingStore} {tenantId orderId : String} {cycle : TenantBillingCycle} {now : ℤ}
  {sub : TenantSubscription}

theorem renewRow_charged (hmem : sub ∈ s.subscriptions.rows) (h : s.Charged tenantId sub) :
    s.renewRow tenantId cycle now orderId sub =
      sub.renewed (getNextCycleQuantity sub) cycle.newDueDate orderId now := by
  obtain ⟨item, hitem, hsub⟩ := (charged_iff hmem).mp h
  obtain ⟨found, hfound⟩ : ∃ found, (s.renewable tenantId).1.find? (·.subscription.id = sub.id) = some found := by
    refine Option.isSome_iff_exists.mp ?_
    rw [List.find?_isSome]
    exact ⟨item, hitem, by simp [hsub]⟩
  have hid : found.subscription.id = sub.id := by simpa using List.find?_some hfound
  obtain ⟨hrow, hquantity⟩ := mem_renewable (List.mem_of_find?_eq_some hfound)
  have heq : found.subscription = sub := s.subscriptions.eq_of_key hrow hmem hid
  simp only [BillingStore.renewRow, renewRow, hfound, hquantity, heq]

theorem find?_of_not_charged (hmem : sub ∈ s.subscriptions.rows) (h : ¬ s.Charged tenantId sub) :
    (s.renewable tenantId).1.find? (·.subscription.id = sub.id) = none := by
  rw [List.find?_eq_none]
  intro item hitem hid
  refine h ((charged_iff hmem).mpr ⟨item, hitem, ?_⟩)
  exact s.subscriptions.eq_of_key (mem_renewable hitem).1 hmem (by simpa using hid)

theorem renewRow_lapsed (hmem : sub ∈ s.subscriptions.rows) (hlive : s.Live tenantId sub)
    (h : ¬ s.Charged tenantId sub) : s.renewRow tenantId cycle now orderId sub = sub.expire now := by
  have hid : sub.id ∈ ((s.liveRows tenantId).map (·.1)).map (·.id) := by
    obtain ⟨plan, hrow⟩ := (live_iff hmem).mp hlive
    exact List.mem_map_of_mem (List.mem_map.mpr ⟨_, hrow, rfl⟩)
  simp only [BillingStore.renewRow, renewRow, find?_of_not_charged hmem h, hid, if_true]

theorem renewRow_not_live (hmem : sub ∈ s.subscriptions.rows) (h : ¬ s.Live tenantId sub) :
    s.renewRow tenantId cycle now orderId sub = sub := by
  have hid : sub.id ∉ ((s.liveRows tenantId).map (·.1)).map (·.id) := by
    intro hid
    simp only [List.mem_map] at hid
    obtain ⟨_, ⟨⟨sub', plan⟩, hrow, rfl⟩, heq⟩ := hid
    have hsub : sub' = sub := s.subscriptions.eq_of_key (mem_liveRows.mp hrow).1 hmem heq
    exact h ((live_iff hmem).mpr ⟨plan, hsub ▸ hrow⟩)
  simp only [BillingStore.renewRow, renewRow, find?_of_not_charged hmem fun hc => h hc.1, hid, if_false]

theorem get?_renew (hmem : sub ∈ s.subscriptions.rows) :
    (s.renew tenantId cycle now orderId).subscriptions.get? sub.id =
      some (s.renewRow tenantId cycle now orderId sub) := by
  rw [BillingStore.renew, Keyed.get?_update, Keyed.get?_key hmem]
  rfl

end Rows

end Sreda.Services
