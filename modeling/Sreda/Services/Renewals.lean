import Sreda.Lib.Transition
import Sreda.Services.Subscriptions

/-!
# Renewals

What a renewal promises: the payment that was displayed is the one that is charged, and no
subscription ends earlier than before. A subscription without `active_until` does not end
(`services/agent_capabilities.py`: `NULL` is unlimited), and a free plan is started for about
100 years.

A renewal writes one due date into every subscription that it charges, free ones included, and
it expires the live subscriptions that it does not charge.

## What is proved

* the order of a renewal against the display, and what becomes of every subscription
  (`renewal_matches_display`), and a subscription that is not charged and changed
  (`lapsed_expires`);
* a renewal keeps its promise exactly when no charged subscription ends after the new due date
  (`renewals_extend`), and a free subscription that a renewal cuts short (`free_plan_cut`).
-/

namespace Sreda.Services

open Sreda.Lib

/-! ### The display and the order -/

/-- What a renewal that went from `s` to `s'` was to do. -/
structure OrderPromise (s s' : BillingStore) (tenantId : String) (now : ℤ) : Prop where
  shown : ∀ order, s'.orders = s.orders ++ [order] → (nextPaymentForDisplay s tenantId now).1 = order.amountRub
  total : ∀ order items, s'.orders = s.orders ++ [order] → s'.items = s.items ++ items →
    order.amountRub = (items.map (·.amountRub)).sum
  uncharged : ∀ sub ∈ s.subscriptions.rows, ¬ s.Charged tenantId sub → s'.subscriptions.get? sub.id = some sub

/-- What a renewal does when it creates the order `order` with the items `items`. -/
structure RenewalOf (s s' : BillingStore) (tenantId : String) (now : ℤ) (order : PaymentOrder)
    (items : List PaymentOrderItem) : Prop where
  orders : s'.orders = s.orders ++ [order]
  items_eq : s'.items = s.items ++ items
  shown : (nextPaymentForDisplay s tenantId now).1 = max order.amountRub 0
  total : order.amountRub = (items.map (·.amountRub)).sum
  /-- A charged subscription is charged by an item of the order. -/
  charged : ∀ sub ∈ s.subscriptions.rows, s.Charged tenantId sub →
    ∃ item ∈ items, item.paymentOrderId = order.id ∧ item.planId = sub.planId ∧
      item.quantity = getNextCycleQuantity sub
  /-- Another tenant's, a retired or a deprecated subscription stays as it is. -/
  untouched : ∀ sub ∈ s.subscriptions.rows, ¬ s.Live tenantId sub → s'.subscriptions.get? sub.id = some sub
  /-- A live subscription with nothing in the next cycle is expired. -/
  lapsed : ∀ sub ∈ s.subscriptions.rows, s.Live tenantId sub → ¬ s.Charged tenantId sub →
    s'.subscriptions.get? sub.id = some (sub.expire now)

variable {s s' : BillingStore} {tenantId orderId : String} {now : ℤ} {r : RenewalResult}

theorem shown_of_no_order (now : ℤ) (h : s.getCycle tenantId = none ∨ (s.renewable tenantId).1 = []) :
    (nextPaymentForDisplay s tenantId now).1 = 0 := by
  cases hc : s.getCycle tenantId with
  | none => simp [nextPaymentForDisplay, hc]
  | some cycle =>
    have hempty : (s.renewable tenantId).1 = [] := h.resolve_left (by simp [hc])
    rw [fst_nextPayment hc, renewable_snd, hempty]
    rfl

theorem exists_item {sub : TenantSubscription}
    (hmem : sub ∈ s.subscriptions.rows) (h : s.Charged tenantId sub) (cycle : TenantBillingCycle) (orderId : String) :
    ∃ item ∈ s.renewalItems tenantId cycle orderId,
      item.paymentOrderId = (s.renewalOrder tenantId cycle orderId).id ∧ item.planId = sub.planId ∧
        item.quantity = getNextCycleQuantity sub := by
  obtain ⟨⟨ht, plan, hp, hlive⟩, hq⟩ := h
  have hrow : (sub, plan) ∈ s.liveRows tenantId := mem_liveRows.mpr ⟨hmem, ht, hp, hlive⟩
  have hitem : itemOf (sub, plan) ∈ (s.renewable tenantId).1 := by
    rw [renewable_fst]
    exact List.mem_map_of_mem (List.mem_filter.mpr ⟨hrow, by simpa using hq⟩)
  exact ⟨_, List.mem_map_of_mem hitem, rfl, (Keyed.get?_eq_some.mp hp).2, rfl⟩

/-- **A renewal and the display**: either nothing is renewed, nothing changes and the display
shows 0; or an order is created for the sum of its items, the display shows its total (0 for a
negative one), a subscription that is not looked at stays as it is, and a live one that is not
charged is expired. -/
theorem renewal_matches_display (s s' : BillingStore) (tenantId orderId : String) (now : ℤ) (r : RenewalResult)
    (h : renewCycle s tenantId now orderId = .ok (s', r)) :
    (s' = s ∧ (nextPaymentForDisplay s tenantId now).1 = 0) ∨
      ∃ order items, RenewalOf s s' tenantId now order items := by
  rcases renewCycle_cases h with ⟨rfl, hnone⟩ | ⟨cycle, hc, -, rfl⟩
  · exact .inl ⟨rfl, shown_of_no_order now hnone⟩
  · refine .inr ⟨s.renewalOrder tenantId cycle orderId, s.renewalItems tenantId cycle orderId, ?_⟩
    refine ⟨rfl, rfl, fst_nextPayment hc now, amount_eq_total s tenantId cycle orderId, ?_, ?_, ?_⟩
    · intro sub hmem hcharged
      exact exists_item hmem hcharged cycle orderId
    · intro sub hmem hlive
      rw [get?_renew hmem, renewRow_not_live hmem hlive]
    · intro sub hmem hlive hcharged
      rw [get?_renew hmem, renewRow_lapsed hmem hlive hcharged]

/-! ### The end of a subscription -/

/-- `after` is not before `before`; none is no end. -/
def NotEarlier : Option ℤ → Option ℤ → Prop
  | _, none => True
  | none, some _ => False
  | some before, some after => before ≤ after

theorem NotEarlier.refl (u : Option ℤ) : NotEarlier u u := by
  cases u with
  | none => trivial
  | some u => exact le_rfl

theorem NotEarlier.trans {u v w : Option ℤ} (h : NotEarlier u v) (h' : NotEarlier v w) : NotEarlier u w := by
  cases w with
  | none => cases u <;> trivial
  | some w =>
    cases v with
    | none => cases h'
    | some v =>
      cases u with
      | none => cases h
      | some u => exact le_trans (b := v) h h'

/-- No subscription of `s` ends earlier in `t`. -/
def NeverShortens (s t : BillingStore) : Prop :=
  ∀ sub ∈ s.subscriptions.rows, ∃ sub', t.subscriptions.get? sub.id = some sub' ∧
    NotEarlier sub.activeUntil sub'.activeUntil

theorem NeverShortens.refl (s : BillingStore) : NeverShortens s s :=
  fun sub hmem => ⟨sub, Keyed.get?_key hmem, .refl _⟩

theorem NeverShortens.trans {t u : BillingStore} (h : NeverShortens s t) (h' : NeverShortens t u) :
    NeverShortens s u := by
  intro sub hmem
  obtain ⟨sub', hsub', hle⟩ := h sub hmem
  obtain ⟨hmem', hid⟩ := Keyed.get?_eq_some.mp hsub'
  obtain ⟨sub'', hsub'', hle'⟩ := h' sub' hmem'
  exact ⟨sub'', hid ▸ hsub'', hle.trans hle'⟩

/-- What the renewal of a tenant that went from `s` to `s'` was to do. -/
structure RenewalGuarantees (s s' : BillingStore) (tenantId : String) : Prop where
  never_shortens : NeverShortens s s'
  /-- An order with a positive total extends every charged subscription to the same due date. -/
  same_due : ∀ order, s'.orders = s.orders ++ [order] → 0 < order.amountRub →
    ∃ due, ∀ sub ∈ s.subscriptions.rows, s.Charged tenantId sub →
      ∃ sub', s'.subscriptions.get? sub.id = some sub' ∧ sub'.activeUntil = some due

/-- No subscription that a renewal of the tenant charges ends after the new due date. -/
def BillingStore.Covers (s : BillingStore) (tenantId : String) : Prop :=
  ∀ cycle, s.getCycle tenantId = some cycle → ∀ sub ∈ s.subscriptions.rows, s.Charged tenantId sub →
    NotEarlier sub.activeUntil (some cycle.newDueDate)

/-- The arguments of a renewal. -/
structure RenewCall where
  tenantId : String
  now : ℤ
  orderId : String

/-- Renewals, from any state. One that fails is rolled back. -/
def renewals : Lts BillingStore RenewCall where
  init _ := True
  step s call t :=
    (∃ r, renewCycle s call.tenantId call.now call.orderId = .ok (t, r)) ∨
      (∃ e, renewCycle s call.tenantId call.now call.orderId = .error e) ∧ t = s

/-- A subscription that is not charged ends when it did. -/
theorem activeUntil_of_not_charged {cycle : TenantBillingCycle}
    {sub : TenantSubscription} (hmem : sub ∈ s.subscriptions.rows) (h : ¬ s.Charged tenantId sub) :
    (s.renewRow tenantId cycle now orderId sub).activeUntil = sub.activeUntil := by
  by_cases hlive : s.Live tenantId sub
  · rw [renewRow_lapsed hmem hlive h]
    rfl
  · rw [renewRow_not_live hmem hlive]

theorem neverShortens_of_covers
    (h : renewCycle s tenantId now orderId = .ok (s', r)) (hcovers : s.Covers tenantId) : NeverShortens s s' := by
  rcases renewCycle_cases h with ⟨rfl, -⟩ | ⟨cycle, hc, -, rfl⟩
  · exact .refl s'
  · intro sub hmem
    refine ⟨_, get?_renew hmem, ?_⟩
    by_cases hcharged : s.Charged tenantId sub
    · rw [renewRow_charged hmem hcharged]
      exact hcovers cycle hc sub hmem hcharged
    · rw [activeUntil_of_not_charged hmem hcharged]
      exact .refl _

theorem covers_of_neverShortens
    (h : renewCycle s tenantId now orderId = .ok (s', r)) (hkeep : NeverShortens s s') : s.Covers tenantId := by
  intro cycle hcycle sub hmem hcharged
  have hitems : (s.renewable tenantId).1 ≠ [] := by
    obtain ⟨item, hitem, -⟩ := (charged_iff hmem).mp hcharged
    exact List.ne_nil_of_mem hitem
  rcases renewCycle_cases h with ⟨-, hnone | hempty⟩ | ⟨cycle', hc, -, rfl⟩
  · rw [hcycle] at hnone
    cases hnone
  · exact absurd hempty hitems
  · obtain rfl : cycle = cycle' := Option.some.inj (hcycle.symm.trans hc)
    obtain ⟨sub', hsub', hle⟩ := hkeep sub hmem
    rw [get?_renew hmem, renewRow_charged hmem hcharged] at hsub'
    cases hsub'
    exact hle

theorem same_due_date (h : renewCycle s tenantId now orderId = .ok (s', r)) {order : PaymentOrder}
    (horder : s'.orders = s.orders ++ [order]) :
    ∃ due, ∀ sub ∈ s.subscriptions.rows, s.Charged tenantId sub →
      ∃ sub', s'.subscriptions.get? sub.id = some sub' ∧ sub'.activeUntil = some due := by
  rcases renewCycle_cases h with ⟨rfl, -⟩ | ⟨cycle, -, -, rfl⟩
  · -- no order is created
    have hlength := congrArg List.length horder
    rw [List.length_append, List.length_singleton] at hlength
    omega
  · refine ⟨cycle.newDueDate, fun sub hmem hcharged => ⟨_, get?_renew hmem, ?_⟩⟩
    rw [renewRow_charged hmem hcharged]
    rfl

/-- The renewals of a run that cover what they charge shorten nothing. -/
theorem run_neverShortens {t : BillingStore} {calls : List RenewCall}
    (h : (renewals.guard fun s call => s.Covers call.tenantId).Run s calls t) : NeverShortens s t := by
  induction h with
  | nil => exact .refl _
  | snoc _ hstep ih =>
    obtain ⟨⟨r, hr⟩ | ⟨-, rfl⟩, hcovers⟩ := hstep
    · exact ih.trans (neverShortens_of_covers hr hcovers)
    · exact ih

/-- **Renewals**: a run of renewals none of which charges a subscription that ends after its new
due date shortens no subscription; and, from every state, a renewal keeps its promise exactly
when it charges no such subscription. -/
theorem renewals_extend (s t : BillingStore) :
    (∀ calls, (renewals.guard fun s call => s.Covers call.tenantId).Run s calls t → NeverShortens s t) ∧
      ∀ tenantId now orderId r, renewCycle s tenantId now orderId = .ok (t, r) →
        (RenewalGuarantees s t tenantId ↔ s.Covers tenantId) := by
  refine ⟨fun calls h => run_neverShortens h, fun tenantId now orderId r h => ⟨?_, ?_⟩⟩
  · intro hg
    exact covers_of_neverShortens h hg.never_shortens
  · intro hcovers
    exact ⟨neverShortens_of_covers h hcovers, fun _ horder _ => same_due_date h horder⟩

/-! ### Stores -/

def freePlan : SubscriptionPlan where
  id := "plan_free"
  planKey := "housewife_free"
  featureKey := "housewife_assistant"
  priceRub := 0

def paidPlan : SubscriptionPlan where
  id := "plan_paid"
  planKey := "translator_base"
  featureKey := "translator"
  priceRub := 300

def januaryCycle : TenantBillingCycle where
  id := "cycle_1"
  tenantId := "tenant_1"
  billingAnchorAt := 0
  nextPaymentDueAt := days 30
  createdAt := 0
  updatedAt := 0

def freeSubscription : TenantSubscription :=
  ⟨"sub_1", "tenant_1", "plan_free", "housewife_assistant", .active, some 0, some (days 36500), false, 1, some 1,
    none, 0, none⟩

def paidSubscription : TenantSubscription :=
  ⟨"sub_2", "tenant_1", "plan_paid", "translator", .active, some 0, some (days 30), false, 1, some 1, none, 0, none⟩

def storeOf (subscriptions : Keyed TenantSubscription.id) : BillingStore where
  plans := ⟨[freePlan, paidPlan], by decide⟩
  subscriptions := subscriptions
  cycles := ⟨[januaryCycle], by decide⟩
  orders := []
  items := []

/-- The free plan alone, as a start leaves it. -/
def freeStore : BillingStore := storeOf ⟨[freeSubscription], by decide⟩

example : startSimpleSubscription (storeOf .empty) "tenant_1" "housewife_free" 0 "sub_1" = .ok (freeStore, .connected) := by
  rfl

/-- The paid plan alone. -/
def paidStore : BillingStore := storeOf ⟨[paidSubscription], by decide⟩

/-- The paid plan beside the free one that the tenant has cancelled. -/
def lapsedStore : BillingStore := storeOf ⟨[freeSubscription.cancel 0, paidSubscription], by decide⟩

theorem activePerFeature_of_nodup {rows : List TenantSubscription}
    (h : (rows.map fun sub => (sub.tenantId, sub.featureKey)).Nodup) : activePerFeature rows = true := by
  simp only [activePerFeature, decide_eq_true_eq]
  exact h.sublist (List.filter_sublist.map _)

/-- Rows of distinct features are written whatever their order is. -/
theorem flushes_of_nodup {rows : List TenantSubscription} {set : TenantSubscription → TenantSubscription}
    (hset : ∀ sub, (set sub).tenantId = sub.tenantId ∧ (set sub).featureKey = sub.featureKey)
    (h : (rows.map fun sub => (sub.tenantId, sub.featureKey)).Nodup) : flushes rows set = true := by
  simp only [flushes, List.all_eq_true]
  intro n _
  refine activePerFeature_of_nodup ?_
  rw [List.map_map]
  convert h using 2
  funext sub
  by_cases hid : sub.id ∈ ((rows.map (·.id)).mergeSort).take n <;> simp [hid, hset]

theorem renewRow_feature (s : BillingStore) (tenantId : String) (cycle : TenantBillingCycle) (now : ℤ)
    (orderId : String) (sub : TenantSubscription) :
    (s.renewRow tenantId cycle now orderId sub).tenantId = sub.tenantId ∧
      (s.renewRow tenantId cycle now orderId sub).featureKey = sub.featureKey := by
  unfold BillingStore.renewRow renewRow
  split
  · exact ⟨rfl, rfl⟩
  · split <;> exact ⟨rfl, rfl⟩

/-- A renewal of distinct features goes through. -/
theorem renewCycle_of_nodup (s : BillingStore) (tenantId : String) (cycle : TenantBillingCycle) (now : ℤ)
    (orderId : String) (hc : s.getCycle tenantId = some cycle) (hitems : (s.renewable tenantId).1 ≠ [])
    (h : (s.subscriptions.rows.map fun sub => (sub.tenantId, sub.featureKey)).Nodup) :
    ∃ r, renewCycle s tenantId now orderId = .ok (s.renew tenantId cycle now orderId, r) := by
  have hflush : flushes s.subscriptions.rows (s.renewRow tenantId cycle now orderId) = true :=
    flushes_of_nodup (renewRow_feature s tenantId cycle now orderId) h
  refine ⟨.renewed (nextPaymentForDisplay (s.renew tenantId cycle now orderId) tenantId now), ?_⟩
  simp only [renewCycle, hc, hitems, hflush, if_false, if_true]

/-! ### Renewals of these stores -/

theorem renewal_matches_display_lapsedStore :
    ∃ s', (nextPaymentForDisplay lapsedStore "tenant_1" 0).1 = 300 ∧
      ∃ order items, RenewalOf lapsedStore s' "tenant_1" 0 order items := by
  obtain ⟨r, hr⟩ := renewCycle_of_nodup lapsedStore "tenant_1" januaryCycle 0 "po_1" rfl (by decide) (by decide)
  refine ⟨_, rfl, (renewal_matches_display _ _ _ _ _ _ hr).resolve_left ?_⟩
  rintro ⟨-, hzero⟩
  exact absurd hzero (by decide)

/-- **A subscription that is not charged and changed**: the tenant has cancelled it, and a
renewal of another one expires it. -/
theorem lapsed_expires : ¬ ∀ s s' tenantId now orderId r, renewCycle s tenantId now orderId = .ok (s', r) →
    OrderPromise s s' tenantId now := by
  intro h
  obtain ⟨r, hr⟩ := renewCycle_of_nodup lapsedStore "tenant_1" januaryCycle 0 "po_1" rfl (by decide) (by decide)
  have hcancelled := (h _ _ _ _ _ _ hr).uncharged (freeSubscription.cancel 0) (by simp [lapsedStore, storeOf])
    fun hcharged => absurd hcharged.2 (by decide)
  exact absurd hcancelled (by decide)

theorem renewals_extend_paidStore :
    ∃ t, NeverShortens paidStore t ∧ RenewalGuarantees paidStore t "tenant_1" := by
  obtain ⟨r, hr⟩ := renewCycle_of_nodup paidStore "tenant_1" januaryCycle 0 "po_1" rfl (by decide) (by decide)
  have hcovers : paidStore.Covers "tenant_1" := by
    intro cycle hc sub hmem _
    obtain rfl : januaryCycle = cycle := Option.some.inj hc
    obtain rfl : sub = paidSubscription := by simpa [paidStore, storeOf] using hmem
    show days 30 ≤ days 30 + days 30
    decide
  have hrun : (renewals.guard fun s call => s.Covers call.tenantId).Run paidStore [⟨"tenant_1", 0, "po_1"⟩] _ :=
    .single ⟨.inl ⟨r, hr⟩, hcovers⟩
  exact ⟨_, (renewals_extend _ _).1 _ hrun, ((renewals_extend _ _).2 _ _ _ _ hr).mpr hcovers⟩

/-- **A free subscription that is cut short**: it was started for about 100 years, and a renewal
ends it at the next due date. -/
theorem free_plan_cut : ¬ ∀ s t tenantId now orderId r, renewCycle s tenantId now orderId = .ok (t, r) →
    RenewalGuarantees s t tenantId := by
  intro h
  obtain ⟨r, hr⟩ := renewCycle_of_nodup freeStore "tenant_1" januaryCycle 0 "po_1" rfl (by decide) (by decide)
  obtain ⟨sub', hsub', hle⟩ := (h _ _ _ _ _ _ hr).never_shortens freeSubscription (by simp [freeStore, storeOf])
  have hcut : sub'.activeUntil = some (days 60) := by
    obtain rfl : _ = sub' := Option.some.inj hsub'
    decide
  rw [hcut] at hle
  exact absurd (show days 36500 ≤ days 60 from hle) (by decide)

end Sreda.Services
