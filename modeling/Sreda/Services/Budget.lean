import Mathlib.Algebra.BigOperators.Group.List.Basic
import Mathlib.Algebra.Order.BigOperators.Group.List
import Mathlib.Tactic.Linarith
import Sreda.Lib.PyText
import Sreda.Lib.Transition
import Sreda.Maintenance.RetentionCleanup

/-!
# Credits of a billing period

`services/budget.py`, `BudgetService`: the quota of a feature is compared with a sum over the log of
`skill_ai_executions`, from the start of the active subscription to its end. `record_llm_usage` adds to the
log, with the credits of `services/credit_formula.py`. `cleanup_runtime_retention` prunes it by age, and
`renew_cycle` moves the end of a subscription and not its start.

The product with the off-peak factor and its `math.ceil` are in floating point: any function. The column
`credits_monthly_quota` is a function of the plan.

## What is proved

* what one step does to the credits used (`usageStep_used`);
* as long as a cleanup finds no old usage that counts, the credits used never decrease, and a renewal leaves
  earlier usage behind exactly when there is none that counts (`quota_period`);
* in a free period there is old usage (`quota_forgotten`).
-/

namespace Sreda.Services

open Sreda.Lib Sreda.Maintenance

/-! ### Credits -/

/-- `_OFFPEAK_START_UTC <= utc_time <= _OFFPEAK_END_UTC`. -/
def isOffpeak (now : ℤ) : Bool :=
  let utcTime := now % 86400000000
  57600000000 ≤ utcTime && utcTime ≤ 86399000000

/-- `(model or "").strip().lower()`. -/
def modelKey (model : String) : String := String.ofList (PyText.lower (PyText.strip model.toList))

section Formula

-- `math.ceil(raw * factor)`, off-peak or not
variable (ceilTimes : Bool → ℕ → ℕ)

/-- `credits_for`. -/
def creditsFor (model : String) (promptTokens completionTokens now : ℤ) : ℕ :=
  let total := (max 0 promptTokens + max 0 completionTokens).toNat
  if total = 0 then 0
  else if modelKey model = "mimo-v2-tts" then 0
  else
    let rate :=
      if modelKey model = "mimo-v2.5-pro" ∨ modelKey model = "mimo-v2-pro" then 2
      else if modelKey model = "mimo-v2.5" ∨ modelKey model = "mimo-v2-omni" then 1
      else 2
    ceilTimes (isOffpeak now) (total * rate)

/-- The arguments of `record_llm_usage` that the log keeps; the `uuid4` in the id of the row is `rowId`. -/
structure LlmUsage where
  rowId : String
  tenantId : String
  featureKey : String
  model : String
  promptTokens : ℤ
  completionTokens : ℤ
  creditsOverride : Option ℤ
  deriving DecidableEq

/-- The credits of a call. -/
def LlmUsage.credits (usage : LlmUsage) (now : ℤ) : ℤ :=
  usage.creditsOverride.getD (creditsFor ceilTimes usage.model usage.promptTokens usage.completionTokens now)

/-- The row of a call. -/
def LlmUsage.row (usage : LlmUsage) (now : ℤ) : SkillAIExecution where
  id := usage.rowId
  tenantId := usage.tenantId
  featureKey := usage.featureKey
  creditsConsumed := usage.credits ceilTimes now
  createdAt := now

/-- `record_llm_usage`: the log and the credits, nothing when the flush fails. -/
def recordLlmUsage (log : Keyed SkillAIExecution.id) (usage : LlmUsage) (now : ℤ) : Option (Keyed SkillAIExecution.id × ℤ) :=
  (log.insert? (usage.row ceilTimes now)).map fun log => (log, usage.credits ceilTimes now)

end Formula

/-! ### The quota -/

/-- `QuotaStatus`. -/
structure QuotaStatus where
  featureKey : String
  isSubscribed : Bool
  isExhausted : Bool
  creditsUsed : ℤ
  creditsQuota : Option ℤ
  periodStart : Option ℤ
  periodEnd : Option ℤ
  deriving DecidableEq

/-- `_active_subscription`. -/
def activeSubscription (s : BillingStore) (tenantId featureKey : String) (now : ℤ) :
    Option (TenantSubscription × SubscriptionPlan) :=
  ((s.subscriptionPlanRows tenantId).filter fun row => row.1.status = .active ∧ row.2.featureKey = featureKey).find? fun row =>
    !row.1.startsAt.any (now < ·) && row.1.activeUntil.all (now < ·)

/-- The filter of `_sum_credits`. -/
def isCounted (tenantId featureKey : String) (periodStart : ℤ) (periodEnd : Option ℤ) (row : SkillAIExecution) : Bool :=
  row.tenantId = tenantId && row.featureKey = featureKey && periodStart ≤ row.createdAt && periodEnd.all (row.createdAt ≤ ·)

/-- `_sum_credits`. -/
def sumCredits (log : Keyed SkillAIExecution.id) (tenantId featureKey : String) (periodStart : ℤ) (periodEnd : Option ℤ) : ℤ :=
  ((log.rows.filter (isCounted tenantId featureKey periodStart periodEnd)).map (·.creditsConsumed)).sum

/-- `get_quota_status`; `creditsMonthlyQuota` is the column of the plan. -/
def getQuotaStatus (creditsMonthlyQuota : SubscriptionPlan → Option ℤ) (s : BillingStore) (log : Keyed SkillAIExecution.id)
    (tenantId featureKey : String) (now : ℤ) : QuotaStatus :=
  match activeSubscription s tenantId featureKey now with
  | none =>
    { featureKey, isSubscribed := false, isExhausted := true, creditsUsed := 0, creditsQuota := none
      periodStart := none, periodEnd := none }
  | some (sub, plan) =>
    let periodStart := sub.startsAt.getD now
    let used := sumCredits log tenantId featureKey periodStart sub.activeUntil
    { featureKey, isSubscribed := true
      isExhausted := (creditsMonthlyQuota plan).any (· ≤ used)
      creditsUsed := used
      creditsQuota := creditsMonthlyQuota plan
      periodStart := some periodStart
      periodEnd := sub.activeUntil }

/-! ### Usage over time -/

/-- The clock and the operational logs. -/
structure UsageState where
  now : ℤ
  store : RuntimeStore

/-- The log of usage. -/
def UsageState.log (u : UsageState) : Keyed SkillAIExecution.id := u.store.logs.skillAiExecutions

/-- What happens. -/
inductive UsageAction where
  | record (usage : LlmUsage)
  | cleanup (chunkSize fuel : ℕ)
  | advance (now : ℤ)

/-- One step: a call is recorded, the retention runs, or time passes. -/
inductive UsageStep (ceilTimes : Bool → ℕ → ℕ) : UsageState → UsageAction → UsageState → Prop where
  | record {u : UsageState} {usage : LlmUsage} {log : Keyed SkillAIExecution.id} {credits : ℤ} :
    0 ≤ usage.promptTokens → 0 ≤ usage.completionTokens → (∀ credits ∈ usage.creditsOverride, 0 ≤ credits) →
    recordLlmUsage ceilTimes u.log usage u.now = some (log, credits) →
    UsageStep ceilTimes u (.record usage)
      { u with store := { u.store with logs := { u.store.logs with skillAiExecutions := log } } }
  | cleanup {u : UsageState} {chunkSize fuel : ℕ} {states : List RuntimeStore} :
    1 ≤ chunkSize → u.store.linked.inboundMessages.rows.length < fuel → u.store.linked.jobs.rows.length < fuel →
    cleanupRuntimeRetention u.now chunkSize fuel u.store = some states →
    UsageStep ceilTimes u (.cleanup chunkSize fuel) { u with store := states.getLastD u.store }
  | advance {u : UsageState} {now : ℤ} : u.now ≤ now → UsageStep ceilTimes u (.advance now) { u with now }

/-- The usage of all tenants; the foreign keys hold. -/
def usageLts (ceilTimes : Bool → ℕ → ℕ) : Lts UsageState UsageAction where
  init u := ForeignKeys u.store.linked
  step := UsageStep ceilTimes

section Period

variable (creditsMonthlyQuota : SubscriptionPlan → Option ℤ) (s : BillingStore) (tenantId featureKey : String)

/-- What `get_quota_status` says in a state. -/
def UsageState.status (u : UsageState) : QuotaStatus := getQuotaStatus creditsMonthlyQuota s u.log tenantId featureKey u.now

variable (sub : TenantSubscription) (plan : SubscriptionPlan)

/-- The subscription is the active one. -/
def Inside (u : UsageState) : Prop := activeSubscription s tenantId featureKey u.now = some (sub, plan)

/-- No usage with credits that counts is past the window of the log. -/
def NoOldUsage (u : UsageState) : Prop :=
  ∀ row ∈ u.log.rows, isCounted tenantId featureKey (sub.startsAt.getD u.now) sub.activeUntil row = true →
    pastWindow u.now skillAiExecutionsDays row.createdAt = true → row.creditsConsumed ≤ 0

/-- Within the period, and every cleanup finds no old usage. -/
def KeepsUsage (u : UsageState) : UsageAction → Prop
  | .cleanup _ _ => Inside s tenantId featureKey sub plan u ∧ NoOldUsage tenantId featureKey sub u
  | _ => Inside s tenantId featureKey sub plan u

end Period

/-! ### Sums over a log -/

section Sums

variable {counted dropped : SkillAIExecution → Bool} {rows : List SkillAIExecution}

/-- The sum over what counts, without what is dropped. -/
theorem sum_split :
    ((rows.filter counted).map (·.creditsConsumed)).sum =
      (((rows.filter fun row => !dropped row).filter counted).map (·.creditsConsumed)).sum +
        ((rows.filter fun row => counted row && dropped row).map (·.creditsConsumed)).sum := by
  induction rows with
  | nil => rfl
  | cons row rows ih =>
    cases hc : counted row <;> cases hd : dropped row <;>
      simp only [List.filter_cons, hc, hd, Bool.and_true, Bool.and_false, Bool.not_true, Bool.not_false, if_true,
        Bool.false_eq_true, if_false, List.map_cons, List.sum_cons, ih] <;> omega

theorem sum_nonpos (h : ∀ row ∈ rows, row.creditsConsumed ≤ 0) : (rows.map (·.creditsConsumed)).sum ≤ 0 := by
  induction rows with
  | nil => exact le_rfl
  | cons row rows ih =>
    have hrow := h row (by simp)
    have hrest := ih fun row hrow => h row (by simp [hrow])
    rw [List.map_cons, List.sum_cons]
    linarith

/-- A sum of credits is nothing when none of them is positive. -/
theorem sum_nonpos_iff (hnonneg : ∀ row ∈ rows, 0 ≤ row.creditsConsumed) :
    (rows.map (·.creditsConsumed)).sum ≤ 0 ↔ ∀ row ∈ rows, row.creditsConsumed ≤ 0 := by
  refine ⟨fun h => ?_, sum_nonpos⟩
  induction rows with
  | nil => exact fun _ hrow => (by cases hrow)
  | cons row rows ih =>
    have hrow := hnonneg row (by simp)
    have hrest : 0 ≤ (rows.map (·.creditsConsumed)).sum :=
      List.sum_nonneg fun credits hcredits => by
        obtain ⟨other, hother, rfl⟩ := List.mem_map.mp hcredits
        exact hnonneg other (by simp [hother])
    rw [List.map_cons, List.sum_cons] at h
    intro other hother
    rcases List.mem_cons.mp hother with rfl | hother
    · linarith
    · exact ih (fun row hrow => hnonneg row (by simp [hrow])) (by linarith) other hother

end Sums

/-! ### What a step does to the credits used -/

section Steps

variable {ceilTimes : Bool → ℕ → ℕ} {creditsMonthlyQuota : SubscriptionPlan → Option ℤ} {s : BillingStore}
variable {tenantId featureKey : String} {sub : TenantSubscription} {plan : SubscriptionPlan} {start : ℤ}
variable {u v : UsageState} {action : UsageAction}

theorem status_inside (h : Inside s tenantId featureKey sub plan u) :
    (u.status creditsMonthlyQuota s tenantId featureKey).creditsUsed =
        sumCredits u.log tenantId featureKey (sub.startsAt.getD u.now) sub.activeUntil ∧
      (u.status creditsMonthlyQuota s tenantId featureKey).isExhausted =
        (creditsMonthlyQuota plan).any
          (· ≤ sumCredits u.log tenantId featureKey (sub.startsAt.getD u.now) sub.activeUntil) := by
  have hactive : activeSubscription s tenantId featureKey u.now = some (sub, plan) := h
  constructor <;> simp only [UsageState.status, getQuotaStatus, hactive]

/-- A call with tokens and credits that are not negative. -/
theorem credits_nonneg {usage : LlmUsage} {now : ℤ} (h : ∀ credits ∈ usage.creditsOverride, 0 ≤ credits) :
    0 ≤ usage.credits ceilTimes now := by
  unfold LlmUsage.credits
  cases hcredits : usage.creditsOverride with
  | none => exact Int.natCast_nonneg _
  | some credits => exact h credits hcredits

theorem cleanup_log {now : ℤ} {store : RuntimeStore} {states : List RuntimeStore} {chunkSize fuel : ℕ}
    (hkeys : ForeignKeys store.linked) (hchunk : 1 ≤ chunkSize) (hinbound : store.linked.inboundMessages.rows.length < fuel)
    (hjobs : store.linked.jobs.rows.length < fuel) (h : cleanupRuntimeRetention now chunkSize fuel store = some states) :
    states.getLastD store = store.retained now ∧ ForeignKeys (states.getLastD store).linked := by
  have htakes : Takes (cleanupRuntimeRetention now chunkSize fuel) KeysHold store (store.retained now) :=
    cleanup_takes hchunk hkeys hinbound hjobs
  obtain ⟨states', hrun, hlast, -⟩ := id htakes
  obtain rfl : states' = states := Option.some.inj (hrun.symm.trans h)
  exact ⟨hlast, hlast ▸ htakes.keeps hkeys⟩

theorem usageStep_keys (h : UsageStep ceilTimes u action v) (hkeys : ForeignKeys u.store.linked) : ForeignKeys v.store.linked := by
  cases h with
  | record => exact hkeys
  | cleanup hchunk hinbound hjobs hrun => exact (cleanup_log hkeys hchunk hinbound hjobs hrun).2
  | advance => exact hkeys

/-- The usage that counts and is past the window of the log. -/
def oldUsage (u : UsageState) (tenantId featureKey : String) (periodStart : ℤ) (periodEnd : Option ℤ) : List SkillAIExecution :=
  u.log.rows.filter fun row =>
    isCounted tenantId featureKey periodStart periodEnd row && pastWindow u.now skillAiExecutionsDays row.createdAt

theorem mem_oldUsage {periodStart : ℤ} {periodEnd : Option ℤ} {row : SkillAIExecution} :
    row ∈ oldUsage u tenantId featureKey periodStart periodEnd ↔
      row ∈ u.log.rows ∧ isCounted tenantId featureKey periodStart periodEnd row = true ∧
        pastWindow u.now skillAiExecutionsDays row.createdAt = true := by
  rw [oldUsage, List.mem_filter, Bool.and_eq_true]

/-- The sum after a cleanup, and what the cleanup has taken from it. -/
theorem cleanup_sum {chunkSize fuel : ℕ} (h : UsageStep ceilTimes u (.cleanup chunkSize fuel) v)
    (hkeys : ForeignKeys u.store.linked) (tenantId featureKey : String) (periodStart : ℤ) (periodEnd : Option ℤ) :
    v.now = u.now ∧ sumCredits u.log tenantId featureKey periodStart periodEnd =
      sumCredits v.log tenantId featureKey periodStart periodEnd +
        ((oldUsage u tenantId featureKey periodStart periodEnd).map (·.creditsConsumed)).sum := by
  cases h with
  | cleanup hchunk hinbound hjobs hrun =>
    refine ⟨rfl, ?_⟩
    rw [UsageState.log, UsageState.log, (cleanup_log hkeys hchunk hinbound hjobs hrun).1]
    exact sum_split

/-- **One step**: the credits used grow or stay, unless a cleanup finds old usage. -/
theorem usageStep_used (hstart : sub.startsAt = some start) (h : UsageStep ceilTimes u action v)
    (hkeys : ForeignKeys u.store.linked) (hguard : KeepsUsage s tenantId featureKey sub plan u action)
    (hv : Inside s tenantId featureKey sub plan v) :
    (u.status creditsMonthlyQuota s tenantId featureKey).creditsUsed ≤
      (v.status creditsMonthlyQuota s tenantId featureKey).creditsUsed := by
  rw [(status_inside hv).1, hstart, Option.getD_some]
  cases action with
  | record usage =>
    rw [(status_inside hguard).1, hstart, Option.getD_some]
    cases h with
    | record _ _ hcredits hrecord =>
      obtain ⟨log, hinsert, heq⟩ := Option.map_eq_some_iff.mp hrecord
      obtain ⟨rfl, rfl⟩ := Prod.mk.inj heq
      have hnonneg : 0 ≤ usage.credits ceilTimes u.now := credits_nonneg hcredits
      simp only [sumCredits, UsageState.log, Keyed.rows_insert? hinsert, List.filter_append, List.map_append, List.sum_append]
      refine le_add_of_nonneg_right (List.sum_nonneg fun credits hmem => ?_)
      obtain ⟨row, hrow, rfl⟩ := List.mem_map.mp hmem
      rw [List.mem_singleton.mp (List.mem_filter.mp hrow).1]
      exact hnonneg
  | cleanup chunkSize fuel =>
    obtain ⟨hin, hold⟩ := hguard
    rw [(status_inside hin).1, hstart, Option.getD_some]
    have hsum := (cleanup_sum h hkeys tenantId featureKey start sub.activeUntil).2
    have htaken : ((oldUsage u tenantId featureKey start sub.activeUntil).map (·.creditsConsumed)).sum ≤ 0 := by
      refine sum_nonpos fun row hrow => ?_
      obtain ⟨hmem, hcounted, hpast⟩ := mem_oldUsage.mp hrow
      exact hold row hmem (by rwa [hstart]) hpast
    linarith
  | advance now =>
    rw [(status_inside hguard).1, hstart, Option.getD_some]
    cases h
    exact le_rfl

/-- A cleanup leaves the credits used as they are exactly when it finds no old usage. -/
theorem cleanup_used_iff {chunkSize fuel : ℕ} (h : UsageStep ceilTimes u (.cleanup chunkSize fuel) v)
    (hkeys : ForeignKeys u.store.linked) (hnonneg : ∀ row ∈ u.log.rows, 0 ≤ row.creditsConsumed)
    (hu : Inside s tenantId featureKey sub plan u) (hv : Inside s tenantId featureKey sub plan v) :
    (u.status creditsMonthlyQuota s tenantId featureKey).creditsUsed ≤
        (v.status creditsMonthlyQuota s tenantId featureKey).creditsUsed ↔ NoOldUsage tenantId featureKey sub u := by
  obtain ⟨hnow, hsum⟩ := cleanup_sum h hkeys tenantId featureKey (sub.startsAt.getD u.now) sub.activeUntil
  have hpositive : ∀ row ∈ oldUsage u tenantId featureKey (sub.startsAt.getD u.now) sub.activeUntil, 0 ≤ row.creditsConsumed :=
    fun row hrow => hnonneg row (mem_oldUsage.mp hrow).1
  have htaken := sum_nonpos_iff hpositive
  simp only [mem_oldUsage, and_imp] at htaken
  rw [(status_inside hu).1, (status_inside hv).1, hnow, NoOldUsage, ← htaken]
  constructor <;> intro _ <;> linarith

theorem usageRun_used {as : List UsageAction} (hstart : sub.startsAt = some start) (hkeys : ForeignKeys u.store.linked)
    (h : ((usageLts ceilTimes).guard (KeepsUsage s tenantId featureKey sub plan)).Run u as v)
    (hv : Inside s tenantId featureKey sub plan v) :
    (u.status creditsMonthlyQuota s tenantId featureKey).creditsUsed ≤
      (v.status creditsMonthlyQuota s tenantId featureKey).creditsUsed := by
  have hrun : ForeignKeys v.store.linked ∧ (Inside s tenantId featureKey sub plan v →
      (u.status creditsMonthlyQuota s tenantId featureKey).creditsUsed ≤
        (v.status creditsMonthlyQuota s tenantId featureKey).creditsUsed) := by
    clear hv
    induction h with
    | nil => exact ⟨hkeys, fun _ => le_rfl⟩
    | @snoc t w _ action _ hstep ih =>
      obtain ⟨hstep, hguard⟩ := hstep
      obtain ⟨hmid, hle⟩ := ih
      refine ⟨usageStep_keys hstep hmid, fun hw => (hle ?_).trans (usageStep_used hstart hstep hmid hguard hw)⟩
      cases action with
      | cleanup => exact hguard.1
      | record => exact hguard
      | advance => exact hguard
  exact hrun.2 hv

end Steps

/-! ### A renewal -/

section Renewal

variable {creditsMonthlyQuota : SubscriptionPlan → Option ℤ} {s s' : BillingStore} {tenantId featureKey orderId : String}
variable {now : ℤ} {cycle : TenantBillingCycle} {before sub : TenantSubscription} {plan : SubscriptionPlan}

theorem activeSubscription_mem (h : activeSubscription s tenantId featureKey now = some (sub, plan)) :
    sub ∈ s.subscriptions.rows := by
  have hrow := (List.mem_filter.mp (List.mem_of_find?_eq_some h)).1
  obtain ⟨sub', hmem, hmap⟩ := List.mem_filterMap.mp hrow
  obtain ⟨plan', -, heq⟩ := Option.map_eq_some_iff.mp hmap
  obtain ⟨rfl, -⟩ := Prod.mk.inj heq
  exact (List.mem_filter.mp hmem).1

/-- **A renewed subscription** ends later; it starts when it did. -/
theorem renewed_period (hcycle : s.getCycle tenantId = some cycle) {result : RenewalResult}
    (hrenew : renewCycle s tenantId now orderId = .ok (s', result)) (hbefore : before ∈ s.subscriptions.rows)
    (hcharged : s.Charged tenantId before) (hsub : sub ∈ s'.subscriptions.rows) (hid : sub.id = before.id) :
    sub.startsAt = before.startsAt ∧ sub.activeUntil = some cycle.newDueDate := by
  have hitems : (s.renewable tenantId).1 ≠ [] := by
    obtain ⟨item, hitem, -⟩ := (charged_iff hbefore).mp hcharged
    exact List.ne_nil_of_mem hitem
  rcases renewCycle_cases hrenew with ⟨-, hnone | hnone⟩ | ⟨cycle', hcycle', -, rfl⟩
  · rw [hcycle] at hnone
    cases hnone
  · exact absurd hnone hitems
  · obtain rfl : cycle = cycle' := Option.some.inj (hcycle.symm.trans hcycle')
    have hget : (s.renew tenantId cycle now orderId).subscriptions.get? before.id =
        some (s.renewRow tenantId cycle now orderId before) := get?_renew hbefore
    rw [← hid, Keyed.get?_key hsub, renewRow_charged hbefore hcharged] at hget
    rw [Option.some.inj hget]
    exact ⟨rfl, rfl⟩

/-- Usage before the start of a period does not count. -/
def LeavesBehind (creditsMonthlyQuota : SubscriptionPlan → Option ℤ) (s : BillingStore) (log : Keyed SkillAIExecution.id)
    (tenantId featureKey : String) (periodStart now : ℤ) : Prop :=
  (getQuotaStatus creditsMonthlyQuota s log tenantId featureKey now).creditsUsed =
    (getQuotaStatus creditsMonthlyQuota s (log.delete fun row => row.createdAt < periodStart) tenantId featureKey now).creditsUsed

/-- A renewal leaves earlier usage behind when none with credits stands between the two starts. -/
theorem leavesBehind_iff {log : Keyed SkillAIExecution.id} {at' : ℤ} (hcycle : s.getCycle tenantId = some cycle)
    {result : RenewalResult} (hrenew : renewCycle s tenantId now orderId = .ok (s', result))
    (hnonneg : ∀ row ∈ log.rows, 0 ≤ row.creditsConsumed) (hbefore : before ∈ s.subscriptions.rows)
    (hcharged : s.Charged tenantId before) (hactive : activeSubscription s' tenantId featureKey at' = some (sub, plan))
    (hid : sub.id = before.id) :
    LeavesBehind creditsMonthlyQuota s' log tenantId featureKey cycle.nextPaymentDueAt at' ↔
      ∀ row ∈ log.rows, row.tenantId = tenantId → row.featureKey = featureKey → before.startsAt.getD at' ≤ row.createdAt →
        row.createdAt < cycle.nextPaymentDueAt → row.creditsConsumed ≤ 0 := by
  obtain ⟨hstart, hend⟩ := renewed_period hcycle hrenew hbefore hcharged (activeSubscription_mem hactive) hid
  let counted := isCounted tenantId featureKey (sub.startsAt.getD at') sub.activeUntil
  let early (row : SkillAIExecution) : Bool := row.createdAt < cycle.nextPaymentDueAt
  have hsplit : ((log.rows.filter counted).map (·.creditsConsumed)).sum =
      (((log.rows.filter fun row => !early row).filter counted).map (·.creditsConsumed)).sum +
        ((log.rows.filter fun row => counted row && early row).map (·.creditsConsumed)).sum := sum_split
  have hpositive : ∀ row ∈ log.rows.filter fun row => counted row && early row, 0 ≤ row.creditsConsumed :=
    fun row hrow => hnonneg row (List.mem_filter.mp hrow).1
  have hsum : 0 ≤ ((log.rows.filter fun row => counted row && early row).map (·.creditsConsumed)).sum :=
    List.sum_nonneg fun credits hmem => by
      obtain ⟨row, hrow, rfl⟩ := List.mem_map.mp hmem
      exact hpositive row hrow
  have hleaves : LeavesBehind creditsMonthlyQuota s' log tenantId featureKey cycle.nextPaymentDueAt at' ↔
      ((log.rows.filter fun row => counted row && early row).map (·.creditsConsumed)).sum ≤ 0 := by
    simp only [LeavesBehind, getQuotaStatus, hactive, sumCredits, Keyed.rows_delete]
    change ((log.rows.filter counted).map (·.creditsConsumed)).sum =
      (((log.rows.filter fun row => !early row).filter counted).map (·.creditsConsumed)).sum ↔ _
    constructor <;> intro _ <;> linarith
  rw [hleaves, sum_nonpos_iff hpositive]
  simp only [List.mem_filter, Bool.and_eq_true, and_imp, counted, early, isCounted, hstart, hend, decide_eq_true_eq, Option.all_some]
  refine forall_congr' fun row => forall_congr' fun _ => ?_
  constructor
  · intro h ht hf hs hlt
    have hdue : row.createdAt ≤ cycle.newDueDate := by
      simp only [TenantBillingCycle.newDueDate, days]
      omega
    exact h ht hf hs hdue hlt
  · exact fun h ht hf hs _ hlt => h ht hf hs hlt

end Renewal

/-- **The quota of a period.** Within the period of the active subscription the credits used never decrease when no
cleanup finds old usage that counts, and a cleanup that finds some decreases them. After a renewal, usage before
the new period does not count exactly when there is none with credits since the start of the subscription. -/
theorem quota_period (ceilTimes : Bool → ℕ → ℕ) (creditsMonthlyQuota : SubscriptionPlan → Option ℤ) (tenantId featureKey : String) :
    (∀ (s : BillingStore) (sub : TenantSubscription) (plan : SubscriptionPlan) (start : ℤ), sub.startsAt = some start →
      ∀ (u v : UsageState) (as : List UsageAction), ForeignKeys u.store.linked →
        ((usageLts ceilTimes).guard (KeepsUsage s tenantId featureKey sub plan)).Run u as v →
        Inside s tenantId featureKey sub plan v →
        (u.status creditsMonthlyQuota s tenantId featureKey).creditsUsed ≤
          (v.status creditsMonthlyQuota s tenantId featureKey).creditsUsed) ∧
      (∀ (s : BillingStore) (sub : TenantSubscription) (plan : SubscriptionPlan) (u v : UsageState) (chunkSize fuel : ℕ),
        ForeignKeys u.store.linked → (∀ row ∈ u.log.rows, 0 ≤ row.creditsConsumed) →
        UsageStep ceilTimes u (.cleanup chunkSize fuel) v → Inside s tenantId featureKey sub plan u →
        Inside s tenantId featureKey sub plan v →
        ((u.status creditsMonthlyQuota s tenantId featureKey).creditsUsed ≤
          (v.status creditsMonthlyQuota s tenantId featureKey).creditsUsed ↔ NoOldUsage tenantId featureKey sub u)) ∧
      ∀ (s s' : BillingStore) (orderId : String) (now at' : ℤ) (result : RenewalResult) (cycle : TenantBillingCycle)
        (log : Keyed SkillAIExecution.id) (before sub : TenantSubscription) (plan : SubscriptionPlan),
        s.getCycle tenantId = some cycle → renewCycle s tenantId now orderId = .ok (s', result) →
        (∀ row ∈ log.rows, 0 ≤ row.creditsConsumed) → before ∈ s.subscriptions.rows → s.Charged tenantId before →
        activeSubscription s' tenantId featureKey at' = some (sub, plan) → sub.id = before.id →
        (LeavesBehind creditsMonthlyQuota s' log tenantId featureKey cycle.nextPaymentDueAt at' ↔
          ∀ row ∈ log.rows, row.tenantId = tenantId → row.featureKey = featureKey →
            before.startsAt.getD at' ≤ row.createdAt → row.createdAt < cycle.nextPaymentDueAt → row.creditsConsumed ≤ 0) :=
  ⟨fun _ _ _ _ hstart _ _ _ hkeys hrun hv => usageRun_used hstart hkeys hrun hv,
    fun _ _ _ _ _ _ _ hkeys hnonneg hstep hu hv => cleanup_used_iff hstep hkeys hnonneg hu hv,
    fun _ _ _ _ _ _ _ _ _ _ _ hcycle hrenew hnonneg hbefore hcharged hactive hid =>
      leavesBehind_iff hcycle hrenew hnonneg hbefore hcharged hactive hid⟩

/-! ### A free subscription -/

def perpetualPlan : SubscriptionPlan where
  id := "plan"
  planKey := "housewife_free"
  featureKey := "housewife_assistant"
  priceRub := 0

def perpetualSubscription : TenantSubscription :=
  (⟨"sub", "tenant", "plan", "housewife_assistant", .pendingPayment, none, none, false, 1, none, none, 0, none⟩ :
    TenantSubscription).start perpetualPlan 0

/-- A tenant with a free subscription. -/
def freeTenant : BillingStore where
  plans := ⟨[perpetualPlan], by decide⟩
  subscriptions := ⟨[perpetualSubscription], by decide⟩
  cycles := .empty
  orders := []
  items := []

/-- Ten credits used at the start, and 31 days later. -/
def usedUp (now : ℤ) : UsageState where
  now := now
  store :=
    { linked := ⟨.empty, .empty, .empty, .empty, .empty, .empty, .empty, .empty, .empty⟩
      logs := ⟨⟨[⟨"skai", "tenant", "housewife_assistant", 10, 0⟩], by decide⟩, .empty, .empty, .empty, .empty, .empty, .empty⟩ }

theorem usedUp_keys (now : ℤ) : ForeignKeys (usedUp now).store.linked := by
  constructor <;> simp [References, usedUp]

theorem inside_free : activeSubscription freeTenant "tenant" "housewife_assistant" (days 31) = some (perpetualSubscription, perpetualPlan) := by
  decide

theorem quota_period_free :
    ((usedUp 0).status (fun _ => some 10) freeTenant "tenant" "housewife_assistant").creditsUsed ≤
      ((usedUp (days 31)).status (fun _ => some 10) freeTenant "tenant" "housewife_assistant").creditsUsed :=
  have hstep : UsageStep (fun _ raw => raw) (usedUp 0) (.advance (days 31)) (usedUp (days 31)) := .advance (by decide)
  (quota_period (fun _ raw => raw) (fun _ => some 10) "tenant" "housewife_assistant").1 freeTenant perpetualSubscription perpetualPlan 0 rfl
    (usedUp 0) (usedUp (days 31)) [.advance (days 31)] (usedUp_keys 0) (Lts.Run.single ⟨hstep, by unfold KeepsUsage Inside; decide⟩)
    inside_free

/-- A cleanup gives a used-up quota back. -/
theorem quota_forgotten :
    ¬ ∀ (ceilTimes : Bool → ℕ → ℕ) (creditsMonthlyQuota : SubscriptionPlan → Option ℤ) (s : BillingStore)
      (tenantId featureKey : String) (sub : TenantSubscription) (plan : SubscriptionPlan) (start : ℤ) (u v : UsageState)
      (as : List UsageAction), sub.startsAt = some start → ForeignKeys u.store.linked →
      (∀ row ∈ u.log.rows, 0 ≤ row.creditsConsumed) →
      ((usageLts ceilTimes).guard fun t _ => Inside s tenantId featureKey sub plan t).Run u as v →
      Inside s tenantId featureKey sub plan v →
      (u.status creditsMonthlyQuota s tenantId featureKey).creditsUsed ≤
        (v.status creditsMonthlyQuota s tenantId featureKey).creditsUsed := by
  intro h
  have htakes : Takes (cleanupRuntimeRetention (days 31) 1 1) KeysHold (usedUp (days 31)).store
      ((usedUp (days 31)).store.retained (days 31)) := by
    refine cleanup_takes le_rfl (usedUp_keys (days 31)) ?_ ?_ <;> decide
  obtain ⟨states, hrun, hlast, -⟩ := htakes
  have hstep : UsageStep (fun _ raw => raw) (usedUp (days 31)) (.cleanup 1 1)
      { usedUp (days 31) with store := states.getLastD (usedUp (days 31)).store } :=
    .cleanup le_rfl (by decide) (by decide) hrun
  rw [hlast] at hstep
  have hless := h (fun _ raw => raw) (fun _ => some 10) freeTenant "tenant" "housewife_assistant" perpetualSubscription perpetualPlan 0
    _ _ _ rfl (usedUp_keys _) (by decide) (Lts.Run.single ⟨hstep, inside_free⟩) inside_free
  exact absurd hless (by decide)

end Sreda.Services
