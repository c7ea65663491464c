import Mathlib.Data.String.Basic
import Sreda.Services.Accounts

/-!
# The index of active subscriptions

The partial unique index of `tenant_subscriptions`: a tenant has at most one active subscription of a feature.

## What is proved

* the index as a statement on two rows (`activePerFeature_iff`), and when a new row and a row that is made active keep it
  (`activePerFeature_insert?`, `activePerFeature_update`);
* when the flush of a renewal does (`flushes_iff`).
-/

namespace Sreda.Services

open Sreda.Lib

/-! ### The index -/

/-- Two rows that are one entry of the index. -/
def SameFeature (a b : TenantSubscription) : Prop := a.tenantId = b.tenantId ∧ a.featureKey = b.featureKey

instance (a b : TenantSubscription) : Decidable (SameFeature a b) := inferInstanceAs (Decidable (_ ∧ _))

/-- **The index**: no two active rows of one tenant and feature. -/
theorem activePerFeature_iff {t : Keyed TenantSubscription.id} :
    activePerFeature t.rows = true ↔
      ∀ a ∈ t.rows, ∀ b ∈ t.rows, a.status = .active → b.status = .active → SameFeature a b → a.id = b.id := by
  have hnodup : (t.rows.filter (·.status = .active)).Nodup := (t.nodup.of_map _).filter _
  rw [activePerFeature, decide_eq_true_eq, List.nodup_map_iff_inj_on hnodup]
  simp only [List.mem_filter, decide_eq_true_eq, Prod.mk.injEq]
  constructor
  · exact fun h a ha b hb hactive hactive' hsame => congrArg _ (h a ⟨ha, hactive⟩ b ⟨hb, hactive'⟩ hsame)
  · exact fun h a ha b hb hsame => t.eq_of_key ha.1 hb.1 (h a ha.1 b hb.1 ha.2 hb.2 hsame)

section Index

variable {t t' : Keyed TenantSubscription.id}

/-- A table without new active rows keeps the index. -/
theorem activePerFeature_of_fewer (hindex : activePerFeature t.rows = true)
    (h : ∀ sub ∈ t'.rows, sub.status = .active → sub ∈ t.rows) : activePerFeature t'.rows = true := by
  rw [activePerFeature_iff] at hindex ⊢
  exact fun a ha b hb hactive hactive' => hindex a (h a ha hactive) b (h b hb hactive') hactive hactive'

/-- A new row that is active keeps the index if and only if its entry is not taken. -/
theorem activePerFeature_insert? {sub : TenantSubscription} (h : t.insert? sub = some t') (hactive : sub.status = .active)
    (hindex : activePerFeature t.rows = true) :
    activePerFeature t'.rows = true ↔ ∀ other ∈ t.rows, other.status = .active → ¬ SameFeature other sub := by
  have hfresh : ∀ other ∈ t.rows, other.id ≠ sub.id := Keyed.fresh_of_insert? h
  rw [activePerFeature_iff] at hindex ⊢
  rw [Keyed.rows_insert? h]
  constructor
  · intro hall other hother hstatus hsame
    exact hfresh other hother (hall other (List.mem_append_left _ hother) sub (List.mem_append_right _ (List.mem_singleton_self _))
      hstatus hactive hsame)
  · intro hnone a ha b hb hstatus hstatus' hsame
    rcases List.mem_append.mp ha with hold | hnew <;> rcases List.mem_append.mp hb with hold' | hnew'
    · exact hindex a hold b hold' hstatus hstatus' hsame
    · obtain rfl := List.mem_singleton.mp hnew'
      exact absurd hsame (hnone a hold hstatus)
    · obtain rfl := List.mem_singleton.mp hnew
      exact absurd ⟨hsame.1.symm, hsame.2.symm⟩ (hnone b hold' hstatus')
    · rw [List.mem_singleton.mp hnew, List.mem_singleton.mp hnew']

/-- A row that is made active keeps the index if and only if no other row has its entry. -/
theorem activePerFeature_update {sub : TenantSubscription} {set : TenantSubscription → TenantSubscription}
    (hset : ∀ sub, (set sub).id = sub.id) (hmem : sub ∈ t.rows) (hactive : (set sub).status = .active)
    (hsame : SameFeature (set sub) sub) (hindex : activePerFeature t.rows = true) :
    activePerFeature (t.update (·.id = sub.id) set hset).rows = true ↔
      ∀ other ∈ t.rows, other.status = .active → SameFeature other sub → other.id = sub.id := by
  rw [activePerFeature_iff] at hindex ⊢
  simp only [Keyed.mem_update hset]
  constructor
  · intro hall other hother hstatus hsame'
    by_contra hne
    have hid := hall other ⟨other, hother, by rw [if_neg (by simpa using hne)]⟩ (set sub) ⟨sub, hmem, by simp⟩ hstatus hactive
      ⟨hsame'.1.trans hsame.1.symm, hsame'.2.trans hsame.2.symm⟩
    exact hne (hid.trans (hset sub))
  · intro hall
    -- a row after the update that is not the one that was set is a row before it
    have hcases : ∀ c d, (d ∈ t.rows ∧ c = if decide (d.id = sub.id) = true then set d else d) →
        (d.id = sub.id ∧ c = set sub) ∨ (d.id ≠ sub.id ∧ c = d) := by
      rintro c d ⟨hd, rfl⟩
      by_cases hid : d.id = sub.id
      · exact .inl ⟨hid, by simp [t.eq_of_key hd hmem hid]⟩
      · exact .inr ⟨hid, by simp [hid]⟩
    rintro a ⟨a₀, ha⟩ b ⟨b₀, hb⟩ hstatus hstatus' hsame'
    rcases hcases a a₀ ha with ⟨-, rfl⟩ | ⟨hid, rfl⟩ <;> rcases hcases b b₀ hb with ⟨-, rfl⟩ | ⟨hid', rfl⟩
    · rfl
    · exact absurd (hall _ hb.1 hstatus' ⟨hsame'.1.symm.trans hsame.1, hsame'.2.symm.trans hsame.2⟩) hid'
    · exact absurd (hall _ ha.1 hstatus ⟨hsame'.1.trans hsame.1, hsame'.2.trans hsame.2⟩) hid
    · exact hindex _ ha.1 _ hb.1 hstatus hstatus' hsame'

end Index

/-! ### The flush of a renewal -/

section Prefixes

variable {α : Type} [LinearOrder α] {l : List α}

/-- In a sorted list, what is before a member of a prefix is in the prefix. -/
theorem mem_take_of_le (hsorted : l.Pairwise (· ≤ ·)) {x y : α} {n : ℕ} (hx : x ∈ l) (hy : y ∈ l.take n) (hle : x ≤ y) :
    x ∈ l.take n := by
  rw [← List.take_append_drop n l] at hx hsorted
  rcases List.mem_append.mp hx with htake | hdrop
  · exact htake
  · rw [le_antisymm hle ((List.pairwise_append.mp hsorted).2.2 y hy x hdrop)]
    exact hy

theorem exists_take (hsorted : l.Pairwise (· ≤ ·)) {x y : α} (hx : x ∈ l) (hlt : x < y) :
    ∃ n ≤ l.length, x ∈ l.take n ∧ y ∉ l.take n := by
  obtain ⟨l₁, l₂, rfl⟩ := List.append_of_mem hx
  refine ⟨(l₁ ++ [x]).length, by simp, ?_⟩
  rw [show l₁ ++ x :: l₂ = (l₁ ++ [x]) ++ l₂ by simp, List.take_left]
  refine ⟨by simp, fun hy => ?_⟩
  rcases List.mem_append.mp hy with hy | hy
  · exact absurd ((List.pairwise_append.mp hsorted).2.2 y hy x List.mem_cons_self) (not_le_of_gt hlt)
  · exact absurd (List.mem_singleton.mp hy) (ne_of_gt hlt)

end Prefixes

section Renewal

variable {s : BillingStore} {tenantId orderId : String} {cycle : TenantBillingCycle} {now : ℤ}

theorem sameFeature_renewRow (sub : TenantSubscription) : SameFeature (s.renewRow tenantId cycle now orderId sub) sub := by
  unfold BillingStore.renewRow renewRow
  split
  · exact ⟨rfl, rfl⟩
  · split <;> exact ⟨rfl, rfl⟩

theorem planId_renewRow (sub : TenantSubscription) : (s.renewRow tenantId cycle now orderId sub).planId = sub.planId := by
  unfold BillingStore.renewRow renewRow
  split
  · rfl
  · split <;> rfl

/-- A row is active after it is written if it is charged, or was active and is left as it is. -/
theorem status_renewRow {sub : TenantSubscription} (hmem : sub ∈ s.subscriptions.rows) :
    (s.renewRow tenantId cycle now orderId sub).status = .active ↔
      s.Charged tenantId sub ∨ (¬ s.Live tenantId sub ∧ sub.status = .active) := by
  by_cases hcharged : s.Charged tenantId sub
  · rw [renewRow_charged hmem hcharged]
    exact iff_of_true rfl (.inl hcharged)
  by_cases hlive : s.Live tenantId sub
  · rw [renewRow_lapsed hmem hlive hcharged]
    refine iff_of_false (fun h => ?_) (fun h => h.elim hcharged fun h => h.1 hlive)
    cases h
  · rw [renewRow_not_live hmem hlive]
    simp [hcharged, hlive]

/-- Two subscriptions of one feature would both be active at some point of the flush. -/
def BillingStore.RenewalClash (s : BillingStore) (tenantId : String) (a b : TenantSubscription) : Prop :=
  s.Charged tenantId a ∧ (s.Charged tenantId b ∨ (b.status = .active ∧ (¬ s.Live tenantId b ∨ a.id < b.id)))

/-- A row of the table after the rows with these ids are written. -/
def BillingStore.written (s : BillingStore) (tenantId : String) (cycle : TenantBillingCycle) (now : ℤ) (orderId : String)
    (ids : List String) (sub : TenantSubscription) : TenantSubscription :=
  if sub.id ∈ ids then s.renewRow tenantId cycle now orderId sub else sub

theorem id_written (ids : List String) (sub : TenantSubscription) : (s.written tenantId cycle now orderId ids sub).id = sub.id := by
  unfold BillingStore.written
  split
  · exact s.renewRow_id tenantId cycle now orderId sub
  · rfl

theorem sameFeature_written (ids : List String) (sub : TenantSubscription) :
    SameFeature (s.written tenantId cycle now orderId ids sub) sub := by
  unfold BillingStore.written
  split
  · exact sameFeature_renewRow sub
  · exact ⟨rfl, rfl⟩

/-- The index holds once these rows are written. -/
theorem index_written (ids : List String) :
    activePerFeature (s.subscriptions.rows.map (s.written tenantId cycle now orderId ids)) = true ↔
      ∀ a ∈ s.subscriptions.rows, ∀ b ∈ s.subscriptions.rows, (s.written tenantId cycle now orderId ids a).status = .active →
        (s.written tenantId cycle now orderId ids b).status = .active → SameFeature a b → a.id = b.id := by
  have htable := activePerFeature_iff (t := s.subscriptions.update (fun _ => true) (s.written tenantId cycle now orderId ids)
    (id_written ids))
  simp only [Keyed.rows_update, if_true, List.forall_mem_map, id_written] at htable
  rw [htable]
  have hsame : ∀ a b, SameFeature (s.written tenantId cycle now orderId ids a) (s.written tenantId cycle now orderId ids b) ↔
      SameFeature a b := by
    intro a b
    obtain ⟨hta, hfa⟩ : SameFeature (s.written tenantId cycle now orderId ids a) a := sameFeature_written ids a
    obtain ⟨htb, hfb⟩ : SameFeature (s.written tenantId cycle now orderId ids b) b := sameFeature_written ids b
    rw [SameFeature, SameFeature, hta, hfa, htb, hfb]
  simp only [hsame]

theorem index_of_flushes {rows : List TenantSubscription} {set : TenantSubscription → TenantSubscription}
    (h : flushes rows set = true) : activePerFeature (rows.map set) = true := by
  simp only [flushes, List.all_eq_true, List.mem_range] at h
  have hall := h (rows.map (·.id)).mergeSort.length (by omega)
  rw [List.take_length] at hall
  rwa [List.map_congr_left fun sub hsub => if_pos (List.mem_mergeSort.mpr (List.mem_map_of_mem hsub))] at hall

/-- **When the flush keeps the index**: no subscription is charged beside another one of its feature that is charged too,
or is active and stays so, or is active and is written after it. -/
theorem flushes_iff (hindex : activePerFeature s.subscriptions.rows = true) :
    flushes s.subscriptions.rows (s.renewRow tenantId cycle now orderId) = true ↔
      ∀ a ∈ s.subscriptions.rows, ∀ b ∈ s.subscriptions.rows, SameFeature a b → a.id ≠ b.id → ¬ s.RenewalClash tenantId a b := by
  rw [activePerFeature_iff] at hindex
  let ids := (s.subscriptions.rows.map (·.id)).mergeSort
  have hsorted : ids.Pairwise (· ≤ ·) := List.pairwise_mergeSort' (· ≤ ·) _
  have hids : ∀ sub ∈ s.subscriptions.rows, sub.id ∈ ids := fun sub hsub => List.mem_mergeSort.mpr (List.mem_map_of_mem hsub)
  have hflush : flushes s.subscriptions.rows (s.renewRow tenantId cycle now orderId) = true ↔
      ∀ n < ids.length + 1,
        activePerFeature (s.subscriptions.rows.map (s.written tenantId cycle now orderId (ids.take n))) = true := by
    simp only [flushes, List.all_eq_true, List.mem_range]
    rfl
  rw [hflush]
  simp only [index_written]
  constructor
  · rintro hall a ha b hb hsame hne ⟨hcharged, hother⟩
    -- a prefix of the flush after which both are active
    have hboth : ∃ n < ids.length + 1,
        a.id ∈ ids.take n ∧ (s.written tenantId cycle now orderId (ids.take n) b).status = .active := by
      rcases hother with hcharged' | ⟨hactive, hstays | hlt⟩
      · refine ⟨ids.length, by omega, by simpa using hids a ha, ?_⟩
        rw [BillingStore.written, if_pos (by simpa using hids b hb)]
        exact (status_renewRow hb).mpr (.inl hcharged')
      · refine ⟨ids.length, by omega, by simpa using hids a ha, ?_⟩
        rw [BillingStore.written, if_pos (by simpa using hids b hb)]
        exact (status_renewRow hb).mpr (.inr ⟨hstays, hactive⟩)
      · obtain ⟨n, hn, hin, hout⟩ := exists_take hsorted (hids a ha) hlt
        exact ⟨n, by omega, hin, by rw [BillingStore.written, if_neg hout]; exact hactive⟩
    obtain ⟨n, hn, hin, hactive⟩ := hboth
    refine hne (hall n hn a ha b hb ?_ hactive hsame)
    rw [BillingStore.written, if_pos hin]
    exact (status_renewRow ha).mpr (.inl hcharged)
  · intro hclash n _ a ha b hb hactive hactive' hsame
    by_contra hne
    have hsame' : SameFeature b a := ⟨hsame.1.symm, hsame.2.symm⟩
    unfold BillingStore.written at hactive hactive'
    split at hactive <;> split at hactive'
    next hin hin' =>
      rcases (status_renewRow ha).mp hactive with hcharged | ⟨hstays, hold⟩ <;>
        rcases (status_renewRow hb).mp hactive' with hcharged' | ⟨hstays', hold'⟩
      · exact hclash a ha b hb hsame hne ⟨hcharged, .inl hcharged'⟩
      · exact hclash a ha b hb hsame hne ⟨hcharged, .inr ⟨hold', .inl hstays'⟩⟩
      · exact hclash b hb a ha hsame' (Ne.symm hne) ⟨hcharged', .inr ⟨hold, .inl hstays⟩⟩
      · exact hne (hindex a ha b hb hold hold' hsame)
    next hin hout =>
      rcases (status_renewRow ha).mp hactive with hcharged | ⟨-, hold⟩
      · refine hclash a ha b hb hsame hne ⟨hcharged, .inr ⟨hactive', .inr ?_⟩⟩
        exact lt_of_not_ge fun hle => hout (mem_take_of_le hsorted (hids b hb) hin hle)
      · exact hne (hindex a ha b hb hold hactive' hsame)
    next hout hin' =>
      rcases (status_renewRow hb).mp hactive' with hcharged' | ⟨-, hold'⟩
      · refine hclash b hb a ha hsame' (Ne.symm hne) ⟨hcharged', .inr ⟨hactive, .inr ?_⟩⟩
        exact lt_of_not_ge fun hle => hout (mem_take_of_le hsorted (hids a ha) hin' hle)
      · exact hne (hindex a ha b hb hactive hold' hsame)
    next => exact hne (hindex a ha b hb hactive hactive' hsame)

end Renewal

end Sreda.Services
