import Mathlib.Algebra.Order.Ring.Int
import Mathlib.Data.List.Basic
import Mathlib.Tactic.Common

/-!
# A throttle over a log

Messages are decided one after the other. Each is delivered when it is decided, or it waits
for the window of the oldest message that was decided in the last window; only messages decided within the
look-back are seen. `Spaced` says that deliveries are a window apart.

The throttle looks at the times of decision, so it keeps the deliveries apart only while no
message waits. `Settled` is the condition on the log before a decision, and it is exact: a
decision on a settled log keeps the deliveries apart (`Regular.push`), a decision on any other
log does not (`Regular.exists_not_apart`).
-/

namespace Sreda.Lib.Throttle

/-- A message in the log. -/
structure Entry where
  decided : ℤ
  delivered : ℤ
  deriving DecidableEq

variable (window lookback : ℤ)

/-- Two deliveries are a window apart. -/
def Apart (a b : Entry) : Prop := a.delivered + window ≤ b.delivered ∨ b.delivered + window ≤ a.delivered

/-- Any two deliveries are a window apart. -/
def Spaced (log : List Entry) : Prop := ∀ a ∈ log, ∀ b ∈ log, a.decided < b.decided → Apart window a b

/-- The entry is seen at `now`, and was decided in the last window. -/
def Touches (now : ℤ) (e : Entry) : Prop := now - lookback ≤ e.decided ∧ now - window ≤ e.decided

instance (now : ℤ) (e : Entry) : Decidable (Touches window lookback now e) := inferInstanceAs (Decidable (_ ∧ _))

/-- When a message that is decided at `now` is delivered. -/
def releaseAt (log : List Entry) (now : ℤ) : ℤ :=
  match ((log.filter fun e => Touches window lookback now e).map Entry.decided).min? with
  | some oldest => oldest + window
  | none => now

/-- **The condition**: each delivery that is not a window old was one without a wait, and is seen. -/
def Settled (log : List Entry) (now : ℤ) : Prop :=
  ∀ e ∈ log, now < e.delivered + window → e.delivered = e.decided ∧ now - lookback ≤ e.decided

variable {window lookback} {log : List Entry} {now : ℤ}

theorem releaseAt_cases (window lookback : ℤ) (log : List Entry) (now : ℤ) :
    (∀ e ∈ log, ¬ Touches window lookback now e) ∧ releaseAt window lookback log now = now ∨
      ∃ q ∈ log, Touches window lookback now q ∧ releaseAt window lookback log now = q.decided + window ∧
        ∀ e ∈ log, Touches window lookback now e → q.decided ≤ e.decided := by
  rw [releaseAt]
  cases hmin : ((log.filter fun e => Touches window lookback now e).map Entry.decided).min? with
  | none =>
    rw [List.min?_eq_none_iff, List.map_eq_nil_iff, List.filter_eq_nil_iff] at hmin
    exact .inl ⟨fun e he htouch => hmin e he (by simpa using htouch), rfl⟩
  | some oldest =>
    obtain ⟨hmem, hle⟩ := List.min?_eq_some_iff.1 hmin
    simp only [List.mem_map, List.mem_filter, decide_eq_true_eq] at hmem hle
    obtain ⟨q, ⟨hq, htouch⟩, rfl⟩ := hmem
    exact .inr ⟨q, hq, htouch, rfl, fun e he hte => hle _ ⟨e, ⟨he, hte⟩, rfl⟩⟩

/-- No message is delivered before it is decided. -/
theorem le_releaseAt (log : List Entry) (now : ℤ) : now ≤ releaseAt window lookback log now := by
  rcases releaseAt_cases window lookback log now with ⟨-, heq⟩ | ⟨q, -, htouch, heq, -⟩
  · exact heq.ge
  · rw [heq]
    have := htouch.2
    omega

variable (window lookback) in
/-- A log that the throttle has written with the condition met at each decision. -/
structure Regular (log : List Entry) : Prop where
  spaced : Spaced window log
  /-- A message that waited did so for an earlier one. -/
  waited : ∀ e ∈ log, e.delivered = e.decided ∨
    ∃ o ∈ log, o.decided < e.decided ∧ e.decided ≤ e.delivered ∧ e.delivered = o.decided + window
  settled : ∀ r ∈ log, ∀ q ∈ log, r.decided < q.decided → q.decided < r.delivered + window →
    r.delivered = r.decided ∧ q.decided - lookback ≤ r.decided

theorem Regular.nil : Regular window lookback [] :=
  ⟨fun _ h => absurd h List.not_mem_nil, fun _ h => absurd h List.not_mem_nil, fun _ h => absurd h List.not_mem_nil⟩

theorem Regular.le_delivered (h : Regular window lookback log) {e : Entry} (he : e ∈ log) : e.decided ≤ e.delivered := by
  rcases h.waited e he with heq | ⟨-, -, -, hle, -⟩
  · exact heq.ge
  · exact hle

/-- On a settled log the next delivery is apart from all others. -/
theorem Regular.apart_releaseAt (h : Regular window lookback log) (hbefore : ∀ e ∈ log, e.decided < now)
    (hsettled : Settled window lookback log now) {r : Entry} (hr : r ∈ log) :
    r.delivered + window ≤ releaseAt window lookback log now := by
  have hr' := hbefore r hr
  by_cases hold : r.delivered + window ≤ now
  · exact hold.trans (le_releaseAt log now)
  · obtain ⟨hnow, hseen⟩ := hsettled r hr (by omega)
    have htouch : Touches window lookback now r := ⟨hseen, by omega⟩
    rcases releaseAt_cases window lookback log now with
      ⟨hnone, -⟩ | ⟨q, hq, htouchq, heq, hleast⟩
    · exact absurd htouch (hnone r hr)
    · -- Two entries without a wait cannot both touch, so the oldest one is `r`.
      have hle := hleast r hr htouch
      rcases hle.lt_or_eq with hlt | hsame
      · have hqnow : q.delivered = q.decided := by
          by_cases hq' : now < q.delivered + window
          · exact (hsettled q hq hq').1
          · have := h.le_delivered hq
            have := htouchq.2
            omega
        have hapart := h.spaced q hq r hr hlt
        have := htouchq.2
        simp only [Apart] at hapart
        omega
      · rw [heq, hsame, hnow]

/-- **A decision on a settled log keeps it regular.** -/
theorem Regular.push (h : Regular window lookback log) (hbefore : ∀ e ∈ log, e.decided < now)
    (hsettled : Settled window lookback log now) :
    Regular window lookback (log ++ [⟨now, releaseAt window lookback log now⟩]) := by
  refine ⟨?_, ?_, ?_⟩
  · intro a ha b hb hlt
    rcases List.mem_append.1 ha with ha | ha <;> rcases List.mem_append.1 hb with hb | hb
    · exact h.spaced a ha b hb hlt
    · obtain rfl := List.mem_singleton.1 hb
      exact .inl (h.apart_releaseAt hbefore hsettled ha)
    · obtain rfl := List.mem_singleton.1 ha
      have := hbefore b hb
      simp only at hlt
      omega
    · obtain rfl := List.mem_singleton.1 ha
      obtain rfl := List.mem_singleton.1 hb
      exact absurd hlt (lt_irrefl _)
  · intro e he
    rcases List.mem_append.1 he with he | he
    · refine (h.waited e he).imp_right ?_
      rintro ⟨o, ho, hlt⟩
      exact ⟨o, List.mem_append_left _ ho, hlt⟩
    · obtain rfl := List.mem_singleton.1 he
      rcases releaseAt_cases window lookback log now with ⟨-, heq⟩ | ⟨q, hq, -, heq, -⟩
      · exact .inl heq
      · exact .inr ⟨q, List.mem_append_left _ hq, hbefore q hq, le_releaseAt log now, heq⟩
  · intro r hr q hq hlt hwithin
    rcases List.mem_append.1 hr with hr | hr <;> rcases List.mem_append.1 hq with hq | hq
    · exact h.settled r hr q hq hlt hwithin
    · obtain rfl := List.mem_singleton.1 hq
      exact hsettled r hr hwithin
    · obtain rfl := List.mem_singleton.1 hr
      have := hbefore q hq
      simp only at hlt
      omega
    · obtain rfl := List.mem_singleton.1 hr
      obtain rfl := List.mem_singleton.1 hq
      exact absurd hlt (lt_irrefl _)

/-- After a message that waits, the next delivery within its window comes too early. -/
theorem Regular.not_apart_of_waited (h : Regular window lookback log)
    (hbefore : ∀ e ∈ log, e.decided < now) {r : Entry} (hr : r ∈ log) (hwithin : now < r.delivered + window)
    (hwaited : r.delivered ≠ r.decided) : ¬ Apart window r ⟨now, releaseAt window lookback log now⟩ := by
  obtain ⟨o, ho, hlt, hle, heq⟩ := (h.waited r hr).resolve_left hwaited
  have hr' := hbefore r hr
  simp only [Apart]
  rcases releaseAt_cases window lookback log now with ⟨-, hnow⟩ | ⟨q, hq, htouch, hq', -⟩
  · omega
  · -- What is decided after `r` is decided after its delivery.
    have hqr : q.decided ≤ r.decided := by
      by_contra hlt'
      have hsettled := h.settled r hr q hq (by omega)
      have := hbefore q hq
      have := (hsettled (by omega)).1
      exact hwaited this
    have := htouch.2
    omega

/-- **A decision on a log that is not settled brings two deliveries too close.** -/
theorem Regular.exists_not_apart (h : Regular window lookback log) (hwindow : 0 < window)
    (hbefore : ∀ e ∈ log, e.decided < now) (hsettled : ¬ Settled window lookback log now) :
    ∃ r ∈ log, ¬ Apart window r ⟨now, releaseAt window lookback log now⟩ := by
  simp only [Settled, not_forall] at hsettled
  obtain ⟨r, hr, hwithin, hcond⟩ := hsettled
  by_cases hwaited : r.delivered = r.decided
  · have hunseen : r.decided < now - lookback := by
      by_contra hge
      exact hcond ⟨hwaited, by omega⟩
    rcases releaseAt_cases window lookback log now with ⟨-, heq⟩ | ⟨q, hq, htouch, heq, -⟩
    · refine ⟨r, hr, ?_⟩
      have := hbefore r hr
      simp only [Apart]
      omega
    · -- The oldest message that is seen came within the window of `r`, so it waited.
      refine ⟨q, hq, h.not_apart_of_waited hbefore hq ?_ ?_⟩
      · have := h.le_delivered hq
        have := htouch.2
        have hlt : r.decided < q.decided := by have := htouch.1; omega
        have hapart := h.spaced r hr q hq hlt
        have := hbefore q hq
        simp only [Apart] at hapart
        omega
      · intro hnow
        have hlt : r.decided < q.decided := by have := htouch.1; omega
        have hapart := h.spaced r hr q hq hlt
        have := hbefore q hq
        simp only [Apart] at hapart
        omega
  · exact ⟨r, hr, h.not_apart_of_waited hbefore hr hwithin hwaited⟩

end Sreda.Lib.Throttle
