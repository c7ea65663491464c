import Mathlib.Algebra.Order.Group.Basic
import Mathlib.Data.List.Induction
import Mathlib.Data.List.TakeWhile
import Mathlib.Tactic.Common

/-!
# A sliding window over a log

A limit allows at most `max` readings of a clock in a window. The log holds the readings that were allowed, in the order in
which they were decided; a decision first drops the readings at the front of the log that are a window old. Readings may be
decided out of order, so a reading behind a younger one stays, and one that a later reading has dropped may still count for
an earlier one.

## What is proved

* `countP_allowed_le`: no window holds more than `max` allowed readings, if no reading is decided that is less than a window
  away from a dropped one (`FreshRun`); readings in order are so (`freshRun_of_sorted`);
* `admit_eq_false_iff`: in order, a reading is rejected if and only if its window holds `max` allowed readings;
* `log_admit_of_rejected`: a rejected reading leaves the log as it is.
-/

namespace Sreda.Lib.SlidingWindow

universe u

variable {α : Type u} [AddCommGroup α] [LinearOrder α]

/-- The reading lies in the window that ends at `t`. -/
def InWindow (window t a : α) : Prop := t - window < a ∧ a ≤ t

instance (window t a : α) : Decidable (InWindow window t a) := inferInstanceAs (Decidable (_ ∧ _))

/-- The reading is a window old. -/
def expired (window now a : α) : Bool := a ≤ now - window

def prune (window now : α) (log : List α) : List α := log.dropWhile (expired window now)

/-- Decide a reading on a log. -/
def decideOne (max : ℕ) (window now : α) (log : List α) : Bool × List α :=
  if max ≤ (prune window now log).length then (false, prune window now log) else (true, prune window now log ++ [now])

/-- What has become of the readings of a run. -/
structure Record (α : Type u) where
  answers : List (α × Bool)
  /-- The allowed readings that are gone from the log. -/
  dropped : List α
  log : List α

def Record.next (max : ℕ) (window : α) (s : Record α) (now : α) : Record α where
  answers := s.answers ++ [(now, (decideOne max window now s.log).1)]
  dropped := s.dropped ++ s.log.takeWhile (expired window now)
  log := (decideOne max window now s.log).2

/-- The run of some readings, from an empty log. -/
def record (max : ℕ) (window : α) (readings : List α) : Record α := readings.foldl (Record.next max window) ⟨[], [], []⟩

/-- The readings that were allowed. -/
def Record.allowed (s : Record α) : List α := (s.answers.filter (·.2)).map Prod.fst

/-- The reading is a window or more away from the dropped ones. -/
def Record.Fresh (window : α) (s : Record α) (now : α) : Prop := ∀ a ∈ s.dropped, a ≤ now - window ∨ now + window ≤ a

/-- Each reading is away from those that were dropped before it. -/
def FreshRun (max : ℕ) (window : α) (readings : List α) : Prop :=
  ∀ before now, before ++ [now] <+: readings → (record max window before).Fresh window now

variable {max : ℕ} {window now : α} {readings : List α}

theorem record_snoc : record max window (readings ++ [now]) = (record max window readings).next max window now := by
  simp [record]

theorem allowed_next {s : Record α} : (s.next max window now).allowed =
    s.allowed ++ if (decideOne max window now s.log).1 then [now] else [] := by
  rw [Record.allowed, Record.allowed, Record.next, List.filter_append, List.map_append]
  cases (decideOne max window now s.log).1 <;> rfl

theorem prune_suffix (log : List α) : prune window now log <:+ log := List.dropWhile_suffix _

theorem takeWhile_append_prune (log : List α) : log.takeWhile (expired window now) ++ prune window now log = log :=
  List.takeWhile_append_dropWhile

/-- The allowed readings are those dropped, and then the log. -/
theorem allowed_eq : (record max window readings).allowed =
    (record max window readings).dropped ++ (record max window readings).log := by
  induction readings using List.reverseRecOn with
  | nil => rfl
  | append_singleton readings now ih =>
    rw [record_snoc, allowed_next, ih]
    generalize record max window readings = s
    have hlog : s.dropped ++ s.log =
        s.dropped ++ s.log.takeWhile (expired window now) ++ prune window now s.log := by
      rw [List.append_assoc, takeWhile_append_prune]
    rw [Record.next, decideOne, hlog]
    split <;> simp

theorem length_log_le : (record max window readings).log.length ≤ max := by
  induction readings using List.reverseRecOn with
  | nil => exact Nat.zero_le _
  | append_singleton readings now ih =>
    rw [record_snoc, Record.next, decideOne]
    generalize (record max window readings).log = log at ih
    split
    next => exact (prune_suffix log).length_le.trans ih
    next hroom =>
      rw [List.length_append, List.length_singleton]
      omega

/-- **A rejected reading leaves the log**: a log that is full after pruning was not pruned. -/
theorem log_admit_of_rejected {log : List α} (hlength : log.length ≤ max) (h : (decideOne max window now log).1 = false) :
    (decideOne max window now log).2 = log := by
  unfold decideOne at h ⊢
  split at h
  next hfull =>
    rw [if_pos hfull]
    exact (prune_suffix log).eq_of_length (le_antisymm (prune_suffix log).length_le (hlength.trans hfull))
  next => cases h

theorem allowed_sublist : (record max window readings).allowed.Sublist readings := by
  induction readings using List.reverseRecOn with
  | nil => exact .slnil
  | append_singleton readings now ih =>
    rw [record_snoc, allowed_next]
    refine ih.append ?_
    split
    · exact List.Sublist.refl _
    · exact List.nil_sublist _

/-- What is dropped was a window old at some reading. -/
theorem dropped_old : ∀ a ∈ (record max window readings).dropped, ∃ r ∈ readings, a ≤ r - window := by
  induction readings using List.reverseRecOn with
  | nil => exact fun _ h => absurd h List.not_mem_nil
  | append_singleton readings now ih =>
    intro a ha
    rw [record_snoc, Record.next] at ha
    rcases List.mem_append.mp ha with ha | ha
    · obtain ⟨r, hr, hold⟩ := ih a ha
      exact ⟨r, List.mem_append_left _ hr, hold⟩
    · have hexpired := List.mem_takeWhile_imp ha
      exact ⟨now, List.mem_append_right _ List.mem_cons_self, of_decide_eq_true hexpired⟩

/-- A sorted log, pruned: what is younger than a window. -/
theorem prune_of_sorted {log : List α} (h : log.Pairwise (· ≤ ·)) : prune window now log = log.filter fun a => now - window < a := by
  induction log with
  | nil => rfl
  | cons a log ih =>
    rw [List.pairwise_cons] at h
    rw [prune, List.dropWhile_cons]
    by_cases hold : a ≤ now - window
    · have hexpired : expired window now a = true := decide_eq_true hold
      rw [if_pos hexpired, List.filter_cons_of_neg (by simpa using hold)]
      exact ih h.2
    · have hexpired : expired window now a = false := decide_eq_false hold
      have hyounger : ∀ b ∈ log, now - window < b := fun b hb => (not_le.mp hold).trans_le (h.1 b hb)
      rw [if_neg (by rw [hexpired]; exact Bool.false_ne_true), List.filter_eq_self.mpr]
      intro b hb
      rcases List.mem_cons.mp hb with rfl | hb
      · simpa using hold
      · simpa using hyounger b hb

theorem freshRun_snoc (h : FreshRun max window (readings ++ [now])) :
    FreshRun max window readings ∧ (record max window readings).Fresh window now :=
  ⟨fun before r hprefix => h before r (List.IsPrefix.trans hprefix (List.prefix_append _ _)), h readings now List.prefix_rfl⟩

variable [IsOrderedAddMonoid α]

/-- Two readings of one window are less than a window apart. -/
theorem near_of_inWindow {t a : α} (ha : InWindow window t a) (hnow : InWindow window t now) :
    now - window < a ∧ a < now + window :=
  ⟨(sub_le_sub_right hnow.2 window).trans_lt ha.1, ha.2.trans_lt (sub_lt_iff_lt_add.mp hnow.1)⟩

/-- **No window is overfull**, in a run that decides no reading near a dropped one. -/
theorem countP_allowed_le (h : FreshRun max window readings) (t : α) :
    (record max window readings).allowed.countP (fun a => InWindow window t a) ≤ max := by
  induction readings using List.reverseRecOn with
  | nil => exact Nat.zero_le _
  | append_singleton readings now ih =>
    obtain ⟨hrun, hfresh⟩ := freshRun_snoc h
    have hbefore := ih hrun
    rw [record_snoc, allowed_next, List.countP_append]
    split
    next hadmitted =>
      by_cases hnow : InWindow window t now
      · -- what counts for the window of the new reading is still in the log
        have hnone : ∀ a, a ≤ now - window ∨ now + window ≤ a → ¬ InWindow window t a := by
          rintro a hfar ha
          obtain ⟨hafter, hbefore⟩ := near_of_inWindow ha hnow
          rcases hfar with hold | hyoung
          · exact absurd hafter hold.not_gt
          · exact absurd hbefore hyoung.not_gt
        rw [allowed_eq, List.countP_append]
        generalize record max window readings = s at hfresh hadmitted ⊢
        have hdropped : s.dropped.countP (fun a => InWindow window t a) = 0 := by
          rw [List.countP_eq_zero]
          intro a ha
          simpa using hnone a (hfresh a ha)
        have hpruned : (s.log.takeWhile (expired window now)).countP (fun a => InWindow window t a) = 0 := by
          rw [List.countP_eq_zero]
          intro a ha
          have hexpired := List.mem_takeWhile_imp ha
          simpa using hnone a (.inl (of_decide_eq_true hexpired))
        have hlog : s.log.countP (fun a => InWindow window t a) ≤ (prune window now s.log).length := by
          rw [← @takeWhile_append_prune _ _ _ window now s.log, List.countP_append, hpruned, Nat.zero_add,
            takeWhile_append_prune]
          exact List.countP_le_length
        have hroom : (prune window now s.log).length < max := by
          unfold decideOne at hadmitted
          split at hadmitted
          · cases hadmitted
          · omega
        have hone : [now].countP (fun a => InWindow window t a) = 1 := by simp [hnow]
        omega
      · have hzero : [now].countP (fun a => InWindow window t a) = 0 := by simp [hnow]
        rw [hzero]
        exact hbefore
    next => exact hbefore

/-! ### Readings in order -/

theorem fresh_of_sorted (h : ∀ r ∈ readings, r ≤ now) : (record max window readings).Fresh window now := by
  intro a ha
  obtain ⟨r, hr, hold⟩ := dropped_old a ha
  exact .inl (hold.trans (sub_le_sub_right (h r hr) window))

/-- Readings that are decided in order never meet a dropped one. -/
theorem freshRun_of_sorted (h : readings.Pairwise (· ≤ ·)) : FreshRun max window readings := by
  intro before now hprefix
  have hsorted := h.sublist hprefix.sublist
  exact fresh_of_sorted fun r hr => (List.pairwise_append.mp hsorted).2.2 r hr now List.mem_cons_self

/-- In order, the pruned log is what the window of the reading holds. -/
theorem prune_log_of_sorted (h : (readings ++ [now]).Pairwise (· ≤ ·)) :
    prune window now (record max window readings).log =
      (record max window readings).allowed.filter fun a => InWindow window now a := by
  obtain ⟨hsorted, -, hbefore⟩ := List.pairwise_append.mp h
  have hle : ∀ r ∈ readings, r ≤ now := fun r hr => hbefore r hr now List.mem_cons_self
  have hallowed : ∀ a ∈ (record max window readings).allowed, a ≤ now := fun a ha => hle a (allowed_sublist.subset ha)
  have hlog : (record max window readings).log.Pairwise (· ≤ ·) := by
    have hpairwise := hsorted.sublist (@allowed_sublist _ _ _ max window readings)
    rw [allowed_eq] at hpairwise
    exact (List.pairwise_append.mp hpairwise).2.1
  have hdropped : (record max window readings).dropped.filter (fun a => InWindow window now a) = [] := by
    rw [List.filter_eq_nil_iff]
    intro a ha
    obtain ⟨r, hr, hold⟩ := dropped_old a ha
    have hgone : a ≤ now - window := hold.trans (sub_le_sub_right (hle r hr) window)
    exact ne_true_of_eq_false (decide_eq_false fun hin : InWindow window now a => absurd hgone hin.1.not_ge)
  rw [allowed_eq] at hallowed ⊢
  rw [List.filter_append, hdropped, List.nil_append, prune_of_sorted hlog]
  refine List.filter_congr fun a ha => ?_
  have hnow : a ≤ now := hallowed a (List.mem_append_right _ ha)
  simp [InWindow, hnow]

/-- **In order, a reading is rejected** if and only if its window is full. -/
theorem admit_eq_false_iff (h : (readings ++ [now]).Pairwise (· ≤ ·)) :
    (decideOne max window now (record max window readings).log).1 = false ↔
      (record max window readings).allowed.countP (fun a => InWindow window now a) = max := by
  have hfresh : FreshRun max window readings := freshRun_of_sorted (List.pairwise_append.mp h).1
  have hbound := countP_allowed_le hfresh now
  rw [decideOne, prune_log_of_sorted h, ← List.countP_eq_length_filter]
  split
  next hfull => exact iff_of_true rfl (le_antisymm hbound hfull)
  next hroom => exact iff_of_false Bool.true_eq_false.mp fun heq => hroom heq.ge

end Sreda.Lib.SlidingWindow
