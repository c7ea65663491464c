import Mathlib.Data.List.Sort
import Mathlib.Data.Prod.Lex

/-!
# The last rows by a key

`ORDER BY key DESC LIMIT n`, and the slice `[-n:]` of a list that is sorted by a key. When the keys are distinct, the result
is determined by membership: a row is among the last `n` iff fewer than `n` rows have a greater key.
-/

namespace Sreda.Lib

universe u v

variable {α : Type u} {κ : Type v} [LinearOrder κ] {key : α → κ} {n : ℕ} {l l' : List α} {a : α}

/-- The last `n` elements by a key, in its order. -/
def lastOf (key : α → κ) (n : ℕ) (l : List α) : List α :=
  (l.insertionSort fun a b => key a ≤ key b).drop (l.length - n)

theorem lastOf_sublist (key : α → κ) (n : ℕ) (l : List α) : (lastOf key n l).Sublist (l.insertionSort fun a b => key a ≤ key b) :=
  List.drop_sublist _ _

theorem mem_of_mem_lastOf (h : a ∈ lastOf key n l) : a ∈ l :=
  (List.perm_insertionSort _ l).mem_iff.mp ((lastOf_sublist key n l).subset h)

theorem length_lastOf (key : α → κ) (n : ℕ) (l : List α) : (lastOf key n l).length = min n l.length := by
  rw [lastOf, List.length_drop, List.length_insertionSort]
  omega

/-- A list with distinct keys is sorted strictly. -/
theorem pairwise_lt_insertionSort (hnodup : (l.map key).Nodup) :
    (l.insertionSort fun a b => key a ≤ key b).Pairwise fun a b => key a < key b := by
  have hperm := List.perm_insertionSort (fun a b => key a ≤ key b) l
  have hle : (l.insertionSort fun a b => key a ≤ key b).Pairwise fun a b => key a ≤ key b :=
    List.pairwise_insertionSort (fun a b => key a ≤ key b) l
  have hne : (l.insertionSort fun a b => key a ≤ key b).Pairwise fun a b => key a ≠ key b :=
    List.pairwise_map.mp ((hperm.map key).nodup_iff.mpr hnodup)
  exact (hle.and hne).imp fun h => lt_of_le_of_ne h.1 h.2

theorem pairwise_lastOf (hnodup : (l.map key).Nodup) : (lastOf key n l).Pairwise fun a b => key a < key b :=
  (pairwise_lt_insertionSort hnodup).sublist (lastOf_sublist key n l)

/-- **The last `n` elements** are those with fewer than `n` elements above them. -/
theorem mem_lastOf (hnodup : (l.map key).Nodup) :
    a ∈ lastOf key n l ↔ a ∈ l ∧ l.countP (fun b => key a < key b) < n := by
  have hperm := List.perm_insertionSort (fun a b => key a ≤ key b) l
  have hsorted := pairwise_lt_insertionSort hnodup
  rw [← hperm.countP_eq, ← hperm.mem_iff, lastOf]
  have hlength : (l.insertionSort fun a b => key a ≤ key b).length = l.length := hperm.length_eq
  generalize l.insertionSort (fun a b => key a ≤ key b) = s at hsorted hlength ⊢
  rw [← hlength]
  rw [← List.take_append_drop (s.length - n) s, List.pairwise_append] at hsorted
  obtain ⟨-, hdrop, hcross⟩ := hsorted
  have hcount : s.countP (fun b => key a < key b) =
      (s.take (s.length - n)).countP (fun b => key a < key b) + (s.drop (s.length - n)).countP (fun b => key a < key b) := by
    rw [← List.countP_append, List.take_append_drop]
  constructor
  · -- nothing before it is above it, and it is not above itself
    intro hmem
    refine ⟨List.mem_of_mem_drop hmem, ?_⟩
    have htake : (s.take (s.length - n)).countP (fun b => key a < key b) = 0 :=
      List.countP_eq_zero.mpr fun b hb => by simpa using (hcross b hb a hmem).le
    have hless : (s.drop (s.length - n)).countP (fun b => key a < key b) < (s.drop (s.length - n)).length := by
      refine lt_of_le_of_ne List.countP_le_length fun heq => ?_
      simpa using List.countP_eq_length.mp heq a hmem
    rw [hcount, htake]
    have hle := List.length_drop (l := s) (i := s.length - n)
    omega
  · -- an element before the last ones has them all above it
    rintro ⟨hmem, hfew⟩
    rw [← List.take_append_drop (s.length - n) s] at hmem
    refine (List.mem_append.mp hmem).resolve_left fun htake => ?_
    have hall : (s.drop (s.length - n)).countP (fun b => key a < key b) = (s.drop (s.length - n)).length :=
      List.countP_eq_length.mpr fun b hb => by simpa using hcross a htake b hb
    have hpos : 0 < (s.take (s.length - n)).length := List.length_pos_of_mem htake
    rw [List.length_take] at hpos
    rw [hcount, hall, List.length_drop] at hfew
    omega

/-- Two lists with the same last elements. -/
theorem lastOf_eq_iff {n' : ℕ} (hnodup : (l.map key).Nodup) (hnodup' : (l'.map key).Nodup) :
    lastOf key n l = lastOf key n' l' ↔ ∀ a, a ∈ lastOf key n l ↔ a ∈ lastOf key n' l' := by
  constructor
  · intro heq a
    rw [heq]
  · intro hmem
    have hlt := pairwise_lastOf (n := n) hnodup
    have hlt' := pairwise_lastOf (n := n') hnodup'
    have hne : ∀ {a b : α}, key a < key b → a ≠ b := by
      rintro a b h rfl
      exact lt_irrefl _ h
    have hperm : (lastOf key n l).Perm (lastOf key n' l') :=
      (List.perm_ext_iff_of_nodup (hlt.imp hne) (hlt'.imp hne)).mpr hmem
    exact hperm.eq_of_pairwise (fun a b _ _ hab hba => absurd hab hba.not_gt) hlt hlt'

/-- The last elements do not depend on the order. -/
theorem lastOf_perm (hnodup : (l.map key).Nodup) (hperm : l.Perm l') : lastOf key n l = lastOf key n l' := by
  have hnodup' : (l'.map key).Nodup := (hperm.map key).nodup_iff.mp hnodup
  rw [lastOf_eq_iff hnodup hnodup']
  intro a
  rw [mem_lastOf hnodup, mem_lastOf hnodup', hperm.mem_iff, hperm.countP_eq]

/-- When `n` elements have a key above `k`, the last `n` are above `k`. -/
theorem lt_of_mem_lastOf {k : κ} (hnodup : (l.map key).Nodup) (hmany : n ≤ l.countP fun b => k < key b)
    (hmem : a ∈ lastOf key n l) : k < key a := by
  obtain ⟨-, hfew⟩ := (mem_lastOf hnodup).mp hmem
  by_contra hle
  have hmono : l.countP (fun b => k < key b) ≤ l.countP fun b => key a < key b :=
    List.countP_mono_left fun b _ hb => by simpa using (not_lt.mp hle).trans_lt (by simpa using hb)
  omega

/-- The last `n` of a list are elements of another one that has them. -/
theorem le_countP_of_lastOf {k : κ} (hnodup : (l.map key).Nodup) (hmany : n ≤ l.countP fun b => k < key b)
    (hsub : ∀ b ∈ lastOf key n l, b ∈ l') : n ≤ l'.countP fun b => k < key b := by
  have hlength : (lastOf key n l).length = n := by
    have hle := hmany.trans List.countP_le_length
    rw [length_lastOf]
    omega
  have hne : ∀ {a b : α}, key a < key b → a ≠ b := by
    rintro a b h rfl
    exact lt_irrefl _ h
  have hsubperm : (lastOf key n l).Subperm (l'.filter fun b => k < key b) :=
    List.subperm_of_subset ((pairwise_lastOf hnodup).imp hne) fun b hb =>
      List.mem_filter.mpr ⟨hsub b hb, by simpa using lt_of_mem_lastOf hnodup hmany hb⟩
  rw [List.countP_eq_length_filter, ← hlength]
  exact hsubperm.length_le

/-- **Two lists have the same last `n` elements** iff the first has those of the second, and each of its own that the second has
not is below `n` elements of the second. -/
theorem lastOf_eq_lastOf_iff (hnodup : (l.map key).Nodup) (hnodup' : (l'.map key).Nodup) :
    lastOf key n l = lastOf key n l' ↔
      (∀ b ∈ lastOf key n l', b ∈ l) ∧ ∀ b ∈ l, b ∉ l' → n ≤ l'.countP fun c => key b < key c := by
  constructor
  · intro heq
    refine ⟨fun b hb => mem_of_mem_lastOf (heq ▸ hb), fun b hb hnot => ?_⟩
    have hout : b ∉ lastOf key n l := fun hmem => hnot (mem_of_mem_lastOf (heq ▸ hmem))
    have hmany : n ≤ l.countP fun c => key b < key c := by
      by_contra hfew
      exact hout ((mem_lastOf hnodup).mpr ⟨hb, not_le.mp hfew⟩)
    exact le_countP_of_lastOf hnodup hmany fun c hc => mem_of_mem_lastOf (heq ▸ hc)
  · rintro ⟨hhas, hbelow⟩
    rw [lastOf_eq_iff hnodup hnodup']
    intro b
    constructor
    · intro hb
      obtain ⟨hmem, hfew⟩ := (mem_lastOf hnodup).mp hb
      have hfew' : l'.countP (fun c => key b < key c) < n := by
        by_contra hmany
        exact absurd (le_countP_of_lastOf hnodup' (not_lt.mp hmany) hhas) (by omega)
      refine (mem_lastOf hnodup').mpr ⟨?_, hfew'⟩
      by_contra hnot
      have hmany := hbelow b hmem hnot
      omega
    · intro hb
      obtain ⟨-, hfew⟩ := (mem_lastOf hnodup').mp hb
      refine (mem_lastOf hnodup).mpr ⟨hhas b hb, ?_⟩
      -- what is above it in the first list is in the second
      have hsubperm : (l.filter fun c => key b < key c).Subperm (l'.filter fun c => key b < key c) := by
        refine List.subperm_of_subset (hnodup.of_map.filter _) fun c hc => ?_
        obtain ⟨hmem, habove⟩ := List.mem_filter.mp hc
        refine List.mem_filter.mpr ⟨?_, habove⟩
        by_contra hnot
        have hmany := hbelow c hmem hnot
        have hmono : l'.countP (fun d => key c < key d) ≤ l'.countP fun d => key b < key d :=
          List.countP_mono_left fun d _ hd => by simpa using (of_decide_eq_true habove).trans (by simpa using hd)
        omega
      rw [List.countP_eq_length_filter] at hfew ⊢
      exact hsubperm.length_le.trans_lt hfew

end Sreda.Lib
