import Mathlib.Data.List.Induction

/-!
# Near duplicates

Elements are taken one after the other, and one that is near to an element kept before is dropped. Nearness need not be
transitive, so what is kept depends on the order.

## What is proved

* no kept element is near to one kept before it (`pairwise_keepFirst`);
* a dropped element is near to a kept one that comes before it (`exists_near_keepFirst`).
-/

namespace Sreda.Lib.NearDuplicates

universe u

variable {α : Type u} (near : α → α → Bool)

/-- Keep the elements that are near to none kept before. -/
def keepFirst (elements : List α) : List α :=
  elements.foldl (fun kept a => if kept.any (near a) then kept else kept ++ [a]) []

variable {near} {elements : List α}

theorem keepFirst_snoc {a : α} : keepFirst near (elements ++ [a]) =
    if (keepFirst near elements).any (near a) then keepFirst near elements else keepFirst near elements ++ [a] := by
  simp [keepFirst]

theorem keepFirst_sublist : (keepFirst near elements).Sublist elements := by
  induction elements using List.reverseRecOn with
  | nil => exact .slnil
  | append_singleton elements a ih =>
    rw [keepFirst_snoc]
    split
    · exact ih.trans (List.sublist_append_left _ _)
    · exact ih.append (List.Sublist.refl _)

theorem pairwise_keepFirst : (keepFirst near elements).Pairwise fun a b => near b a = false := by
  induction elements using List.reverseRecOn with
  | nil => exact .nil
  | append_singleton elements a ih =>
    rw [keepFirst_snoc]
    split
    next => exact ih
    next hfar =>
      refine List.pairwise_append.mpr ⟨ih, List.pairwise_singleton _ _, fun b hb c hc => ?_⟩
      obtain rfl := List.mem_singleton.mp hc
      exact eq_false_of_ne_true fun hnear => hfar (List.any_eq_true.mpr ⟨b, hb, hnear⟩)

/-- **What is dropped is near to a kept element** before it, in any order that the elements are in. -/
theorem exists_near_keepFirst {r : α → α → Prop} (h : elements.Pairwise r) : ∀ a ∈ elements,
    a ∈ keepFirst near elements ∨ ∃ b ∈ keepFirst near elements, near a b = true ∧ r b a := by
  induction elements using List.reverseRecOn with
  | nil => exact fun _ h => absurd h List.not_mem_nil
  | append_singleton elements c ih =>
    obtain ⟨hbefore, -, hlast⟩ := List.pairwise_append.mp h
    have hsubset : keepFirst near elements ⊆ keepFirst near (elements ++ [c]) := by
      rw [keepFirst_snoc]
      split
      · exact List.Subset.refl _
      · exact List.subset_append_left _ _
    intro a ha
    rcases List.mem_append.mp ha with ha | ha
    · rcases ih hbefore a ha with hkept | ⟨b, hb, hnear, hr⟩
      · exact .inl (hsubset hkept)
      · exact .inr ⟨b, hsubset hb, hnear, hr⟩
    · obtain rfl := List.mem_singleton.mp ha
      by_cases hnear : (keepFirst near elements).any (near a) = true
      · obtain ⟨b, hb, hab⟩ := List.any_eq_true.mp hnear
        exact .inr ⟨b, hsubset hb, hab, hlast b (keepFirst_sublist.subset hb) a List.mem_cons_self⟩
      · rw [keepFirst_snoc, if_neg hnear]
        exact .inl (List.mem_append_right _ List.mem_cons_self)

end Sreda.Lib.NearDuplicates
