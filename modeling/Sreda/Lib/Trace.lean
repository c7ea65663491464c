import Mathlib.Data.List.Perm.Basic
import Mathlib.Data.List.Induction

/-!
# Traces of concurrent runs

A trace is the list of what happens, oldest first. `Causal P` says that every event is
justified by the events before it; `Interleaving ls as` that `as` runs the lists `ls`
side by side, each in its own order. The rules here build statements about a trace from
statements about its parts: a part that is appended, or a part in which several lists are
interleaved.
-/

namespace Sreda.Lib

variable {ε : Type}

/-! ### Events justified by what came before -/

/-- Each event of `as` meets `P` with the events before it. -/
def Causal (P : List ε → ε → Prop) (as : List ε) : Prop :=
  ∀ pre a post, as = pre ++ a :: post → P pre a

variable {P : List ε → ε → Prop} {as : List ε} {ls : List (List ε)}

theorem Causal.nil : Causal P [] := by
  intro pre a post h
  simp at h

theorem Causal.snoc {a : ε} (h : Causal P as) (ha : P as a) : Causal P (as ++ [a]) := by
  intro pre b post heq
  rcases List.eq_nil_or_concat post with rfl | ⟨post, c, rfl⟩
  · obtain ⟨rfl, rfl⟩ : as = pre ∧ a = b := by simpa using heq
    exact ha
  · have heq' : as ++ [a] = (pre ++ b :: post) ++ [c] := by simpa using heq
    obtain ⟨rfl, -⟩ := List.append_inj' heq' rfl
    exact h pre b post rfl

/-- Events that are justified by `as` alone may be appended in any number and order, when
more events before it never take a justification away. -/
theorem Causal.append (hmono : ∀ pre more a, P pre a → P (pre ++ more) a)
    {bs : List ε} (h : Causal P as) (hbs : ∀ b ∈ bs, P as b) : Causal P (as ++ bs) := by
  induction bs using List.reverseRecOn with
  | nil => simpa using h
  | append_singleton bs b ih =>
    rw [← List.append_assoc]
    refine (ih fun c hc => hbs c (by simp [hc])).snoc ?_
    exact hmono as bs b (hbs b (by simp))

/-! ### Interleavings -/

/-- `Interleaving ls as`: `as` takes the events of the lists `ls`, each list in order. -/
inductive Interleaving : List (List ε) → List ε → Prop where
  /-- Every list is used up. -/
  | done {ls : List (List ε)} : (∀ l ∈ ls, l = []) → Interleaving ls []
  /-- The next event is the next one of the list that stands after `pre`. -/
  | take (pre : List (List ε)) {post : List (List ε)} {l as : List ε} {a : ε} :
      Interleaving (pre ++ l :: post) as → Interleaving (pre ++ (a :: l) :: post) (a :: as)

theorem Interleaving.perm (h : Interleaving ls as) : as.Perm ls.flatten := by
  induction h with
  | done hnil => simp [List.flatten_eq_nil_iff.2 hnil]
  | take pre _ ih =>
    simp only [List.flatten_append, List.flatten_cons, List.cons_append] at ih ⊢
    exact (ih.cons _).trans List.perm_middle.symm

theorem Interleaving.mem_iff (h : Interleaving ls as) {a : ε} : a ∈ as ↔ ∃ l ∈ ls, a ∈ l := by
  rw [h.perm.mem_iff, List.mem_flatten]

/-- Events of different lists may come in either order; within one list the order is the
list's. What holds of all these pairs holds of the interleaving. -/
theorem Interleaving.pairwise {R : ε → ε → Prop} (h : Interleaving ls as) (hown : ∀ l ∈ ls, l.Pairwise R)
    (hcross : ls.Pairwise fun l k => ∀ a ∈ l, ∀ b ∈ k, R a b ∧ R b a) : as.Pairwise R := by
  induction h with
  | done _ => exact List.Pairwise.nil
  | @take pre post l as a hrest ih =>
    have hcons : (a :: l).Pairwise R := hown _ (by simp)
    obtain ⟨hal, hl⟩ := List.pairwise_cons.1 hcons
    obtain ⟨hpre, hmid, hpp⟩ := List.pairwise_append.1 hcross
    obtain ⟨hlpost, hpost⟩ := List.pairwise_cons.1 hmid
    refine List.pairwise_cons.2 ⟨?_, ih ?_ ?_⟩
    · intro b hb
      obtain ⟨k, hk, hbk⟩ := hrest.mem_iff.1 hb
      rcases List.mem_append.1 hk with hk | hk
      · exact (hpp k hk (a :: l) (by simp) b hbk a (by simp)).2
      · rcases List.mem_cons.1 hk with rfl | hk
        · exact hal b hbk
        · exact (hlpost k hk a (by simp) b hbk).1
    · intro k hk
      rcases List.mem_append.1 hk with hk | hk
      · exact hown k (by simp [hk])
      · rcases List.mem_cons.1 hk with rfl | hk
        · exact hl
        · exact hown k (by simp [hk])
    · refine List.pairwise_append.2 ⟨hpre, List.pairwise_cons.2 ⟨?_, hpost⟩, ?_⟩
      · exact fun k hk c hc => hlpost k hk c (by simp [hc])
      · intro k hk m hm c hc b hb
        rcases List.mem_cons.1 hm with rfl | hm
        · exact hpp k hk (a :: m) (by simp) c hc b (by simp [hb])
        · exact hpp k hk m (by simp [hm]) c hc b hb

/-- A list that is run alone can be put in front. -/
theorem Interleaving.append_left {l : List ε} (h : Interleaving ls as) : Interleaving (l :: ls) (l ++ as) := by
  induction l with
  | nil =>
    induction h with
    | done hnil => exact .done (by simpa using hnil)
    | @take pre post l as a _ ih => exact .take ([] :: pre) ih
  | cons a l ih => exact .take [] ih

/-- Run the lists one after the other. -/
theorem Interleaving.flatten (ls : List (List ε)) : Interleaving ls ls.flatten := by
  induction ls with
  | nil => exact .done (by simp)
  | cons l ls ih => exact ih.append_left

/-- One event of `as`, then one of `bs`, until either is used up. -/
def alternate : List ε → List ε → List ε
  | [], bs => bs
  | a :: as, [] => a :: as
  | a :: as, b :: bs => a :: b :: alternate as bs

theorem Interleaving.alternate {l : List ε} (h : Interleaving ls as) : Interleaving (l :: ls) (alternate l as) := by
  induction l generalizing ls as with
  | nil => simpa [Lib.alternate] using (h.append_left : Interleaving ([] :: ls) ([] ++ as))
  | cons a l ih =>
    cases h with
    | done hnil =>
      simpa [Lib.alternate] using ((Interleaving.done hnil).append_left : Interleaving ((a :: l) :: ls) (a :: l ++ []))
    | @take pre post k as b hrest =>
      exact .take [] (.take (l :: pre) (ih hrest))

/-- A way to run several lists of events side by side. -/
structure Scheduler (ε : Type) where
  run : List (List ε) → List ε
  interleaving : ∀ ls, Interleaving ls (run ls)

/-- One list after the other. -/
def Scheduler.sequential : Scheduler ε := ⟨List.flatten, Interleaving.flatten⟩

/-- The lists take turns. -/
def Scheduler.turns : Scheduler ε where
  run ls := ls.foldr Lib.alternate []
  interleaving ls := by
    induction ls with
    | nil => exact .done (by simp)
    | cons l ls ih => exact ih.alternate

end Sreda.Lib
