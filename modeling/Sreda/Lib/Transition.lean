import Mathlib.Data.List.Basic
import Mathlib.Data.List.Induction

/-!
# Labelled transition systems

Runs of a system that takes labelled steps, the histories that lead to a state, and the
induction rules for invariants. A *history invariant* speaks of the state and of the
labels taken so far; a plain invariant speaks of the state alone.

`guard` restricts a system to the steps that meet a condition. It is how a result about
"every run whose steps all meet the condition" is stated.
-/

namespace Sreda.Lib

universe u v

/-- A labelled transition system. -/
structure Lts (σ : Type u) (α : Type v) where
  /-- The states a run may start in. -/
  init : σ → Prop
  /-- `step s a t`: from `s` the action `a` may lead to `t`. -/
  step : σ → α → σ → Prop

namespace Lts

variable {σ : Type u} {α : Type v} (L : Lts σ α)

/-- `L.Run s as t`: from `s` the actions `as`, oldest first, lead to `t`. -/
inductive Run : σ → List α → σ → Prop where
  /-- No action. -/
  | nil (s : σ) : Run s [] s
  /-- One more action. -/
  | snoc {s t u : σ} {as : List α} {a : α} : Run s as t → L.step t a u → Run s (as ++ [a]) u

/-- `L.Hist as s`: the actions `as` lead from a start to `s`. -/
def Hist (as : List α) (s : σ) : Prop := ∃ s₀, L.init s₀ ∧ L.Run s₀ as s

/-- Some history leads to `s`. -/
def Reachable (s : σ) : Prop := ∃ as, L.Hist as s

/-- The system that takes only the steps of `L` that meet `G`. -/
def guard (G : σ → α → Prop) : Lts σ α where
  init := L.init
  step s a t := L.step s a t ∧ G s a

variable {L}

variable {s t : σ} {a : α} {as bs : List α} {G : σ → α → Prop}

theorem Run.single (h : L.step s a t) : L.Run s [a] t := (Run.nil s).snoc h

theorem Run.trans {u : σ} (h : L.Run s as t) (h' : L.Run t bs u) : L.Run s (as ++ bs) u := by
  induction h' with
  | nil => simpa using h
  | snoc _ hs ih => rw [← List.append_assoc]; exact ih.snoc hs

/-- The path from `s` through the states of `path`, each with the action that leads to it. -/
def Passes (L : Lts σ α) (s : σ) : List (α × σ) → Prop
  | [] => True
  | (a, t) :: path => L.step s a t ∧ L.Passes t path

theorem Run.of_passes {path : List (α × σ)} (h : L.Passes s path) :
    L.Run s (path.map Prod.fst) (path.foldl (fun _ next => next.2) s) := by
  induction path generalizing s with
  | nil => exact .nil s
  | cons next path ih => exact (Run.single h.1).trans (ih h.2)

/-- The last step of a run. -/
theorem Run.last {u : σ} (h : L.Run s (as ++ [a]) u) : ∃ t, L.Run s as t ∧ L.step t a u := by
  generalize heq : as ++ [a] = bs at h
  cases h with
  | nil => simp at heq
  | @snoc t _ cs c hr hs =>
    obtain ⟨rfl, rfl⟩ : as = cs ∧ a = c := by simpa using List.append_inj' heq rfl
    exact ⟨t, hr, hs⟩

theorem Run.nil_iff : L.Run s [] t ↔ s = t := by
  constructor
  · intro h
    generalize heq : [] = bs at h
    cases h with
    | nil => rfl
    | snoc _ _ => simp at heq
  · rintro rfl
    exact .nil s

theorem Run.single_iff : L.Run s [a] t ↔ L.step s a t := by
  refine ⟨fun h => ?_, .single⟩
  rw [← List.nil_append [a]] at h
  obtain ⟨u, hu, hs⟩ := h.last
  rwa [← Run.nil_iff.mp hu] at hs

/-- A run passes through a state after each of its parts. -/
theorem Run.split {u : σ} (h : L.Run s (as ++ bs) u) : ∃ t, L.Run s as t ∧ L.Run t bs u := by
  induction bs using List.reverseRecOn generalizing u with
  | nil => exact ⟨u, by simpa using h, .nil u⟩
  | append_singleton bs b ih =>
    rw [← List.append_assoc] at h
    obtain ⟨v, hv, hs⟩ := h.last
    obtain ⟨t, ht, hr⟩ := ih hv
    exact ⟨t, ht, hr.snoc hs⟩

/-- The actions that a step function takes one after the other are a run. -/
theorem Run.of_foldlM {exec : σ → α → Option σ}
    (hstep : ∀ a ∈ as, ∀ s t, exec s a = some t → L.step s a t) (h : as.foldlM exec s = some t) : L.Run s as t := by
  induction as generalizing s with
  | nil =>
    obtain rfl : s = t := Option.some.inj h
    exact .nil s
  | cons a as ih =>
    rw [List.foldlM_cons, Option.bind_eq_bind, Option.bind_eq_some_iff] at h
    obtain ⟨u, hu, h⟩ := h
    exact (Run.single (hstep a (by simp) s u hu)).trans (ih (fun b hb => hstep b (by simp [hb])) h)

theorem Hist.init (h : L.init s) : L.Hist [] s := ⟨s, h, .nil s⟩

theorem Hist.snoc (h : L.Hist as s) (hs : L.step s a t) : L.Hist (as ++ [a]) t := by
  obtain ⟨s₀, h₀, hr⟩ := h
  exact ⟨s₀, h₀, hr.snoc hs⟩

theorem Hist.trans (h : L.Hist as s) (hr : L.Run s bs t) : L.Hist (as ++ bs) t := by
  obtain ⟨s₀, h₀, h⟩ := h
  exact ⟨s₀, h₀, h.trans hr⟩

theorem Hist.reachable (h : L.Hist as s) : L.Reachable s := ⟨as, h⟩

theorem Reachable.step (h : L.Reachable s) (hs : L.step s a t) : L.Reachable t := by
  obtain ⟨as, h⟩ := h
  exact ⟨_, h.snoc hs⟩

theorem Reachable.run (h : L.Reachable s) (hr : L.Run s as t) : L.Reachable t := by
  obtain ⟨bs, h⟩ := h
  exact ⟨_, h.trans hr⟩

theorem Reachable.of_passes {path : List (α × σ)} (hpath : L.Passes s path) (h : L.init s) :
    L.Reachable (path.foldl (fun _ next => next.2) s) := ⟨_, s, h, .of_passes hpath⟩

theorem Reachable.passes {path : List (α × σ)} (h : L.Reachable s) (hpath : L.Passes s path) :
    L.Reachable (path.foldl (fun _ next => next.2) s) := h.run (.of_passes hpath)

/-- **History invariants**: what holds of the empty history and is kept by every step
taken after a history holds of every history. -/
theorem Hist.induct {P : List α → σ → Prop} (h₀ : ∀ s, L.init s → P [] s)
    (hstep : ∀ as s a t, L.Hist as s → P as s → L.step s a t → P (as ++ [a]) t)
    {as : List α} {s : σ} (h : L.Hist as s) : P as s := by
  obtain ⟨s₀, hi, hr⟩ := h
  induction hr with
  | nil => exact h₀ _ hi
  | snoc hr hs ih => exact hstep _ _ _ _ ⟨s₀, hi, hr⟩ ih hs

/-- **Invariants**: what holds of every start and is kept by every step holds of every
reachable state. -/
theorem Reachable.induct {P : σ → Prop} (h₀ : ∀ s, L.init s → P s)
    (hstep : ∀ s a t, L.Reachable s → P s → L.step s a t → P t)
    {s : σ} (h : L.Reachable s) : P s := by
  obtain ⟨as, h⟩ := h
  exact h.induct (P := fun _ s => P s) h₀ fun _ s a t hr hp hs => hstep s a t hr.reachable hp hs

/-- What every step of a run keeps, the run keeps. -/
theorem Run.keeps {P : σ → Prop} (hstep : ∀ s a t, P s → L.step s a t → P t) (h : L.Run s as t) (hp : P s) : P t := by
  induction h with
  | nil => exact hp
  | snoc _ hs ih => exact hstep _ _ _ ih hs

theorem Run.of_guard (h : (L.guard G).Run s as t) : L.Run s as t := by
  induction h with
  | nil => exact .nil _
  | snoc _ hs ih => exact ih.snoc hs.1

/-- Guards that agree on the steps of the system allow the same runs. -/
theorem guard_run_congr {G' : σ → α → Prop} (h : ∀ s a t, L.step s a t → (G s a ↔ G' s a)) :
    (L.guard G).Run s as t ↔ (L.guard G').Run s as t := by
  constructor
  · intro hr
    induction hr with
    | nil => exact .nil _
    | snoc _ hs ih => exact ih.snoc ⟨hs.1, (h _ _ _ hs.1).mp hs.2⟩
  · intro hr
    induction hr with
    | nil => exact .nil _
    | snoc _ hs ih => exact ih.snoc ⟨hs.1, (h _ _ _ hs.1).mpr hs.2⟩

/-- A history of guarded steps is a history of the unguarded system. -/
theorem Hist.of_guard (h : (L.guard G).Hist as s) : L.Hist as s := by
  obtain ⟨s₀, hi, hr⟩ := h
  exact ⟨s₀, hi, hr.of_guard⟩

theorem Reachable.of_guard (h : (L.guard G).Reachable s) : L.Reachable s := by
  obtain ⟨as, h⟩ := h
  exact ⟨as, h.of_guard⟩

end Lts

end Sreda.Lib
