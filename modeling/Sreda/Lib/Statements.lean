import Mathlib.Data.List.Basic
import Mathlib.Data.List.Induction

/-!
# Programs of statements

A script gives the states after each of its statements, oldest first, and nothing when it does not come to
an end. `Takes p I s t` says that from `s` it ends in `t` and that `I` holds after each of its statements.
A loop that takes what it finds in chunks has fuel, and a rule that says how much is enough (`Takes.chunked`).
-/

namespace Sreda.Lib

universe u v

/-- The states after each statement. -/
abbrev Script (σ : Type u) := σ → Option (List σ)

namespace Script

variable {σ : Type u} {κ : Type v}

def statement (f : σ → σ) : Script σ := fun s => some [f s]

def skip : Script σ := fun _ => some []

def andThen (p q : Script σ) : Script σ := fun s =>
  (p s).bind fun states => (q (states.getLastD s)).map (states ++ ·)

/-- The scripts one after the other. -/
def sequence (ps : List (Script σ)) : Script σ := ps.foldr andThen skip

/-- `for` over what a query has found. -/
def forEach (query : σ → List κ) (body : κ → Script σ) : Script σ := fun s => sequence ((query s).map body) s

/-- `while True`: the first `n` of what the query finds, until it finds nothing. -/
def chunked (n : ℕ) (query : σ → List κ) (body : List κ → Script σ) : ℕ → Script σ
  | 0, _ => none
  | fuel + 1, s =>
    match (query s).take n with
    | [] => some []
    | ids => (body ids).andThen (chunked n query body fuel) s

end Script

open Script

/-- From `s` the script ends in `t`, and `I` holds after each statement. -/
def Takes {σ : Type u} (p : Script σ) (I : σ → Prop) (s t : σ) : Prop :=
  ∃ states, p s = some states ∧ states.getLastD s = t ∧ ∀ u ∈ states, I u

theorem getLastD_append {σ : Type u} (states states' : List σ) (s : σ) :
    states'.getLastD (states.getLastD s) = (states ++ states').getLastD s := by
  cases states' using List.reverseRecOn with
  | nil => simp
  | append_singleton states' v _ => rw [← List.append_assoc]; simp

namespace Takes

variable {σ : Type u} {κ : Type v} {p q : Script σ} {I : σ → Prop} {s t u : σ}

theorem skip : Takes Script.skip I s s := ⟨[], rfl, rfl, fun _ h => (by cases h)⟩

theorem statement {f : σ → σ} (h : I (f s)) : Takes (Script.statement f) I s (f s) :=
  ⟨[f s], rfl, rfl, fun _ hu => List.mem_singleton.mp hu ▸ h⟩

/-- What holds after each statement holds at the end. -/
theorem keeps (h : Takes p I s t) (hs : I s) : I t := by
  obtain ⟨states, -, rfl, hI⟩ := h
  cases states using List.reverseRecOn with
  | nil => exact hs
  | append_singleton states v _ => exact hI _ (by simp)

theorem andThen (h : Takes p I s t) (h' : Takes q I t u) : Takes (p.andThen q) I s u := by
  obtain ⟨states, hp, rfl, hI⟩ := h
  obtain ⟨states', hq, rfl, hI'⟩ := h'
  refine ⟨states ++ states', by rw [Script.andThen, hp, Option.bind_some, hq]; rfl, ?_, fun v hv => ?_⟩
  · exact (getLastD_append states states' s).symm
  · exact (List.mem_append.mp hv).elim (hI v) (hI' v)

theorem cons {ps : List (Script σ)} (h : Takes p I s t) (h' : Takes (sequence ps) I t u) : Takes (sequence (p :: ps)) I s u :=
  h.andThen h'

theorem append {ps qs : List (Script σ)} (h : Takes (sequence ps) I s t) (h' : Takes (sequence qs) I t u) :
    Takes (sequence (ps ++ qs)) I s u := by
  induction ps generalizing s with
  | nil =>
    obtain ⟨_, ⟨⟩, rfl, -⟩ := h
    exact h'
  | cons p ps ih =>
    obtain ⟨states, hrun, rfl, hI⟩ := h
    obtain ⟨first, hp, hmap⟩ := Option.bind_eq_some_iff.mp hrun
    obtain ⟨rest, hps, rfl⟩ := Option.map_eq_some_iff.mp hmap
    have hp' : Takes p I s (first.getLastD s) := ⟨first, hp, rfl, fun v hv => hI v (List.mem_append_left _ hv)⟩
    exact hp'.andThen (ih ⟨rest, hps, getLastD_append first rest s, fun v hv => hI v (List.mem_append_right _ hv)⟩)

/-- A `for` whose body does `f`. -/
theorem forEach {query : σ → List κ} {body : κ → Script σ} {f : κ → σ → σ}
    (hbody : ∀ k s, I s → Takes (body k) I s (f k s)) (hs : I s) :
    Takes (Script.forEach query body) I s ((query s).foldl (fun s k => f k s) s) := by
  have hmap : ∀ (ks : List κ) (s : σ), I s → Takes (sequence (ks.map body)) I s (ks.foldl (fun s k => f k s) s) := by
    intro ks
    induction ks with
    | nil => exact fun s _ => Takes.skip
    | cons k ks ih => exact fun s hs => (hbody k s hs).andThen (ih _ ((hbody k s hs).keeps hs))
  exact hmap (query s) s hs

/-- **The loop in chunks**: when its body clears what it is given, it comes to an end with enough fuel. It has
cleared something that the query had found, and the query finds nothing more. -/
theorem chunked {n : ℕ} {query : σ → List κ} {body : List κ → Script σ} (clear : List κ → σ → σ) (size : σ → ℕ)
    (hn : 1 ≤ n) (hbody : ∀ ids s, I s → (∀ k ∈ ids, k ∈ query s) → Takes (body ids) I s (clear ids s))
    (hnil : ∀ s, clear [] s = s) (happend : ∀ ids ids' s, clear ids' (clear ids s) = clear (ids ++ ids') s)
    (hquery : ∀ ids s, ∀ k ∈ query (clear ids s), k ∈ query s)
    (hsize : ∀ ids s, ids ≠ [] → (∀ k ∈ ids, k ∈ query s) → size (clear ids s) < size s) {fuel : ℕ}
    (hfuel : size s < fuel) (hs : I s) :
    ∃ ids, (∀ k ∈ ids, k ∈ query s) ∧ query (clear ids s) = [] ∧
      Takes (Script.chunked n query body fuel) I s (clear ids s) := by
  induction fuel generalizing s with
  | zero => omega
  | succ fuel ih =>
    cases hids : (query s).take n with
    | nil =>
      have hempty : query s = [] := by
        rcases List.take_eq_nil_iff.mp hids with h | h
        · omega
        · exact h
      exact ⟨[], fun _ h => (by cases h), by rw [hnil, hempty], [], by simp [Script.chunked, hids], (hnil s).symm,
        fun _ h => (by cases h)⟩
    | cons k ids =>
      have hfound : ∀ j ∈ k :: ids, j ∈ query s := fun j hj => List.mem_of_mem_take (hids ▸ hj)
      have hone := hbody (k :: ids) s hs hfound
      have hless := hsize (k :: ids) s (by simp) hfound
      obtain ⟨ids', hfound', hempty, hrest⟩ := ih (by omega) (hone.keeps hs)
      refine ⟨(k :: ids) ++ ids', fun j hj => ?_, by rw [← happend, hempty], ?_⟩
      · exact (List.mem_append.mp hj).elim (hfound j) fun hj => hquery _ _ j (hfound' j hj)
      · obtain ⟨states, hrun, hlast, hI⟩ := hone.andThen hrest
        exact ⟨states, by simpa [Script.chunked, hids] using hrun, by rw [hlast, happend], hI⟩

end Takes

end Sreda.Lib
