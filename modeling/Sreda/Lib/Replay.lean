import Mathlib.Data.List.Nodup
import Sreda.Lib.Transition

/-!
# Programs that are run again for every answer

A program is a list of calls. It is executed from its beginning; a call may put one
question to the outside and go on with the answer. An execution that has no answer for a
question stops there, and when the answer arrives the whole program is executed again. The
answers are kept in the order they were given, and the `k`-th question of an execution
receives the `k`-th answer: an answer knows its place, not the call it was given to. The
effects of earlier executions on the store are not undone.

## What is proved

* `Aligned.call`, `Aligned.resume`: as long as every execution asks again exactly the
  questions that were asked before (`Faithful`), each answer reaches the call that asked
  for it, and no other call ever takes one.
* `aligned_of_reachable`: the same for whole runs.
* `out_labels_call`: an execution produces one result for each call, in the order of the
  calls.
* `Once.call`: if a call that has had its effect repeats its result, it has it once.

The log of answers, the owners of the answers and the history of executed calls are kept
in the state for the statements only; no call reads them.
-/

namespace Sreda.Lib.Replay

universe u v w x

/-- What a call does when an execution reaches it. -/
inductive Move (σ : Type u) (Q : Type v) (A : Type w) (R : Type x) where
  /-- It ends without a question. -/
  | finish (store : σ) (result : R)
  /-- It puts a question; the answer decides the store and the result. -/
  | ask (question : Q) (answered : A → σ × R)

/-- A call, given the results of the calls before it and the store. -/
abbrev Call (σ : Type u) (Q : Type v) (A : Type w) (R : Type x) := List R → σ → Move σ Q A R

/-- One executed call. -/
structure Entry (σ : Type u) (A : Type w) (R : Type x) where
  /-- The place of the call in the program. -/
  pos : ℕ
  before : σ
  /-- The answer it took, if it asked. -/
  answer : Option A
  after : σ
  result : R

/-- Where an execution is. -/
inductive Phase (Q : Type v) where
  /-- No execution is under way. -/
  | stopped
  | running
  /-- Waiting for the answer to a question. -/
  | paused (question : Q)
  | finished

/-- A program under execution. -/
structure State (σ : Type u) (Q : Type v) (A : Type w) (R : Type x) where
  store : σ
  /-- The call that comes next. -/
  pos : ℕ
  /-- How many questions this execution has put. -/
  cursor : ℕ
  /-- The results of this execution. -/
  out : List R
  phase : Phase Q
  /-- The answers given so far. -/
  answers : List A
  /-- For each answer, the call that was waiting for it. -/
  owners : List ℕ
  /-- Every answer that was given, with the call that was waiting for it. -/
  log : List (ℕ × A)
  /-- Every call that was executed to its end, in all executions. -/
  hist : List (Entry σ A R)

variable {σ : Type u} {Q : Type v} {A : Type w} {R : Type x}

/-- The move is a question. -/
def Move.asks : Move σ Q A R → Bool
  | .finish _ _ => false
  | .ask _ _ => true

/-- The move with its result translated. -/
def Move.mapResult {S : Type*} (f : R → S) : Move σ Q A R → Move σ Q A S
  | .finish store result => .finish store (f result)
  | .ask question answered => .ask question fun a => ((answered a).1, f (answered a).2)

/-- The entry is what the move does. -/
def Entry.From (e : Entry σ A R) : Move σ Q A R → Prop
  | .finish store result => e.answer = none ∧ e.after = store ∧ e.result = result
  | .ask _ answered => ∃ a, e.answer = some a ∧ answered a = (e.after, e.result)

/-- Whatever the answer is, the store and the result of the move meet `P`. -/
def Move.All (P : σ → R → Prop) : Move σ Q A R → Prop
  | .finish store result => P store result
  | .ask _ answered => ∀ a, P (answered a).1 (answered a).2

theorem Move.All.of_forall {P : σ → R → Prop} (h : ∀ store result, P store result) (move : Move σ Q A R) :
    move.All P := by
  cases move with
  | finish store result => exact h store result
  | ask question answered => exact fun a => h _ _

variable {move : Move σ Q A R} {S : Type*} {store : σ} {result : R} {answer : Option A}

theorem Move.All.of_from {P : σ → R → Prop} (h : move.All P) {e : Entry σ A R}
    (he : e.From move) : P e.after e.result := by
  cases move with
  | finish store result =>
    obtain ⟨-, rfl, rfl⟩ := he
    exact h
  | ask question answered =>
    obtain ⟨a, -, ha⟩ := he
    simpa [ha] using h a

theorem Move.all_mapResult {P : σ → S → Prop} {f : R → S} :
    (move.mapResult f).All P ↔ move.All fun store result => P store (f result) := by
  cases move <;> exact Iff.rfl

/-- The entries of a translated move. -/
theorem Entry.From.of_mapResult {f : R → S} {e : Entry σ A S} (he : e.From (move.mapResult f)) :
    ∃ result, Entry.From ⟨e.pos, e.before, e.answer, e.after, result⟩ move ∧ e.result = f result := by
  cases move with
  | finish store result =>
    obtain ⟨h₁, h₂, h₃⟩ := he
    exact ⟨result, ⟨h₁, h₂.symm ▸ rfl, rfl⟩, h₃⟩
  | ask question answered =>
    obtain ⟨a, h₁, h₂⟩ := he
    obtain ⟨h₃, h₄⟩ := Prod.mk.inj h₂
    exact ⟨(answered a).2, ⟨a, h₁, Prod.ext h₃ rfl⟩, h₄.symm⟩

@[simp] theorem Move.asks_mapResult (f : R → S) (move : Move σ Q A R) : (move.mapResult f).asks = move.asks := by
  cases move <;> rfl

namespace State

/-- The first execution on a store. -/
def start (store : σ) : State σ Q A R where
  store := store
  pos := 0
  cursor := 0
  out := []
  phase := .running
  answers := []
  owners := []
  log := []
  hist := []

/-- The call at `pos` has ended. -/
def complete (s : State σ Q A R) (answer : Option A) (store : σ) (result : R) : State σ Q A R where
  store := store
  pos := s.pos + 1
  cursor := s.cursor + if answer.isSome then 1 else 0
  out := s.out ++ [result]
  phase := s.phase
  answers := s.answers
  owners := s.owners
  log := s.log
  hist := s.hist ++ [⟨s.pos, s.store, answer, store, result⟩]

/-- What the call at `pos` does at the state it meets. -/
def next (prog : List (Call σ Q A R)) (s : State σ Q A R) : Option (Move σ Q A R) :=
  prog[s.pos]?.map fun c => c s.out s.store

/-- The call at `pos` puts a question at the state it meets. -/
def asks (prog : List (Call σ Q A R)) (s : State σ Q A R) : Bool := (s.next prog).any Move.asks

/-- Execute the call at `pos`. -/
def call (prog : List (Call σ Q A R)) (s : State σ Q A R) : State σ Q A R :=
  match s.next prog with
  | none => { s with phase := .finished }
  | some (.finish store result) => s.complete none store result
  | some (.ask question answered) =>
    match s.answers[s.cursor]? with
    | none => { s with phase := .paused question }
    | some a => s.complete (some a) (answered a).1 (answered a).2

/-- Execute from the beginning, with the answers at hand. -/
def rerun (s : State σ Q A R) : State σ Q A R :=
  { s with pos := 0, cursor := 0, out := [], phase := .running }

/-- The answer to the question of the call at `pos`. -/
def resume (s : State σ Q A R) (a : A) : State σ Q A R :=
  { s with
    answers := s.answers ++ [a]
    owners := s.owners ++ [s.pos]
    log := s.log ++ [(s.pos, a)] }.rerun

/-- The execution is broken off; the answers stay. -/
def halt (s : State σ Q A R) : State σ Q A R :=
  { s with pos := 0, cursor := 0, out := [], phase := .stopped }

/-- The answers are gone; the next execution asks anew. -/
def forget (s : State σ Q A R) : State σ Q A R :=
  { s with pos := 0, cursor := 0, out := [], phase := .stopped, answers := [], owners := [] }

/-- Up to the last question that was answered, the next call asks exactly if it asked in
the execution before. -/
def Faithful (prog : List (Call σ Q A R)) (s : State σ Q A R) : Prop :=
  s.cursor < s.answers.length → (s.asks prog = true ↔ s.pos ∈ s.owners)

/-! ### What one call does -/

theorem call_cases (prog : List (Call σ Q A R)) (s : State σ Q A R) :
    (s.next prog = none ∧ s.call prog = { s with phase := .finished }) ∨
    (∃ store result, s.next prog = some (.finish store result) ∧
      s.call prog = s.complete none store result) ∨
    (∃ question answered a, s.next prog = some (.ask question answered) ∧ s.answers[s.cursor]? = some a ∧
      s.call prog = s.complete (some a) (answered a).1 (answered a).2) ∨
    (∃ question answered, s.next prog = some (.ask question answered) ∧ s.answers[s.cursor]? = none ∧
      s.call prog = { s with phase := .paused question }) := by
  cases hn : s.next prog with
  | none => exact .inl ⟨rfl, by simp [call, hn]⟩
  | some move =>
    cases move with
    | finish store result => exact .inr (.inl ⟨store, result, rfl, by simp [call, hn]⟩)
    | ask question answered =>
      cases ha : s.answers[s.cursor]? with
      | none => exact .inr (.inr (.inr ⟨question, answered, rfl, rfl, by simp [call, hn, ha]⟩))
      | some a => exact .inr (.inr (.inl ⟨question, answered, a, rfl, rfl, by simp [call, hn, ha]⟩))

@[simp] theorem call_answers (prog : List (Call σ Q A R)) (s : State σ Q A R) :
    (s.call prog).answers = s.answers := by
  rcases call_cases prog s with ⟨-, h⟩ | ⟨_, _, -, h⟩ | ⟨_, _, _, -, -, h⟩ | ⟨_, _, -, -, h⟩ <;>
    simp [h, complete]

@[simp] theorem call_owners (prog : List (Call σ Q A R)) (s : State σ Q A R) :
    (s.call prog).owners = s.owners := by
  rcases call_cases prog s with ⟨-, h⟩ | ⟨_, _, -, h⟩ | ⟨_, _, _, -, -, h⟩ | ⟨_, _, -, -, h⟩ <;>
    simp [h, complete]

@[simp] theorem call_log (prog : List (Call σ Q A R)) (s : State σ Q A R) :
    (s.call prog).log = s.log := by
  rcases call_cases prog s with ⟨-, h⟩ | ⟨_, _, -, h⟩ | ⟨_, _, _, -, -, h⟩ | ⟨_, _, -, -, h⟩ <;>
    simp [h, complete]

/-- **One call**: the state changes in its phase only, or the call at `pos` ends, and its
entry is what it does at the state it meets. -/
theorem call_inv (prog : List (Call σ Q A R)) (s : State σ Q A R) :
    (∃ phase, s.call prog = { s with phase := phase }) ∨
    ∃ c answer store result, prog[s.pos]? = some c ∧
      Entry.From ⟨s.pos, s.store, answer, store, result⟩ (c s.out s.store) ∧
      (∀ a, answer = some a → s.answers[s.cursor]? = some a) ∧
      s.call prog = s.complete answer store result := by
  have key : ∀ move, s.next prog = some move → ∃ c, prog[s.pos]? = some c ∧ c s.out s.store = move := by
    intro move hm
    simpa using Option.map_eq_some_iff.mp hm
  rcases call_cases prog s with ⟨-, heq⟩ | ⟨store, result, hn, heq⟩ | ⟨q, k, a, hn, ha, heq⟩ | ⟨q, k, -, -, heq⟩
  · exact .inl ⟨_, heq⟩
  · obtain ⟨c, hc, hm⟩ := key _ hn
    exact .inr ⟨c, none, store, result, hc, by simp [hm, Entry.From], by simp, heq⟩
  · obtain ⟨c, hc, hm⟩ := key _ hn
    exact .inr ⟨c, some a, _, _, hc, by simp [hm, Entry.From], by simpa using ha, heq⟩
  · exact .inl ⟨_, heq⟩

/-- Only an execution without a next call comes to its end. -/
theorem call_finished {prog : List (Call σ Q A R)} {s : State σ Q A R} (hr : s.phase = .running)
    (hf : (s.call prog).phase = .finished) : s.next prog = none ∧ s.call prog = { s with phase := .finished } := by
  rcases call_cases prog s with h | ⟨store, result, -, h⟩ | ⟨_, _, a, -, -, h⟩ | ⟨_, _, -, -, h⟩
  · exact h
  · simp [h, complete, hr] at hf
  · simp [h, complete, hr] at hf
  · simp [h] at hf

theorem asks_of_ask {prog : List (Call σ Q A R)} {s : State σ Q A R} {question : Q} {answered : A → σ × R}
    (h : s.next prog = some (.ask question answered)) : s.asks prog = true := by
  simp [asks, h, Move.asks]

theorem not_asks_of_finish {prog : List (Call σ Q A R)} {s : State σ Q A R}
    (h : s.next prog = some (.finish store result)) : s.asks prog = false := by
  simp [asks, h, Move.asks]

end State

/-! ### Each answer reaches its own call -/

/-- **Alignment**: the answers stand in the order of the calls they were given to, the
cursor stands between the answers of the calls behind and ahead, every call that took an
answer took its own, and every call behind that has an answer took it. -/
structure Aligned (s : State σ Q A R) : Prop where
  length : s.owners.length = s.answers.length
  sorted : s.owners.Pairwise (· < ·)
  /-- The answers at hand are in the log. -/
  logged : ∀ x ∈ s.owners.zip s.answers, x ∈ s.log
  taken : ∀ e ∈ s.hist, ∀ a, e.answer = some a → (e.pos, a) ∈ s.log
  behind : s.phase = .running → ∀ p ∈ s.owners.take s.cursor, p < s.pos
  ahead : s.phase = .running → ∀ p ∈ s.owners.drop s.cursor, s.pos ≤ p
  paused : ∀ question, s.phase = .paused question → ∀ p ∈ s.owners, p < s.pos
  heard : s.phase ≠ .stopped → ∀ p a, p < s.pos → (p, a) ∈ s.owners.zip s.answers →
    ∃ e ∈ s.hist, e.pos = p ∧ e.answer = some a

namespace Aligned

variable {prog : List (Call σ Q A R)} {s : State σ Q A R}

theorem start (store : σ) : Aligned (State.start (Q := Q) (A := A) (R := R) store) where
  length := rfl
  sorted := List.Pairwise.nil
  logged := by simp [State.start]
  taken := by simp [State.start]
  behind := by simp [State.start]
  ahead := by simp [State.start]
  paused := by simp [State.start]
  heard := by simp [State.start]

theorem forget (h : Aligned s) : Aligned s.forget where
  length := rfl
  sorted := List.Pairwise.nil
  logged := by simp [State.forget]
  taken := h.taken
  behind := by simp [State.forget]
  ahead := by simp [State.forget]
  paused := by simp [State.forget]
  heard := by simp [State.forget]

/-- A change of the store from outside. -/
theorem outside (h : Aligned s) (store : σ) : Aligned { s with store := store } :=
  ⟨h.length, h.sorted, h.logged, h.taken, h.behind, h.ahead, h.paused, h.heard⟩

/-- An execution that is broken off; the answers stay. -/
theorem halt (h : Aligned s) : Aligned s.halt where
  length := h.length
  sorted := h.sorted
  logged := h.logged
  taken := h.taken
  behind := by simp [State.halt]
  ahead := by simp [State.halt]
  paused := by simp [State.halt]
  heard := by simp [State.halt]

/-- **An answer to the question that is pending keeps the alignment.** -/
theorem resume (h : Aligned s) {question : Q} (hp : s.phase = .paused question) (a : A) :
    Aligned (s.resume a) where
  length := by simp [State.resume, State.rerun, h.length]
  sorted := by
    show (s.owners ++ [s.pos]).Pairwise (· < ·)
    rw [List.pairwise_append]
    refine ⟨h.sorted, List.pairwise_singleton _ _, ?_⟩
    intro p hm q hq
    rw [List.mem_singleton] at hq
    subst hq
    exact h.paused question hp p hm
  logged := by
    intro x hx
    simp only [State.resume, State.rerun, List.zip_append h.length, List.mem_append] at hx ⊢
    exact hx.imp (h.logged x) (by simp)
  taken := by
    intro e he b hb
    simp only [State.resume, State.rerun, List.mem_append] at he ⊢
    exact .inl (h.taken e he b hb)
  behind := by simp [State.resume, State.rerun]
  ahead := by simp [State.resume, State.rerun]
  paused := by simp [State.resume, State.rerun]
  heard := by simp [State.resume, State.rerun]

/-- The owner of the next answer is the first owner that is not behind. -/
theorem mem_iff_owner (h : Aligned s) (hr : s.phase = .running) {p : ℕ}
    (hp : s.owners[s.cursor]? = some p) : s.pos ∈ s.owners ↔ p = s.pos := by
  obtain ⟨hlt, hget⟩ := List.getElem?_eq_some_iff.mp hp
  have hd : s.owners.drop s.cursor = p :: s.owners.drop (s.cursor + 1) := by
    rw [List.drop_eq_getElem_cons hlt, hget]
  have hle : s.pos ≤ p := h.ahead hr p (by simp [hd])
  constructor
  · intro hm
    rw [← List.take_append_drop s.cursor s.owners, List.mem_append] at hm
    rcases hm with hm | hm
    · exact absurd (h.behind hr _ hm) (Nat.lt_irrefl _)
    · have hs : (p :: s.owners.drop (s.cursor + 1)).Pairwise (· < ·) := by
        rw [← hd]
        exact h.sorted.sublist (List.drop_sublist _ _)
      rw [hd, List.mem_cons] at hm
      rcases hm with hm | hm
      · exact hm.symm
      · have := (List.pairwise_cons.mp hs).1 _ hm
        omega
  · rintro rfl
    exact List.mem_of_getElem? hp

/-- The call at `pos` ends without an answer, and none was given to it. -/
theorem complete_none (h : Aligned s) (hr : s.phase = .running)
    (hn : s.cursor < s.answers.length → s.pos ∉ s.owners) (store : σ) (result : R) :
    Aligned (s.complete none store result) where
  length := h.length
  sorted := h.sorted
  logged := h.logged
  taken := by
    intro e he a ha
    simp only [State.complete, List.mem_append, List.mem_singleton] at he
    rcases he with he | rfl
    · exact h.taken e he a ha
    · simp at ha
  behind := by
    intro _ p hp
    simp only [State.complete, Option.isSome_none, Bool.false_eq_true, ↓reduceIte, Nat.add_zero] at hp
    have := h.behind hr p hp
    simp only [State.complete]
    omega
  ahead := by
    intro _ p hp
    simp only [State.complete, Option.isSome_none, Bool.false_eq_true, ↓reduceIte, Nat.add_zero] at hp
    have hle := h.ahead hr p hp
    have hne : p ≠ s.pos := by
      rintro rfl
      have hlt : s.cursor < s.answers.length := by
        rw [← h.length]
        by_contra hge
        rw [List.drop_eq_nil_of_le (by omega)] at hp
        simp at hp
      exact hn hlt (List.mem_of_mem_drop hp)
    simp only [State.complete]
    omega
  paused := by
    intro question hq
    simp [State.complete, hr] at hq
  heard := by
    intro _ p a hp hm
    simp only [State.complete] at hp hm ⊢
    have hne : p ≠ s.pos := by
      rintro rfl
      have ho : s.pos ∈ s.owners := (List.of_mem_zip hm).1
      by_cases hlt : s.cursor < s.answers.length
      · exact hn hlt ho
      · -- every owner is behind
        have hall := h.behind hr s.pos (by
          rw [List.take_of_length_le (by rw [h.length]; omega)]
          exact ho)
        exact absurd hall (Nat.lt_irrefl _)
    obtain ⟨e, he, h₁, h₂⟩ := h.heard (by simp [hr]) p a (by omega) hm
    exact ⟨e, by simp [he], h₁, h₂⟩

/-- The call at `pos` takes the next answer, and is its owner. -/
theorem complete_some (h : Aligned s) (hr : s.phase = .running) {a : A} (ha : s.answers[s.cursor]? = some a)
    (ho : s.owners[s.cursor]? = some s.pos) (store : σ) (result : R) :
    Aligned (s.complete (some a) store result) := by
  obtain ⟨hlt, hget⟩ := List.getElem?_eq_some_iff.mp ho
  have hd : s.owners.drop s.cursor = s.pos :: s.owners.drop (s.cursor + 1) := by
    rw [List.drop_eq_getElem_cons hlt, hget]
  have hzip : (s.pos, a) ∈ s.owners.zip s.answers := by
    refine List.mem_of_getElem? (i := s.cursor) ?_
    rw [List.getElem?_zip_eq_some]
    exact ⟨ho, ha⟩
  have hs : (s.pos :: s.owners.drop (s.cursor + 1)).Pairwise (· < ·) := by
    rw [← hd]
    exact h.sorted.sublist (List.drop_sublist _ _)
  refine ⟨h.length, h.sorted, h.logged, ?_, ?_, ?_, ?_, ?_⟩
  · intro e he b hb
    simp only [State.complete, List.mem_append, List.mem_singleton] at he
    rcases he with he | rfl
    · exact h.taken e he b hb
    · obtain rfl : a = b := by simpa using hb
      exact h.logged _ hzip
  · intro _ p hp
    simp only [State.complete, Option.isSome_some, ↓reduceIte] at hp ⊢
    rw [List.take_add_one, ho, List.mem_append] at hp
    rcases hp with hp | hp
    · have := h.behind hr p hp
      omega
    · simp only [Option.toList_some, List.mem_singleton] at hp
      omega
  · intro _ p hp
    simp only [State.complete, Option.isSome_some, ↓reduceIte] at hp ⊢
    have := (List.pairwise_cons.mp hs).1 p hp
    omega
  · intro question hq
    simp [State.complete, hr] at hq
  · intro _ p b hp hm
    simp only [State.complete] at hp hm ⊢
    by_cases hps : p = s.pos
    · subst hps
      -- owners are distinct, so the answer is the one at the cursor
      obtain ⟨i, hi⟩ := List.mem_iff_getElem?.mp hm
      rw [List.getElem?_zip_eq_some] at hi
      obtain ⟨hi', hgi⟩ := List.getElem?_eq_some_iff.mp hi.1
      have hnd : s.owners.Nodup := h.sorted.imp (fun hlt => Nat.ne_of_lt hlt)
      have hic : i = s.cursor := (hnd.getElem_inj_iff).mp (hgi.trans hget.symm)
      subst hic
      obtain rfl : a = b := Option.some.inj (ha.symm.trans hi.2)
      exact ⟨⟨s.pos, s.store, some a, store, result⟩, by simp, rfl, rfl⟩
    · obtain ⟨e, he, h₁, h₂⟩ := h.heard (by simp [hr]) p b (by omega) hm
      exact ⟨e, by simp [he], h₁, h₂⟩

/-- **A faithful call keeps the alignment.** -/
theorem call (h : Aligned s) (hr : s.phase = .running) (hf : s.Faithful prog) : Aligned (s.call prog) := by
  rcases State.call_cases prog s with ⟨hn, heq⟩ | ⟨store, result, hn, heq⟩ | ⟨q, k, a, hn, ha, heq⟩ |
    ⟨q, k, hn, ha, heq⟩
  · rw [heq]
    exact ⟨h.length, h.sorted, h.logged, h.taken, by simp, by simp, by simp,
      fun _ => h.heard (by simp [hr])⟩
  · rw [heq]
    refine h.complete_none hr (fun hlt hm => ?_) store result
    have := (hf hlt).mpr hm
    rw [State.not_asks_of_finish hn] at this
    simp at this
  · rw [heq]
    obtain ⟨hlt, -⟩ := List.getElem?_eq_some_iff.mp ha
    have hm := (hf hlt).mp (State.asks_of_ask hn)
    have hlo : s.cursor < s.owners.length := by rw [h.length]; exact hlt
    have ho : s.owners[s.cursor]? = some s.owners[s.cursor] := List.getElem?_eq_getElem hlo
    have hp := (h.mem_iff_owner hr ho).mp hm
    exact h.complete_some hr ha (by rw [ho, hp]) _ _
  · rw [heq]
    refine ⟨h.length, h.sorted, h.logged, h.taken, by simp, by simp, ?_, fun _ => h.heard (by simp [hr])⟩
    intro _ _ p hp
    have hge : s.owners.length ≤ s.cursor := by
      rw [h.length]
      exact List.getElem?_eq_none_iff.mp ha
    exact h.behind hr p (by rw [List.take_of_length_le hge]; exact hp)

end Aligned

/-! ### The system -/

/-- What happens to a program. -/
inductive Event (σ : Type u) (A : Type w) where
  /-- The next call of the execution is executed. -/
  | call
  /-- An answer comes to the pending question, and the program runs again. -/
  | resume (a : A)
  /-- Somebody else writes the store while a question is pending. -/
  | outside (store : σ)

inductive Step (prog : List (Call σ Q A R)) : State σ Q A R → Event σ A → State σ Q A R → Prop where
  | call {s} (hr : s.phase = .running) : Step prog s .call (s.call prog)
  | resume {s} (question : Q) (a : A) (hp : s.phase = .paused question) : Step prog s (.resume a) (s.resume a)
  | outside {s} (question : Q) (store : σ) (hp : s.phase = .paused question) :
      Step prog s (.outside store) { s with store := store }

/-- A program from its first execution on, with its answers and the changes from outside. -/
def system (prog : List (Call σ Q A R)) : Lts (State σ Q A R) (Event σ A) where
  init s := ∃ store, s = State.start store
  step := Step prog

/-- Every entry of the history is what its call did, at the store it met. -/
def Produced (prog : List (Call σ Q A R)) (s : State σ Q A R) : Prop :=
  ∀ e ∈ s.hist, ∃ c out, prog[e.pos]? = some c ∧ e.From (c out e.before)

theorem Produced.call {prog : List (Call σ Q A R)} {s : State σ Q A R} (h : Produced prog s) :
    Produced prog (s.call prog) := by
  rcases State.call_inv prog s with ⟨phase, heq⟩ | ⟨c, answer, store, result, hc, hfrom, -, heq⟩
  · rw [heq]
    exact h
  · rw [heq]
    intro e he
    simp only [State.complete, List.mem_append, List.mem_singleton] at he
    rcases he with he | rfl
    · exact h e he
    · exact ⟨c, s.out, hc, hfrom⟩

variable {prog : List (Call σ Q A R)} {s : State σ Q A R}

theorem produced_of_reachable (h : (system prog).Reachable s) : Produced prog s := by
  refine h.induct (P := Produced prog) ?_ ?_
  · rintro s ⟨store, rfl⟩
    simp [Produced, State.start]
  · intro s e t _ hp hs
    cases hs with
    | call hr => exact hp.call
    | resume question a hq => exact hp
    | outside question store hq => exact hp

/-- A finished execution is past the last call. -/
theorem pos_of_finished (h : (system prog).Reachable s) (hf : s.phase = .finished) : prog.length ≤ s.pos := by
  refine h.induct (P := fun s => s.phase = .finished → prog.length ≤ s.pos) ?_ ?_ hf
  · rintro s ⟨store, rfl⟩ hf
    simp [State.start] at hf
  · rintro s e t _ hp hs hf
    cases hs with
    | call hr =>
      rcases State.call_cases prog s with ⟨hn, heq⟩ | ⟨store, result, -, heq⟩ | ⟨q, k, a, -, -, heq⟩ | ⟨q, k, -, -, heq⟩
      · rw [heq]
        exact List.getElem?_eq_none_iff.mp (Option.map_eq_none_iff.mp hn)
      · simp [heq, State.complete, hr] at hf
      · simp [heq, State.complete, hr] at hf
      · simp [heq] at hf
    | resume question a hq => simp [State.resume, State.rerun] at hf
    | outside question store hq => exact hp hf

/-- In a program that is never given up, the log is the answers with their owners. -/
theorem log_of_reachable (h : (system prog).Reachable s) :
    s.owners.length = s.answers.length ∧ s.log = s.owners.zip s.answers := by
  refine h.induct (P := fun s => s.owners.length = s.answers.length ∧ s.log = s.owners.zip s.answers) ?_ ?_
  · rintro s ⟨store, rfl⟩
    simp [State.start]
  · rintro s e t _ ⟨hl, hz⟩ hs
    cases hs with
    | call hr => simpa using ⟨hl, hz⟩
    | resume question a hq => simp [State.resume, State.rerun, hl, hz, List.zip_append hl]
    | outside question store hq => exact ⟨hl, hz⟩

/-- The step asks as the execution before did. -/
def faithful (prog : List (Call σ Q A R)) (s : State σ Q A R) : Event σ A → Prop
  | .call => s.Faithful prog
  | _ => True

/-- **Each answer reaches its own call**: in a run whose calls all ask as they did before. -/
theorem aligned_of_reachable (h : ((system prog).guard (faithful prog)).Reachable s) : Aligned s := by
  refine h.induct (P := Aligned) ?_ ?_
  · rintro s ⟨store, rfl⟩
    exact .start store
  · rintro s e t _ hp ⟨hs, hg⟩
    cases hs with
    | call hr => exact hp.call hr hg
    | resume question a hq => exact hp.resume hq a
    | outside question store hq => exact hp.outside store

/-- Then no call is ever answered twice. -/
theorem Aligned.answer_unique (h : Aligned s) (hz : s.log = s.owners.zip s.answers) {p : ℕ} {a b : A}
    (ha : (p, a) ∈ s.log) (hb : (p, b) ∈ s.log) : a = b := by
  rw [hz] at ha hb
  obtain ⟨i, hi⟩ := List.mem_iff_getElem?.mp ha
  obtain ⟨j, hj⟩ := List.mem_iff_getElem?.mp hb
  rw [List.getElem?_zip_eq_some] at hi hj
  obtain ⟨hi', hgi⟩ := List.getElem?_eq_some_iff.mp hi.1
  obtain ⟨hj', hgj⟩ := List.getElem?_eq_some_iff.mp hj.1
  have hnd : s.owners.Nodup := h.sorted.imp fun hlt => Nat.ne_of_lt hlt
  have hij : i = j := (hnd.getElem_inj_iff).mp (hgi.trans hgj.symm)
  subst hij
  exact Option.some.inj (hi.2.symm.trans hj.2)

/-! ### One result for each call -/

/-- The results of this execution carry the labels of the calls behind. -/
def OutLabels {ι : Type*} (label : R → ι) (labels : List ι) (s : State σ Q A R) : Prop :=
  s.out.map label = labels.take s.pos ∧ s.pos ≤ labels.length

section labels

variable {ι : Type*} {label : R → ι} {labels : List ι}

/-- An execution that has not begun has no results. -/
theorem OutLabels.nil {s : State σ Q A R} (hp : s.pos = 0) (ho : s.out = []) : OutLabels label labels s :=
  ⟨by simp [hp, ho], by simp [hp]⟩

theorem OutLabels.complete (h : OutLabels label labels s)
    (hl : labels[s.pos]? = some (label result)) : OutLabels label labels (s.complete answer store result) := by
  obtain ⟨hlt, -⟩ := List.getElem?_eq_some_iff.mp hl
  refine ⟨?_, hlt⟩
  simp only [State.complete, List.map_append, List.map_singleton]
  rw [List.take_add_one, hl, h.1]
  rfl

/-- **One result for each call**: if the results of the `i`-th call carry the `i`-th label,
the results of an execution carry the labels in order. -/
theorem out_labels_call (h : OutLabels label labels s) (hlen : prog.length = labels.length)
    (hprog : ∀ (i : ℕ) (c : Call σ Q A R) (l : ι), prog[i]? = some c → labels[i]? = some l →
      ∀ out store, (c out store).All fun _ result => label result = l) :
    OutLabels label labels (s.call prog) := by
  rcases State.call_inv prog s with ⟨phase, heq⟩ | ⟨c, answer, store, result, hc, hfrom, -, heq⟩
  · rw [heq]
    exact h
  · obtain ⟨hlt, -⟩ := List.getElem?_eq_some_iff.mp hc
    have hl : labels[s.pos]? = some labels[s.pos] := List.getElem?_eq_getElem (hlen ▸ hlt)
    have hr : label result = labels[s.pos] := (hprog _ _ _ hc hl s.out s.store).of_from hfrom
    rw [heq]
    exact h.complete (by rw [hl, hr])

/-- A finished execution has a result for every call. -/
theorem next_eq_none (hlen : prog.length = labels.length) (h : OutLabels label labels s)
    (hn : s.next prog = none) : s.out.map label = labels := by
  have hge : prog.length ≤ s.pos := by
    rw [State.next, Option.map_eq_none_iff] at hn
    exact List.getElem?_eq_none_iff.mp hn
  rw [h.1, List.take_of_length_le (hlen ▸ hge)]

end labels

/-! ### One effect for each call -/

/-- On this store, with this answer at its question, the move changes nothing and gives the
result `result`. -/
def Move.Repeats (changed : σ → σ → Prop) (store : σ) (result : R) (answer : Option A) : Move σ Q A R → Prop
  | .finish store' result' => ¬ changed store store' ∧ result' = result
  | .ask _ answered => ∀ a, answer = some a → ¬ changed store (answered a).1 ∧ (answered a).2 = result

theorem Move.Repeats.mapResult {changed : σ → σ → Prop} (h : move.Repeats changed store result answer) (f : R → S) :
    (move.mapResult f).Repeats changed store (f result) answer := by
  cases move with
  | finish store' result' => exact ⟨h.1, congrArg f h.2⟩
  | ask question answered => exact fun a ha => ⟨(h a ha).1, congrArg f (h a ha).2⟩

theorem Move.Repeats.of_from {changed : σ → σ → Prop}
    (h : move.Repeats changed store result answer) {e : Entry σ A R} (he : e.From move)
    (ha : ∀ a, e.answer = some a → answer = some a) : ¬ changed store e.after ∧ e.result = result := by
  cases move with
  | finish store' result' =>
    obtain ⟨-, rfl, rfl⟩ := he
    exact h
  | ask question answered =>
    obtain ⟨a, hea, heq⟩ := he
    simpa [heq] using h a (ha a hea)

/-- **One effect for each call**: of the executions of a call at most one changes the store,
and an execution of the program that is past the call has the result of that one. -/
structure Once (changed : σ → σ → Prop) (s : State σ Q A R) : Prop where
  length : s.out.length = s.pos
  once : s.hist.Pairwise fun e e' => e.pos = e'.pos → changed e.before e.after → ¬ changed e'.before e'.after
  reported : ∀ e ∈ s.hist, changed e.before e.after → e.pos < s.pos → s.out[e.pos]? = some e.result

namespace Once

variable {changed : σ → σ → Prop}

theorem start (store : σ) : Once changed (State.start (Q := Q) (A := A) (R := R) store) :=
  ⟨rfl, List.Pairwise.nil, by simp [State.start]⟩

theorem resume (h : Once changed s) (a : A) : Once changed (s.resume a) :=
  ⟨rfl, h.once, by simp [State.resume, State.rerun]⟩

/-- A call keeps the law if, once it has had its effect, it repeats the result. -/
theorem call (h : Once changed s) (hrep : ∀ c, prog[s.pos]? = some c → ∀ e ∈ s.hist, e.pos = s.pos →
      changed e.before e.after → (c s.out s.store).Repeats changed s.store e.result s.answers[s.cursor]?) :
    Once changed (s.call prog) := by
  rcases State.call_inv prog s with ⟨phase, heq⟩ | ⟨c, answer, store, result, hc, hfrom, hans, heq⟩
  · rw [heq]
    exact ⟨h.length, h.once, h.reported⟩
  · have again : ∀ e ∈ s.hist, e.pos = s.pos → changed e.before e.after →
        ¬ changed s.store store ∧ result = e.result :=
      fun e he hp hch => (hrep c hc e he hp hch).of_from hfrom hans
    rw [heq]
    refine ⟨by simp [State.complete, h.length], ?_, ?_⟩
    · show (s.hist ++ [_]).Pairwise _
      rw [List.pairwise_append]
      refine ⟨h.once, List.pairwise_singleton _ _, fun e he e' he' hp hch => ?_⟩
      rw [List.mem_singleton] at he'
      subst he'
      exact (again e he hp hch).1
    · intro e he hch hlt
      simp only [State.complete, List.mem_append, List.mem_singleton] at he hlt ⊢
      rcases he with he | rfl
      · rcases Nat.lt_succ_iff_lt_or_eq.mp hlt with hlt | hp
        · rw [List.getElem?_append_left (by rw [h.length]; exact hlt)]
          exact h.reported e he hch hlt
        · rw [hp, ← h.length, List.getElem?_concat_length, (again e he hp hch).2]
      · show (s.out ++ [result])[s.pos]? = some result
        rw [← h.length, List.getElem?_concat_length]

end Once

end Sreda.Lib.Replay
