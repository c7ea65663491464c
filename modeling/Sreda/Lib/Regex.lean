import Mathlib.Data.List.Basic
import Mathlib.Tactic.Common

/-!
# Regular expressions that backtrack

The patterns of a backtracking matcher: classes of characters, repeated greedily or lazily,
sequences, ordered choices and named groups. `find` lists every way to match the front of a
text, in the order in which the matcher tries them; `fullMatch` is the first of them that
uses the whole text, which is what a pattern between a start and an end anchor gives on a
text without a newline.

## What is proved

* the ways that `find` lists are the ways to match (`mem_find`), where `Matches` says what it
  is to match without an order; so a text is accepted when it matches in some way
  (`fullMatch_isSome_iff`) and what is captured is a way to match (`fullMatch_matches`);
* a sequence is matched by its first part and then by the rest (`fullMatch_seq`);
* a lazy group takes the shortest text that leaves a match for the rest (`lazy_least`).
-/

namespace Sreda.Lib.Regex

/-- The patterns. -/
inductive Re where
  /-- Matches nothing but the empty text. -/
  | empty
  /-- One character of a class. -/
  | char (p : Char → Bool)
  /-- Any number of characters of a class: as few as possible first when lazy, else as many. -/
  | many (lazily : Bool) (p : Char → Bool)
  /-- One pattern and then the other. -/
  | seq (a b : Re)
  /-- The first pattern, or else the second. -/
  | alt (a b : Re)
  /-- The pattern, and its text is captured under a name. -/
  | group (name : String) (a : Re)

/-- The texts that were captured. -/
abbrev Groups := List (String × List Char)

/-- One way to match the front of a text. -/
structure Found where
  text : List Char
  groups : Groups
  rest : List Char

/-- The ways to cut a run of a class off the front of a text, the shortest first. -/
def spans (p : Char → Bool) : List Char → List (List Char × List Char)
  | [] => [([], [])]
  | c :: s => ([], c :: s) :: if p c then (spans p s).map (fun x => (c :: x.1, x.2)) else []

namespace Re

/-- Every way to match the front of a text, in the order in which they are tried. -/
def find : Re → List Char → List Found
  | empty, s => [⟨[], [], s⟩]
  | char _, [] => []
  | char p, c :: s => if p c then [⟨[c], [], s⟩] else []
  | many lazily p, s =>
    let found := (spans p s).map fun x => ⟨x.1, [], x.2⟩
    if lazily then found else found.reverse
  | seq a b, s =>
    (a.find s).flatMap fun m =>
      (b.find m.rest).map fun m' => ⟨m.text ++ m'.text, m.groups ++ m'.groups, m'.rest⟩
  | alt a b, s => a.find s ++ b.find s
  | group name a, s => (a.find s).map fun m => ⟨m.text, m.groups ++ [(name, m.text)], m.rest⟩

/-- The captured texts of the first way that uses the whole text. -/
def fullMatch (r : Re) (s : List Char) : Option Groups :=
  ((r.find s).find? fun m => m.rest.isEmpty).map (·.groups)

/-- What it is to match a text and capture these groups, in whatever order. -/
def Matches : Re → List Char → Groups → Prop
  | empty, s, g => s = [] ∧ g = []
  | char p, s, g => ∃ c, s = [c] ∧ p c = true ∧ g = []
  | many _ p, s, g => (∀ c ∈ s, p c = true) ∧ g = []
  | seq a b, s, g => ∃ s₁ g₁ s₂ g₂, s = s₁ ++ s₂ ∧ g = g₁ ++ g₂ ∧ a.Matches s₁ g₁ ∧ b.Matches s₂ g₂
  | alt a b, s, g => a.Matches s g ∨ b.Matches s g
  | group name a, s, g => ∃ g', g = g' ++ [(name, s)] ∧ a.Matches s g'

/-! ### The ways that are tried are the ways to match -/

variable {p : Char → Bool} {s : List Char} {g : Groups} {a b : Re} {name : String} {lazily : Bool}

section Ways

attribute [local simp] spans find Matches

theorem mem_spans {t r : List Char} : (t, r) ∈ spans p s ↔ s = t ++ r ∧ ∀ c ∈ t, p c = true := by
  induction s generalizing t with
  | nil =>
    simp only [spans, List.mem_singleton, Prod.mk.injEq]
    constructor
    · rintro ⟨rfl, rfl⟩
      exact ⟨rfl, by simp⟩
    · rintro ⟨hs, -⟩
      exact List.append_eq_nil_iff.mp hs.symm
  | cons c s ih =>
    have htail : ∀ {u : List Char}, (u, r) ∈ (if p c then (spans p s).map (fun x => (c :: x.1, x.2)) else []) ↔
        ∃ t', u = c :: t' ∧ p c = true ∧ s = t' ++ r ∧ ∀ d ∈ t', p d = true := by
      intro u
      by_cases hc : p c = true
      · simp only [hc, if_true, List.mem_map, Prod.mk.injEq, Prod.exists, true_and]
        constructor
        · rintro ⟨t', r', hx, rfl, rfl⟩
          exact ⟨t', rfl, ih.mp hx⟩
        · rintro ⟨t', rfl, hx⟩
          exact ⟨t', r, ih.mpr hx, rfl, rfl⟩
      · simp [hc]
    rw [spans, List.mem_cons, htail, Prod.mk.injEq]
    constructor
    · rintro (⟨rfl, rfl⟩ | ⟨t', rfl, hc, rfl, ht⟩)
      · exact ⟨rfl, by simp⟩
      · exact ⟨rfl, by simpa [hc] using ht⟩
    · rintro ⟨hs, hp⟩
      cases t with
      | nil => exact .inl ⟨rfl, hs.symm⟩
      | cons d t' =>
        simp only [List.cons_append, List.cons.injEq] at hs
        obtain ⟨rfl, rfl⟩ := hs
        exact .inr ⟨t', rfl, hp c (by simp), rfl, fun d hd => hp d (by simp [hd])⟩

/-- The shorter spans are tried first. -/
theorem spans_pairwise (p : Char → Bool) (s : List Char) :
    (spans p s).Pairwise fun x y => x.1.length < y.1.length := by
  induction s with
  | nil => simp
  | cons c s ih =>
    rw [spans, List.pairwise_cons]
    by_cases hc : p c = true
    · simp only [hc, if_true, List.mem_map, List.pairwise_map, List.length_cons, Nat.add_lt_add_iff_right]
      refine ⟨?_, ih⟩
      rintro y ⟨x, -, rfl⟩
      simp
    · simp [hc]

/-- **What is tried are the ways to match the front of the text.** -/
theorem mem_find {r : Re} {m : Found} : m ∈ r.find s ↔ s = m.text ++ m.rest ∧ r.Matches m.text m.groups := by
  induction r generalizing s m with
  | empty =>
    obtain ⟨t, g, rest⟩ := m
    simp only [find, List.mem_singleton, Found.mk.injEq, Matches]
    constructor
    · rintro ⟨rfl, rfl, rfl⟩
      exact ⟨rfl, rfl, rfl⟩
    · rintro ⟨hs, rfl, rfl⟩
      exact ⟨rfl, rfl, hs.symm⟩
  | char p =>
    obtain ⟨t, g, rest⟩ := m
    cases s with
    | nil =>
      simp only [find, List.not_mem_nil, Matches, false_iff, not_and, not_exists]
      rintro hs c rfl
      simp at hs
    | cons c s =>
      by_cases hc : p c = true
      · simp only [find, hc, if_true, List.mem_singleton, Found.mk.injEq, Matches]
        constructor
        · rintro ⟨rfl, rfl, rfl⟩
          exact ⟨rfl, c, rfl, hc, rfl⟩
        · rintro ⟨hs, d, rfl, -, rfl⟩
          simp only [List.cons_append, List.nil_append, List.cons.injEq] at hs
          exact ⟨by rw [hs.1], rfl, hs.2.symm⟩
      · simp only [find, hc, Bool.false_eq_true, if_false, List.not_mem_nil, Matches, false_iff, not_and,
          not_exists]
        rintro hs d rfl hd
        simp only [List.cons_append, List.nil_append, List.cons.injEq] at hs
        exact absurd (hs.1 ▸ hd) hc
  | many lazily p =>
    obtain ⟨t, g, rest⟩ := m
    have hmem : (⟨t, g, rest⟩ : Found) ∈ (spans p s).map (fun x => (⟨x.1, [], x.2⟩ : Found)) ↔
        s = t ++ rest ∧ (∀ c ∈ t, p c = true) ∧ g = [] := by
      simp only [List.mem_map, Found.mk.injEq]
      constructor
      · rintro ⟨⟨t', r'⟩, hx, rfl, rfl, rfl⟩
        obtain ⟨hs, hp⟩ := mem_spans.mp hx
        exact ⟨hs, hp, rfl⟩
      · rintro ⟨hs, hp, rfl⟩
        exact ⟨(t, rest), mem_spans.mpr ⟨hs, hp⟩, rfl, rfl, rfl⟩
    cases lazily <;> simpa using hmem
  | seq a b iha ihb =>
    simp only [find, List.mem_flatMap, List.mem_map, Matches]
    constructor
    · rintro ⟨m₁, h₁, m₂, h₂, rfl⟩
      obtain ⟨hs, ha⟩ := iha.mp h₁
      obtain ⟨hr, hb⟩ := ihb.mp h₂
      exact ⟨by rw [hs, hr, List.append_assoc], m₁.text, m₁.groups, m₂.text, m₂.groups, rfl, rfl, ha, hb⟩
    · rintro ⟨hs, s₁, g₁, s₂, g₂, ht, hg, ha, hb⟩
      refine ⟨⟨s₁, g₁, s₂ ++ m.rest⟩, iha.mpr ⟨by rw [hs, ht, List.append_assoc], ha⟩,
        ⟨s₂, g₂, m.rest⟩, ihb.mpr ⟨rfl, hb⟩, ?_⟩
      obtain ⟨t, g, rest⟩ := m
      simp only at ht hg
      subst ht hg
      rfl
  | alt a b iha ihb => simp only [find, List.mem_append, iha, ihb, Matches, and_or_left]
  | group name a ih =>
    obtain ⟨t, g, rest⟩ := m
    simp only [find, List.mem_map, Found.mk.injEq, Matches]
    constructor
    · rintro ⟨m', hm, rfl, rfl, rfl⟩
      obtain ⟨hs, ha⟩ := ih.mp hm
      exact ⟨hs, m'.groups, rfl, ha⟩
    · rintro ⟨hs, g', rfl, ha⟩
      exact ⟨⟨t, g', rest⟩, ih.mpr ⟨hs, ha⟩, rfl, rfl, rfl⟩

/-- What is captured is a way to match. -/
theorem fullMatch_matches {r : Re} (h : r.fullMatch s = some g) : r.Matches s g := by
  simp only [fullMatch, Option.map_eq_some_iff] at h
  obtain ⟨m, hm, rfl⟩ := h
  have hrest : m.rest = [] := by simpa using List.find?_some hm
  obtain ⟨hs, hmatch⟩ := mem_find.mp (List.mem_of_find?_eq_some hm)
  rw [hrest, List.append_nil] at hs
  exact hs ▸ hmatch

/-- **A text is accepted when it matches in some way.** -/
theorem fullMatch_isSome_iff {r : Re} : (r.fullMatch s).isSome ↔ ∃ g, r.Matches s g := by
  constructor
  · intro h
    obtain ⟨g, hg⟩ := Option.isSome_iff_exists.mp h
    exact ⟨g, fullMatch_matches hg⟩
  · rintro ⟨g, hg⟩
    simp only [fullMatch, Option.isSome_map, List.find?_isSome]
    exact ⟨⟨s, g, []⟩, mem_find.mpr ⟨by simp, hg⟩, rfl⟩

theorem fullMatch_of_matches {r : Re} (h : r.Matches s g) : ∃ g', r.fullMatch s = some g' ∧ r.Matches s g' := by
  obtain ⟨g', hg'⟩ := Option.isSome_iff_exists.mp (fullMatch_isSome_iff.mpr ⟨g, h⟩)
  exact ⟨g', hg', fullMatch_matches hg'⟩

/-! ### Sequences, and the order of lazy groups -/

/-- A sequence takes the first way through its first part that leaves a match for the second. -/
theorem fullMatch_seq_eq (a b : Re) (s : List Char) :
    (a.seq b).fullMatch s = (a.find s).findSome? fun m => (b.fullMatch m.rest).map (m.groups ++ ·) := by
  simp only [fullMatch, find, List.find?_flatMap, List.map_findSome?]
  congr 1
  funext m
  simp only [Function.comp_apply, List.find?_map, Option.map_map]
  rfl

theorem fullMatch_seq (h : (a.seq b).fullMatch s = some g) :
    ∃ s₁ g₁ s₂ g₂, s = s₁ ++ s₂ ∧ g = g₁ ++ g₂ ∧ a.Matches s₁ g₁ ∧ b.fullMatch s₂ = some g₂ := by
  rw [fullMatch_seq_eq] at h
  obtain ⟨l₁, m, l₂, hl, hm, -⟩ := List.findSome?_eq_some_iff.mp h
  obtain ⟨g₂, hg₂, rfl⟩ := Option.map_eq_some_iff.mp hm
  obtain ⟨hs, ha⟩ := mem_find.mp (show m ∈ a.find s by simp [hl])
  exact ⟨m.text, m.groups, m.rest, g₂, hs, rfl, ha, hg₂⟩

/-- One or more characters of a class. -/
def plus (lazily : Bool) (p : Char → Bool) : Re := seq (char p) (many lazily p)

theorem find_lazy_pairwise (name : String) (p : Char → Bool) (s : List Char) :
    ((group name (plus true p)).find s).Pairwise fun m m' => m.text.length < m'.text.length := by
  cases s with
  | nil => simp [plus]
  | cons c s =>
    by_cases hc : p c = true
    · simp only [plus, find, hc, if_true, List.flatMap_cons, List.flatMap_nil, List.append_nil,
        List.map_map, List.pairwise_map]
      exact (spans_pairwise p s).imp (by simp)
    · simp [plus, hc]

end Ways

/-- **A lazy group takes the shortest text that leaves a match for the rest.** -/
theorem lazy_least (h : (seq (group name (plus true p)) b).fullMatch s = some g) :
    ∃ t s' g', s = t ++ s' ∧ g = (name, t) :: g' ∧ (t ≠ [] ∧ ∀ c ∈ t, p c = true) ∧ b.fullMatch s' = some g' ∧
      ∀ t₁ s₁, s = t₁ ++ s₁ → t₁ ≠ [] → (∀ c ∈ t₁, p c = true) → t₁.length < t.length →
        b.fullMatch s₁ = none := by
  rw [fullMatch_seq_eq] at h
  obtain ⟨l₁, m, l₂, hl, hm, hbefore⟩ := List.findSome?_eq_some_iff.mp h
  obtain ⟨g', hg', rfl⟩ := Option.map_eq_some_iff.mp hm
  obtain ⟨hs, hmatch⟩ := mem_find.mp (show m ∈ (group name (plus true p)).find s by simp [hl])
  obtain ⟨hgroups, htext⟩ : m.groups = [(name, m.text)] ∧ (m.text ≠ [] ∧ ∀ c ∈ m.text, p c = true) := by
    obtain ⟨g₀, hg₀, s₁, g₁, s₂, g₂, ht, rfl, ⟨c, rfl, hc, rfl⟩, hs₂, rfl⟩ := hmatch
    exact ⟨hg₀, by rw [ht]; simp, by rw [ht]; simpa [hc] using hs₂⟩
  refine ⟨m.text, m.rest, g', hs, by rw [hgroups]; rfl, htext, hg', fun t₁ s₁ ht₁ hne hp hlt => ?_⟩
  -- the shorter text is tried as well, and before the one that was taken
  have hmem : (⟨t₁, [(name, t₁)], s₁⟩ : Found) ∈ (group name (plus true p)).find s := by
    refine mem_find.mpr ⟨ht₁, [], rfl, ?_⟩
    obtain ⟨c, t', rfl⟩ := List.exists_cons_of_ne_nil hne
    exact ⟨[c], [], t', [], rfl, rfl, ⟨c, rfl, hp c (by simp), rfl⟩, fun d hd => hp d (by simp [hd]), rfl⟩
  have hsorted := find_lazy_pairwise name p s
  rw [hl] at hmem hsorted
  rcases List.mem_append.mp hmem with h₁ | h₂
  · simpa using hbefore _ h₁
  · exfalso
    rcases List.mem_cons.mp h₂ with rfl | h₂
    · exact Nat.lt_irrefl _ hlt
    · have := (List.pairwise_cons.mp (List.pairwise_append.mp hsorted).2.1).1 _ h₂
      simp only at this
      omega

/-! ### The derived patterns -/

/-- A literal. -/
def lit (w : String) : Re := w.toList.foldr (fun c r => seq (char (· == c)) r) empty

/-- So many characters of a class. -/
def times : ℕ → (Char → Bool) → Re
  | 0, _ => empty
  | n + 1, p => seq (char p) (times n p)

def opt (a : Re) : Re := alt a empty

/-- One pattern after the other. -/
def cat : List Re → Re
  | [] => empty
  | [a] => a
  | a :: rest => seq a (cat rest)

/-- The first of the literals. -/
def oneOf : List String → Re
  | [] => char fun _ => false
  | [w] => lit w
  | w :: rest => alt (lit w) (oneOf rest)

@[simp] theorem matches_empty : empty.Matches s g ↔ s = [] ∧ g = [] := Iff.rfl

@[simp] theorem matches_char : (char p).Matches s g ↔ ∃ c, s = [c] ∧ p c = true ∧ g = [] := Iff.rfl

@[simp] theorem matches_many : (many lazily p).Matches s g ↔ (∀ c ∈ s, p c = true) ∧ g = [] := Iff.rfl

@[simp] theorem matches_plus : (plus lazily p).Matches s g ↔ s ≠ [] ∧ (∀ c ∈ s, p c = true) ∧ g = [] := by
  constructor
  · rintro ⟨s₁, g₁, s₂, g₂, rfl, rfl, ⟨c, rfl, hc, rfl⟩, hs, rfl⟩
    exact ⟨by simp, by simpa [hc] using hs, rfl⟩
  · rintro ⟨hne, hs, rfl⟩
    obtain ⟨c, t, rfl⟩ := List.exists_cons_of_ne_nil hne
    exact ⟨[c], [], t, [], rfl, rfl, ⟨c, rfl, hs c (by simp), rfl⟩, fun d hd => hs d (by simp [hd]), rfl⟩

theorem matches_literal {w : List Char} :
    (w.foldr (fun c r => seq (char (· == c)) r) empty).Matches s g ↔ s = w ∧ g = [] := by
  induction w generalizing s g with
  | nil => rfl
  | cons c w ih =>
    constructor
    · rintro ⟨s₁, g₁, s₂, g₂, rfl, rfl, ⟨d, rfl, hd, rfl⟩, h⟩
      obtain ⟨rfl, rfl⟩ := ih.mp h
      exact ⟨by simpa using hd, rfl⟩
    · rintro ⟨rfl, rfl⟩
      exact ⟨[c], [], w, [], rfl, rfl, ⟨c, rfl, by simp, rfl⟩, ih.mpr ⟨rfl, rfl⟩⟩

@[simp] theorem matches_lit {w : String} : (lit w).Matches s g ↔ s = w.toList ∧ g = [] := matches_literal

@[simp] theorem matches_times {n : ℕ} : (times n p).Matches s g ↔ s.length = n ∧ (∀ c ∈ s, p c = true) ∧ g = [] := by
  induction n generalizing s g with
  | zero =>
    constructor
    · rintro ⟨rfl, rfl⟩
      simp
    · rintro ⟨hs, -, rfl⟩
      exact ⟨List.length_eq_zero_iff.mp hs, rfl⟩
  | succ n ih =>
    constructor
    · rintro ⟨s₁, g₁, s₂, g₂, rfl, rfl, ⟨c, rfl, hc, rfl⟩, h⟩
      obtain ⟨hn, hs, rfl⟩ := ih.mp h
      exact ⟨by simp [hn], by simpa [hc] using hs, rfl⟩
    · rintro ⟨hn, hs, rfl⟩
      obtain ⟨c, t, rfl⟩ := List.exists_cons_of_length_eq_add_one hn
      exact ⟨[c], [], t, [], rfl, rfl, ⟨c, rfl, hs c (by simp), rfl⟩,
        ih.mpr ⟨by simpa using hn, fun d hd => hs d (by simp [hd]), rfl⟩⟩

/-! Sequences, by what stands first. -/

theorem matches_seq : (seq a b).Matches s g ↔
      ∃ s₁ g₁ s₂ g₂, s = s₁ ++ s₂ ∧ g = g₁ ++ g₂ ∧ a.Matches s₁ g₁ ∧ b.Matches s₂ g₂ := Iff.rfl

theorem matches_lit_seq {w : String} : (seq (lit w) b).Matches s g ↔ ∃ s', s = w.toList ++ s' ∧ b.Matches s' g := by
  simp only [matches_seq, matches_lit]
  constructor
  · rintro ⟨_, _, s', g', rfl, rfl, ⟨rfl, rfl⟩, hb⟩
    exact ⟨s', rfl, hb⟩
  · rintro ⟨s', rfl, hb⟩
    exact ⟨w.toList, [], s', g, rfl, rfl, ⟨rfl, rfl⟩, hb⟩

theorem matches_plus_seq : (seq (plus lazily p) b).Matches s g ↔
      ∃ t s', s = t ++ s' ∧ (t ≠ [] ∧ ∀ c ∈ t, p c = true) ∧ b.Matches s' g := by
  simp only [matches_seq, matches_plus]
  constructor
  · rintro ⟨t, _, s', g', rfl, rfl, ⟨hne, ht, rfl⟩, hb⟩
    exact ⟨t, s', rfl, ⟨hne, ht⟩, hb⟩
  · rintro ⟨t, s', rfl, ⟨hne, ht⟩, hb⟩
    exact ⟨t, [], s', g, rfl, rfl, ⟨hne, ht, rfl⟩, hb⟩

theorem matches_many_seq :
    (seq (many lazily p) b).Matches s g ↔ ∃ t s', s = t ++ s' ∧ (∀ c ∈ t, p c = true) ∧ b.Matches s' g := by
  simp only [matches_seq, matches_many]
  constructor
  · rintro ⟨t, _, s', g', rfl, rfl, ⟨ht, rfl⟩, hb⟩
    exact ⟨t, s', rfl, ht, hb⟩
  · rintro ⟨t, s', rfl, ht, hb⟩
    exact ⟨t, [], s', g, rfl, rfl, ⟨ht, rfl⟩, hb⟩

theorem matches_group_seq : (seq (group name a) b).Matches s g ↔
      ∃ t s' g₁ g₂, s = t ++ s' ∧ g = g₁ ++ (name, t) :: g₂ ∧ a.Matches t g₁ ∧ b.Matches s' g₂ := by
  constructor
  · rintro ⟨t, _, s', g', rfl, rfl, ⟨g₁, rfl, ha⟩, hb⟩
    exact ⟨t, s', g₁, g', rfl, by simp, ha, hb⟩
  · rintro ⟨t, s', g₁, g₂, rfl, rfl, ha, hb⟩
    exact ⟨t, g₁ ++ [(name, t)], s', g₂, rfl, by simp, ⟨g₁, rfl, ha⟩, hb⟩

@[simp] theorem matches_alt : (alt a b).Matches s g ↔ a.Matches s g ∨ b.Matches s g := Iff.rfl

@[simp] theorem matches_opt : (opt a).Matches s g ↔ a.Matches s g ∨ (s = [] ∧ g = []) := Iff.rfl

@[simp] theorem matches_group : (group name a).Matches s g ↔ ∃ g', a.Matches s g' ∧ g = g' ++ [(name, s)] := by
  constructor
  · rintro ⟨g', hg, ha⟩
    exact ⟨g', ha, hg⟩
  · rintro ⟨g', ha, hg⟩
    exact ⟨g', hg, ha⟩

@[simp] theorem matches_oneOf {ws : List String} : (oneOf ws).Matches s g ↔ (∃ w ∈ ws, s = w.toList) ∧ g = [] := by
  induction ws with
  | nil => simp [oneOf]
  | cons w ws ih =>
    cases ws with
    | nil => simp [oneOf]
    | cons w' ws =>
      have hcons : oneOf (w :: w' :: ws) = alt (lit w) (oneOf (w' :: ws)) := rfl
      rw [hcons, matches_alt, matches_lit, ih]
      simp only [List.exists_mem_cons_iff, or_and_right]

end Re

end Sreda.Lib.Regex
