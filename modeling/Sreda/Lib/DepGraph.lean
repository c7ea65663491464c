import Mathlib.Data.List.Perm.Basic
import Mathlib.Data.List.Nodup
import Mathlib.Data.List.TakeWhile
import Mathlib.Data.Fintype.Pigeonhole
import Mathlib.Data.Set.Finite.Basic
import Mathlib.Logic.Relation

/-!
# Finite dependency graphs

A graph is given by its nodes and, for each node, the nodes it depends on. Two algorithms
that are written independently of each other are developed here: the layering of Kahn,
which places a node once everything it depends on is placed, and the depth-first search
with three colours, which reports the nodes between a grey node and itself. Both decide
whether the graph has a cycle (`layers_ok_iff`, `cycleNodes_eq_nil_iff`), and an order in
which each node stands after the nodes it depends on is what connects them
(`Ordered`, `Ordered.acyclic`).
-/

namespace Sreda.Lib

/-- A finite graph of dependencies. -/
structure DepGraph (α : Type) where
  /-- The nodes, each once. -/
  nodes : List α
  nodup : nodes.Nodup
  /-- What a node depends on. -/
  deps : α → List α
  /-- A node depends on nodes only. -/
  deps_mem : ∀ a b, b ∈ deps a → b ∈ nodes

namespace DepGraph

variable {α : Type} (G : DepGraph α)

/-- `G.Edge a b`: the node `a` depends on `b`. -/
def Edge (a b : α) : Prop := a ∈ G.nodes ∧ b ∈ G.deps a

/-- Some node depends on itself, directly or through others. -/
def HasCycle : Prop := ∃ a, Relation.TransGen G.Edge a a

/-! ### Orders that respect the dependencies -/

/-- `G.Ordered as`: in `as` every element stands after all that it depends on. -/
inductive Ordered : List α → Prop where
  | nil : Ordered []
  | snoc {as : List α} {a : α} : Ordered as → (∀ b ∈ G.deps a, b ∈ as) → Ordered (as ++ [a])

variable {G}

/-- A path from the front part of an ordered list stays in the front part. -/
theorem Ordered.reach_mem {as : List α} (h : G.Ordered as) :
    ∀ {a b : α}, a ∈ as → Relation.TransGen G.Edge a b → b ∈ as := by
  induction h with
  | nil => intro a b ha; cases ha
  | @snoc as c hord hc ih =>
    intro a b ha hab
    -- by the first edge of the path: it leads into the front part in either case
    have hfirst : ∀ d, G.Edge a d → d ∈ as := by
      intro d had
      rcases List.mem_append.1 ha with ha | ha
      · exact ih ha (.single had)
      · rw [List.mem_singleton] at ha
        exact hc d (ha ▸ had.2)
    obtain ⟨d, had, hdb⟩ := Relation.TransGen.head'_iff.1 hab
    rcases Relation.reflTransGen_iff_eq_or_transGen.1 hdb with rfl | hdb
    · exact List.mem_append_left _ (hfirst _ had)
    · exact List.mem_append_left _ (ih (hfirst _ had) hdb)

/-- A graph whose nodes can be ordered has no cycle. -/
theorem Ordered.acyclic {as : List α} (h : G.Ordered as) (hall : ∀ a ∈ G.nodes, a ∈ as) (hnd : as.Nodup) :
    ¬ G.HasCycle := by
  suffices hno : ∀ a ∈ as, ¬ Relation.TransGen G.Edge a a by
    rintro ⟨a, ha⟩
    obtain ⟨b, hab, -⟩ := Relation.TransGen.head'_iff.1 ha
    exact hno a (hall a hab.1) ha
  clear hall
  induction h with
  | nil => intro a ha; cases ha
  | @snoc as c hord hc ih =>
    have hnd' : as.Nodup := (List.nodup_append.1 hnd).1
    have hcas : c ∉ as := fun hm => (List.nodup_append.1 hnd).2.2 c hm c (by simp) rfl
    intro a ha haa
    rcases List.mem_append.1 ha with ha | ha
    · exact ih hnd' a ha haa
    · rw [List.mem_singleton] at ha
      subst ha
      obtain ⟨d, had, hda⟩ := Relation.TransGen.head'_iff.1 haa
      rcases Relation.reflTransGen_iff_eq_or_transGen.1 hda with rfl | hda
      · exact hcas (hc _ had.2)
      · exact hcas (hord.reach_mem (hc d had.2) hda)

/-- Without a cycle, a set of nodes that is not empty has a node whose dependencies all lie
outside the set. -/
theorem exists_minimal (hG : ¬ G.HasCycle) (S : List α) (hS : ∀ a ∈ S, a ∈ G.nodes) (hne : S ≠ []) :
    ∃ a ∈ S, ∀ b ∈ G.deps a, b ∉ S := by
  by_contra hno
  push Not at hno
  -- following a dependency inside `S` again and again must come back to some node
  choose next hdep hnext using hno
  obtain ⟨a₀, ha₀⟩ := List.exists_mem_of_ne_nil S hne
  let step : {a // a ∈ S} → {a // a ∈ S} := fun a => ⟨next a.1 a.2, hnext a.1 a.2⟩
  let walk : ℕ → {a // a ∈ S} := fun n => step^[n] ⟨a₀, ha₀⟩
  have hedge : ∀ n, G.Edge (walk n).1 (walk (n + 1)).1 := by
    intro n
    have hn : walk (n + 1) = step (walk n) := Function.iterate_succ_apply' step n _
    rw [hn]
    exact ⟨hS _ (walk n).2, hdep _ (walk n).2⟩
  have hwalk : ∀ i n, Relation.TransGen G.Edge (walk i).1 (walk (i + n + 1)).1 := by
    intro i n
    induction n with
    | zero => exact .single (hedge i)
    | succ n ih => exact ih.tail (hedge (i + n + 1))
  have : Finite {a // a ∈ S} := (List.finite_toSet S).to_subtype
  obtain ⟨i, j, hij, heq⟩ := Finite.exists_ne_map_eq_of_infinite walk
  wlog hlt : i < j generalizing i j
  · exact this j i hij.symm heq.symm (by omega)
  obtain ⟨n, rfl⟩ : ∃ n, j = i + n + 1 := ⟨j - i - 1, by omega⟩
  have hback := hwalk i n
  rw [← heq] at hback
  exact hG ⟨_, hback⟩

/-- What has been placed: some of the nodes, each once, in an order that respects the
dependencies. -/
structure Placed (placed : List α) : Prop where
  nodup : placed.Nodup
  mem : ∀ a ∈ placed, a ∈ G.nodes
  ordered : G.Ordered placed

theorem Placed.nil : Placed (G := G) [] := ⟨List.nodup_nil, by simp, .nil⟩

/-- Nodes whose dependencies are all placed can be placed in any order. -/
theorem Ordered.append {as bs : List α} (h : G.Ordered as) (hb : ∀ b ∈ bs, ∀ d ∈ G.deps b, d ∈ as) :
    G.Ordered (as ++ bs) := by
  induction bs using List.reverseRecOn with
  | nil => simpa using h
  | append_singleton bs b ih =>
    rw [← List.append_assoc]
    refine (ih fun c hc => hb c (by simp [hc])).snoc fun d hd => ?_
    exact List.mem_append_left _ (hb b (by simp) d hd)

/-- Splitting the layers further keeps every dependency in an earlier layer. -/
theorem flatMap_dep (deps : α → List α) {split : List α → List (List α)}
    (hsplit : ∀ l, (split l).flatten.Perm l) : ∀ (ls : List (List α)) (done : List α),
    (∀ pre l post, ls = pre ++ l :: post → ∀ a ∈ l, ∀ b ∈ deps a, b ∈ done ++ pre.flatten) →
    ∀ pre l post, ls.flatMap split = pre ++ l :: post → ∀ a ∈ l, ∀ b ∈ deps a, b ∈ done ++ pre.flatten := by
  intro ls
  induction ls with
  | nil => intro done _ pre l post heq; simp at heq
  | cons x ls ih =>
    intro done h pre l post heq a ha b hb
    rw [List.flatMap_cons] at heq
    rcases List.append_eq_append_iff.1 heq with ⟨rest, rfl, hrest⟩ | ⟨rest, hx, hrest⟩
    · -- the layer lies in the part after `x`
      have hdone := ih (done ++ x) (fun pre' l' post' heq' a' ha' b' hb' => by
        simpa using h (x :: pre') l' post' (by rw [heq']; rfl) a' ha' b' hb') rest l post hrest a ha b hb
      simpa [or_assoc, (hsplit x).mem_iff] using hdone
    · rcases rest with _ | ⟨l', rest⟩
      · have hdone := ih (done ++ x) (fun pre' l' post' heq' a' ha' b' hb' => by
          simpa using h (x :: pre') l' post' (by rw [heq']; rfl) a' ha' b' hb')
          [] l post (by simpa using hrest.symm) a ha b hb
        rw [← List.append_nil pre, ← hx]
        simpa [(hsplit x).mem_iff] using hdone
      · -- the layer is a part of `x`
        obtain ⟨rfl, -⟩ := List.cons.inj hrest
        have hax : a ∈ x := (hsplit x).mem_iff.1 (by rw [hx]; simp [ha])
        exact List.mem_append_left _ (by simpa using h [] x ls rfl a hax b hb)

/-! ### Layers -/

variable {placed : List α} {a : α}

section Layers

variable (G) [DecidableEq α] (sort : List α → List α)

/-- The nodes that are not placed and depend on placed nodes only. -/
def ready (placed : List α) : List α :=
  G.nodes.filter fun a => a ∉ placed ∧ ∀ b ∈ G.deps a, b ∈ placed

/-- The nodes that are not placed. -/
def unplaced (placed : List α) : List α := G.nodes.filter (· ∉ placed)

/-- Place all that is ready, layer by layer. Without anything ready the search ends with
the nodes that are left. Each round places a node, so `nodes.length` rounds are enough. -/
def layersFrom : ℕ → List α → Except (List α) (List (List α))
  | 0, _ => .ok []
  | n + 1, placed =>
    if placed.length < G.nodes.length then
      let layer := sort (G.ready placed)
      if layer.isEmpty then .error (sort (G.unplaced placed))
      else (layersFrom n (placed ++ layer)).map (layer :: ·)
    else .ok []

/-- The layering of the graph, or the nodes that cannot be placed. -/
def layers : Except (List α) (List (List α)) := G.layersFrom sort G.nodes.length []

variable {G sort}

theorem mem_ready : a ∈ G.ready placed ↔ a ∈ G.nodes ∧ a ∉ placed ∧ ∀ b ∈ G.deps a, b ∈ placed := by
  simp [ready]

variable (hsort : ∀ as, (sort as).Perm as)
include hsort

theorem Placed.layer (h : Placed (G := G) placed) : Placed (G := G) (placed ++ sort (G.ready placed)) := by
  have hmem : ∀ a, a ∈ sort (G.ready placed) ↔ a ∈ G.ready placed := fun a => (hsort _).mem_iff
  refine ⟨?_, ?_, ?_⟩
  · refine List.nodup_append.2 ⟨h.nodup, (hsort _).nodup_iff.2 (G.nodup.filter _), ?_⟩
    rintro a ha b hb rfl
    exact (mem_ready.1 ((hmem a).1 hb)).2.1 ha
  · intro a ha
    rcases List.mem_append.1 ha with ha | ha
    · exact h.mem a ha
    · exact (mem_ready.1 ((hmem a).1 ha)).1
  · exact h.ordered.append fun b hb => (mem_ready.1 ((hmem b).1 hb)).2.2

/-- As long as nodes are left and there is no cycle, something is ready. -/
theorem ready_ne_nil (hG : ¬ G.HasCycle) (hlt : placed.length < G.nodes.length) : sort (G.ready placed) ≠ [] := by
  have hleft : G.unplaced placed ≠ [] := by
    intro hnil
    have hsub : G.nodes ⊆ placed := by
      intro a ha
      by_contra hn
      have hmem : a ∈ G.unplaced placed := by simp [unplaced, ha, hn]
      rw [hnil] at hmem
      cases hmem
    have hle := (G.nodup.subperm hsub).length_le
    omega
  obtain ⟨a, ha, hmin⟩ := exists_minimal hG (G.unplaced placed) (fun a ha => (List.mem_filter.1 ha).1) hleft
  have hready : a ∈ G.ready placed := by
    have ha' : a ∈ G.nodes ∧ a ∉ placed := by simpa [unplaced] using ha
    refine mem_ready.2 ⟨ha'.1, ha'.2, fun b hb => ?_⟩
    by_contra hn
    exact hmin b hb (by simp [unplaced, G.deps_mem a b hb, hn])
  intro hnil
  have hmem := (hsort _).mem_iff.2 hready
  rw [hnil] at hmem
  cases hmem

/-- One run of the loop: it ends well when there is no cycle, and then has placed every
node in an order that respects the dependencies. -/
theorem layersFrom_spec : ∀ (n : ℕ) {placed : List α}, Placed (G := G) placed →
    G.nodes.length ≤ placed.length + n →
    (¬ G.HasCycle → ∃ ls, G.layersFrom sort n placed = .ok ls) ∧
    (∀ ls, G.layersFrom sort n placed = .ok ls → Placed (G := G) (placed ++ ls.flatten) ∧
      (∀ a ∈ G.nodes, a ∈ placed ++ ls.flatten) ∧
      ∀ pre l post, ls = pre ++ l :: post → ∀ a ∈ l, ∀ b ∈ G.deps a, b ∈ placed ++ pre.flatten) := by
  intro n
  have hfull : ∀ {placed : List α}, Placed (G := G) placed → G.nodes.length ≤ placed.length →
      ∀ a ∈ G.nodes, a ∈ placed := by
    intro placed h hle a ha
    have hsub : placed.Subperm G.nodes := h.nodup.subperm h.mem
    exact (hsub.perm_of_length_le hle).mem_iff.2 ha
  induction n with
  | zero =>
    intro placed h hle
    refine ⟨fun _ => ⟨[], rfl⟩, ?_⟩
    rintro ls hls
    obtain rfl : [] = ls := by simpa [layersFrom] using hls
    exact ⟨by simpa using h, by simpa using hfull h (by simpa using hle), by simp⟩
  | succ n ih =>
    intro placed h hle
    by_cases hlt : placed.length < G.nodes.length
    · have hnext := h.layer hsort
      rcases hl : sort (G.ready placed) with _ | ⟨x, xs⟩
      · refine ⟨fun hG => absurd hl (ready_ne_nil hsort hG hlt), fun ls hls => ?_⟩
        simp [layersFrom, hlt, hl] at hls
      · obtain ⟨hok, hspec⟩ := ih hnext (by rw [hl]; simp; omega)
        rw [hl] at hok hspec
        refine ⟨fun hG => ?_, fun ls hls => ?_⟩
        · obtain ⟨ls, hls⟩ := hok hG
          exact ⟨(x :: xs) :: ls, by simp [layersFrom, hlt, hl, hls, Except.map]⟩
        · obtain ⟨ls, hrec, rfl⟩ : ∃ ls', G.layersFrom sort n (placed ++ x :: xs) = .ok ls' ∧
              (x :: xs) :: ls' = ls := by
            cases hrec : G.layersFrom sort n (placed ++ x :: xs) <;>
              simp_all [layersFrom, Except.map]
          obtain ⟨hp, hall, hedge⟩ := hspec ls hrec
          refine ⟨by simpa using hp, by simpa using hall, ?_⟩
          rintro (_ | ⟨p, pre⟩) l post heq a ha b hb
          · -- the layer that was just placed
            obtain ⟨rfl, rfl⟩ := List.cons.inj heq
            have hready : a ∈ G.ready placed := (hsort _).mem_iff.1 (hl ▸ ha)
            simpa using (mem_ready.1 hready).2.2 b hb
          · obtain ⟨rfl, rfl⟩ := List.cons.inj heq
            simpa using hedge pre l post rfl a ha b hb
    · refine ⟨fun _ => ⟨[], by simp [layersFrom, hlt]⟩, fun ls hls => ?_⟩
      obtain rfl : [] = ls := by simpa [layersFrom, hlt] using hls
      exact ⟨by simpa using h, by simpa using hfull h (by omega), by simp⟩

/-- **Kahn's layering succeeds exactly on the graphs without a cycle.** -/
theorem layers_ok_iff : (∃ ls, G.layers sort = .ok ls) ↔ ¬ G.HasCycle := by
  obtain ⟨hok, hspec⟩ := layersFrom_spec (G := G) hsort G.nodes.length Placed.nil (by simp)
  refine ⟨?_, hok⟩
  rintro ⟨ls, hls⟩
  obtain ⟨hp, hall, -⟩ := hspec ls hls
  exact hp.ordered.acyclic hall hp.nodup

/-- The layers hold every node once. -/
theorem layers_perm {ls : List (List α)} (h : G.layers sort = .ok ls) : ls.flatten.Perm G.nodes := by
  obtain ⟨hp, hall, -⟩ := (layersFrom_spec (G := G) hsort G.nodes.length Placed.nil (by simp)).2 ls h
  exact (List.perm_ext_iff_of_nodup (by simpa using hp.nodup) G.nodup).2 fun a =>
    ⟨by simpa using hp.mem a, by simpa using hall a⟩

/-- What a node depends on lies in an earlier layer. -/
theorem layers_dep {ls pre post : List (List α)} {l : List α} (h : G.layers sort = .ok ls)
    (hls : ls = pre ++ l :: post) {b : α} (ha : a ∈ l) (hb : b ∈ G.deps a) : b ∈ pre.flatten := by
  simpa using ((layersFrom_spec (G := G) hsort G.nodes.length Placed.nil (by simp)).2 ls h).2.2 pre l post hls a ha b hb

end Layers

/-! ### Depth-first search -/

/-- Not seen, on the stack, done. -/
inductive Color where
  | white
  | gray
  | black
deriving DecidableEq

/-- What a search has found so far. -/
structure Search (α : Type) where
  color : α → Color
  /-- The nodes of the cycles that were met. -/
  cycle : List α

/-- The number of nodes that are still white. -/
def whites (G : DepGraph α) (s : Search α) : ℕ := G.nodes.countP fun a => s.color a = .white

/-- `as` lists the black nodes, each after what it depends on. -/
def Lists (G : DepGraph α) (s : Search α) (as : List α) : Prop :=
  as.Nodup ∧ G.Ordered as ∧ ∀ a, a ∈ as ↔ s.color a = .black

/-- What a part of the search leaves true: the grey nodes are as before, black nodes stay
black, a new cycle node means a cycle, and without any cycle node the black nodes stay
listed in an order that respects the dependencies. -/
structure Extends (G : DepGraph α) (s t : Search α) : Prop where
  gray : ∀ a, t.color a = .gray ↔ s.color a = .gray
  black : ∀ a, s.color a = .black → t.color a = .black
  cycle : s.cycle <+: t.cycle
  sound : ¬ G.HasCycle → t.cycle = s.cycle
  lists : t.cycle = [] → ∀ as, Lists G s as → ∃ bs, Lists G t bs

theorem Extends.refl (s : Search α) : Extends G s s :=
  ⟨fun _ => .rfl, fun _ h => h, List.prefix_refl _, fun _ => rfl, fun _ as h => ⟨as, h⟩⟩

theorem Extends.trans {s t u : Search α} (h : Extends G s t) (h' : Extends G t u) : Extends G s u := by
  refine ⟨fun a => (h'.gray a).trans (h.gray a), fun a ha => h'.black a (h.black a ha),
    h.cycle.trans h'.cycle, fun hG => (h'.sound hG).trans (h.sound hG), fun hu as has => ?_⟩
  have ht : t.cycle = [] := List.prefix_nil.1 (hu ▸ h'.cycle)
  obtain ⟨bs, hbs⟩ := h.lists ht as has
  exact h'.lists hu bs hbs

theorem Extends.white {s t : Search α} (h : Extends G s t) (ha : t.color a = .white) : s.color a = .white := by
  cases hs : s.color a with
  | white => rfl
  | gray => rw [(h.gray a).2 hs] at ha; cases ha
  | black => rw [h.black a hs] at ha; cases ha

theorem Extends.whites_le {s t : Search α} (h : Extends G s t) : whites G t ≤ whites G s :=
  List.countP_mono_left fun a _ ha => by simpa using h.white (by simpa using ha)

section Search

variable (G) [DecidableEq α]

/-- Give the node `a` the colour `c`. -/
def Search.paint (s : Search α) (a : α) (c : Color) : Search α :=
  { s with color := fun b => if b = a then c else s.color b }

/-- Visit the node `a`, which `stack` leads to. Meeting a grey node adds the part of the
stack from that node on. Each nested visit has one white node less, so `nodes.length`
levels are enough. -/
def visit : ℕ → List α → Search α → α → Search α
  | 0, _, s, _ => s
  | n + 1, stack, s, a =>
    let stack' := stack ++ [a]
    ((G.deps a).foldl (fun s b =>
      match s.color b with
      | .gray => { s with cycle := s.cycle ++ stack'.dropWhile (· ≠ b) }
      | .white => visit n stack' s b
      | .black => s) (s.paint a .gray)).paint a .black

/-- Search from every node that is still white. -/
def search : Search α :=
  G.nodes.foldl (fun s a => if s.color a = .white then G.visit G.nodes.length [] s a else s)
    { color := fun _ => .white, cycle := [] }

/-- The nodes of the cycles that the search meets. -/
def cycleNodes : List α := G.search.cycle

variable {G}

@[simp] theorem Search.paint_self (s : Search α) (a : α) (c : Color) : (s.paint a c).color a = c := by
  simp [Search.paint]

theorem Search.paint_of_ne (s : Search α) {b : α} (c : Color) (h : b ≠ a) : (s.paint a c).color b = s.color b := by
  simp [Search.paint, h]

@[simp] theorem Search.paint_cycle (s : Search α) (a : α) (c : Color) : (s.paint a c).cycle = s.cycle := rfl

theorem whites_paint_lt {s : Search α} (c : Color) (ha : a ∈ G.nodes) (hs : s.color a = .white)
    (hc : c ≠ .white) : whites G (s.paint a c) < whites G s := by
  have hle : ∀ bs : List α, bs.countP (fun b => (s.paint a c).color b = .white) ≤
      bs.countP fun b => s.color b = .white := by
    refine fun bs => List.countP_mono_left fun b _ hb => ?_
    by_cases hba : b = a
    · subst hba; simpa using hs
    · simpa [Search.paint_of_ne s c hba] using hb
  obtain ⟨pre, post, hsplit⟩ := List.append_of_mem ha
  have hpre := hle pre
  have hpost := hle post
  simp only [whites, hsplit, List.countP_append, List.countP_cons]
  simp [hs, hc]
  omega

/-- The loop over the neighbours of `a`, when each nested visit does its part. -/
theorem foldl_extends (f : Search α → α → Search α) (stack : List α) (bs : List α)
    (hgray : ∀ s b, s.color b = .gray → f s b = { s with cycle := s.cycle ++ stack.dropWhile (· ≠ b) })
    (hblack : ∀ s b, s.color b = .black → f s b = s)
    (hcyc : ∀ b ∈ bs, b ∈ stack → G.HasCycle)
    (s₀ : Search α)
    (hwhite : ∀ s b, b ∈ bs → Extends G s₀ s → s.color b = .white → Extends G s (f s b) ∧ (f s b).color b = .black)
    (hstack : ∀ b, s₀.color b = .gray ↔ b ∈ stack) :
    Extends G s₀ (bs.foldl f s₀) ∧
      ((bs.foldl f s₀).cycle = [] → ∀ b ∈ bs, (bs.foldl f s₀).color b = .black) := by
  induction bs using List.reverseRecOn with
  | nil => exact ⟨Extends.refl _, by simp⟩
  | append_singleton bs b ih =>
    obtain ⟨hext, hdone⟩ := ih (fun c hc => hcyc c (by simp [hc])) (fun s c hc => hwhite s c (by simp [hc]))
    rw [List.foldl_append, List.foldl_cons, List.foldl_nil]
    generalize bs.foldl f s₀ = s at hext hdone
    -- what the last neighbour does to the state `s` the others left
    obtain ⟨hlast, hcol⟩ : Extends G s (f s b) ∧ ((f s b).cycle = [] → (f s b).color b = .black) := by
      cases hb : s.color b with
      | white => exact (hwhite s b (by simp) hext hb).imp_right fun h _ => h
      | black => rw [hblack s b hb]; exact ⟨Extends.refl s, fun _ => hb⟩
      | gray =>
        have hmem : b ∈ stack := (hstack b).1 ((hext.gray b).1 hb)
        have hne : stack.dropWhile (· ≠ b) ≠ [] := by
          intro hnil
          simpa using List.dropWhile_eq_nil_iff.1 hnil b hmem
        rw [hgray s b hb]
        refine ⟨⟨fun _ => .rfl, fun _ h => h, List.prefix_append _ _, ?_, ?_⟩, ?_⟩
        · exact fun hG => absurd (hcyc b (by simp) hmem) hG
        · exact fun h => absurd (List.append_eq_nil_iff.1 h).2 hne
        · exact fun h => absurd (List.append_eq_nil_iff.1 h).2 hne
    refine ⟨hext.trans hlast, fun hnil c hc => ?_⟩
    have hnil' : s.cycle = [] := List.prefix_nil.1 (hnil ▸ hlast.cycle)
    rcases List.mem_append.1 hc with hc | hc
    · exact hlast.black c (hdone hnil' c hc)
    · rw [List.mem_singleton] at hc
      exact hc ▸ hcol hnil

/-- The end of a visit: what it depends on is black, and it becomes black itself. -/
theorem Extends.finish {s t : Search α} (hs : s.color a = .white) (h : Extends G (s.paint a .gray) t)
    (hdone : t.cycle = [] → ∀ b ∈ G.deps a, t.color b = .black) : Extends G s (t.paint a .black) := by
  refine ⟨fun b => ?_, fun b hb => ?_, by simpa using h.cycle, by simpa using h.sound, ?_⟩
  · by_cases hba : b = a
    · subst hba; simp [hs]
    · rw [Search.paint_of_ne _ _ hba, h.gray, Search.paint_of_ne _ _ hba]
  · by_cases hba : b = a
    · subst hba; simp
    · rw [Search.paint_of_ne _ _ hba]
      exact h.black b (by rwa [Search.paint_of_ne _ _ hba])
  · -- no cycle was met: `a` is listed after everything that was black before it
    intro hnil as has
    have hnil' : t.cycle = [] := hnil
    have hasp : Lists G (s.paint a .gray) as := by
      refine ⟨has.1, has.2.1, fun b => (has.2.2 b).trans ?_⟩
      by_cases hba : b = a
      · subst hba; simp [hs]
      · rw [Search.paint_of_ne _ _ hba]
    obtain ⟨bs, hnd, hord, hmem⟩ := h.lists hnil' as hasp
    have hta : t.color a = .gray := (h.gray a).2 (by simp)
    have hna : a ∉ bs := fun h => by rw [(hmem a).1 h] at hta; cases hta
    refine ⟨bs ++ [a], ?_, hord.snoc fun b hb => (hmem b).2 (hdone hnil' b hb), fun b => ?_⟩
    · refine List.nodup_append.2 ⟨hnd, by simp, ?_⟩
      rintro b hb c hc rfl
      rw [List.mem_singleton] at hc
      exact hna (hc ▸ hb)
    · by_cases hba : b = a
      · subst hba; simp
      · simp [Search.paint_of_ne _ _ hba, hba, hmem b]

/-- One visit: the induction is on the number of white nodes left, and what carries it is
that every node of the stack reaches the node visited. -/
theorem visit_extends : ∀ (n : ℕ) (stack : List α) (s : Search α) (a : α), a ∈ G.nodes →
    s.color a = .white → (∀ b, s.color b = .gray ↔ b ∈ stack) →
    (∀ b ∈ stack, Relation.TransGen G.Edge b a) → whites G s ≤ n →
    Extends G s (G.visit n stack s a) ∧ (G.visit n stack s a).color a = .black := by
  intro n
  induction n with
  | zero =>
    intro stack s a ha hs _ _ hle
    have hpos : 0 < whites G s := List.countP_pos_iff.2 ⟨a, ha, by simp [hs]⟩
    omega
  | succ n ih =>
    intro stack s a ha hs hgray hreach hle
    have hstack : ∀ b, (s.paint a .gray).color b = .gray ↔ b ∈ stack ++ [a] := by
      intro b
      by_cases hba : b = a
      · subst hba; simp
      · simp [Search.paint_of_ne s _ hba, hba, hgray b]
    have hreach' : ∀ b ∈ G.deps a, ∀ c ∈ stack ++ [a], Relation.TransGen G.Edge c b := by
      intro b hb c hc
      rcases List.mem_append.1 hc with hc | hc
      · exact (hreach c hc).tail ⟨ha, hb⟩
      · rw [List.mem_singleton] at hc
        exact .single (hc ▸ ⟨ha, hb⟩)
    have hlt := whites_paint_lt (G := G) .gray ha hs (by decide)
    obtain ⟨hfold, hdone⟩ := foldl_extends (G := G)
      (fun s b => match s.color b with
        | .gray => { s with cycle := s.cycle ++ (stack ++ [a]).dropWhile (· ≠ b) }
        | .white => G.visit n (stack ++ [a]) s b
        | .black => s)
      (stack ++ [a]) (G.deps a)
      (fun s b hb => by simp [hb]) (fun s b hb => by simp [hb])
      (fun b hb hmem => ⟨b, hreach' b hb b hmem⟩)
      (s.paint a .gray)
      (fun t b hb hext hw => by
        have := ih (stack ++ [a]) t b (G.deps_mem a b hb) hw
          (fun c => (hext.gray c).trans (hstack c)) (hreach' b hb)
          (by have := hext.whites_le; omega)
        simpa [hw] using this)
      hstack
    have hvisit : G.visit (n + 1) stack s a = ((G.deps a).foldl (fun s b => match s.color b with
        | .gray => { s with cycle := s.cycle ++ (stack ++ [a]).dropWhile (· ≠ b) }
        | .white => G.visit n (stack ++ [a]) s b
        | .black => s) (s.paint a .gray)).paint a .black := rfl
    rw [hvisit]
    exact ⟨hfold.finish hs hdone, by simp⟩

/-- The loop over the nodes: nothing is grey between two visits, and every node passed is
black. -/
theorem search_extends (as : List α) (has : ∀ a ∈ as, a ∈ G.nodes) (s : Search α)
    (hs : ∀ a, s.color a ≠ .gray) :
    Extends G s (as.foldl (fun s a => if s.color a = .white then G.visit G.nodes.length [] s a else s) s) ∧
      ∀ a ∈ as, (as.foldl (fun s a => if s.color a = .white then G.visit G.nodes.length [] s a else s) s).color a
        = .black := by
  induction as using List.reverseRecOn with
  | nil => exact ⟨Extends.refl s, by simp⟩
  | append_singleton as a ih =>
    obtain ⟨hext, hdone⟩ := ih fun b hb => has b (by simp [hb])
    rw [List.foldl_append, List.foldl_cons, List.foldl_nil]
    generalize as.foldl _ s = t at hext hdone
    have ht : ∀ b, t.color b ≠ .gray := fun b hb => hs b ((hext.gray b).1 hb)
    have hstep : Extends G t (if t.color a = .white then G.visit G.nodes.length [] t a else t) ∧
        (if t.color a = .white then G.visit G.nodes.length [] t a else t).color a = .black := by
      by_cases hw : t.color a = .white
      · rw [if_pos hw]
        exact visit_extends _ [] t a (has a (by simp)) hw (fun b => by simp [ht b]) (by simp)
          (List.countP_le_length)
      · rw [if_neg hw]
        refine ⟨Extends.refl t, ?_⟩
        cases hc : t.color a with
        | white => exact absurd hc hw
        | gray => exact absurd hc (ht a)
        | black => rfl
    refine ⟨hext.trans hstep.1, fun b hb => ?_⟩
    rcases List.mem_append.1 hb with hb | hb
    · exact hstep.1.black b (hdone b hb)
    · rw [List.mem_singleton] at hb
      subst hb
      exact hstep.2

/-- **The depth-first search meets no cycle exactly on the graphs without a cycle.** -/
theorem cycleNodes_eq_nil_iff : G.cycleNodes = [] ↔ ¬ G.HasCycle := by
  obtain ⟨hext, hblack⟩ := search_extends (G := G) G.nodes (fun _ h => h)
    { color := fun _ => .white, cycle := [] } (by simp)
  refine ⟨fun hnil => ?_, fun hG => hext.sound hG⟩
  obtain ⟨bs, hnd, hord, hmem⟩ := hext.lists hnil [] ⟨List.nodup_nil, .nil, by simp⟩
  exact hord.acyclic (fun a ha => (hmem a).2 (hblack a ha)) hnd

end Search

end DepGraph

end Sreda.Lib
