import Mathlib.Algebra.Order.Field.Rat
import Mathlib.Data.List.Pairwise
import Mathlib.Data.List.Sort
import Sreda.Lib.NearDuplicates

/-!
# Recall over all sources

`db/repositories/memory.py`: `recall_broadcast`, with its three sources and `_dedup_pairwise`. A query that raises is `none`,
an embedding that is missing or cannot be decoded is `none` too. Scores are in any ordered field, and the similarity of two
vectors is any symmetric function into `[-1, 1]` that is 1 for a vector and itself.

## What is proved

* `recallBroadcast_spec`: the hits are sorted and no two are near duplicates; what the duplicate removal drops is near to a
  kept hit with at least its score; a source is represented if and only if one of its hits is kept.

A source whose hits are all duplicates of those of others is not represented: nothing could stand for it without a near
duplicate (`duplicate_source_missing`).
-/

namespace Sreda.Services.Recall

open Sreda.Lib.NearDuplicates

variable {V 𝕜 : Type} [Field 𝕜] [LinearOrder 𝕜]

/-- A similarity of vectors. -/
structure Similarity (V 𝕜 : Type) [Field 𝕜] [LinearOrder 𝕜] where
  sim : V → V → 𝕜
  symm : ∀ a b, sim a b = sim b a
  self : ∀ a, sim a a = 1
  le_one : ∀ a b, sim a b ≤ 1
  neg_one_le : ∀ a b, -1 ≤ sim a b

structure BroadcastHit (V 𝕜 : Type) where
  source : String
  content : String
  score : 𝕜
  id : String
  embedding : V
  metadata : List (String × Option String)

/-- `h.source.split(":")[0]`. -/
def BroadcastHit.sourceName (h : BroadcastHit V 𝕜) : String := String.ofList (h.source.toList.takeWhile (· ≠ ':'))

structure SourceStats (𝕜 : Type) where
  count : ℕ
  scoreMin : 𝕜
  scoreMax : 𝕜

/-- `_source_stats`; without hits it is `_empty_source_stats`. -/
def sourceStats (hits : List (BroadcastHit V 𝕜)) : SourceStats 𝕜 where
  count := hits.length
  scoreMin := ((hits.map (·.score)).min?).getD 0
  scoreMax := ((hits.map (·.score)).max?).getD 0

/-! ### Rows -/

structure AssistantMemory (V : Type) where
  id : String
  tenantId : String
  userId : String
  tier : String
  content : String
  source : String
  createdAt : ℤ
  embedding : Option V

structure Checklist where
  id : String
  tenantId : String
  userId : String
  title : String
  status : String

structure ChecklistItem (V : Type) where
  id : String
  checklistId : String
  title : String
  status : String
  embedding : Option V

structure FamilyReminder (V : Type) where
  id : String
  tenantId : String
  userId : String
  title : String
  status : String
  /-- In ISO format. -/
  nextTriggerAt : Option String
  recurrenceRule : Option String
  embedding : Option V

/-- The tables; `none` where the query raises. -/
structure Store (V : Type) where
  memories : Option (List (AssistantMemory V))
  checklists : Option (List Checklist × List (ChecklistItem V))
  reminders : Option (List (FamilyReminder V))

/-! ### Sources -/

/-- `hits.sort(key=lambda h: h.score, reverse=True)`. -/
def sortHits (hits : List (BroadcastHit V 𝕜)) : List (BroadcastHit V 𝕜) := hits.insertionSort fun a b => b.score ≤ a.score

/-- The hit of a row, when its embedding scores high enough. -/
def hitOf (S : Similarity V 𝕜) (query : V) (minScore : 𝕜) (embedding : Option V) (mk : V → 𝕜 → BroadcastHit V 𝕜) :
    Option (BroadcastHit V 𝕜) :=
  embedding.bind fun vec => if S.sim query vec < minScore then none else some (mk vec (S.sim query vec))

variable (S : Similarity V 𝕜) (tenantId userId : String) (query : V) (minScore : 𝕜)

/-- `_recall_memory_source`. -/
def recallMemorySource (topK : ℕ) (rows : List (AssistantMemory V)) : List (BroadcastHit V 𝕜) :=
  let rows := (rows.filter fun row => row.tenantId = tenantId ∧ row.userId = userId).insertionSort fun a b =>
    b.createdAt ≤ a.createdAt
  let hits := rows.filterMap fun row => hitOf S query minScore row.embedding fun embedding score => {
    source := "memory:" ++ row.tier, content := row.content, score, id := row.id, embedding
    metadata := [("source_kind", some row.source)] }
  (sortHits hits).take topK

/-- `_recall_checklist_source`. -/
def recallChecklistSource (topK : ℕ) (checklists : List Checklist) (items : List (ChecklistItem V)) :
    List (BroadcastHit V 𝕜) :=
  let rows := items.flatMap fun item =>
    (checklists.filter fun checklist => item.checklistId = checklist.id ∧ checklist.tenantId = tenantId ∧
      checklist.userId = userId ∧ checklist.status = "active").map fun checklist => (item, checklist)
  let hits := rows.filterMap fun (item, checklist) => hitOf S query minScore item.embedding fun embedding score => {
    source := "checklist:" ++ checklist.id, content := checklist.title ++ ": " ++ item.title, score, id := item.id, embedding
    metadata := [("list_title", some checklist.title), ("list_id", some checklist.id), ("item_status", some item.status)] }
  (sortHits hits).take topK

/-- `_recall_reminder_source`. -/
def recallReminderSource (topK : ℕ) (rows : List (FamilyReminder V)) : List (BroadcastHit V 𝕜) :=
  let rows := rows.filter fun row => row.tenantId = tenantId ∧ row.userId = userId ∧ row.status = "pending"
  let hits := rows.filterMap fun row => hitOf S query minScore row.embedding fun embedding score => {
    source := "reminder:" ++ row.id, content := row.title, score, id := row.id, embedding
    metadata := [("due_at", row.nextTriggerAt), ("recurrence_rule", row.recurrenceRule)] }
  (sortHits hits).take topK

/-- The hits of each source, by its name; a source that raises has none. -/
def gather (store : Store V) (includeStructured : Bool) : List (String × List (BroadcastHit V 𝕜)) :=
  ("memory", (store.memories.map (recallMemorySource S tenantId userId query minScore 7)).getD []) ::
    if includeStructured then [
      ("checklist", (store.checklists.map fun (checklists, items) =>
        recallChecklistSource S tenantId userId query minScore 3 checklists items).getD []),
      ("reminder", (store.reminders.map (recallReminderSource S tenantId userId query minScore 3)).getD [])]
    else []

/-! ### Merging -/

/-- The second hit is a near duplicate of the first. -/
def nearDuplicate (threshold : 𝕜) (h k : BroadcastHit V 𝕜) : Bool := threshold < S.sim h.embedding k.embedding

/-- `_dedup_pairwise`. -/
def dedupPairwise (threshold : 𝕜) (hits : List (BroadcastHit V 𝕜)) : List (BroadcastHit V 𝕜) :=
  keepFirst (nearDuplicate S threshold) (sortHits hits)

/-- `by_source.setdefault(name, []).append(h)`. -/
def addTo (name : String) (h : BroadcastHit V 𝕜) : List (String × List (BroadcastHit V 𝕜)) →
    List (String × List (BroadcastHit V 𝕜))
  | [] => [(name, [h])]
  | (other, hits) :: groups => if other = name then (other, hits ++ [h]) :: groups else (other, hits) :: addTo name h groups

/-- The hits by the names of their sources. -/
def bySource (hits : List (BroadcastHit V 𝕜)) : List (String × List (BroadcastHit V 𝕜)) :=
  hits.foldl (fun groups h => addTo h.sourceName h groups) []

/-- A source that is not represented gets its best hit. -/
def promote (final : List (BroadcastHit V 𝕜) × List String) (group : String × List (BroadcastHit V 𝕜)) :
    List (BroadcastHit V 𝕜) × List String :=
  if group.1 ∈ final.2 then final
  else
    match group.2 with
    | [] => final
    | top :: _ => if minScore ≤ top.score then (final.1 ++ [top], final.2 ++ [group.1]) else final

/-- `hits[:k]`. -/
def sliceTo (k : ℤ) (hits : List (BroadcastHit V 𝕜)) : List (BroadcastHit V 𝕜) :=
  hits.take (if 0 ≤ k then k.toNat else hits.length - k.natAbs)

/-- `recall_broadcast`. -/
def recallBroadcast (store : Store V) (topK : ℤ) (includeStructured : Bool) :
    List (BroadcastHit V 𝕜) × List (String × SourceStats 𝕜) :=
  let sources := gather S tenantId userId query minScore store includeStructured
  let allHits := sortHits (dedupPairwise S (19 / 20) (sources.flatMap Prod.snd))
  let final := sliceTo topK allHits
  let promoted := (bySource allHits).foldl (promote minScore) (final, final.map (·.sourceName))
  (sortHits promoted.1, sources.map fun source => (source.1, sourceStats source.2))

/-! ### Sorted hits -/

section Sorting

variable {V 𝕜 : Type} [LinearOrder 𝕜]

instance : IsTrans (BroadcastHit V 𝕜) fun a b => b.score ≤ a.score := ⟨fun _ _ _ hab hbc => hbc.trans hab⟩

instance : Std.Total fun a b : BroadcastHit V 𝕜 => b.score ≤ a.score := ⟨fun a b => le_total b.score a.score⟩

theorem perm_sortHits (hits : List (BroadcastHit V 𝕜)) : (sortHits hits).Perm hits := List.perm_insertionSort _ _

theorem pairwise_sortHits (hits : List (BroadcastHit V 𝕜)) : (sortHits hits).Pairwise fun a b => b.score ≤ a.score :=
  List.pairwise_insertionSort _ _

theorem mem_of_mem_ranked {topK : ℕ} {hits : List (BroadcastHit V 𝕜)} {h : BroadcastHit V 𝕜}
    (hmem : h ∈ (sortHits hits).take topK) : h ∈ hits := (perm_sortHits hits).subset (List.take_subset _ _ hmem)

end Sorting

variable {S tenantId userId query minScore}

theorem le_score_of_hitOf {embedding : Option V} {mk : V → 𝕜 → BroadcastHit V 𝕜} {h : BroadcastHit V 𝕜}
    (hmk : ∀ v score, (mk v score).score = score) (hhit : hitOf S query minScore embedding mk = some h) : minScore ≤ h.score := by
  obtain ⟨vec, -, hvec⟩ := Option.bind_eq_some_iff.mp hhit
  split at hvec
  · cases hvec
  next hscore =>
    cases hvec
    rw [hmk]
    exact not_lt.mp hscore

/-- The hits of every source score high enough. -/
theorem le_score_of_gather {store : Store V} {includeStructured : Bool} {h : BroadcastHit V 𝕜}
    (hmem : h ∈ (gather S tenantId userId query minScore store includeStructured).flatMap Prod.snd) : minScore ≤ h.score := by
  have hmemory : ∀ topK rows, h ∈ recallMemorySource S tenantId userId query minScore topK rows → minScore ≤ h.score := by
    intro topK rows hhit
    obtain ⟨row, -, hrow⟩ := List.mem_filterMap.mp (mem_of_mem_ranked hhit)
    exact le_score_of_hitOf (fun _ _ => rfl) hrow
  have hchecklist : ∀ topK lists items, h ∈ recallChecklistSource S tenantId userId query minScore topK lists items →
      minScore ≤ h.score := by
    intro topK lists items hhit
    obtain ⟨row, -, hrow⟩ := List.mem_filterMap.mp (mem_of_mem_ranked hhit)
    exact le_score_of_hitOf (fun _ _ => rfl) hrow
  have hreminder : ∀ topK rows, h ∈ recallReminderSource S tenantId userId query minScore topK rows → minScore ≤ h.score := by
    intro topK rows hhit
    obtain ⟨row, -, hrow⟩ := List.mem_filterMap.mp (mem_of_mem_ranked hhit)
    exact le_score_of_hitOf (fun _ _ => rfl) hrow
  obtain ⟨source, hsource, hhit⟩ := List.mem_flatMap.mp hmem
  rw [gather] at hsource
  rcases List.mem_cons.mp hsource with rfl | hsource
  · cases hmemories : store.memories with
    | none => simp [hmemories] at hhit
    | some rows => exact hmemory 7 rows (by simpa [hmemories] using hhit)
  · split at hsource
    · rcases List.mem_cons.mp hsource with rfl | hsource
      · cases hlists : store.checklists with
        | none => simp [hlists] at hhit
        | some tables => exact hchecklist 3 tables.1 tables.2 (by simpa [hlists] using hhit)
      · obtain rfl := List.mem_singleton.mp hsource
        cases hreminders : store.reminders with
        | none => simp [hreminders] at hhit
        | some rows => exact hreminder 3 rows (by simpa [hreminders] using hhit)
    · cases hsource

/-! ### Groups -/

section Groups

variable {V 𝕜 : Type} {name : String} {h : BroadcastHit V 𝕜} {groups : List (String × List (BroadcastHit V 𝕜))}

theorem mem_addTo {group : String × List (BroadcastHit V 𝕜)} (hmem : group ∈ addTo name h groups) :
    group ∈ groups ∨ group.1 = name ∧ (group.2 = [h] ∨ ∃ hits, (name, hits) ∈ groups ∧ group.2 = hits ++ [h]) := by
  induction groups with
  | nil =>
    rw [addTo, List.mem_singleton] at hmem
    subst hmem
    exact .inr ⟨rfl, .inl rfl⟩
  | cons first groups ih =>
    obtain ⟨other, hits⟩ := first
    rw [addTo] at hmem
    split at hmem
    next heq =>
      subst heq
      rcases List.mem_cons.mp hmem with rfl | hmem
      · exact .inr ⟨rfl, .inr ⟨hits, List.mem_cons_self, rfl⟩⟩
      · exact .inl (List.mem_cons_of_mem _ hmem)
    next hne =>
      rcases List.mem_cons.mp hmem with rfl | hmem
      · exact .inl List.mem_cons_self
      · rcases ih hmem with hmem | ⟨hname, hnew | ⟨before, hbefore, hgroup⟩⟩
        · exact .inl (List.mem_cons_of_mem _ hmem)
        · exact .inr ⟨hname, .inl hnew⟩
        · exact .inr ⟨hname, .inr ⟨before, List.mem_cons_of_mem _ hbefore, hgroup⟩⟩

theorem names_addTo : ∀ other, other ∈ (addTo name h groups).map Prod.fst ↔ other = name ∨ other ∈ groups.map Prod.fst := by
  intro other
  induction groups with
  | nil => simp [addTo]
  | cons first groups ih =>
    rw [addTo]
    split
    next heq => simp [heq]
    next hne =>
      rw [List.map_cons, List.mem_cons, ih, List.map_cons, List.mem_cons]
      tauto

theorem bySource_snoc {hits : List (BroadcastHit V 𝕜)} : bySource (hits ++ [h]) = addTo h.sourceName h (bySource hits) := by
  simp [bySource]

theorem mem_bySource {hits : List (BroadcastHit V 𝕜)} : ∀ group ∈ bySource hits,
    group.2 ≠ [] ∧ ∀ k ∈ group.2, k ∈ hits ∧ k.sourceName = group.1 := by
  induction hits using List.reverseRecOn with
  | nil => exact fun _ h => absurd h List.not_mem_nil
  | append_singleton hits h ih =>
    intro group hgroup
    rw [bySource_snoc] at hgroup
    rcases mem_addTo hgroup with hbefore | ⟨hname, hnew | ⟨before, hbefore, hgroup⟩⟩
    · obtain ⟨hne, hall⟩ := ih group hbefore
      exact ⟨hne, fun k hk => ⟨List.mem_append_left _ (hall k hk).1, (hall k hk).2⟩⟩
    · rw [hnew, hname]
      refine ⟨List.cons_ne_nil _ _, fun k hk => ?_⟩
      obtain rfl := List.mem_singleton.mp hk
      exact ⟨List.mem_append_right _ hk, rfl⟩
    · rw [hgroup, hname]
      refine ⟨by simp, fun k hk => ?_⟩
      rcases List.mem_append.mp hk with hk | hk
      · obtain ⟨hmem, hsource⟩ := (ih _ hbefore).2 k hk
        exact ⟨List.mem_append_left _ hmem, hsource⟩
      · obtain rfl := List.mem_singleton.mp hk
        exact ⟨List.mem_append_right _ hk, rfl⟩

theorem names_bySource {hits : List (BroadcastHit V 𝕜)} {other : String} :
    other ∈ (bySource hits).map Prod.fst ↔ ∃ k ∈ hits, k.sourceName = other := by
  induction hits using List.reverseRecOn with
  | nil => simp [bySource]
  | append_singleton hits h ih =>
    rw [bySource_snoc, names_addTo, ih]
    simp [or_comm, or_and_right, exists_or, eq_comm]

end Groups

/-! ### Promotion -/

/-- What the promotion keeps: hits of the list, distinct in pairs, with the names of their sources. -/
structure Promoted (distinct : BroadcastHit V 𝕜 → BroadcastHit V 𝕜 → Prop) (hits : List (BroadcastHit V 𝕜))
    (final : List (BroadcastHit V 𝕜) × List String) : Prop where
  subset : final.1 ⊆ hits
  pairwise : final.1.Pairwise distinct
  names : final.2 = final.1.map (·.sourceName)

section Promotion

variable {V 𝕜 : Type} [LinearOrder 𝕜] {minScore : 𝕜} {distinct : BroadcastHit V 𝕜 → BroadcastHit V 𝕜 → Prop} [Std.Symm distinct]
  {hits : List (BroadcastHit V 𝕜)} {final : List (BroadcastHit V 𝕜) × List String}

/-- **One promotion**: the source is represented after it, and so is every other that was before. -/
theorem Promoted.promote (hdistinct : hits.Pairwise distinct)
    (hscore : ∀ h ∈ hits, minScore ≤ h.score) (h : Promoted distinct hits final)
    {group : String × List (BroadcastHit V 𝕜)} (hgroup : group ∈ bySource hits) :
    Promoted distinct hits (Recall.promote minScore final group) ∧ group.1 ∈ (Recall.promote minScore final group).2 ∧
      final.2 ⊆ (Recall.promote minScore final group).2 := by
  obtain ⟨hne, hall⟩ := mem_bySource group hgroup
  rw [Recall.promote]
  split
  next hthere => exact ⟨h, hthere, List.Subset.refl _⟩
  next hmissing =>
    obtain ⟨top, rest, hhits⟩ := List.exists_cons_of_ne_nil hne
    have htop := hall top (hhits ▸ List.mem_cons_self)
    simp only [hhits, if_pos (hscore top htop.1)]
    refine ⟨⟨?_, ?_, ?_⟩, List.mem_append_right _ List.mem_cons_self, List.subset_append_left _ _⟩
    · exact List.append_subset.mpr ⟨h.subset, List.cons_subset.mpr ⟨htop.1, List.nil_subset _⟩⟩
    · refine List.pairwise_append.mpr ⟨h.pairwise, List.pairwise_singleton _ _, fun a ha b hb => ?_⟩
      obtain rfl := List.mem_singleton.mp hb
      -- a hit of the source would have represented it
      refine hdistinct.forall (h.subset ha) htop.1 ?_
      rintro rfl
      rw [h.names] at hmissing
      exact hmissing (htop.2 ▸ List.mem_map_of_mem ha)
    · rw [h.names, List.map_append, ← htop.2]
      rfl

theorem Promoted.foldl (hdistinct : hits.Pairwise distinct)
    (hscore : ∀ h ∈ hits, minScore ≤ h.score) : ∀ {groups : List (String × List (BroadcastHit V 𝕜))}
    {final : List (BroadcastHit V 𝕜) × List String}, groups ⊆ bySource hits → Promoted distinct hits final →
      Promoted distinct hits (groups.foldl (Recall.promote minScore) final) ∧
        final.2 ⊆ (groups.foldl (Recall.promote minScore) final).2 ∧
        groups.map Prod.fst ⊆ (groups.foldl (Recall.promote minScore) final).2
  | [], _, _, h => ⟨h, List.Subset.refl _, List.nil_subset _⟩
  | group :: groups, final, hsubset, h => by
    obtain ⟨hgroup, hrest⟩ := List.cons_subset.mp hsubset
    obtain ⟨hnext, hthere, hkeeps⟩ := h.promote hdistinct hscore hgroup
    obtain ⟨hend, hlater, hall⟩ := Promoted.foldl hdistinct hscore hrest hnext
    rw [List.foldl_cons]
    exact ⟨hend, List.Subset.trans hkeeps hlater, List.cons_subset.mpr ⟨hlater hthere, hall⟩⟩

end Promotion

/-! ### The result -/

/-- No near duplicates. -/
def Apart (S : Similarity V 𝕜) (h k : BroadcastHit V 𝕜) : Prop := S.sim h.embedding k.embedding ≤ 19 / 20

instance : Std.Symm (Apart S) := ⟨fun h k hapart => by rwa [Apart, S.symm]⟩

theorem pairwise_dedupPairwise (hits : List (BroadcastHit V 𝕜)) : (dedupPairwise S (19 / 20) hits).Pairwise (Apart S) := by
  refine pairwise_keepFirst.imp fun {a b} hfar => ?_
  have hle : S.sim b.embedding a.embedding ≤ 19 / 20 := not_lt.mp (of_decide_eq_false hfar)
  rwa [Apart, S.symm]

/-- What is dropped as a duplicate is near to a kept hit that scores at least as high. -/
theorem mem_dedupPairwise {hits : List (BroadcastHit V 𝕜)} {h : BroadcastHit V 𝕜} (hmem : h ∈ hits) :
    h ∈ dedupPairwise S (19 / 20) hits ∨
      ∃ k ∈ dedupPairwise S (19 / 20) hits, 19 / 20 < S.sim h.embedding k.embedding ∧ h.score ≤ k.score := by
  have hsorted : h ∈ sortHits hits := (perm_sortHits hits).mem_iff.mpr hmem
  refine (exists_near_keepFirst (pairwise_sortHits hits) h hsorted).imp_right ?_
  rintro ⟨k, hk, hnear, hscore⟩
  exact ⟨k, hk, of_decide_eq_true hnear, hscore⟩

/-- **What `recall_broadcast` returns**, for the hits that its sources have and those that the duplicate removal keeps. -/
theorem recallBroadcast_spec (S : Similarity V 𝕜) (tenantId userId : String) (query : V) (minScore : 𝕜) (store : Store V)
    (topK : ℤ) (includeStructured : Bool) :
    let gathered := (gather S tenantId userId query minScore store includeStructured).flatMap Prod.snd
    let kept := dedupPairwise S (19 / 20) gathered
    let hits := (recallBroadcast S tenantId userId query minScore store topK includeStructured).1
    hits.Pairwise (fun a b => b.score ≤ a.score) ∧
    hits.Pairwise (fun a b => S.sim a.embedding b.embedding ≤ 19 / 20) ∧
    (∀ h ∈ gathered, h ∈ kept ∨ ∃ k ∈ kept, 19 / 20 < S.sim h.embedding k.embedding ∧ h.score ≤ k.score) ∧
    (∀ h ∈ hits, h ∈ kept) ∧ (∀ h ∈ kept, minScore ≤ h.score) ∧
    ∀ name, (∃ h ∈ hits, h.sourceName = name) ↔ ∃ h ∈ kept, h.sourceName = name := by
  intro gathered kept hits
  have hall : (sortHits kept).Perm kept := perm_sortHits kept
  have hapart : (sortHits kept).Pairwise (Apart S) :=
    (hall.pairwise_iff fun h => symm h).mpr (pairwise_dedupPairwise gathered)
  have hkept : ∀ h ∈ kept, minScore ≤ h.score := fun h hh =>
    le_score_of_gather ((perm_sortHits _).subset (keepFirst_sublist.subset hh))
  have hstart : Promoted (Apart S) (sortHits kept)
      (sliceTo topK (sortHits kept), (sliceTo topK (sortHits kept)).map (·.sourceName)) :=
    ⟨List.take_subset _ _, hapart.sublist (List.take_sublist _ _), rfl⟩
  obtain ⟨hpromoted, -, hnames⟩ := hstart.foldl hapart (fun h hh => hkept h (hall.subset hh)) (List.Subset.refl _)
  have hperm := perm_sortHits ((bySource (sortHits kept)).foldl (promote minScore)
    (sliceTo topK (sortHits kept), (sliceTo topK (sortHits kept)).map (·.sourceName))).1
  have hsubset : ∀ h ∈ hits, h ∈ kept := fun h hh => hall.subset (hpromoted.subset (hperm.subset hh))
  refine ⟨pairwise_sortHits _, (hperm.pairwise_iff (R := Apart S) fun h => symm h).mpr hpromoted.pairwise,
    fun h hh => mem_dedupPairwise hh, hsubset, hkept, fun name => ⟨?_, ?_⟩⟩
  · rintro ⟨h, hh, hname⟩
    exact ⟨h, hsubset h hh, hname⟩
  · rintro ⟨h, hh, hname⟩
    have hgroup : name ∈ (bySource (sortHits kept)).map Prod.fst := names_bySource.mpr ⟨h, hall.mem_iff.mpr hh, hname⟩
    have hmem := hnames hgroup
    rw [hpromoted.names] at hmem
    obtain ⟨k, hk, hkname⟩ := List.mem_map.mp hmem
    exact ⟨k, hperm.mem_iff.mpr hk, hkname⟩

/-- Vectors that are all the same. -/
def constantSimilarity : Similarity Unit ℚ := ⟨fun _ _ => 1, fun _ _ => rfl, fun _ => rfl, fun _ _ => by decide, fun _ _ => by decide⟩

/-- A fact in the memory and on a checklist. -/
def savedTwice : Store Unit where
  memories := some [⟨"mem_1", "t1", "u1", "core", "birthday", "user", 0, some ()⟩]
  checklists := some ([⟨"cl_1", "t1", "u1", "dates", "active"⟩], [⟨"cli_1", "cl_1", "birthday", "pending", some ()⟩])
  reminders := some []

/-- The checklist has a hit and is not represented; no list of distinct hits could represent both sources. -/
theorem duplicate_source_missing :
    let gathered := (gather constantSimilarity "t1" "u1" () (1 / 10) savedTwice true).flatMap Prod.snd
    (∃ h ∈ gathered, h.sourceName = "checklist" ∧ 1 / 10 ≤ h.score) ∧
    (¬ ∃ h ∈ (recallBroadcast constantSimilarity "t1" "u1" () (1 / 10) savedTwice 10 true).1, h.sourceName = "checklist") ∧
    ¬ ∃ hits : List (BroadcastHit Unit ℚ), hits.Pairwise (Apart constantSimilarity) ∧
      ∀ h ∈ gathered, ∃ k ∈ hits, k.sourceName = h.sourceName := by
  intro gathered
  have hchecklist : ∃ h ∈ gathered, h.sourceName = "checklist" ∧ 1 / 10 ≤ h.score := by decide +kernel
  have hmemory : ∃ h ∈ gathered, h.sourceName = "memory" := by decide +kernel
  refine ⟨hchecklist, by decide +kernel, ?_⟩
  rintro ⟨hits, hapart, hall⟩
  obtain ⟨h₁, hh₁, hname₁⟩ := hmemory
  obtain ⟨h₂, hh₂, hname₂, -⟩ := hchecklist
  obtain ⟨k₁, hk₁, hsource₁⟩ := hall h₁ hh₁
  obtain ⟨k₂, hk₂, hsource₂⟩ := hall h₂ hh₂
  have hne : k₁ ≠ k₂ := by
    rintro rfl
    rw [hname₁] at hsource₁
    rw [hname₂, hsource₁] at hsource₂
    exact absurd hsource₂ (by decide)
  have hsim : (1 : ℚ) ≤ 19 / 20 := hapart.forall hk₁ hk₂ hne
  exact absurd hsim (by decide +kernel)

end Sreda.Services.Recall
