import Sreda.Services.Checklists
import Sreda.Lib.Transition

/-!
# The titles of checklists

Runs of the operations on checklists, by any users and in any order. Titles are compared in their
normal form: lower case, with white space collapsed.

## What is proved

The active lists of a user have distinct titles, and the items of a list have distinct titles and
distinct positions, as long as no call stores a title that it has not compared: `update_owned_item`
compares nothing, and `add_items` compares the titles before it cuts them at 1000 characters
(`checklist_titles`). `add_items_no_commit` compares what it stores.
-/

namespace Sreda.Services

open Sreda.Lib
open Sreda.Lib.PyText (Text strip)
open Sreda.Housewife (normalise)

/-! ### Runs -/

/-- A call. -/
inductive ChecklistOp where
  | createList (id tenantId userId : String) (title : Text)
  | createListNoCommit (id tenantId userId : String) (title : Text) (forceNew : Bool)
  | addItems (listId : String) (newId : ℕ → String) (items : List Text)
  | addItemsNoCommit (listId : String) (newId : ℕ → String) (items : List Text)
  | updateOwnedItem (itemId tenantId userId : String) (newTitle : Text)
  | deleteItem (itemId : String)
  | deleteOwnedItem (itemId tenantId userId : String)
  | archiveList (tenantId userId listId : String)
  | deleteList (tenantId userId listId : String)

/-- What is committed: nothing when the call raises. -/
def committed {α : Type} (db : ChecklistDb) : Except ChecklistError (α × ChecklistDb) → ChecklistDb
  | .ok (_, db') => db'
  | .error _ => db

section Run

variable (lower : Text → Text) (K : ChecklistKeys) (env : ChecklistEnv) (db : ChecklistDb)

/-- What a call makes of the tables. -/
def ChecklistOp.run : ChecklistOp → ChecklistDb
  | .createList id tenantId userId title => committed db (Services.createList lower K env db id tenantId userId title)
  | .createListNoCommit id tenantId userId title forceNew =>
    committed db (Services.createListNoCommit lower env db id tenantId userId title forceNew)
  | .addItems listId newId items => committed db (Services.addItems lower env db listId newId items)
  | .addItemsNoCommit listId newId items => committed db (Services.addItemsNoCommit lower env db listId newId items)
  | .updateOwnedItem itemId tenantId userId newTitle =>
    (Services.updateOwnedItem env db itemId tenantId userId newTitle).2
  | .deleteItem itemId => (Services.deleteItem db itemId).2
  | .deleteOwnedItem itemId tenantId userId => (Services.deleteOwnedItem db itemId tenantId userId).2
  | .archiveList tenantId userId listId => (Services.archiveList env db tenantId userId listId).2
  | .deleteList tenantId userId listId => (Services.deleteList db tenantId userId listId).2

/-- The ids that a call gives to new items are fresh. -/
def ChecklistOp.FreshIds : ChecklistOp → Prop
  | .addItems _ newId _ | .addItemsNoCommit _ newId _ =>
    newId.Injective ∧ ∀ n, ∀ item ∈ db.items.rows, item.id ≠ newId n
  | _ => True

end Run

/-- The runs of the service, from empty tables on. -/
def checklistRuns (lower : Text → Text) (K : ChecklistKeys) : Lts ChecklistDb (ChecklistEnv × ChecklistOp) where
  init db := db = ⟨.empty, .empty⟩
  step db call t := call.2.FreshIds db ∧ t = call.2.run lower K call.1 db

/-! ### The promise and its condition -/

variable {lower : Text → Text} {K : ChecklistKeys} {env : ChecklistEnv} {db : ChecklistDb}

/-- What an item is called in its list. -/
def ChecklistItem.titleKey (lower : Text → Text) (item : ChecklistItem) : String × Text :=
  (item.checklistId, normaliseTitle lower item.title)

/-- Where an item stands in its list. -/
def ChecklistItem.place (item : ChecklistItem) : String × ℤ := (item.checklistId, item.position)

/-- No two active lists of a user, and no two items of a list, have the same normal form, and no two
items of a list stand at the same position. -/
structure TitlesDistinct (lower : Text → Text) (db : ChecklistDb) : Prop where
  lists : (db.lists.rows.rows.filterMap (Checklist.activeTitle lower)).Nodup
  items : (db.items.rows.map (ChecklistItem.titleKey lower)).Nodup
  positions : (db.items.rows.map ChecklistItem.place).Nodup

/-- The first title of a batch with a normal form that no item of the list has. -/
def NewTitle (lower : Text → Text) (known titles : List Text) (title : Text) : Prop :=
  normaliseTitle lower title ∉ known ∧
    titles.find? (fun other => normaliseTitle lower other = normaliseTitle lower title) = some title

/-- The cut leaves the new titles of a batch different from those of the list and from each other. -/
def CutsApart (lower : Text → Text) (cap : ℕ) (known titles : List Text) : Prop :=
  ∀ title, NewTitle lower known titles title → normaliseTitle lower (title.take cap) ∉ known ∧
    ∀ other, NewTitle lower known titles other →
      normaliseTitle lower (other.take cap) = normaliseTitle lower (title.take cap) → other = title

/-- A call stores only titles that are different from the others of the list. -/
def ChecklistOp.Fits (lower : Text → Text) (db : ChecklistDb) : ChecklistOp → Prop
  | .addItems listId _ items =>
    (db.lists.get? listId).isSome → CutsApart lower 1000 (db.itemNorms lower listId) (cleanTexts items)
  | .updateOwnedItem itemId tenantId userId newTitle =>
    ∀ item ∈ db.items.rows, item.id = itemId → db.ownedActive tenantId userId item = true → strip newTitle ≠ [] →
      ∀ other ∈ db.items.rows, other.id ≠ itemId → other.checklistId = item.checklistId →
        normaliseTitle lower other.title ≠ normaliseTitle lower (normalise 1000 newTitle)
  | _ => True

/-! ### Lists -/

theorem findByTitle_isNone {tenantId userId : String} {norm : Text} :
    findByTitle lower db tenantId userId norm = none ↔
      (tenantId, userId, norm) ∉ db.lists.rows.rows.filterMap (Checklist.activeTitle lower) := by
  simp [findByTitle, List.mem_filterMap]

/-- A new list keeps the promise when no active list has its title. -/
theorem TitlesDistinct.insertList (h : TitlesDistinct lower db) {id tenantId userId : String} {title : Text}
    {operationId hash : Option String}
    (hfree : findByTitle lower db tenantId userId (normaliseTitle lower title) = none) :
    TitlesDistinct lower
      (committed db (db.insertList env (newList env id tenantId userId title operationId hash))) := by
  unfold ChecklistDb.insertList
  split
  · exact h
  · split
    · exact h
    next lists hinsert =>
      obtain ⟨rows, hrows, hcommit⟩ := Option.bind_eq_some_iff.mp hinsert
      refine ⟨?_, h.items, h.positions⟩
      show (lists.rows.rows.filterMap (Checklist.activeTitle lower)).Nodup
      rw [Indexed.rows_commit? hcommit, Keyed.rows_insert? hrows, List.filterMap_append, List.nodup_append]
      refine ⟨h.lists, by simp [newList, Checklist.activeTitle], ?_⟩
      rintro old hold new hnew rfl
      obtain rfl : old = (tenantId, userId, normaliseTitle lower title) := by
        simpa [newList, Checklist.activeTitle] using hnew
      exact findByTitle_isNone.mp hfree hold

theorem createList_distinct (h : TitlesDistinct lower db) (id tenantId userId : String) (title : Text) :
    TitlesDistinct lower (committed db (createList lower K env db id tenantId userId title)) := by
  unfold createList
  split
  · exact h
  · dsimp only
    split
    · exact h
    next hfree =>
      split
      · exact h.insertList hfree
      · split
        · exact h
        · split
          · exact h
          · split
            · exact h
            · split
              · exact h
              · exact h.insertList hfree

theorem createListNoCommit_distinct (h : TitlesDistinct lower db) (id tenantId userId : String) (title : Text)
    (forceNew : Bool) :
    TitlesDistinct lower (committed db (createListNoCommit lower env db id tenantId userId title forceNew)) := by
  unfold createListNoCommit
  split
  · exact h
  · dsimp only
    split
    · split
      · exact h
      next hunique =>
        exact h.insertList (by simpa using List.find?_some hunique)
    · split
      · exact h
      next hfree => exact h.insertList hfree

theorem archiveList_distinct (h : TitlesDistinct lower db) (tenantId userId listId : String) :
    TitlesDistinct lower (archiveList env db tenantId userId listId).2 := by
  unfold archiveList
  split
  · exact h
  · refine ⟨h.lists.sublist ?_, h.items, h.positions⟩
    apply Keyed.filterMap_update_sublist
    · exact fun _ => rfl
    · exact fun list => .inl (by simp [Checklist.activeTitle])

theorem deleteList_distinct (h : TitlesDistinct lower db) (tenantId userId listId : String) :
    TitlesDistinct lower (deleteList db tenantId userId listId).2 := by
  unfold deleteList
  split
  · exact h
  · exact ⟨h.lists.sublist (List.filter_sublist.filterMap _), h.items.sublist (List.filter_sublist.map _),
      h.positions.sublist (List.filter_sublist.map _)⟩

/-! ### New items -/

/-- `splitNew` keeps the first title of each normal form that is not known. -/
theorem mem_splitNew {known titles : List Text} {title : Text} :
    title ∈ (splitNew lower known titles).1 ↔ NewTitle lower known titles title := by
  induction titles generalizing known with
  | nil => simp [splitNew, NewTitle]
  | cons first rest ih =>
    rw [splitNew, NewTitle, List.find?_cons]
    by_cases hknown : normaliseTitle lower first ∈ known
    · rw [if_pos hknown]
      show title ∈ (splitNew lower known rest).1 ↔ _
      rw [ih, NewTitle]
      refine and_congr_right fun hnew => ?_
      have hne : normaliseTitle lower first ≠ normaliseTitle lower title := fun heq => hnew (heq ▸ hknown)
      simp [hne]
    · rw [if_neg hknown]
      show title ∈ first :: (splitNew lower (normaliseTitle lower first :: known) rest).1 ↔ _
      rw [List.mem_cons, ih, NewTitle, List.mem_cons, not_or]
      by_cases heq : normaliseTitle lower first = normaliseTitle lower title
      · rw [decide_eq_true heq, Option.some.injEq, ← heq]
        constructor
        · rintro (rfl | ⟨⟨hne, -⟩, -⟩)
          · exact ⟨hknown, rfl⟩
          · exact absurd rfl hne
        · exact fun ⟨_, hfirst⟩ => .inl hfirst.symm
      · simp only [heq, decide_false]
        constructor
        · rintro (rfl | ⟨⟨-, hnew⟩, hfind⟩)
          · exact absurd rfl heq
          · exact ⟨hnew, hfind⟩
        · exact fun ⟨hnew, hfind⟩ => .inr ⟨⟨Ne.symm heq, hnew⟩, hfind⟩

/-- The normal forms that `splitNew` keeps are distinct. -/
theorem nodup_splitNew (lower : Text → Text) (known titles : List Text) :
    ((splitNew lower known titles).1.map (normaliseTitle lower)).Nodup := by
  induction titles generalizing known with
  | nil => simp [splitNew]
  | cons first rest ih =>
    rw [splitNew]
    split
    · exact ih known
    · show (normaliseTitle lower first :: (splitNew lower (normaliseTitle lower first :: known) rest).1.map _).Nodup
      refine List.nodup_cons.mpr ⟨fun hmem => ?_, ih _⟩
      obtain ⟨title, htitle, heq⟩ := List.mem_map.mp hmem
      exact (mem_splitNew.mp htitle).1 (heq ▸ List.mem_cons_self)

theorem place_lt_nextPosition {listId : String} {item : ChecklistItem} (hitem : item ∈ db.items.rows)
    (hlist : item.checklistId = listId) : item.position < db.nextPosition listId := by
  have hmem : item.position ∈ (db.itemsOf listId).map (·.position) :=
    List.mem_map_of_mem (List.mem_filter.mpr ⟨hitem, by simpa using hlist⟩)
  obtain ⟨last, hlast⟩ := Option.isSome_iff_exists.mp (List.isSome_max?_of_mem hmem)
  have hle := (List.max?_eq_some_iff.mp hlast).2 _ hmem
  rw [ChecklistDb.nextPosition, hlast, Option.getD_some]
  omega

section NewItems

variable {parent : Checklist} {newId : ℕ → String} {position : ℤ} {titles : List Text}

theorem map_id_newItems :
    (newItems env parent newId position titles).map (·.id) = (List.range' 0 titles.length).map newId := by
  rw [newItems, List.map_map, ← List.zipIdx_map_snd, List.map_map]
  rfl

theorem map_titleKey_newItems : (newItems env parent newId position titles).map (ChecklistItem.titleKey lower) =
    titles.map fun title => (parent.id, normaliseTitle lower title) := by
  rw [newItems, List.map_map]
  conv_rhs => rw [← List.zipIdx_map_fst 0 titles, List.map_map]
  rfl

theorem map_place_newItems : (newItems env parent newId position titles).map ChecklistItem.place =
    (List.range' 0 titles.length).map fun offset : ℕ => (parent.id, position + (offset : ℤ)) := by
  rw [newItems, List.map_map, ← List.zipIdx_map_snd, List.map_map]
  rfl

/-- **New items** keep the promise exactly when their titles are different from each other and from
those of the list. -/
theorem insertItems_iff (env : ChecklistEnv) (parent : Checklist) (h : TitlesDistinct lower db)
    (hfresh : newId.Injective ∧ ∀ n, ∀ item ∈ db.items.rows, item.id ≠ newId n) (skipped : List Text) :
    TitlesDistinct lower (committed db
      (db.insertItems (newItems env parent newId (db.nextPosition parent.id) titles) skipped)) ↔
      (titles.map (normaliseTitle lower)).Nodup ∧
        ∀ title ∈ titles, normaliseTitle lower title ∉ db.itemNorms lower parent.id := by
  have hsome : (db.items.insertAll? (newItems env parent newId (db.nextPosition parent.id) titles)).isSome := by
    refine Keyed.insertAll?_isSome (by rw [map_id_newItems]; exact (List.nodup_range' 1).map hfresh.1) ?_
    intro item hitem old hold
    obtain ⟨n, -, hn⟩ := List.mem_map.mp (map_id_newItems ▸ List.mem_map_of_mem (f := ChecklistItem.id) hitem)
    exact hn ▸ hfresh.2 n old hold
  obtain ⟨rows, hrows⟩ := Option.isSome_iff_exists.mp hsome
  rw [ChecklistDb.insertItems, hrows]
  have hplaces : (rows.rows.map ChecklistItem.place).Nodup := by
    rw [Keyed.rows_insertAll? hrows, List.map_append, map_place_newItems, List.nodup_append]
    refine ⟨h.positions, (List.nodup_range' 1).map fun m n hmn => ?_, ?_⟩
    · exact Int.ofNat_inj.mp (by simpa using hmn)
    · rintro old hold new hnew rfl
      obtain ⟨item, hitem, hplace⟩ := List.mem_map.mp hold
      obtain ⟨offset, -, hoffset⟩ := List.mem_map.mp hnew
      obtain ⟨hlist, hposition⟩ := Prod.mk.inj (hplace.trans hoffset.symm)
      have hlt := place_lt_nextPosition hitem hlist
      omega
  have htitles : (rows.rows.map (ChecklistItem.titleKey lower)).Nodup ↔
      (titles.map (normaliseTitle lower)).Nodup ∧
        ∀ title ∈ titles, normaliseTitle lower title ∉ db.itemNorms lower parent.id := by
    rw [Keyed.rows_insertAll? hrows, List.map_append, map_titleKey_newItems, List.nodup_append,
      and_iff_right h.items]
    refine and_congr ?_ ?_
    · rw [← List.nodup_map_iff (f := fun norm : Text => (parent.id, norm)) fun a b hab => (Prod.mk.inj hab).2,
        List.map_map]
      rfl
    · constructor
      · intro hne title htitle hmem
        obtain ⟨item, hitem, hnorm⟩ := List.mem_map.mp hmem
        obtain ⟨hrow, hlist⟩ := List.mem_filter.mp hitem
        refine hne _ (List.mem_map_of_mem hrow) _ (List.mem_map_of_mem htitle) ?_
        rw [ChecklistItem.titleKey, hnorm, of_decide_eq_true hlist]
      · rintro hne _ hold _ hnew rfl
        obtain ⟨item, hitem, hkey⟩ := List.mem_map.mp hold
        obtain ⟨title, htitle, hnorm⟩ := List.mem_map.mp hnew
        obtain ⟨hlist, heq⟩ := Prod.mk.inj (hkey.trans hnorm.symm)
        refine hne title htitle (List.mem_map.mpr ⟨item, List.mem_filter.mpr ⟨hitem, ?_⟩, heq⟩)
        simpa using hlist
  exact ⟨fun hg => htitles.mp hg.items, fun ht => ⟨h.lists, htitles.mpr ht, hplaces⟩⟩

end NewItems

theorem addItems_iff (h : TitlesDistinct lower db) (listId : String) (newId : ℕ → String) (items : List Text)
    (hfresh : newId.Injective ∧ ∀ n, ∀ item ∈ db.items.rows, item.id ≠ newId n) :
    TitlesDistinct lower (committed db (addItems lower env db listId newId items)) ↔
      (ChecklistOp.addItems listId newId items).Fits lower db := by
  obtain ⟨fresh, skipped, hsplit⟩ : ∃ fresh skipped,
      splitNew lower (db.itemNorms lower listId) (cleanTexts items) = (fresh, skipped) := ⟨_, _, rfl⟩
  have hmem : ∀ title, title ∈ fresh ↔ NewTitle lower (db.itemNorms lower listId) (cleanTexts items) title :=
    fun title => by rw [← mem_splitNew, hsplit]
  have hnodup : (fresh.map (normaliseTitle lower)).Nodup := by
    simpa [hsplit] using nodup_splitNew lower (db.itemNorms lower listId) (cleanTexts items)
  rw [addItems, hsplit]
  show TitlesDistinct lower (committed db (if fresh = [] then _ else _)) ↔ _
  split
  next hnone =>
    refine iff_of_true h fun _ title hnew => ?_
    rw [← hmem, hnone] at hnew
    cases hnew
  · split
    next hparent => exact iff_of_true h fun hsome => by simp [hparent] at hsome
    next parent hparent =>
      obtain rfl : parent.id = listId := (Keyed.get?_eq_some.mp hparent).2
      rw [insertItems_iff env parent h hfresh, List.map_map, List.nodup_map_iff_inj_on (List.Nodup.of_map _ hnodup)]
      constructor
      · rintro ⟨hinj, hnew⟩ - title htitle
        rw [← hmem] at htitle
        refine ⟨hnew _ (List.mem_map_of_mem htitle), fun other hother heq => ?_⟩
        exact hinj other ((hmem other).mpr hother) title htitle heq
      · intro hfits
        have hcuts := hfits (by rw [hparent]; rfl)
        refine ⟨fun other hother title htitle heq => ?_, fun cut hcut => ?_⟩
        · exact (hcuts title ((hmem title).mp htitle)).2 other ((hmem other).mp hother) heq
        · obtain ⟨title, htitle, rfl⟩ := List.mem_map.mp hcut
          exact (hcuts title ((hmem title).mp htitle)).1

/-- The cut does nothing to titles that are not too long. -/
theorem cutsApart_of_length_le {cap : ℕ} {known titles : List Text} (h : ∀ title ∈ titles, title.length ≤ cap) :
    CutsApart lower cap known titles := by
  have hcut : ∀ title, NewTitle lower known titles title → title.take cap = title :=
    fun title hnew => List.take_of_length_le (h title (List.mem_of_find?_eq_some hnew.2))
  intro title htitle
  rw [hcut title htitle]
  refine ⟨htitle.1, fun other hother heq => ?_⟩
  rw [hcut other hother] at heq
  have hfirst := hother.2
  rw [heq, htitle.2] at hfirst
  exact (Option.some.inj hfirst).symm

theorem addItemsNoCommit_distinct (h : TitlesDistinct lower db) (listId : String) (newId : ℕ → String)
    (items : List Text) (hfresh : newId.Injective ∧ ∀ n, ∀ item ∈ db.items.rows, item.id ≠ newId n) :
    TitlesDistinct lower (committed db (addItemsNoCommit lower env db listId newId items)) := by
  unfold addItemsNoCommit
  split
  · exact h
  next parent hparent =>
    obtain rfl : parent.id = listId := (Keyed.get?_eq_some.mp hparent).2
    have htouched : TitlesDistinct lower (db.touchList env parent.id) := by
      refine ⟨h.lists.sublist ?_, h.items, h.positions⟩
      apply Keyed.filterMap_update_sublist
      · exact fun _ => rfl
      · exact fun _ => .inr rfl
    dsimp only
    split
    · exact h
    · generalize hsplit : splitNew lower (db.itemNorms lower parent.id) ((cleanTexts items).map (·.take 200)) = split
      have hnodup := nodup_splitNew lower (db.itemNorms lower parent.id) ((cleanTexts items).map (·.take 200))
      rw [hsplit] at hnodup
      have hinsert := (insertItems_iff env parent htouched hfresh split.2).mpr
        ⟨hnodup, fun title htitle => (mem_splitNew.mp (hsplit ▸ htitle)).1⟩
      show TitlesDistinct lower (committed db ((db.touchList env parent.id).insertItems
        (newItems env parent newId (db.nextPosition parent.id) split.1) split.2))
      cases hresult : (db.touchList env parent.id).insertItems
          (newItems env parent newId (db.nextPosition parent.id) split.1) split.2 with
      | error error => exact h
      | ok result =>
        change TitlesDistinct lower (committed _ ((db.touchList env parent.id).insertItems
          (newItems env parent newId (db.nextPosition parent.id) split.1) split.2)) at hinsert
        rwa [hresult] at hinsert

/-! ### Changing and deleting items -/

theorem TitlesDistinct.of_rows (h : TitlesDistinct lower db) {items : Keyed ChecklistItem.id}
    (hrows : items.rows = db.items.rows) : TitlesDistinct lower { db with items } :=
  ⟨h.lists, hrows.symm ▸ h.items, hrows.symm ▸ h.positions⟩

/-- **A rename** keeps the promise exactly when no other item of the list has the title. -/
theorem rename_iff (h : TitlesDistinct lower db) {item : ChecklistItem} {itemId : String} {now : ℤ} {title : Text}
    {items : Keyed ChecklistItem.id} (hget : db.items.get? itemId = some item)
    (hitems : items.rows =
      (db.items.update (·.id = itemId) (ChecklistItem.rename now title) (ChecklistItem.id_rename now title)).rows) :
    TitlesDistinct lower { db with items } ↔
      ∀ other ∈ db.items.rows, other.id ≠ itemId → other.checklistId = item.checklistId →
        normaliseTitle lower other.title ≠ normaliseTitle lower title := by
  have hplaces : (items.rows.map ChecklistItem.place).Nodup := by
    rw [hitems, Keyed.rows_update, List.map_map]
    convert h.positions using 2
    funext other
    simp only [Function.comp]
    split <;> rfl
  have htitles : (items.rows.map (ChecklistItem.titleKey lower)).Nodup ↔
      ∀ entry, some ((item.rename now title).titleKey lower) = some entry →
        ∀ other ∈ db.items.rows, other.id ≠ itemId → some (other.titleKey lower) ≠ some entry := by
    let t : Indexed ChecklistItem.id fun item => some (item.titleKey lower) :=
      ⟨db.items, by simpa [List.filterMap_eq_map] using h.items⟩
    have hindex : ((t.rows.update (·.id = itemId) (ChecklistItem.rename now title)
        (ChecklistItem.id_rename now title)).rows.filterMap fun item => some (item.titleKey lower)).Nodup ↔ _ :=
      Indexed.nodup_update_iff hget
    rw [hitems, ← hindex]
    simp [Function.comp_def, t]
  constructor
  · intro hg other hother hne hlist heq
    refine htitles.mp hg.items _ rfl other hother hne ?_
    rw [ChecklistItem.titleKey, hlist, heq]
    rfl
  · refine fun hne => ⟨h.lists, htitles.mpr ?_, hplaces⟩
    rintro _ ⟨⟩ other hother hid heq
    obtain ⟨hlist, hnorm⟩ := Prod.mk.inj (Option.some.inj heq)
    exact hne other hother hid hlist hnorm

theorem updateOwnedItem_iff (h : TitlesDistinct lower db) (itemId tenantId userId : String) (newTitle : Text) :
    TitlesDistinct lower (updateOwnedItem env db itemId tenantId userId newTitle).2 ↔
      (ChecklistOp.updateOwnedItem itemId tenantId userId newTitle).Fits lower db := by
  unfold updateOwnedItem
  split
  next hblank => exact iff_of_true h fun item _ _ _ hne => absurd hblank hne
  next hne =>
    cases hget : db.items.get? itemId with
    | none =>
      refine iff_of_true (h.of_rows (Keyed.rows_update_of_none hget)) fun item hitem hid => ?_
      exact absurd hid (Keyed.get?_eq_none.mp hget item hitem)
    | some item =>
      obtain ⟨hitem, hid⟩ := Keyed.get?_eq_some.mp hget
      have hsame : ∀ other ∈ db.items.rows, other.id = itemId → other = item :=
        fun other hother hid' => db.items.eq_of_key hother hitem (hid'.trans hid.symm)
      by_cases howned : db.ownedActive tenantId userId item = true
      · refine (rename_iff h hget ((Keyed.rows_update_and hget).trans (if_pos howned))).trans ?_
        constructor
        · intro hother item' hitem' hid' _ _
          exact hsame item' hitem' hid' ▸ hother
        · exact fun hfits => hfits item hitem hid howned hne
      · refine iff_of_true (h.of_rows ((Keyed.rows_update_and hget).trans (if_neg howned))) fun item' hitem' hid' howned' => ?_
        exact absurd (hsame item' hitem' hid' ▸ howned') howned

theorem deleteItems_distinct (h : TitlesDistinct lower db) (p : ChecklistItem → Bool) :
    TitlesDistinct lower { db with items := db.items.delete p } :=
  ⟨h.lists, h.items.sublist (List.filter_sublist.map _), h.positions.sublist (List.filter_sublist.map _)⟩

/-! ### Every run -/

/-- **One call** keeps the promise exactly when it stores only titles that are different from the
others. -/
theorem run_iff (h : TitlesDistinct lower db) {op : ChecklistOp} (hfresh : op.FreshIds db) :
    TitlesDistinct lower (op.run lower K env db) ↔ op.Fits lower db := by
  cases op with
  | createList id tenantId userId title => exact iff_of_true (createList_distinct h id tenantId userId title) trivial
  | createListNoCommit id tenantId userId title forceNew =>
    exact iff_of_true (createListNoCommit_distinct h id tenantId userId title forceNew) trivial
  | addItems listId newId items => exact addItems_iff h listId newId items hfresh
  | addItemsNoCommit listId newId items =>
    exact iff_of_true (addItemsNoCommit_distinct h listId newId items hfresh) trivial
  | updateOwnedItem itemId tenantId userId newTitle => exact updateOwnedItem_iff h itemId tenantId userId newTitle
  | deleteItem itemId => exact iff_of_true (deleteItems_distinct h _) trivial
  | deleteOwnedItem itemId tenantId userId => exact iff_of_true (deleteItems_distinct h _) trivial
  | archiveList tenantId userId listId => exact iff_of_true (archiveList_distinct h tenantId userId listId) trivial
  | deleteList tenantId userId listId => exact iff_of_true (deleteList_distinct h tenantId userId listId) trivial

theorem titlesDistinct (h : ((checklistRuns lower K).guard fun db call => call.2.Fits lower db).Reachable db) :
    TitlesDistinct lower db := by
  refine Lts.Reachable.induct (P := TitlesDistinct lower) ?_ ?_ h
  · rintro _ rfl
    exact ⟨.nil, .nil, .nil⟩
  · rintro db call _ - hinv ⟨⟨hfresh, rfl⟩, hfits⟩
    exact (run_iff hinv hfresh).mpr hfits

/-- **The titles of checklists**: in every run whose calls store only titles that are different from the
others, titles and positions are distinct; and after any further call they are exactly when it does the
same. -/
theorem checklist_titles (lower : Text → Text) (K : ChecklistKeys) (db : ChecklistDb)
    (h : ((checklistRuns lower K).guard fun db call => call.2.Fits lower db).Reachable db) :
    TitlesDistinct lower db ∧
      ∀ call t, (checklistRuns lower K).step db call t → (TitlesDistinct lower t ↔ call.2.Fits lower db) := by
  refine ⟨titlesDistinct h, ?_⟩
  rintro call _ ⟨hfresh, rfl⟩
  exact run_iff (titlesDistinct h) hfresh

/-! ### A rename -/

/-- Outside of a turn no key is made. -/
def noTitleKeys : ChecklistKeys := ⟨fun _ _ _ => "", fun _ _ _ => ""⟩

/-- Ids for new items. -/
def itemId (n : ℕ) : String := String.ofList (List.replicate n 'x')

theorem itemId_injective : itemId.Injective := fun m n h => by
  simpa [itemId] using congrArg (fun id : String => id.toList.length) h

/-- A list of the user, without items. -/
def tripDb : ChecklistDb :=
  (ChecklistOp.createList "checklist_1" "tenant_1" "user_1" "Trip".toList).run PyText.lower noTitleKeys { now := 0 }
    ⟨.empty, .empty⟩

/-- Two items are added. -/
def packedDb : ChecklistDb :=
  (ChecklistOp.addItems "checklist_1" itemId ["tent".toList, " rope".toList]).run PyText.lower noTitleKeys { now := 1 }
    tripDb

theorem packedDb_reachable :
    ((checklistRuns PyText.lower noTitleKeys).guard fun db call => call.2.Fits PyText.lower db).Reachable packedDb := by
  have hinit : (checklistRuns PyText.lower noTitleKeys).init ⟨.empty, .empty⟩ := rfl
  have htrip : ((checklistRuns PyText.lower noTitleKeys).guard fun db call => call.2.Fits PyText.lower db).Reachable
      tripDb :=
    (Lts.Hist.init (L := (checklistRuns PyText.lower noTitleKeys).guard _) hinit).reachable.step
      (a := ({ now := 0 }, .createList "checklist_1" "tenant_1" "user_1" "Trip".toList)) ⟨⟨trivial, rfl⟩, trivial⟩
  refine htrip.step (a := ({ now := 1 }, .addItems "checklist_1" itemId ["tent".toList, " rope".toList]))
    ⟨⟨⟨itemId_injective, ?_⟩, rfl⟩, ?_⟩
  · rintro n item ⟨⟩
  · exact fun _ => cutsApart_of_length_le (by decide)

/-- The items of a list of two. -/
theorem checklist_titles_packedDb : TitlesDistinct PyText.lower packedDb ∧
    ∀ call t, (checklistRuns PyText.lower noTitleKeys).step packedDb call t →
      (TitlesDistinct PyText.lower t ↔ call.2.Fits PyText.lower packedDb) :=
  checklist_titles PyText.lower noTitleKeys packedDb packedDb_reachable

/-- **A rename** to the title of another item: `update_owned_item` does not look at the others. -/
theorem rename_to_taken : ¬ ∀ lower K db, (checklistRuns lower K).Reachable db → TitlesDistinct lower db := by
  intro h
  let rename : ChecklistOp := .updateOwnedItem (itemId 1) "tenant_1" "user_1" "Tent".toList
  have hstep : (checklistRuns PyText.lower noTitleKeys).step packedDb ({ now := 2 }, rename)
      (rename.run PyText.lower noTitleKeys { now := 2 } packedDb) := ⟨trivial, rfl⟩
  have hfits := (run_iff (titlesDistinct packedDb_reachable) hstep.1).mp
    (h PyText.lower noTitleKeys _ (packedDb_reachable.of_guard.step hstep))
  obtain ⟨rope, hrope, hid, hlist, hactive⟩ : ∃ item ∈ packedDb.items.rows, item.id = itemId 1 ∧
      item.checklistId = "checklist_1" ∧ packedDb.ownedActive "tenant_1" "user_1" item = true := by decide
  obtain ⟨tent, htent, hother, hsame, htitle⟩ : ∃ item ∈ packedDb.items.rows, item.id ≠ itemId 1 ∧
      item.checklistId = "checklist_1" ∧ normaliseTitle PyText.lower item.title =
        normaliseTitle PyText.lower (normalise 1000 "Tent".toList) := by decide
  exact hfits rope hrope hid hactive (by decide) tent htent hother (hsame.trans hlist.symm) htitle

end Sreda.Services
