import Mathlib.Data.List.Nodup

/-!
# Tables with a key

A table is a list of rows no two of which share a key. An update maps the rows that meet a
condition and keeps their keys; an insertion fails when the key is taken.

A partial unique index gives some of the rows an entry; a change of the table is committed only when
no two rows share an entry.
-/

namespace Sreda.Lib

universe u v

instance lawfulPairs : LawfulBEq (String × String) := Prod.instLawfulBEq

/-- What is looked up in an association list is in it. -/
theorem mem_of_lookup {κ : Type u} {α : Type v} [BEq κ] [LawfulBEq κ] {pairs : List (κ × α)} {key : κ} {a : α}
    (h : pairs.lookup key = some a) : (key, a) ∈ pairs := by
  obtain ⟨pre, post, rfl, -⟩ := List.lookup_eq_some_iff.mp h
  simp

/-- With keys of their own, what is in an association list is looked up in it. -/
theorem lookup_of_mem {κ : Type u} {α : Type v} [BEq κ] [LawfulBEq κ] {key : κ} {a : α} : ∀ {pairs : List (κ × α)},
    (pairs.map Prod.fst).Nodup → (key, a) ∈ pairs → pairs.lookup key = some a
  | (name, b) :: pairs, hnodup, hmem => by
    rw [List.map_cons, List.nodup_cons] at hnodup
    rcases List.mem_cons.mp hmem with heq | hrest
    · cases heq
      exact List.lookup_cons_self
    · have hne : key ≠ name := by
        rintro rfl
        exact hnodup.1 (List.mem_map.mpr ⟨_, hrest, rfl⟩)
      rw [List.lookup_cons, beq_eq_false_iff_ne.mpr hne]
      exact lookup_of_mem hnodup.2 hrest

/-- Among rows with keys of their own, the first row with the key of a row is the row itself. -/
theorem find?_of_mem {α : Type u} {κ : Type v} [DecidableEq κ] {key : α → κ} {rows : List α} (hnodup : (rows.map key).Nodup)
    {a : α} (ha : a ∈ rows) : rows.find? (fun b => key b = key a) = some a := by
  cases hfind : rows.find? (fun b => key b = key a) with
  | none => exact absurd (decide_eq_true rfl) (List.find?_eq_none.mp hfind a ha)
  | some b =>
    have hkey : key b = key a := by simpa using List.find?_some hfind
    rw [List.inj_on_of_nodup_map hnodup (List.mem_of_find?_eq_some hfind) ha hkey]

/-- A table: rows under a key that no two of them share. -/
structure Keyed {α : Type u} {κ : Type v} (key : α → κ) where
  rows : List α
  nodup : (rows.map key).Nodup

namespace Keyed

variable {α : Type u} {κ : Type v} {key : α → κ}

/-- The table without rows. -/
def empty : Keyed key := ⟨[], .nil⟩

@[simp] theorem rows_empty : (empty : Keyed key).rows = [] := rfl

variable {t t' : Keyed key} {b : α} {p q : α → Bool} {k : κ}

theorem eq_of_key {a : α} (ha : a ∈ t.rows) (hb : b ∈ t.rows) (h : key a = key b) : a = b :=
  List.inj_on_of_nodup_map t.nodup ha hb h

theorem eq_of_rows : ∀ {t t' : Keyed key}, t.rows = t'.rows → t = t'
  | ⟨_, _⟩, ⟨_, _⟩, rfl => rfl

/-- `UPDATE … SET … WHERE …`: `set` is applied to the rows that meet `p`. -/
def update (t : Keyed key) (p : α → Bool) (set : α → α) (hset : ∀ a, key (set a) = key a) : Keyed key where
  rows := t.rows.map fun a => if p a then set a else a
  nodup := by
    rw [List.map_map]
    convert t.nodup using 2
    funext a
    by_cases h : p a <;> simp [h, hset]

@[simp] theorem rows_update {set : α → α} {hset : ∀ a, key (set a) = key a} :
    (t.update p set hset).rows = t.rows.map fun a => if p a then set a else a := rfl

theorem mem_update {set : α → α} (hset : ∀ a, key (set a) = key a) :
    b ∈ (t.update p set hset).rows ↔ ∃ a ∈ t.rows, b = if p a then set a else a := by
  simp only [rows_update, List.mem_map, eq_comm]

/-- What an update leaves of every row, it leaves of the table. -/
theorem map_update {set : α → α} (hset : ∀ a, key (set a) = key a) {β : Type*} {g : α → β}
    (hg : ∀ a, g (set a) = g a) : (t.update p set hset).rows.map g = t.rows.map g := by
  rw [rows_update, List.map_map]
  refine List.map_congr_left fun a _ => ?_
  by_cases hp : p a <;> simp [hp, hg]

/-- An update loses no row and adds none. -/
theorem keys_update {set : α → α} (hset : ∀ a, key (set a) = key a) :
    (t.update p set hset).rows.map key = t.rows.map key := map_update hset hset

/-- `DELETE … WHERE …`: the rows that meet `p` are gone. -/
def delete (t : Keyed key) (p : α → Bool) : Keyed key where
  rows := t.rows.filter fun a => !p a
  nodup := t.nodup.sublist (List.filter_sublist.map key)

@[simp] theorem rows_delete : (t.delete p).rows = t.rows.filter fun a => !p a := rfl

/-- An update after an update with the same setting, when no row is changed twice. -/
theorem update_update {set : α → α} {hset : ∀ a, key (set a) = key a} (hq : ∀ a, q (set a) = false) :
    (t.update p set hset).update q set hset = t.update (fun a => p a || q a) set hset := by
  refine eq_of_rows ?_
  simp only [rows_update, List.map_map]
  refine List.map_congr_left fun a _ => ?_
  cases hp : p a <;> simp [hp, hq]

theorem update_congr {set : α → α} {hset : ∀ a, key (set a) = key a}
    (h : ∀ a ∈ t.rows, p a = q a) : t.update p set hset = t.update q set hset :=
  eq_of_rows (List.map_congr_left fun a ha => by rw [h a ha])

theorem update_of_false {set : α → α} {hset : ∀ a, key (set a) = key a}
    (h : ∀ a ∈ t.rows, p a = false) : t.update p set hset = t :=
  eq_of_rows ((List.map_congr_left (g := id) fun a ha => by simp [h a ha]).trans (List.map_id _))

theorem delete_delete : (t.delete p).delete q = t.delete fun a => p a || q a := by
  refine eq_of_rows ?_
  rw [rows_delete, rows_delete, rows_delete, List.filter_filter]
  exact List.filter_congr fun a _ => by rw [Bool.not_or, Bool.and_comm]

theorem delete_congr (h : ∀ a ∈ t.rows, p a = q a) : t.delete p = t.delete q :=
  eq_of_rows (List.filter_congr fun a ha => by rw [h a ha])

theorem delete_of_false (h : ∀ a ∈ t.rows, p a = false) : t.delete p = t :=
  eq_of_rows (List.filter_eq_self.mpr fun a ha => by rw [h a ha]; rfl)

/-- A deletion of a row makes the table smaller. -/
theorem length_delete_lt {a : α} (ha : a ∈ t.rows) (hp : p a = true) : (t.delete p).rows.length < t.rows.length :=
  List.length_filter_lt_length_iff_exists.mpr ⟨a, ha, by simp [hp]⟩

/-- An update that only takes away what is read off some rows. -/
theorem filterMap_update_sublist {set : α → α} {hset : ∀ a, key (set a) = key a}
    {β : Type*} {g : α → Option β} (hg : ∀ a, g (set a) = none ∨ g (set a) = g a) :
    ((t.update p set hset).rows.filterMap g).Sublist (t.rows.filterMap g) := by
  rw [rows_update, List.filterMap_map]
  generalize t.rows = rows
  induction rows with
  | nil => exact .slnil
  | cons a rows ih =>
    have hcases : (g ∘ fun a => if p a then set a else a) a = none ∨ (g ∘ fun a => if p a then set a else a) a = g a := by
      simp only [Function.comp]
      split
      · exact hg a
      · exact .inr rfl
    rcases hcases with hnone | hsame
    · rw [List.filterMap_cons_none hnone]
      exact ih.trans ((List.sublist_cons_self a rows).filterMap g)
    · cases h : g a with
      | none =>
        rw [List.filterMap_cons_none (hsame.trans h), List.filterMap_cons_none h]
        exact ih
      | some b =>
        rw [List.filterMap_cons_some (hsame.trans h), List.filterMap_cons_some h]
        exact ih.cons_cons b

/-- `INSERT` of several rows: nothing when a key is taken. -/
def insertAll? [DecidableEq κ] (t : Keyed key) (as : List α) : Option (Keyed key) :=
  if h : ((t.rows ++ as).map key).Nodup then some ⟨t.rows ++ as, h⟩ else none

theorem rows_insertAll? [DecidableEq κ] {as : List α} (h : t.insertAll? as = some t') : t'.rows = t.rows ++ as := by
  unfold insertAll? at h
  split at h
  · cases h; rfl
  · cases h

/-- Rows with fresh keys can be inserted. -/
theorem insertAll?_isSome [DecidableEq κ] {as : List α} (h : (as.map key).Nodup)
    (hfresh : ∀ a ∈ as, ∀ b ∈ t.rows, key b ≠ key a) : (t.insertAll? as).isSome := by
  have hn : ((t.rows ++ as).map key).Nodup := by
    rw [List.map_append, List.nodup_append]
    refine ⟨t.nodup, h, ?_⟩
    rintro k hk k' hk' rfl
    obtain ⟨b, hb, hkb⟩ := List.mem_map.mp hk
    obtain ⟨a, ha, hka⟩ := List.mem_map.mp hk'
    exact hfresh a ha b hb (hkb.trans hka.symm)
  rw [insertAll?, dif_pos hn]
  rfl

section Lookup

variable [DecidableEq κ]

/-- The row under a key. -/
def get? (t : Keyed key) (k : κ) : Option α := t.rows.find? fun a => key a = k

theorem get?_eq_some {a : α} : t.get? k = some a ↔ a ∈ t.rows ∧ key a = k := by
  constructor
  · intro h
    exact ⟨List.mem_of_find?_eq_some h, by simpa using List.find?_some h⟩
  · rintro ⟨ha, rfl⟩
    have hs : (t.get? (key a)).isSome := by
      simp only [get?, List.find?_isSome, decide_eq_true_eq]
      exact ⟨a, ha, rfl⟩
    obtain ⟨b, hb⟩ := Option.isSome_iff_exists.mp hs
    have hk : key b = key a := by simpa using List.find?_some hb
    rw [hb, t.eq_of_key (List.mem_of_find?_eq_some hb) ha hk]

theorem get?_key {a : α} (h : a ∈ t.rows) : t.get? (key a) = some a := get?_eq_some.mpr ⟨h, rfl⟩

theorem get?_eq_none : t.get? k = none ↔ ∀ a ∈ t.rows, key a ≠ k := by
  simp [get?]

/-- What an update makes of the row under a key. -/
theorem get?_update {set : α → α} (hset : ∀ a, key (set a) = key a) :
    (t.update p set hset).get? k = (t.get? k).map fun a => if p a then set a else a := by
  simp only [get?, rows_update, List.find?_map]
  congr 2
  funext a
  by_cases h : p a <;> simp [h, hset]

/-- The rows after an update of the row under a key. -/
theorem mem_update_row {a : α} {set : α → α} (hset : ∀ a, key (set a) = key a) (h : t.get? k = some a) :
    b ∈ (t.update (fun a => key a = k) set hset).rows ↔ b = set a ∨ b ∈ t.rows ∧ key b ≠ k := by
  obtain ⟨ha, rfl⟩ := get?_eq_some.mp h
  rw [mem_update hset]
  constructor
  · rintro ⟨c, hc, rfl⟩
    by_cases hk : key c = key a
    · exact .inl (by rw [t.eq_of_key hc ha hk]; simp)
    · exact .inr ⟨by simpa [hk] using hc, by simp [hk]⟩
  · rintro (rfl | ⟨hb, hk⟩)
    · exact ⟨a, ha, by simp⟩
    · exact ⟨b, hb, by simp [hk]⟩

/-- The rows with a row under a key set apart. -/
theorem rows_perm {a : α} (h : t.get? k = some a) : (a :: (t.delete fun b => key b = k).rows).Perm t.rows := by
  obtain ⟨hmem, rfl⟩ := get?_eq_some.mp h
  obtain ⟨l, l', hrows⟩ := List.append_of_mem hmem
  have hother : ∀ b ∈ l ++ l', key b ≠ key a := by
    have hn : ((a :: (l ++ l')).map key).Nodup := by
      refine (List.Perm.nodup_iff (List.Perm.map key ?_)).mp t.nodup
      rw [hrows]
      exact List.perm_middle
    rw [List.map_cons, List.nodup_cons] at hn
    exact fun b hb heq => hn.1 (heq ▸ List.mem_map_of_mem hb)
  have hdelete : (t.delete fun b => key b = key a).rows = l ++ l' := by
    rw [rows_delete, hrows, List.filter_append, List.filter_cons_of_neg (by simp), ← List.filter_append]
    exact List.filter_eq_self.mpr fun b hb => by simpa using hother b hb
  rw [hdelete, hrows]
  exact List.perm_middle.symm

/-- What an update of one row makes of what is read off the rows. -/
theorem filterMap_update_perm {a : α} {β : Type*} {set : α → α}
    {hset : ∀ b, key (set b) = key b} (g : α → Option β) (h : t.get? k = some a) :
    ((t.update (fun b => key b = k) set hset).rows.filterMap g).Perm
      ((g (set a)).toList ++ (t.delete fun b => key b = k).rows.filterMap g) := by
  have hk : key a = k := (get?_eq_some.mp h).2
  have hrest : ((t.delete fun b => key b = k).rows.map fun b => if key b = k then set b else b) =
      (t.delete fun b => key b = k).rows := by
    rw [List.map_congr_left (g := id) fun b hb => ?_, List.map_id]
    have hne : key b ≠ k := by simpa using (List.mem_filter.mp hb).2
    simp [hne]
  have hperm : (t.update (fun b => key b = k) set hset).rows.Perm (set a :: (t.delete fun b => key b = k).rows) := by
    have hmap := (rows_perm h).symm.map fun b => if key b = k then set b else b
    rw [List.map_cons, if_pos hk, hrest] at hmap
    simpa using hmap
  refine (hperm.filterMap g).trans (List.Perm.of_eq ?_)
  cases hg : g (set a) <;> simp [hg]

/-- An update of the row under a key that also asks for something else: it is the update of that row, or
none. -/
theorem rows_update_and {a : α} {set : α → α} {hset : ∀ b, key (set b) = key b} (h : t.get? k = some a) :
    (t.update (fun b => key b = k && q b) set hset).rows =
      if q a then (t.update (fun b => key b = k) set hset).rows else t.rows := by
  obtain ⟨hmem, hkey⟩ := get?_eq_some.mp h
  have hsame : ∀ b ∈ t.rows, key b = k → b = a := fun b hb hk => t.eq_of_key hb hmem (hk.trans hkey.symm)
  rw [rows_update]
  split
  next hq =>
    refine List.map_congr_left fun b hb => ?_
    by_cases hk : key b = k
    · simp [hsame b hb hk, hq]
    · simp [hk]
  next hq =>
    refine (List.map_congr_left (g := id) fun b hb => ?_).trans (List.map_id _)
    by_cases hk : key b = k
    · simp [hsame b hb hk, hq]
    · simp [hk]

theorem rows_update_of_none {set : α → α} {hset : ∀ b, key (set b) = key b} (h : t.get? k = none) :
    (t.update (fun b => key b = k && q b) set hset).rows = t.rows := by
  refine (List.map_congr_left (g := id) fun b hb => ?_).trans (List.map_id _)
  simp [get?_eq_none.mp h b hb]

/-- `UPDATE … SET … WHERE key = k AND guard … RETURNING`: at most one row, and what has become of it. -/
def updateReturning (t : Keyed key) (k : κ) (guard : α → Bool) (set : α → α) (hset : ∀ a, key (set a) = key a) :
    Keyed key × Option α :=
  (t.update (fun a => key a = k && guard a) set hset, ((t.get? k).filter guard).map set)

/-- **A guarded update** changes the row under the key when the guard admits it, and else nothing. -/
theorem updateReturning_cases (t : Keyed key) (k : κ) (guard : α → Bool) (set : α → α)
    (hset : ∀ a, key (set a) = key a) :
    (∃ a, t.get? k = some a ∧ guard a = true ∧ (t.updateReturning k guard set hset).2 = some (set a) ∧
        ∀ k', (t.updateReturning k guard set hset).1.get? k' = if k' = k then some (set a) else t.get? k') ∨
      ((∀ a, t.get? k = some a → guard a = false) ∧ t.updateReturning k guard set hset = (t, none)) := by
  unfold updateReturning
  cases hget : t.get? k with
  | none =>
    refine .inr ⟨fun _ ha => (by cases ha), Prod.ext (eq_of_rows ?_) rfl⟩
    show (t.update _ set hset).rows = t.rows
    exact rows_update_of_none hget
  | some a =>
    cases hguard : guard a with
    | false =>
      refine .inr ⟨fun b hb => by rw [← Option.some.inj hb, hguard], Prod.ext (eq_of_rows ?_) (by simp [hguard])⟩
      rw [rows_update_and hget, if_neg (by simp [hguard])]
    | true =>
      refine .inl ⟨a, rfl, hguard, by simp [hguard], fun k' => ?_⟩
      rw [get?_update hset]
      by_cases hk : k' = k
      · subst hk
        simp [hget, hguard, (get?_eq_some.mp hget).2]
      · rw [if_neg hk]
        cases hget' : t.get? k' with
        | none => rfl
        | some b => simp [(get?_eq_some.mp hget').2, hk]

/-- `INSERT`: nothing when the key is taken. -/
def insert? (t : Keyed key) (a : α) : Option (Keyed key) :=
  if h : key a ∈ t.rows.map key then none
  else some ⟨t.rows ++ [a], by simpa [List.nodup_append] using ⟨t.nodup, by simpa [eq_comm] using h⟩⟩

theorem rows_insert? {a : α} (h : t.insert? a = some t') : t'.rows = t.rows ++ [a] := by
  unfold insert? at h
  split at h
  · cases h
  · cases h; rfl

theorem insert?_eq_none {a : α} : t.insert? a = none ↔ ∃ b ∈ t.rows, key b = key a := by
  simp [insert?, eq_comm]

/-- What is inserted has a key that was not taken. -/
theorem fresh_of_insert? {a : α} (h : t.insert? a = some t') : ∀ b ∈ t.rows, key b ≠ key a := by
  intro b hb hk
  rw [insert?_eq_none.mpr ⟨b, hb, hk⟩] at h
  cases h

/-- A row whose key is not taken can be inserted. -/
theorem exists_insert? {a : α} (h : ∀ b ∈ t.rows, key b ≠ key a) : ∃ t', t.insert? a = some t' := by
  refine Option.ne_none_iff_exists'.mp fun hnone => ?_
  obtain ⟨b, hb, hk⟩ := insert?_eq_none.mp hnone
  exact h b hb hk

/-- An insertion leaves what was there. -/
theorem get?_insert? {a : α} (h : t.insert? a = some t') (hb : t.get? k = some b) : t'.get? k = some b := by
  obtain ⟨hmem, rfl⟩ := get?_eq_some.mp hb
  exact get?_key (by rw [rows_insert? h]; exact List.mem_append_left _ hmem)

/-- An insertion changes no other key. -/
theorem get?_insert?_ne {a : α} (h : t.insert? a = some t') (hk : k ≠ key a) : t'.get? k = t.get? k := by
  simp [get?, rows_insert? h, List.find?_append, Ne.symm hk]

/-- A row that a deletion spares is still there. -/
theorem get?_delete {a : α} (h : t.get? k = some a) (hp : p a = false) : (t.delete p).get? k = some a := by
  obtain ⟨hmem, rfl⟩ := get?_eq_some.mp h
  exact get?_key (by simp [hmem, hp])

/-- `INSERT … ON CONFLICT DO UPDATE`: the row is added, or else that with its key is updated. -/
def insertOnConflict (t : Keyed key) (a : α) (set : α → α) (hset : ∀ b, key (set b) = key b) : Keyed key :=
  match t.insert? a with
  | some t' => t'
  | none => t.update (fun b => key b = key a) set hset

theorem get?_insertOnConflict {a : α} {set : α → α} (hset : ∀ b, key (set b) = key b) (k : κ) :
    (t.insertOnConflict a set hset).get? k = if k = key a then some ((t.get? k).elim a set) else t.get? k := by
  unfold insertOnConflict
  cases hinsert : t.insert? a with
  | some t' =>
    by_cases hk : k = key a
    · subst hk
      have hnone : t.get? (key a) = none := get?_eq_none.mpr (fresh_of_insert? hinsert)
      rw [if_pos rfl, hnone, Option.elim_none]
      exact get?_key (by rw [rows_insert? hinsert]; exact List.mem_append_right _ List.mem_cons_self)
    · rw [if_neg hk]
      exact get?_insert?_ne hinsert hk
  | none =>
    rw [get?_update hset]
    cases hget : t.get? k with
    | none =>
      by_cases hk : k = key a
      · subst hk
        obtain ⟨b, hb, hkey⟩ := insert?_eq_none.mp hinsert
        exact absurd hkey (get?_eq_none.mp hget b hb)
      · rw [if_neg hk]
        rfl
    | some b =>
      obtain ⟨-, rfl⟩ := get?_eq_some.mp hget
      by_cases hk : key b = key a
      · simp [hk]
      · simp [hk]

/-- A deletion takes the row of a key, or leaves it. -/
theorem get?_delete_eq (k : κ) : (t.delete p).get? k = (t.get? k).filter fun a => !p a := by
  cases hget : t.get? k with
  | none =>
    rw [Option.filter_none, get?_eq_none]
    exact fun a ha => get?_eq_none.mp hget a (List.mem_of_mem_filter ha)
  | some a =>
    obtain ⟨hmem, rfl⟩ := get?_eq_some.mp hget
    by_cases hp : p a = true
    · rw [Option.filter_some, if_neg (by simp [hp]), get?_eq_none]
      intro b hb hkey
      obtain ⟨hbmem, hbp⟩ := List.mem_filter.mp hb
      obtain rfl := eq_of_key hbmem hmem hkey
      rw [hp] at hbp
      cases hbp
    · have hspared : p a = false := Bool.eq_false_iff.mpr hp
      rw [get?_delete hget hspared, Option.filter_some, if_pos (by rw [hspared]; rfl)]

end Lookup

end Keyed

/-! ### Foreign keys -/

/-- Every row that names a parent has one. -/
def References {α : Type u} {κ : Type v} {β : Type*} {ι : Type*} {key : α → κ} {key' : β → ι} (child : Keyed key')
    (ref : β → Option κ) (parent : Keyed key) : Prop :=
  ∀ b ∈ child.rows, ∀ k ∈ ref b, ∃ a ∈ parent.rows, key a = k

namespace References

variable {α : Type u} {κ : Type v} {β : Type*} {ι : Type*} {key : α → κ} {key' : β → ι}
variable {child : Keyed key'} {ref : β → Option κ} {parent : Keyed key}

theorem delete_child (h : References child ref parent) (p : β → Bool) : References (child.delete p) ref parent :=
  fun b hb => h b (List.mem_filter.mp hb).1

/-- An update of the rows that name a parent may take the name away. -/
theorem update_child (h : References child ref parent) {p : β → Bool} {set : β → β} (hset : ∀ b, key' (set b) = key' b)
    (href : ∀ b, ref (set b) = none ∨ ref (set b) = ref b) : References (child.update p set hset) ref parent := by
  rintro _ hmem k hk
  obtain ⟨b, hb, rfl⟩ := (Keyed.mem_update hset).mp hmem
  split at hk
  · rcases href b with hnone | hsame
    · rw [hnone] at hk
      cases hk
    · rw [hsame] at hk
      exact h b hb k hk
  · exact h b hb k hk

theorem update_parent (h : References child ref parent) {set : α → α} (hset : ∀ a, key (set a) = key a) :
    References child ref (parent.update p set hset) := by
  intro b hb k hk
  obtain ⟨a, ha, hkey⟩ := h b hb k hk
  refine ⟨_, (Keyed.mem_update hset).mpr ⟨a, ha, rfl⟩, ?_⟩
  split
  · rw [hset, hkey]
  · exact hkey

/-- **A parent may go** when no row names it. -/
theorem delete_parent (h : References child ref parent)
    (hp : ∀ b ∈ child.rows, ∀ a ∈ parent.rows, ref b = some (key a) → p a = false) :
    References child ref (parent.delete p) := by
  intro b hb k hk
  obtain ⟨a, ha, rfl⟩ := h b hb k hk
  exact ⟨a, List.mem_filter.mpr ⟨ha, by rw [hp b hb a ha hk]; rfl⟩, rfl⟩

end References

/-! ### Partial unique indexes -/

universe w

/-- A table with a partial unique index: rows without an entry are outside of the index. -/
structure Indexed {α : Type u} {κ : Type v} {ι : Type w} (key : α → κ) (entry : α → Option ι) where
  rows : Keyed key
  unique : (rows.rows.filterMap entry).Nodup

namespace Indexed

variable {α : Type u} {κ : Type v} {ι : Type w} {key : α → κ} {entry : α → Option ι}

/-- The table without rows. -/
def empty : Indexed key entry := ⟨.empty, .nil⟩

/-- The row under a key. -/
def get? [DecidableEq κ] (t : Indexed key entry) (k : κ) : Option α := t.rows.get? k

/-- An update that takes rows out of the index and leaves the other entries: it always commits. -/
def retire (t : Indexed key entry) (p : α → Bool) (set : α → α) (hset : ∀ a, key (set a) = key a)
    (hentry : ∀ a, entry (set a) = none ∨ entry (set a) = entry a) : Indexed key entry where
  rows := t.rows.update p set hset
  unique := t.unique.sublist (Keyed.filterMap_update_sublist hentry)

/-- A deletion always commits. -/
def delete (t : Indexed key entry) (p : α → Bool) : Indexed key entry :=
  ⟨t.rows.delete p, t.unique.sublist (List.filter_sublist.filterMap entry)⟩

section Commit

variable [DecidableEq ι]

/-- A commit of the rows: nothing when the index refuses them. -/
def commit? (rows : Keyed key) : Option (Indexed key entry) :=
  if h : (rows.rows.filterMap entry).Nodup then some ⟨rows, h⟩ else none

theorem rows_commit? {rows : Keyed key} {t : Indexed key entry} (h : commit? rows = some t) : t.rows = rows := by
  unfold commit? at h
  split at h
  · cases h; rfl
  · cases h

theorem commit?_eq_none {rows : Keyed key} :
    (commit? rows : Option (Indexed key entry)) = none ↔ ¬ (rows.rows.filterMap entry).Nodup := by
  unfold commit?
  split
  next h => simpa using h
  next h => simpa using h

end Commit

/-- No two rows share an entry. -/
theorem eq_of_entry [DecidableEq κ] {t : Indexed key entry} {a : α} {e : ι} (ha : a ∈ t.rows.rows)
    (hb : b ∈ t.rows.rows) (hea : entry a = some e) (heb : entry b = some e) : a = b := by
  by_cases hk : key b = key a
  · exact t.rows.eq_of_key ha hb hk.symm
  · have hn := ((Keyed.rows_perm (Keyed.get?_key ha)).filterMap entry).nodup_iff.mpr t.unique
    rw [List.filterMap_cons_some hea, List.nodup_cons] at hn
    refine absurd (List.mem_filterMap.mpr ⟨b, ?_, heb⟩) hn.1
    simpa [hk] using hb

/-- **The index after a change of one row**: it admits the change when no other row has the entry that
the row gets. -/
theorem nodup_update_iff [DecidableEq κ] {t : Indexed key entry} {a : α} {set : α → α}
    {hset : ∀ b, key (set b) = key b} (h : t.get? k = some a) :
    ((t.rows.update (fun b => key b = k) set hset).rows.filterMap entry).Nodup ↔
      ∀ e, entry (set a) = some e → ∀ b ∈ t.rows.rows, key b ≠ k → entry b ≠ some e := by
  have hrest : ((t.rows.delete fun b => key b = k).rows.filterMap entry).Nodup :=
    t.unique.sublist (List.filter_sublist.filterMap _)
  rw [(Keyed.filterMap_update_perm entry h).nodup_iff]
  cases hentry : entry (set a) with
  | none => simpa using hrest
  | some e =>
    rw [Option.toList_some, List.singleton_append, List.nodup_cons, and_iff_left hrest]
    constructor
    · rintro hn _ ⟨⟩ b hb hk he
      refine hn (List.mem_filterMap.mpr ⟨b, ?_, he⟩)
      simpa [hk] using hb
    · intro hn hmem
      obtain ⟨b, hb, he⟩ := List.mem_filterMap.mp hmem
      rw [Keyed.rows_delete, List.mem_filter] at hb
      exact hn e rfl b hb.1 (by simpa using hb.2) he

/-- **The index after an insertion**: it admits the row when no other row has its entry. -/
theorem nodup_insert_iff [DecidableEq κ] {t : Indexed key entry} {rows : Keyed key} {a : α} (h : t.rows.insert? a = some rows) :
    (rows.rows.filterMap entry).Nodup ↔ ∀ e, entry a = some e → ∀ b ∈ t.rows.rows, entry b ≠ some e := by
  rw [Keyed.rows_insert? h, List.filterMap_append]
  cases hentry : entry a with
  | none => simpa [hentry] using t.unique
  | some e =>
    rw [List.filterMap_cons_some hentry, List.filterMap_nil, List.nodup_append]
    constructor
    · rintro ⟨-, -, hne⟩ _ ⟨⟩ b hb he
      exact hne e (List.mem_filterMap.mpr ⟨b, hb, he⟩) e (List.mem_singleton_self e) rfl
    · refine fun hnone => ⟨t.unique, List.nodup_singleton e, fun e₁ he₁ e₂ he₂ heq => ?_⟩
      obtain ⟨b, hb, he⟩ := List.mem_filterMap.mp he₁
      exact hnone e rfl b hb (he.trans (congrArg some (heq.trans (List.mem_singleton.mp he₂))))

end Indexed

end Sreda.Lib
