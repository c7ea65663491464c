import Mathlib.Data.List.Nodup

/-!
# Buckets

A dict from keys to lists: its keys are fixed first, and then values are appended one by one to the
list of a key.

## What is proved

* appending to a key that is not there changes nothing (`append_of_not_mem`);
* after any run of appends every list holds, behind what it held, the values of its key in order
  (`appendAll_eq`).
-/

namespace Sreda.Lib

universe u v

variable {κ : Type u} {α : Type v} [DecidableEq κ]

/-- A dict from keys to lists. -/
abbrev Buckets (κ : Type u) (α : Type v) := List (κ × List α)

namespace Buckets

/-- `buckets[key].append(a)`. -/
def append (buckets : Buckets κ α) (key : κ) (a : α) : Buckets κ α :=
  buckets.map fun bucket => if bucket.1 = key then (bucket.1, bucket.2 ++ [a]) else bucket

/-- Every value is appended to the list of its key. -/
def appendAll (buckets : Buckets κ α) (items : List (κ × α)) : Buckets κ α :=
  items.foldl (fun buckets item => buckets.append item.1 item.2) buckets

/-- The values of a key. -/
def valuesAt (items : List (κ × α)) (key : κ) : List α := (items.filter fun item => item.1 = key).map Prod.snd

/-- A dict of empty lists. -/
def skeleton (keys : List κ) : Buckets κ α := keys.map fun key => (key, [])

theorem append_of_not_mem {buckets : Buckets κ α} {key : κ} (h : key ∉ buckets.map Prod.fst) (a : α) :
    buckets.append key a = buckets := by
  rw [append]
  conv_rhs => rw [← List.map_id buckets]
  refine List.map_congr_left fun bucket hbucket => ?_
  have hne : bucket.1 ≠ key := fun heq => h (heq ▸ List.mem_map_of_mem hbucket)
  rw [if_neg hne, id_eq]

theorem valuesAt_cons (item : κ × α) (items : List (κ × α)) (key : κ) :
    valuesAt (item :: items) key = (if item.1 = key then [item.2] else []) ++ valuesAt items key := by
  by_cases h : item.1 = key
  · simp [valuesAt, h]
  · simp [valuesAt, h]

theorem valuesAt_append (items items' : List (κ × α)) (key : κ) :
    valuesAt (items ++ items') key = valuesAt items key ++ valuesAt items' key := by
  rw [valuesAt, List.filter_append, List.map_append]
  rfl

theorem valuesAt_flatMap {β : Type*} (f : β → List (κ × α)) (l : List β) (key : κ) :
    valuesAt (l.flatMap f) key = l.flatMap fun b => valuesAt (f b) key := by
  induction l with
  | nil => rfl
  | cons b l ih => rw [List.flatMap_cons, List.flatMap_cons, valuesAt_append, ih]

theorem nodup_valuesAt {items : List (κ × α)} (h : items.Nodup) (key : κ) : (valuesAt items key).Nodup := by
  refine (h.filter _).map_on ?_
  rintro ⟨k, a⟩ ha ⟨k', a'⟩ ha' rfl
  obtain ⟨rfl, rfl⟩ : k = key ∧ k' = key := by
    simp only [List.mem_filter, decide_eq_true_eq] at ha ha'
    exact ⟨ha.2, ha'.2⟩
  rfl

theorem mem_valuesAt {items : List (κ × α)} {key : κ} {a : α} : a ∈ valuesAt items key ↔ (key, a) ∈ items := by
  simp only [valuesAt, List.mem_map, List.mem_filter, decide_eq_true_eq]
  constructor
  · rintro ⟨⟨k, b⟩, ⟨hmem, rfl⟩, rfl⟩
    exact hmem
  · intro h
    exact ⟨(key, a), ⟨h, rfl⟩, rfl⟩

/-- Every list ends with the values of its key, in order. -/
theorem appendAll_eq (items : List (κ × α)) : ∀ buckets : Buckets κ α,
    buckets.appendAll items = buckets.map fun bucket => (bucket.1, bucket.2 ++ valuesAt items bucket.1) := by
  induction items with
  | nil =>
    intro buckets
    simp [appendAll, valuesAt]
  | cons item items ih =>
    intro buckets
    rw [appendAll, List.foldl_cons, ← appendAll, ih, append, List.map_map]
    refine List.map_congr_left fun bucket _ => ?_
    rw [Function.comp_apply, valuesAt_cons]
    by_cases h : bucket.1 = item.1
    · simp [h]
    · simp [h, Ne.symm h]

theorem appendAll_append (buckets : Buckets κ α) (items items' : List (κ × α)) :
    buckets.appendAll (items ++ items') = (buckets.appendAll items).appendAll items' := List.foldl_append

theorem appendAll_skeleton (keys : List κ) (items : List (κ × α)) :
    (skeleton keys).appendAll items = keys.map fun key => (key, valuesAt items key) := by
  rw [appendAll_eq, skeleton, List.map_map]
  exact List.map_congr_left fun _ _ => by simp

end Buckets

end Sreda.Lib
