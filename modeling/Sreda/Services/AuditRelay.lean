import Mathlib.Data.List.Perm.Subperm
import Sreda.Services.AuditFeed

/-!
# Relays until one moves nothing

`relay_outbox` takes the oldest rows of the outbox, as many as fit into a batch. A row in
conflict with the feed stays where it is, so it is taken again by the next relay. When the
oldest rows are all in conflict, the rows behind them are never moved.

## What is proved

* what a relay on a batch does (`relay_effect`);
* relays that go on until one moves nothing leave only rows in conflict exactly if before each
  other row there are fewer rows in conflict than fit into a batch (`relayed_iff`).
-/

namespace Sreda.Services

open Sreda.Lib

universe u

variable {J : Type u}

/-! ### Relays until one moves nothing -/

/-- The feed has other content under the operation id of the row. -/
def inConflict (hash : J → String) (feed : Keyed (AuditEvent.operationId (J := J))) (row : AuditOutboxEvent J) : Bool :=
  (feed.get? row.operationId).any fun e => effectiveHash hash e ≠ effectiveHash hash row.event

/-- The same row, but for its attempts. -/
structure AuditOutboxEvent.Same (r r' : AuditOutboxEvent J) : Prop where
  id : r'.id = r.id
  event : r'.event = r.event
  enqueuedAt : r'.enqueuedAt = r.enqueuedAt

theorem AuditOutboxEvent.Same.refl (r : AuditOutboxEvent J) : r.Same r := ⟨rfl, rfl, rfl⟩

theorem AuditOutboxEvent.Same.trans {a b c : AuditOutboxEvent J} (h : a.Same b) (h' : b.Same c) : a.Same c :=
  ⟨h'.id.trans h.id, h'.event.trans h.event, h'.enqueuedAt.trans h.enqueuedAt⟩

theorem AuditOutboxEvent.Same.operationId {a b : AuditOutboxEvent J} (h : a.Same b) : b.operationId = a.operationId :=
  congrArg AuditEvent.operationId h.event

variable {hash : J → String} {r r' : AuditOutboxEvent J} {db db' : AuditDb J} {batch : List (AuditOutboxEvent J)}
variable {batchSize : ℕ}

theorem inConflict_congr {feed feed' : Keyed (AuditEvent.operationId (J := J))}
    (h : r.Same r') (hfeed : feed'.get? r.operationId = feed.get? r.operationId) :
    inConflict hash feed' r' = inConflict hash feed r := by
  simp only [inConflict, h.operationId, hfeed, h.event]

/-- What a relay on a batch does: the rows of the batch are gone but those in conflict. -/
structure RelayEffect (hash : J → String) (db : AuditDb J) (batch : List (AuditOutboxEvent J)) (db' : AuditDb J) :
    Prop where
  left : ∀ r' ∈ db'.outbox.rows, ∃ r ∈ db.outbox.rows, r.Same r' ∧ (r ∈ batch → inConflict hash db.feed r = true)
  kept : ∀ r ∈ db.outbox.rows, (r ∈ batch → inConflict hash db.feed r = true) → ∃ r' ∈ db'.outbox.rows, r.Same r'
  untouched : ∀ r ∈ db.outbox.rows, r ∉ batch → r ∈ db'.outbox.rows
  feed : ∀ r ∈ db.outbox.rows, (r ∈ batch → inConflict hash db.feed r = true) →
    db'.feed.get? r.operationId = db.feed.get? r.operationId

theorem row_id_inj (hr : r ∈ db.outbox.rows) (hr' : r' ∈ db.outbox.rows)
    (h : r.id = r'.id) : r = r' := List.inj_on_of_nodup_map db.id_nodup hr hr' h

theorem applyFate_effect (hash : J → String) (now : ℤ) {w : AuditOutboxEvent J} (hw : w ∈ db.outbox.rows) :
    ∃ db', applyFate now db (w, rowFate hash db.feed w) = some db' ∧ RelayEffect hash db [w] db' := by
  have hdeleted : ∀ {db' : AuditDb J}, db'.outbox.rows = db.outbox.rows.filter (fun r => !decide (r.id = w.id)) →
      inConflict hash db.feed w = false → (∀ r ∈ db.outbox.rows, r ≠ w →
        db'.feed.get? r.operationId = db.feed.get? r.operationId) → RelayEffect hash db [w] db' := by
    intro db' hrows hconf hfeed
    have hne : ∀ {r}, (r ∈ [w] → inConflict hash db.feed r = true) → r ≠ w := by
      rintro r hr rfl
      simp [hconf] at hr
    have hmem : ∀ r ∈ db.outbox.rows, r ≠ w → r ∈ db'.outbox.rows := by
      intro r hr hrw
      rw [hrows, List.mem_filter]
      exact ⟨hr, by simpa using fun hid => hrw (row_id_inj hr hw hid)⟩
    refine ⟨fun r' hr' => ?_, fun r hr h => ⟨r, hmem r hr (hne h), .refl r⟩,
      fun r hr h => hmem r hr (by simpa using h), fun r hr h => hfeed r hr (hne h)⟩
    rw [hrows, List.mem_filter] at hr'
    refine ⟨r', hr'.1, .refl r', fun hmem => ?_⟩
    obtain rfl := List.mem_singleton.mp hmem
    simp at hr'
  cases hget : db.feed.get? w.operationId with
  | none =>
    have hconf : inConflict hash db.feed w = false := by simp [inConflict, hget]
    cases hinsert : db.feed.insert? w.event with
    | none =>
      obtain ⟨e, he, hkey⟩ := Keyed.insert?_eq_none.mp hinsert
      exact absurd hkey (Keyed.get?_eq_none.mp hget e he)
    | some feed =>
      refine ⟨{ db with feed := feed }.deleteRow w.id, by simp [applyFate, rowFate, hget, hinsert],
        hdeleted rfl hconf fun r hr hrw => ?_⟩
      have hkey : r.operationId ≠ w.operationId := fun hkey => hrw (db.outbox.eq_of_key hr hw hkey)
      exact Keyed.get?_insert?_ne hinsert hkey
  | some e =>
    by_cases hhash : effectiveHash hash e = effectiveHash hash w.event
    · have hconf : inConflict hash db.feed w = false := by simp [inConflict, hget, hhash]
      exact ⟨db.deleteRow w.id, by simp [applyFate, rowFate, hget, hhash], hdeleted rfl hconf fun _ _ _ => rfl⟩
    · have hconf : inConflict hash db.feed w = true := by simp [inConflict, hget, hhash]
      obtain ⟨db', hmark, hfeed, hrows⟩ := markAttempt?_of_mem hw now
        (mismatchText (effectiveHash hash e) (effectiveHash hash w.event))
      refine ⟨db', by simpa [applyFate, rowFate, hget, hhash] using hmark, fun r' hr' => ?_, fun r hr _ => ?_,
        fun r hr hne => ?_, fun r _ _ => by rw [hfeed]⟩
      · rw [hrows] at hr'
        obtain ⟨r, hr, rfl⟩ := List.mem_map.mp hr'
        refine ⟨r, hr, ?_, fun hmem => by rwa [List.mem_singleton.mp hmem]⟩
        split
        · exact ⟨rfl, rfl, rfl⟩
        · exact .refl r
      · refine ⟨_, by rw [hrows]; exact List.mem_map_of_mem hr, ?_⟩
        split
        · exact ⟨rfl, rfl, rfl⟩
        · exact .refl r
      · rw [hrows]
        have hid : r.id ≠ w.id := fun hid => hne (by simp [row_id_inj hr hw hid])
        exact List.mem_map.mpr ⟨r, hr, by rw [if_neg hid]⟩

/-- **What a relay on a batch does.** -/
theorem relay_effect (hash : J → String) (now : ℤ) (hsub : ∀ w ∈ batch, w ∈ db.outbox.rows) (hnodup : batch.Nodup)
    (fate : AuditOutboxEvent J → RowFate) (hfate : ∀ w ∈ batch, fate w = rowFate hash db.feed w) :
    ∃ db', applyFates now db (batch.map fun w => (w, fate w)) = some db' ∧ RelayEffect hash db batch db' := by
  induction batch generalizing db with
  | nil =>
    exact ⟨db, rfl, fun r hr => ⟨r, hr, .refl r, by simp⟩, fun r hr _ => ⟨r, hr, .refl r⟩, fun r hr _ => hr, fun _ _ _ => rfl⟩
  | cons w batch ih =>
    obtain ⟨hw, hnodup⟩ := List.nodup_cons.mp hnodup
    obtain ⟨db₁, happly₁, h₁⟩ := applyFate_effect hash now (hsub w (by simp))
    have hne : ∀ {r}, r ∈ batch → r ∉ [w] := by
      intro r hr hrw
      exact hw (List.mem_singleton.mp hrw ▸ hr)
    have hfeed₁ : ∀ r ∈ batch, db₁.feed.get? r.operationId = db.feed.get? r.operationId :=
      fun r hr => h₁.feed r (hsub r (by simp [hr])) fun hrw => absurd hrw (hne hr)
    have hconf₁ : ∀ r ∈ batch, inConflict hash db₁.feed r = inConflict hash db.feed r :=
      fun r hr => inConflict_congr (.refl r) (hfeed₁ r hr)
    obtain ⟨db₂, happly₂, h₂⟩ := ih (fun r hr => h₁.untouched r (hsub r (by simp [hr])) (hne hr)) hnodup
      fun r hr => by rw [hfate r (by simp [hr]), rowFate, rowFate, hfeed₁ r hr]
    have hlater : ∀ {r}, r ∈ db.outbox.rows → (r ∈ w :: batch → inConflict hash db.feed r = true) →
        ∃ r₁ ∈ db₁.outbox.rows, r.Same r₁ ∧ (r₁ ∈ batch → inConflict hash db₁.feed r₁ = true) := by
      intro r hr h
      obtain ⟨r₁, hr₁, hsame⟩ := h₁.kept r hr fun hrw => h (by simp [List.mem_singleton.mp hrw])
      refine ⟨r₁, hr₁, hsame, fun hmem => ?_⟩
      obtain rfl : r₁ = r := row_id_inj (hsub r₁ (by simp [hmem])) hr hsame.id
      rw [hconf₁ r₁ hmem]
      exact h (by simp [hmem])
    refine ⟨db₂, ?_, fun r' hr' => ?_, fun r hr h => ?_, fun r hr h => ?_, fun r hr h => ?_⟩
    · simp only [applyFates, List.map_cons, List.foldlM_cons, hfate w (by simp), happly₁, Option.bind_eq_bind, Option.bind_some]
      exact happly₂
    · obtain ⟨r₁, hr₁, hsame₁, hbatch₁⟩ := h₂.left r' hr'
      obtain ⟨r, hr, hsame, hbatch⟩ := h₁.left r₁ hr₁
      refine ⟨r, hr, hsame.trans hsame₁, fun hmem => ?_⟩
      rcases List.mem_cons.mp hmem with rfl | hmem
      · exact hbatch (by simp)
      · obtain rfl : r = r₁ := row_id_inj (h₁.untouched r hr (hne hmem)) hr₁ hsame.id.symm
        rw [← hconf₁ r hmem]
        exact hbatch₁ hmem
    · obtain ⟨r₁, hr₁, hsame, hlater⟩ := hlater hr h
      obtain ⟨r', hr', hsame'⟩ := h₂.kept r₁ hr₁ hlater
      exact ⟨r', hr', hsame.trans hsame'⟩
    · rw [List.mem_cons, not_or] at h
      exact h₂.untouched r (h₁.untouched r hr (by simp [h.1])) h.2
    · obtain ⟨r₁, hr₁, hsame, hlater⟩ := hlater hr h
      have hfirst := h₁.feed r hr fun hrw => h (by simp [List.mem_singleton.mp hrw])
      have hrest := h₂.feed r₁ hr₁ hlater
      rw [hsame.operationId] at hrest
      rw [hrest, hfirst]

/-! ### The count of rows in conflict -/

/-- The rows in conflict that are not newer than a time, by their ids. -/
def stuckIds (hash : J → String) (db : AuditDb J) (time : ℤ) : List ℕ :=
  (db.outbox.rows.filter fun r => inConflict hash db.feed r && decide (r.enqueuedAt ≤ time)).map (·.id)

theorem mem_stuckIds {time : ℤ} {id : ℕ} : id ∈ stuckIds hash db time ↔
      ∃ r ∈ db.outbox.rows, inConflict hash db.feed r = true ∧ r.enqueuedAt ≤ time ∧ r.id = id := by
  simp [stuckIds, and_assoc]

theorem nodup_stuckIds (hash : J → String) (db : AuditDb J) (time : ℤ) : (stuckIds hash db time).Nodup :=
  db.id_nodup.sublist (List.filter_sublist.map _)

theorem RelayEffect.inConflict_eq (h : RelayEffect hash db batch db') (hr : r ∈ db.outbox.rows) (hsame : r.Same r')
    (hbatch : r ∈ batch → inConflict hash db.feed r = true) :
    inConflict hash db'.feed r' = inConflict hash db.feed r := inConflict_congr hsame (h.feed r hr hbatch)

theorem RelayEffect.mem_stuckIds (h : RelayEffect hash db batch db') (time : ℤ) (id : ℕ) :
    id ∈ stuckIds hash db' time ↔ id ∈ stuckIds hash db time := by
  rw [Services.mem_stuckIds, Services.mem_stuckIds]
  constructor
  · rintro ⟨r', hr', hconf, htime, rfl⟩
    obtain ⟨r, hr, hsame, hbatch⟩ := h.left r' hr'
    rw [h.inConflict_eq hr hsame hbatch] at hconf
    exact ⟨r, hr, hconf, hsame.enqueuedAt ▸ htime, hsame.id.symm⟩
  · rintro ⟨r, hr, hconf, htime, rfl⟩
    obtain ⟨r', hr', hsame⟩ := h.kept r hr fun _ => hconf
    exact ⟨r', hr', (h.inConflict_eq hr hsame fun _ => hconf).trans hconf, hsame.enqueuedAt ▸ htime, hsame.id⟩

theorem RelayEffect.length_stuckIds (h : RelayEffect hash db batch db') (time : ℤ) :
    (stuckIds hash db' time).length = (stuckIds hash db time).length :=
  ((List.perm_ext_iff_of_nodup (nodup_stuckIds _ _ _) (nodup_stuckIds _ _ _)).mpr (h.mem_stuckIds time)).length_eq

/-! ### Batches -/

/-- The first rows in an order by time are a batch. -/
theorem isBatch_sorted (outbox : Keyed (AuditOutboxEvent.operationId (J := J))) (batchSize : ℕ)
    (le : AuditOutboxEvent J → AuditOutboxEvent J → Bool) (htrans : ∀ a b c, le a b = true → le b c = true → le a c = true)
    (htotal : ∀ a b, (le a b || le b a) = true) (htime : ∀ a b, le a b = true → a.enqueuedAt ≤ b.enqueuedAt) :
    IsBatch outbox batchSize ((outbox.rows.mergeSort le).take batchSize) ∧
      ∀ m ∈ (outbox.rows.mergeSort le).take batchSize, ∀ c ∈ outbox.rows,
        c ∉ (outbox.rows.mergeSort le).take batchSize → le m c = true := by
  have hsorted := List.pairwise_mergeSort htrans htotal outbox.rows
  have hcross : ∀ m ∈ (outbox.rows.mergeSort le).take batchSize, ∀ c ∈ outbox.rows,
      c ∉ (outbox.rows.mergeSort le).take batchSize → le m c = true := by
    intro m hm c hc hnot
    have hc : c ∈ outbox.rows.mergeSort le := List.mem_mergeSort.mpr hc
    rw [← List.take_append_drop batchSize (outbox.rows.mergeSort le)] at hc hsorted
    exact (List.pairwise_append.mp hsorted).2.2 m hm c ((List.mem_append.mp hc).resolve_left hnot)
  refine ⟨⟨?_, fun row hrow => ?_, ?_, ?_, fun row hrow hnot b hb => htime b row (hcross b hb row hrow hnot)⟩, hcross⟩
  · exact ((List.mergeSort_perm _ le).nodup_iff.mpr outbox.nodup.of_map).sublist (List.take_sublist ..)
  · exact List.mem_mergeSort.mp (List.mem_of_mem_take hrow)
  · rw [List.length_take, List.length_mergeSort]
  · exact (hsorted.sublist (List.take_sublist ..)).imp fun h => htime _ _ h

/-- The order in which the database may return the rows: by time, and of one time the rows in
conflict first. -/
def conflictsFirst (hash : J → String) (feed : Keyed (AuditEvent.operationId (J := J))) (a b : AuditOutboxEvent J) :
    Bool :=
  decide (a.enqueuedAt < b.enqueuedAt) ||
    (decide (a.enqueuedAt = b.enqueuedAt) && (inConflict hash feed a || !inConflict hash feed b))

/-- **A batch that misses a row**, when there are enough rows in conflict that are not newer. -/
theorem exists_batch_without {m : AuditOutboxEvent J} (hfree : inConflict hash db.feed m = false)
    (hmany : batchSize ≤ (stuckIds hash db m.enqueuedAt).length) :
    ∃ batch, IsBatch db.outbox batchSize batch ∧ m ∉ batch := by
  have htrans : ∀ a b c, conflictsFirst hash db.feed a b = true → conflictsFirst hash db.feed b c = true →
      conflictsFirst hash db.feed a c = true := by
    intro a b c
    cases ha : inConflict hash db.feed a <;> cases hb : inConflict hash db.feed b <;>
      cases hc : inConflict hash db.feed c <;> simp [conflictsFirst, ha, hb, hc] <;> omega
  have htotal : ∀ a b, (conflictsFirst hash db.feed a b || conflictsFirst hash db.feed b a) = true := by
    intro a b
    cases ha : inConflict hash db.feed a <;> cases hb : inConflict hash db.feed b <;>
      simp [conflictsFirst, ha, hb] <;> omega
  have htime : ∀ a b, conflictsFirst hash db.feed a b = true → a.enqueuedAt ≤ b.enqueuedAt := by
    intro a b
    simp only [conflictsFirst, Bool.or_eq_true, Bool.and_eq_true, decide_eq_true_eq]
    omega
  obtain ⟨hbatch, hcross⟩ := isBatch_sorted db.outbox batchSize _ htrans htotal htime
  refine ⟨_, hbatch, fun hm => ?_⟩
  -- all those rows in conflict would have to be in the batch too, and it is too short
  have hsub : m.id :: stuckIds hash db m.enqueuedAt ⊆
      ((db.outbox.rows.mergeSort (conflictsFirst hash db.feed)).take batchSize).map (·.id) := by
    intro id hid
    rcases List.mem_cons.mp hid with rfl | hid
    · exact List.mem_map_of_mem hm
    · obtain ⟨c, hc, hconf, hle, rfl⟩ := mem_stuckIds.mp hid
      refine List.mem_map_of_mem ?_
      by_contra hnot
      have := hcross m hm c hc hnot
      simp only [conflictsFirst, Bool.or_eq_true, Bool.and_eq_true, decide_eq_true_eq, hfree, hconf,
        Bool.not_true, Bool.or_self, Bool.false_eq_true, and_false, or_false] at this
      omega
  have hnodup : (m.id :: stuckIds hash db m.enqueuedAt).Nodup := by
    refine List.nodup_cons.mpr ⟨fun hmem => ?_, nodup_stuckIds _ _ _⟩
    obtain ⟨c, hc, hconf, -, hid⟩ := mem_stuckIds.mp hmem
    rw [row_id_inj hc (hbatch.subset m hm) hid, hfree] at hconf
    cases hconf
  have hlen := (List.subperm_of_subset hnodup hsub).length_le
  have htake : ((db.outbox.rows.mergeSort (conflictsFirst hash db.feed)).take batchSize).length ≤ batchSize :=
    List.length_take_le ..
  rw [List.length_map, List.length_cons] at hlen
  omega

/-! ### Relays in a row -/

/-- A relay, on a batch and at a time of which nothing is known. -/
def RelayCall (hash : J → String) (batchSize : ℕ) (db : AuditDb J) (moved : ℕ) (db' : AuditDb J) : Prop :=
  ∃ batch now, IsBatch db.outbox batchSize batch ∧ relayOutbox hash now db batch = some (db', moved)

/-- Relays until one moves nothing. -/
inductive Drain (hash : J → String) (batchSize : ℕ) : AuditDb J → AuditDb J → Prop where
  | stop {db db' : AuditDb J} (h : RelayCall hash batchSize db 0 db') : Drain hash batchSize db db'
  | more {db db₁ db' : AuditDb J} {moved : ℕ} (h : RelayCall hash batchSize db (moved + 1) db₁)
      (hrest : Drain hash batchSize db₁ db') : Drain hash batchSize db db'

theorem relayed_rowFate (hash : J → String) (feed : Keyed (AuditEvent.operationId (J := J)))
    (row : AuditOutboxEvent J) :
    (rowFate hash feed row).relayed = !inConflict hash feed row := by
  unfold rowFate inConflict
  cases feed.get? row.operationId with
  | none => rfl
  | some e =>
    by_cases h : effectiveHash hash e = effectiveHash hash row.event
    · simp [h, RowFate.relayed]
    · simp [h, RowFate.relayed]

/-- **A relay returns**, and this is what it does and counts. -/
theorem relayOutbox_spec (hash : J → String) (now : ℤ) (h : IsBatch db.outbox batchSize batch) :
    ∃ db', relayOutbox hash now db batch = some (db', batch.countP fun w => !inConflict hash db.feed w) ∧
      RelayEffect hash db batch db' := by
  obtain ⟨db', happly, heffect⟩ := relay_effect hash now h.subset h.nodup (rowFate hash db.feed) fun _ _ => rfl
  refine ⟨db', ?_, heffect⟩
  rw [relayOutbox, happly, relayedCount, List.countP_map]
  simp only [Function.comp_def, relayed_rowFate, Option.map_some]

theorem RelayCall.effect {moved : ℕ} (h : RelayCall hash batchSize db moved db') :
    ∃ batch, IsBatch db.outbox batchSize batch ∧ RelayEffect hash db batch db' ∧
      moved = batch.countP fun w => !inConflict hash db.feed w := by
  obtain ⟨batch, now, hbatch, hrelay⟩ := h
  obtain ⟨db₁, hspec, heffect⟩ := relayOutbox_spec hash now hbatch
  rw [hspec, Option.some.injEq, Prod.mk.injEq] at hrelay
  obtain ⟨rfl, rfl⟩ := hrelay
  exact ⟨batch, hbatch, heffect, rfl⟩

/-- A row of the batch that is not in conflict is gone. -/
theorem RelayEffect.length_lt
    (h : RelayEffect hash db batch db') {w : AuditOutboxEvent J} (hrow : w ∈ db.outbox.rows) (hw : w ∈ batch)
    (hfree : inConflict hash db.feed w = false) : db'.outbox.rows.length < db.outbox.rows.length := by
  have hgone : w.id ∉ db'.outbox.rows.map (·.id) := by
    intro hmem
    obtain ⟨r', hr', hid⟩ := List.mem_map.mp hmem
    obtain ⟨r, hr, hsame, hin⟩ := h.left r' hr'
    obtain rfl : r = w := row_id_inj hr hrow (hsame.id.symm.trans hid)
    rw [hin hw] at hfree
    cases hfree
  have hsub : w.id :: db'.outbox.rows.map (·.id) ⊆ db.outbox.rows.map (·.id) := by
    intro id hid
    rcases List.mem_cons.mp hid with rfl | hid
    · exact List.mem_map_of_mem hrow
    · obtain ⟨r', hr', rfl⟩ := List.mem_map.mp hid
      obtain ⟨r, hr, hsame, -⟩ := h.left r' hr'
      exact hsame.id ▸ List.mem_map_of_mem hr
  have hlen := (List.subperm_of_subset (List.nodup_cons.mpr ⟨hgone, db'.id_nodup⟩) hsub).length_le
  rw [List.length_cons, List.length_map, List.length_map] at hlen
  omega

/-- Relays of which each keeps `Q` for some batch come to an end in `Q`. -/
theorem exists_drain (hash : J → String) (batchSize : ℕ) (Q : AuditDb J → Prop)
    (hQ : ∀ db, Q db → ∃ batch, IsBatch db.outbox batchSize batch ∧ ∀ db', RelayEffect hash db batch db' → Q db')
    (h : Q db) : ∃ db', Drain hash batchSize db db' ∧ Q db' := by
  induction hn : db.outbox.rows.length using Nat.strong_induction_on generalizing db with
  | _ n ih =>
    obtain ⟨batch, hbatch, hkeep⟩ := hQ db h
    obtain ⟨db₁, hrelay, heffect⟩ := relayOutbox_spec hash 0 hbatch
    cases hmoved : batch.countP fun w => !inConflict hash db.feed w with
    | zero => exact ⟨db₁, .stop ⟨batch, 0, hbatch, hmoved ▸ hrelay⟩, hkeep db₁ heffect⟩
    | succ moved =>
      have hless : db₁.outbox.rows.length < n := by
        have hpos : 0 < batch.countP fun w => !inConflict hash db.feed w := by omega
        obtain ⟨w, hw, hfree⟩ := List.countP_pos_iff.mp hpos
        exact hn ▸ heffect.length_lt (hbatch.subset w hw) hw (by simpa using hfree)
      obtain ⟨db', hdrain, hq⟩ := ih _ hless (hkeep db₁ heffect) rfl
      exact ⟨db', .more ⟨batch, 0, hbatch, hmoved ▸ hrelay⟩ hdrain, hq⟩

/-- Before each row that is not in conflict there are fewer rows in conflict than fit into a batch. -/
def Unblocked (hash : J → String) (batchSize : ℕ) (db : AuditDb J) : Prop :=
  ∀ m ∈ db.outbox.rows, inConflict hash db.feed m = false → (stuckIds hash db m.enqueuedAt).length < batchSize

/-- When nothing is before it that blocks it, every row that is not in conflict is moved. -/
theorem Drain.of_unblocked (h : Drain hash batchSize db db')
    (hfree : Unblocked hash batchSize db) : ∀ row ∈ db'.outbox.rows, inConflict hash db'.feed row = true := by
  induction h with
  | @stop db db' hcall =>
    intro r' hr'
    obtain ⟨batch, hbatch, heffect, hmoved⟩ := hcall.effect
    obtain ⟨r, hr, hsame, hin⟩ := heffect.left r' hr'
    rw [heffect.inConflict_eq hr hsame hin]
    by_contra hconf
    have hconf : inConflict hash db.feed r = false := by simpa using hconf
    have hnot : r ∉ batch := fun hmem => by simp [hin hmem] at hconf
    have hall : ∀ b ∈ batch, inConflict hash db.feed b = true := by
      intro b hb
      simpa using List.countP_eq_zero.mp hmoved.symm b hb
    have hlength := hbatch.length
    rcases Nat.lt_or_ge db.outbox.rows.length batchSize with hshort | hlong
    · -- the batch is the whole outbox
      have hnodup : (r :: batch).Nodup := List.nodup_cons.mpr ⟨hnot, hbatch.nodup⟩
      have hlen := (List.subperm_of_subset hnodup (List.cons_subset.mpr ⟨hr, hbatch.subset⟩)).length_le
      rw [List.length_cons] at hlen
      omega
    · -- a full batch of rows in conflict is before the row
      have hsub : batch.map (·.id) ⊆ stuckIds hash db r.enqueuedAt := by
        intro id hid
        obtain ⟨b, hb, rfl⟩ := List.mem_map.mp hid
        exact mem_stuckIds.mpr ⟨b, hbatch.subset b hb, hall b hb, hbatch.oldest r hr hnot b hb, rfl⟩
      have hnodup : (batch.map (·.id)).Nodup :=
        hbatch.nodup.map_on fun a ha b hb hid => row_id_inj (hbatch.subset a ha) (hbatch.subset b hb) hid
      have hlen := (List.subperm_of_subset hnodup hsub).length_le
      have := hfree r hr hconf
      rw [List.length_map] at hlen
      omega
  | more hcall hrest ih =>
    refine ih fun m' hm' hconf => ?_
    obtain ⟨batch, hbatch, heffect, hmoved⟩ := hcall.effect
    obtain ⟨m, hm, hsame, hin⟩ := heffect.left m' hm'
    rw [heffect.inConflict_eq hm hsame hin] at hconf
    rw [heffect.length_stuckIds, hsame.enqueuedAt]
    exact hfree m hm hconf

/-- **Which rows relays leave**: relays come to an end, and however the database breaks ties
they leave only rows in conflict, exactly if before each other row there are fewer rows in
conflict than fit into a batch. -/
theorem relayed_iff (hash : J → String) (db : AuditDb J) (batchSize : ℕ) :
    (∃ db', Drain hash batchSize db db') ∧
    ((∀ db', Drain hash batchSize db db' → ∀ row ∈ db'.outbox.rows, inConflict hash db'.feed row = true) ↔
      Unblocked hash batchSize db) := by
  refine ⟨?_, fun h => ?_, fun h db' hdrain => hdrain.of_unblocked h⟩
  · obtain ⟨db', hdrain, -⟩ := exists_drain hash batchSize (fun _ => True)
      (fun db _ => by
        obtain ⟨hbatch, -⟩ := isBatch_sorted db.outbox batchSize (fun a b => decide (a.enqueuedAt ≤ b.enqueuedAt))
          (fun a b c => by simp only [decide_eq_true_eq]; omega)
          (fun a b => by simp only [Bool.or_eq_true, decide_eq_true_eq]; omega)
          (fun a b => by simp only [decide_eq_true_eq, imp_self])
        exact ⟨_, hbatch, fun _ _ => trivial⟩) (show (fun _ : AuditDb J => True) db from trivial)
    exact ⟨db', hdrain⟩
  · by_contra hblocked
    simp only [Unblocked, not_forall, not_lt] at hblocked
    obtain ⟨m, hm, hfree, hmany⟩ := hblocked
    -- the relays that never see the row
    obtain ⟨db', hdrain, m', hm', hfree', -⟩ := exists_drain hash batchSize
      (fun db => ∃ m ∈ db.outbox.rows, inConflict hash db.feed m = false ∧
        batchSize ≤ (stuckIds hash db m.enqueuedAt).length)
      (fun db ⟨m, hm, hfree, hmany⟩ => by
        obtain ⟨batch, hbatch, hnot⟩ := exists_batch_without hfree hmany
        refine ⟨batch, hbatch, fun db' heffect => ?_⟩
        obtain ⟨m', hm', hsame⟩ := heffect.kept m hm fun hmem => absurd hmem hnot
        refine ⟨m', hm', ?_, ?_⟩
        · rw [heffect.inConflict_eq hm hsame fun hmem => absurd hmem hnot, hfree]
        · rw [heffect.length_stuckIds, hsame.enqueuedAt]
          exact hmany) ⟨m, hm, hfree, hmany⟩
    rw [h db' hdrain m' hm'] at hfree'
    cases hfree'

/-! ### One row in conflict, and a batch of one -/

def exampleEvent (operationId payloadHash : String) : AuditEvent String where
  operationId := operationId
  tenantId := "t"
  userId := none
  source := "среда"
  entityType := "task"
  entityId := none
  action := "created"
  payload := none
  payloadHash := some payloadHash
  causedBy := none
  occurredAt := 0

def exampleRow (id : ℕ) (operationId payloadHash : String) (enqueuedAt : ℤ) : AuditOutboxEvent String where
  id := id
  event := exampleEvent operationId payloadHash
  enqueuedAt := enqueuedAt
  attempts := 0
  lastAttemptAt := none
  lastError := none

/-- The feed has other content for the older row, and nothing for the newer one. -/
def blockedDb : AuditDb String where
  outbox := ⟨[exampleRow 0 "old" "0a" 0, exampleRow 1 "new" "0c" 1], by decide⟩
  feed := ⟨[exampleEvent "old" "0b"], by decide⟩
  nextId := 2
  id_nodup := by decide
  id_lt := by decide

theorem blockedDb_batch : IsBatch blockedDb.outbox 1 [exampleRow 0 "old" "0a" 0] where
  nodup := List.nodup_singleton _
  subset row hrow := by rw [List.mem_singleton.mp hrow]; exact List.mem_cons_self ..
  length := rfl
  sorted := List.pairwise_singleton ..
  oldest row hrow hnot b hb := by
    rw [List.mem_singleton.mp hb]
    rcases List.mem_cons.mp hrow with rfl | hrow
    · exact absurd (List.mem_singleton.mpr rfl) hnot
    · rw [List.mem_singleton.mp hrow]
      decide

/-- **A row that could be moved is left**: the relay takes the older row only, moves nothing
and will not move anything again. -/
theorem starved_row : ∃ db', Drain id 1 blockedDb db' ∧
    ∃ row ∈ db'.outbox.rows, inConflict id db'.feed row = false := by
  obtain ⟨db', hrelay, heffect⟩ := relayOutbox_spec id 5 blockedDb_batch
  have hmem : exampleRow 1 "new" "0c" 1 ∈ blockedDb.outbox.rows := List.mem_cons_of_mem _ (List.mem_singleton.mpr rfl)
  have hnot : exampleRow 1 "new" "0c" 1 ∉ [exampleRow 0 "old" "0a" 0] := by
    intro h
    have := congrArg AuditOutboxEvent.id (List.mem_singleton.mp h)
    cases this
  obtain ⟨row, hrow, hsame⟩ := heffect.kept _ hmem fun h => absurd h hnot
  refine ⟨db', .stop ⟨_, 5, blockedDb_batch, hrelay⟩, row, hrow, ?_⟩
  rw [heffect.inConflict_eq hmem hsame fun h => absurd h hnot]
  rfl

end Sreda.Services
