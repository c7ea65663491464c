import Sreda.Housewife.ShownRows

/-!
# The found items are read back

The reader of `list_checklist_items`: an item and its list on one line, with the id of the
list between them. The title of the item is taken as short as possible, so a title that
itself looks like an item with its list ends too early, and the list that it names is taken
for the list of the item.

## What is proved

* the reader takes the first place in a line where the id of a list can stand
  (`listed_split`);
* a row is read back exactly when its item's title and the start of its list's title have no
  line break and the item's title names no list (`listed_readsBack_iff`);
* `parse_list_checklist_items` is honest about what `list_checklist_items` prints exactly when
  all rows are such, or a text has a line break and some line is no row
  (`listed_honest_iff`).
-/

namespace Sreda.Housewife

open Lib.PyText Lib.Regex Lib.Regex.Re

/-- The row was read: the same ids and status, and the titles up to surrounding white space. -/
def ListChecklistItemsRow.IsRow (t : ListChecklistItemsRow) (r : ListedItem) : Prop :=
  t.itemId = r.item.id.text ∧ strip t.itemTitle = strip r.item.title.text ∧
    strip t.listTitle = strip r.list.title.text ∧ t.listId = r.list.id.text ∧ t.itemStatus = r.item.status

/-- The title names a list, as a row does. -/
def NamesList (title : Text) : Prop :=
  ∃ x w₁ w₂ cid rest : Text, title = x ++ (w₁ ++ ("@".toList ++ (w₂ ++ ("[".toList ++ (cid ++ ("]".toList ++ rest)))))) ∧
    x ≠ [] ∧ (w₁ ≠ [] ∧ Blank w₁) ∧ (w₂ ≠ [] ∧ Blank w₂) ∧ (idRe "checklist_").Matches cid [] ∧
    (rest = [] ∨ ∃ c s, rest = c :: s ∧ isSpace c = true)

theorem matches_parentRe {s : Text} {g : Groups} :
    parentRe.Matches s g ↔ ∃ w₁ w₂ cid w₃ title : Text,
      s = w₁ ++ ("@".toList ++ (w₂ ++ ("[".toList ++ (cid ++ ("]".toList ++ (w₃ ++ title)))))) ∧
      (w₁ ≠ [] ∧ Blank w₁) ∧ (w₂ ≠ [] ∧ Blank w₂) ∧ (idRe "checklist_").Matches cid [] ∧ (w₃ ≠ [] ∧ Blank w₃) ∧
      (title ≠ [] ∧ ∀ c ∈ title, dot c = true) ∧ g = [("cid", cid), ("ltitle", title)] := by
  simp only [parentRe, cat, matches_lit_seq, matches_group_seq, matches_plus_seq, matches_plus, matches_group]
  constructor
  · rintro ⟨w₁, _, h₁, hw₁, _, h₂, w₂, _, h₃, hw₂, _, h₄, cid, _, _, _, h₅, rfl, hcid, _, h₆, w₃, title, h₇, hw₃, _,
      ⟨ht, ht', rfl⟩, rfl⟩
    obtain ⟨hex, -, -, -, rfl⟩ := matches_idRe.mp hcid
    rw [h₂, h₃, h₄, h₅, h₆, h₇] at h₁
    exact ⟨w₁, w₂, cid, w₃, title, h₁, hw₁, hw₂, hcid, hw₃, ⟨ht, ht'⟩, rfl⟩
  · rintro ⟨w₁, w₂, cid, w₃, title, hs, hw₁, hw₂, hcid, hw₃, ⟨ht, ht'⟩, rfl⟩
    exact ⟨w₁, _, hs, hw₁, _, rfl, w₂, _, rfl, hw₂, _, rfl, cid, _, [], _, rfl, rfl, hcid, _, rfl, w₃, title, rfl, hw₃, [],
      ⟨ht, ht', rfl⟩, rfl⟩

/-- The list of an item as it is printed, with this title. -/
def Checklist.parent (cl : Checklist) (title : Text) : Text :=
  " ".toList ++ ("@".toList ++ (" ".toList ++ ("[".toList ++ (cl.id.text ++ ("]".toList ++ (" ".toList ++ title))))))

theorem Checklist.parent_matches (cl : Checklist) {title w : Text} (hw : Blank w) (ht : title ≠ [])
    (hdot : NoBreak title) : parentRe.Matches (w ++ cl.parent title) [("cid", cl.id.text), ("ltitle", title)] := by
  refine matches_parentRe.mpr ⟨w ++ " ".toList, " ".toList, cl.id.text, " ".toList, title, ?_, ⟨by simp, ?_⟩,
    ⟨by decide, by decide⟩, cl.id.matches_text, ⟨by decide, by decide⟩, ⟨ht, dot_of_noBreak hdot⟩, rfl⟩
  · simp [Checklist.parent]
  · exact hw.append (by decide)

theorem Checklist.parent_noBreak (cl : Checklist) {title : Text} (h : NoBreak title) : NoBreak (cl.parent title) := by
  have hid : NoBreak cl.id.text := cl.id.noBreak_text (by decide)
  have h₁ : NoBreak " ".toList := by decide
  have h₂ : NoBreak "@".toList := by decide
  have h₃ : NoBreak "[".toList := by decide
  have h₄ : NoBreak "]".toList := by decide
  exact h₁.append (h₂.append (h₁.append (h₃.append (hid.append (h₄.append (h₁.append h))))))

theorem Checklist.parent_ends (cl : Checklist) {title : Text} (h : Starts title.reverse) :
    Starts (cl.parent title).reverse :=
  starts_reverse_append _ (starts_reverse_append _ (starts_reverse_append _ (starts_reverse_append _
    (starts_reverse_append _ (starts_reverse_append _ (starts_reverse_append _ h))))))

theorem Checklist.parent_not_blank (cl : Checklist) (title : Text) : ¬ Blank (cl.parent title) := by
  intro hb
  have hat : isSpace '@' = true := hb '@' (by simp [Checklist.parent])
  exact absurd hat (by decide)

theorem ListedItem.line_eq (r : ListedItem) :
    r.line = r.item.front ++ (r.item.title.text ++ r.list.parent r.list.title.text) := by
  unfold ListedItem.line Checklist.parent
  rw [r.item.line_eq]
  simp only [List.append_assoc]
  rfl

/-- **The reader takes the first place where the list of an item can stand.** -/
theorem listed_split (it : ChecklistItem) {s : Text} {g : Groups} (hs : Starts s)
    (h : listChecklistItemsRowRe.fullMatch (it.front ++ s) = some g) :
    ∃ t s' g', s = t ++ s' ∧ g = ("iid", it.id.text) :: ("mark", [it.status.mark]) :: ("ititle", t) :: g' ∧
      t ≠ [] ∧ parentRe.fullMatch s' = some g' ∧
      ∀ x y, s = x ++ y → x ≠ [] → (∀ c ∈ x, dot c = true) → (∃ g, parentRe.Matches y g) → t.length ≤ x.length := by
  have hre : listChecklistItemsRowRe = seq (lit "[") (seq (group "iid" (idRe "clitem_")) (seq (lit "]")
      (seq (plus false isSpace) (seq (group "mark" (char markChar)) (seq (plus false isSpace)
        (seq (group "ititle" (plus true dot)) parentRe)))))) := rfl
  rw [hre] at h
  obtain ⟨_, _, s₁, g₁, h₁, rfl, hl₁, k₁⟩ := fullMatch_seq h
  obtain ⟨rfl, rfl⟩ := matches_lit.mp hl₁
  obtain ⟨iid, _, s₂, g₂, h₂, rfl, hl₂, k₂⟩ := fullMatch_seq k₁
  obtain ⟨_, hid, rfl⟩ := matches_group.mp hl₂
  obtain ⟨hex, -, -, -, rfl⟩ := matches_idRe.mp hid
  obtain ⟨_, _, s₃, g₃, h₃, rfl, hl₃, k₃⟩ := fullMatch_seq k₂
  obtain ⟨rfl, rfl⟩ := matches_lit.mp hl₃
  obtain ⟨w₁, _, s₄, g₄, h₄, rfl, hl₄, k₄⟩ := fullMatch_seq k₃
  obtain ⟨-, hw₁, rfl⟩ := matches_plus.mp hl₄
  obtain ⟨_, _, s₅, g₅, h₅, rfl, hl₅, k₅⟩ := fullMatch_seq k₄
  obtain ⟨_, hmark, rfl⟩ := matches_group.mp hl₅
  obtain ⟨m, rfl, hm, rfl⟩ := matches_char.mp hmark
  obtain ⟨w₂, _, s₆, g₆, h₆, rfl, hl₆, k₆⟩ := fullMatch_seq k₅
  obtain ⟨hne, hw₂, rfl⟩ := matches_plus.mp hl₆
  rw [h₂, h₃, h₄, h₅, h₆] at h₁
  obtain ⟨rfl, rfl, hrest⟩ := it.front_inj hid hw₁ hm h₁
  -- the printed space is all the white space before the title
  obtain rfl : s₆ = s := by
    obtain ⟨c, u, rfl⟩ := List.exists_cons_of_ne_nil hne
    obtain ⟨d, v, rfl, hd⟩ := hs
    have hrest : ' ' :: (d :: v) = c :: (u ++ s₆) := hrest
    rw [List.cons.injEq] at hrest
    cases u with
    | nil => exact hrest.2.symm
    | cons e u =>
      have : d = e := (List.cons.inj hrest.2).1
      simp [this ▸ hw₂ e (by simp)] at hd
  obtain ⟨t, s', g', hsplit, rfl, ⟨ht, -⟩, hparent, hleast⟩ := lazy_least k₆
  refine ⟨t, s', g', hsplit, rfl, ht, hparent, fun x y hxy hx hdot hy => ?_⟩
  by_contra hlt
  have hnone := hleast x y hxy hx hdot (by omega)
  rw [← fullMatch_isSome_iff, hnone] at hy
  simp at hy

/-- **A place before the end of the title where a list can stand is a list that the title
names.** -/
theorem namesList_of_matches {cl : Checklist} {title text t u s' : Text} {g : Groups} (hu : Starts u.reverse)
    (ht : t ≠ []) (htitle : ∃ w, Blank w ∧ title = t ++ u ++ w) (hs : title ++ cl.parent text = t ++ s')
    (h : parentRe.Matches s' g) : NamesList title := by
  obtain ⟨w, hw, rfl⟩ := htitle
  obtain ⟨w₁, w₂, cid, w₃, l, rfl, hw₁, hw₂, hcid, hw₃, -, -⟩ := matches_parentRe.mp h
  simp only [List.append_assoc] at hs
  replace hs := List.append_cancel_left hs
  -- the white space before the sign ends inside of `u`
  obtain ⟨v, rfl, hv⟩ : ∃ v, u = w₁ ++ '@' :: v ∧ v ++ (w ++ cl.parent text) =
      w₂ ++ ("[".toList ++ (cid ++ ("]".toList ++ (w₃ ++ l)))) := by
    rcases List.append_eq_append_iff.mp hs with ⟨a, rfl, -⟩ | ⟨a, rfl, ha⟩
    · exact absurd hw₁.2.of_append_left (not_blank_of_ends hu)
    · cases a with
      | nil =>
        rw [List.append_nil] at hu
        exact absurd hw₁.2 (not_blank_of_ends hu)
      | cons c v =>
        have ha : '@' :: (w₂ ++ ("[".toList ++ (cid ++ ("]".toList ++ (w₃ ++ l))))) =
          c :: (v ++ (w ++ cl.parent text)) := ha
        rw [List.cons.injEq] at ha
        exact ⟨v, by rw [ha.1], ha.2.symm⟩
  have hstop : ∀ z : Text, Outside isSpace ("[".toList ++ z) := fun z => ⟨'[', z, rfl, by decide⟩
  have hat : ∀ z : Text, Outside isSpace ("@".toList ++ z) := fun z => ⟨'@', z, rfl, by decide⟩
  have hnot : ¬ Blank (v ++ w) := by
    intro hb
    have hv' : (v ++ w ++ " ".toList) ++ ("@".toList ++ (" ".toList ++ ("[".toList ++ (cl.id.text ++ ("]".toList ++
        (" ".toList ++ text)))))) = w₂ ++ ("[".toList ++ (cid ++ ("]".toList ++ (w₃ ++ l)))) := by
      rw [← hv]
      simp [Checklist.parent]
    have := (run_inj (hb.append (by decide)) hw₂.2 (hat _) (hstop _) hv').2
    exact absurd (List.cons.inj this).1 (by decide)
  rw [← List.append_assoc] at hv
  -- and so does the id in its brackets
  obtain ⟨z, hz, hzs⟩ : ∃ z, v ++ w = w₂ ++ z ∧ z ++ cl.parent text =
      "[".toList ++ (cid ++ ("]".toList ++ (w₃ ++ l))) := by
    rcases List.append_eq_append_iff.mp hv with ⟨a, rfl, -⟩ | ⟨a, ha, ha'⟩
    · exact absurd hw₂.2.of_append_left hnot
    · exact ⟨a, ha, ha'.symm⟩
  have hidSpace : ' ' ∉ "[".toList ++ (cid ++ "]".toList) := by
    obtain ⟨hex, rfl, -, hhex, -⟩ := matches_idRe.mp hcid
    simp only [List.mem_append, not_or]
    exact ⟨by decide, ⟨by decide, not_mem_of_class hhex (by decide)⟩, by decide⟩
  obtain ⟨rest, rfl, hrest⟩ : ∃ rest, z = "[".toList ++ (cid ++ "]".toList) ++ rest ∧ rest ++ cl.parent text =
      w₃ ++ l := by
    have hzs' : z ++ cl.parent text = ("[".toList ++ (cid ++ "]".toList)) ++ (w₃ ++ l) := by simpa using hzs
    rcases List.append_eq_append_iff.mp hzs' with ⟨a, ha, ha'⟩ | ⟨a, ha, ha'⟩
    · cases a with
      | nil => exact ⟨[], by simpa using ha.symm, by simpa using ha'⟩
      | cons c a =>
        have hc : ' ' = c := (List.cons.inj (show ' ' :: _ = c :: (a ++ (w₃ ++ l)) from ha')).1
        exact absurd (by rw [ha, ← hc]; simp) hidSpace
    · exact ⟨a, ha, ha'.symm⟩
  refine ⟨t, w₁, w₂, cid, rest, ?_, ht, hw₁, hw₂, hcid, ?_⟩
  · have : v ++ w = w₂ ++ ("[".toList ++ (cid ++ "]".toList) ++ rest) := hz
    simp only [List.append_assoc, List.cons_append] at this ⊢
    rw [this]
    rfl
  · cases rest with
    | nil => exact .inl rfl
    | cons c rest =>
      obtain ⟨d, w₃', rfl⟩ := List.exists_cons_of_ne_nil hw₃.1
      have hc : c = d := (List.cons.inj hrest).1
      exact .inr ⟨c, rest, rfl, hc ▸ hw₃.2 d (by simp)⟩

/-- A line that can be read at all is read, and from where the title ends. -/
theorem readListedItem_eq {r : ListedItem} {s line : Text} (hs : Starts s) (hline : line = r.item.front ++ s)
    (hmatch : ∃ g, listChecklistItemsRowRe.Matches line g) :
    ∃ t s' cid title, s = t ++ s' ∧ t ≠ [] ∧ parentRe.Matches s' [("cid", cid), ("ltitle", title)] ∧
      (∀ x y, s = x ++ y → x ≠ [] → (∀ c ∈ x, dot c = true) → (∃ g, parentRe.Matches y g) → t.length ≤ x.length) ∧
      readListedItem line =
        if (1 ≤ (strip t).length ∧ (strip t).length ≤ 1000) ∧
            (1 ≤ (strip title).length ∧ (strip title).length ≤ 500) then
          some ⟨r.item.id.text, strip t, strip title, cid, r.item.status⟩
        else none := by
  obtain ⟨g, hg⟩ := Option.isSome_iff_exists.mp (fullMatch_isSome_iff.mpr hmatch)
  subst hline
  obtain ⟨t, s', g', hsplit, rfl, ht, hparent, hleast⟩ := listed_split r.item hs hg
  have hparent := fullMatch_matches hparent
  obtain ⟨-, -, cid, -, title, -, -, -, hcid, -, -, rfl⟩ := matches_parentRe.mp hparent
  refine ⟨t, s', cid, title, hsplit, ht, hparent, hleast, ?_⟩
  have hitem : toolId "clitem_" r.item.id.text = some r.item.id.text :=
    r.item.id.toolId_text ⟨'c', "litem_".toList, rfl, by decide⟩
  have hlist : toolId "checklist_" cid = some cid := toolId_of_matches ⟨'c', "hecklist_".toList, rfl, by decide⟩ hcid
  by_cases h₁ : 1 ≤ (strip t).length ∧ (strip t).length ≤ 1000
  · by_cases h₂ : 1 ≤ (strip title).length ∧ (strip title).length ≤ 500
    · simp [readListedItem, hg, captured, List.lookup, markToStatus_mark, hitem, hlist, h₁, h₂]
    · simp only [h₁, h₂, and_false, if_false]
      simp [readListedItem, hg, captured, List.lookup, markToStatus_mark, hitem, hlist, h₁, guard, h₂]
  · simp only [h₁, false_and, if_false]
    simp [readListedItem, hg, captured, List.lookup, markToStatus_mark, hitem, hlist, h₁, guard]

/-- A title that names a list ends the item there. -/
theorem NamesList.exists_matches {title : Text} (h : NamesList title) (hb : NoBreak title) (cl : Checklist)
    {text : Text}
    (hdot : NoBreak text) :
    ∃ x y : Text, title ++ cl.parent text = x ++ y ∧ x ≠ [] ∧ (∀ c ∈ x, dot c = true) ∧ (∃ g, parentRe.Matches y g) ∧
      x.length < (rstrip title).length := by
  obtain ⟨x, w₁, w₂, cid, rest, rfl, hx, hw₁, hw₂, hcid, hrest⟩ := h
  have hlen : x.length < (rstrip (x ++ (w₁ ++ ("@".toList ++ (w₂ ++ ("[".toList ++ (cid ++ ("]".toList ++ rest)))))))).length := by
    have hat : ¬ Blank ("@".toList ++ (w₂ ++ ("[".toList ++ (cid ++ ("]".toList ++ rest))))) := fun hb =>
      absurd hb.of_append_left (by decide)
    rw [rstrip_append fun hb => hat hb.of_append_right, List.length_append]
    have : rstrip (w₁ ++ ("@".toList ++ (w₂ ++ ("[".toList ++ (cid ++ ("]".toList ++ rest)))))) ≠ [] := fun hnil =>
      hat (rstrip_eq_nil_iff.mp hnil).of_append_right
    have := List.length_pos_of_ne_nil this
    omega
  have hparent : NoBreak (cl.parent text) := cl.parent_noBreak hdot
  refine ⟨x, w₁ ++ ("@".toList ++ (w₂ ++ ("[".toList ++ (cid ++ ("]".toList ++ (rest ++ cl.parent text)))))), by simp, hx,
    dot_of_noBreak hb.of_append_left, ?_, hlen⟩
  rcases hrest with rfl | ⟨c, s, rfl, hc⟩
  · refine ⟨_, matches_parentRe.mpr ⟨w₁, w₂, cid, " ".toList, _, rfl, hw₁, hw₂, hcid, ⟨by decide, by decide⟩, ⟨by simp, ?_⟩,
      rfl⟩⟩
    exact dot_of_noBreak (NoBreak.of_append_right (s := " ".toList) hparent)
  · refine ⟨_, matches_parentRe.mpr ⟨w₁, w₂, cid, [c], s ++ cl.parent text, by simp, hw₁, hw₂, hcid,
      ⟨by simp, by simpa [Blank] using hc⟩, ⟨by simp [Checklist.parent], ?_⟩, rfl⟩⟩
    have hs : NoBreak s := fun d hd => hb d (by simp [hd])
    exact dot_of_noBreak (hs.append hparent)

namespace ListedItem

variable (r : ListedItem)

/-- The line up to the white space at its end, when nothing breaks it. -/
theorem eq_line {b : List Text} (h : RowLines r.line b) (hitem : NoBreak r.item.title.text)
    (hlist : NoBreak (rstrip r.list.title.text)) :
    ∃ w, Blank w ∧ NoBreak w ∧
      b = [r.item.front ++ (r.item.title.text ++ r.list.parent (rstrip r.list.title.text ++ w))] := by
  obtain ⟨ws, hws, hs, -⟩ := exists_rstrip r.list.title.text
  have hparent : NoBreak (r.list.parent (rstrip r.list.title.text)) := r.list.parent_noBreak hlist
  have hends : Starts (r.item.front ++ (r.item.title.text ++ r.list.parent (rstrip r.list.title.text))).reverse :=
    starts_reverse_append _ (starts_reverse_append _ (r.list.parent_ends r.list.title.rstrip_ends))
  have hsplit : ∀ v : Text, r.item.front ++ (r.item.title.text ++ r.list.parent (rstrip r.list.title.text)) ++ v =
      r.item.front ++ (r.item.title.text ++ r.list.parent (rstrip r.list.title.text ++ v)) := fun v => by
    simp [Checklist.parent]
  rw [r.line_eq, hs, ← hsplit ws] at h
  obtain ⟨w, hw, hwb, rfl⟩ := h.eq_singleton (r.item.front_noBreak.append (hitem.append hparent)) hends hws
  exact ⟨w, hw, hwb, by rw [hsplit]⟩

end ListedItem

/-- **An item on one line whose title names no list is read back.** -/
theorem readListedItem_line (r : ListedItem) {w : Text} (hitem : NoBreak r.item.title.text)
    (hlist : NoBreak (rstrip r.list.title.text)) (hname : ¬ NamesList r.item.title.text) (hw : Blank w)
    (hwb : NoBreak w) :
    ∃ t, readListedItem (r.item.front ++ (r.item.title.text ++ r.list.parent (rstrip r.list.title.text ++ w))) =
      some t ∧
      t.IsRow r := by
  obtain ⟨ws, hws, hs, -⟩ := exists_rstrip r.item.title.text
  have hne : rstrip r.item.title.text ≠ [] := fun hnil =>
    not_blank_of_ends r.item.title.rstrip_ends (by simp [hnil, Blank])
  have hnb : NoBreak (rstrip r.item.title.text) := by
    rw [hs] at hitem
    exact hitem.of_append_left
  have hne' : rstrip r.list.title.text ++ w ≠ [] := fun hnil =>
    not_blank_of_ends r.list.title.rstrip_ends (by simp [(List.append_eq_nil_iff.mp hnil).1, Blank])
  have hown := r.list.parent_matches hws hne' (hlist.append hwb)
  have htext : r.item.title.text ++ r.list.parent (rstrip r.list.title.text ++ w) =
      rstrip r.item.title.text ++ (ws ++ r.list.parent (rstrip r.list.title.text ++ w)) := by
    rw [← List.append_assoc, ← hs]
  have hmatch : ∃ g, listChecklistItemsRowRe.Matches
      (r.item.front ++ (r.item.title.text ++ r.list.parent (rstrip r.list.title.text ++ w))) g := by
    rw [htext]
    simp only [listChecklistItemsRowRe, cat, matches_lit_seq, matches_group_seq, matches_plus_seq, matches_plus,
      matches_char]
    have hsp : " ".toList ≠ [] ∧ Blank " ".toList := ⟨by decide, by decide⟩
    exact ⟨_, _, r.item.front_append _, r.item.id.text, _, [], _, rfl, rfl, r.item.id.matches_text, _, rfl, " ".toList, _, rfl,
      hsp, [r.item.status.mark], _, [], _, rfl, rfl, ⟨_, rfl, markChar_mark _, rfl⟩, " ".toList, _, rfl, hsp, _, _,
        [], _,
      rfl, rfl, ⟨hne, dot_of_noBreak hnb, rfl⟩, hown⟩
  obtain ⟨t, s', cid, title, hsplit, ht, hparent, hleast, hvalue⟩ :=
    readListedItem_eq (r.item.title.starts.append _) rfl hmatch
  have hle : t.length ≤ (rstrip r.item.title.text).length := hleast _ _ htext hne (dot_of_noBreak hnb) ⟨_, hown⟩
  obtain ⟨u, hu, hrest⟩ : ∃ u, rstrip r.item.title.text = t ++ u ∧
      s' = u ++ (ws ++ r.list.parent (rstrip r.list.title.text ++ w)) := by
    rcases List.append_eq_append_iff.mp (htext.symm.trans hsplit) with ⟨a, ha, ha'⟩ | ⟨a, ha, ha'⟩
    · obtain rfl : a = [] := List.length_eq_zero_iff.mp (by
        have := congrArg List.length ha
        simp only [List.length_append] at this
        omega)
      exact ⟨[], by simpa using ha.symm, by simpa using ha'.symm⟩
    · exact ⟨a, ha, ha'⟩
  -- a shorter title would leave the place of a list inside of the title
  have hnil : u = [] := by
    by_contra hne₂
    have hends := r.item.title.rstrip_ends
    obtain ⟨c, v, hv⟩ := List.exists_cons_of_ne_nil (mt List.reverse_eq_nil_iff.mp hne₂)
    rw [hu, List.reverse_append, hv] at hends
    obtain ⟨d, x, hd, hd'⟩ := hends
    rw [List.cons_append, List.cons.injEq] at hd
    exact hname (namesList_of_matches ⟨c, v, hv, hd.1 ▸ hd'⟩ ht ⟨ws, hws, by rw [← hu, ← hs]⟩ hsplit hparent)
  subst hnil
  rw [List.append_nil] at hu
  obtain ⟨w₁, w₂, cid', w₃, title', hs', ⟨-, hw₁⟩, ⟨-, hw₂⟩, hcid, ⟨-, hw₃⟩, -, hgroups⟩ := matches_parentRe.mp hparent
  obtain ⟨rfl, rfl⟩ : cid = cid' ∧ title = title' := by simpa using hgroups
  -- the list is read where it was printed
  have hsp : Blank " ".toList := by decide
  have hbracket : ∀ z : Text, Outside isSpace ("[".toList ++ z) := fun z => ⟨'[', z, rfl, by decide⟩
  have hat : ∀ z : Text, Outside isSpace ("@".toList ++ z) := fun z => ⟨'@', z, rfl, by decide⟩
  have e₁ : (ws ++ " ".toList) ++ ("@".toList ++ (" ".toList ++ ("[".toList ++ (r.list.id.text ++ ("]".toList ++
      (" ".toList ++ (rstrip r.list.title.text ++ w))))))) =
      w₁ ++ ("@".toList ++ (w₂ ++ ("[".toList ++ (cid ++ ("]".toList ++ (w₃ ++ title)))))) := by
    rw [← hs', hrest]
    simp [Checklist.parent]
  have e₂ := List.append_cancel_left (run_inj (hws.append hsp) hw₁ (hat _) (hat _) e₁).2
  have e₃ := List.append_cancel_left (run_inj hsp hw₂ (hbracket _) (hbracket _) e₂).2
  obtain ⟨rfl, e₄⟩ := List.append_inj e₃ (r.list.id.length_eq_of_matches hcid)
  have hstrip : strip title = strip r.list.title.text := by
    calc strip title = strip (w₃ ++ title) := (strip_blank_append hw₃ _).symm
      _ = strip (" ".toList ++ (rstrip r.list.title.text ++ w)) := congrArg strip (List.append_cancel_left e₄).symm
      _ = strip (rstrip r.list.title.text ++ w) := strip_blank_append hsp _
      _ = strip r.list.title.text := r.list.title.strip_rstrip hw
  have hstrip' : strip t = strip r.item.title.text := by
    rw [← hu]
    exact (congrArg strip (List.append_nil _)).symm.trans (r.item.title.strip_rstrip (by simp [Blank]))
  obtain ⟨h₁, h₂⟩ := r.item.title.strip_length
  obtain ⟨h₃, h₄⟩ := r.list.title.strip_length
  refine ⟨⟨r.item.id.text, strip t, strip title, r.list.id.text, r.item.status⟩, ?_, rfl, by rw [strip_strip, hstrip'],
    by rw [strip_strip, hstrip], rfl, rfl⟩
  rw [hvalue, if_pos]
  rw [hstrip, hstrip']
  omega

/-- **A row is read back exactly when nothing breaks it and its item's title names no list.** -/
theorem listed_readsBack_iff {r : ListedItem} {b : List Text} (h : RowLines r.line b) :
    ReadsBack readListedItem ListChecklistItemsRow.IsRow r b ↔
      NoBreak r.item.title.text ∧ NoBreak (rstrip r.list.title.text) ∧ ¬ NamesList r.item.title.text := by
  constructor
  · rintro ⟨line, t, rfl, hread, -, htitle, -, -, -⟩
    have hitem : NoBreak r.item.title.text := by
      rw [r.line_eq, ← List.append_assoc] at h
      exact h.noBreak_between r.item.front_starts.not_blank (r.list.parent_not_blank _)
    have hlist : NoBreak (rstrip r.list.title.text) := by
      have hline : r.line = (r.item.line ++ " @ [".toList ++ r.list.id.text ++ "] ".toList) ++ r.list.title.text := rfl
      rw [hline] at h
      have hbracket : ¬ Blank "] ".toList := by decide
      exact h.noBreak_end fun hb => hbracket hb.of_append_right
    refine ⟨hitem, hlist, fun hname => ?_⟩
    obtain ⟨w, hw, hwb, hline⟩ := r.eq_line h hitem hlist
    rw [List.cons.injEq] at hline
    obtain ⟨rfl, -⟩ := hline
    have hmatch : ∃ g, listChecklistItemsRowRe.Matches
        (r.item.front ++ (r.item.title.text ++ r.list.parent (rstrip r.list.title.text ++ w))) g := by
      rw [← fullMatch_isSome_iff]
      by_contra hn
      simp [readListedItem, Option.not_isSome_iff_eq_none.mp hn] at hread
    obtain ⟨t₀, s', cid, title, -, -, -, hleast, hvalue⟩ :=
      readListedItem_eq (r.item.title.starts.append _) rfl hmatch
    rw [hvalue] at hread
    split at hread
    · obtain rfl := Option.some.inj hread
      obtain ⟨x, y, hxy, hx, hdot, hy, hlt⟩ := hname.exists_matches hitem r.list (hlist.append hwb)
      have h₁ := hleast x y hxy hx hdot hy
      have h₂ : (strip t₀).length = (rstrip r.item.title.text).length := by
        rw [← r.item.title.starts.strip_eq, ← htitle, strip_strip]
      have h₃ := length_strip_le t₀
      omega
    · simp at hread
  · rintro ⟨hitem, hlist, hname⟩
    obtain ⟨w, hw, hwb, rfl⟩ := r.eq_line h hitem hlist
    obtain ⟨t, ht, hsame⟩ := readListedItem_line r hitem hlist hname hw hwb
    exact ⟨_, t, rfl, ht, hsame⟩

/-- A row whose texts have a line break. -/
def ListedItem.Broken (r : ListedItem) : Prop := ¬ NoBreak r.item.title.text ∨ ¬ NoBreak r.list.title.text

/-- A row that is read back: nothing breaks it before the white space at its end, and its
item's title names no list. -/
def ListedItem.Plain (r : ListedItem) : Prop :=
  NoBreak r.item.title.text ∧ NoBreak (rstrip r.list.title.text) ∧ ¬ NamesList r.item.title.text

/-- What is printed of the found items. -/
def listedText : List ListedItem → Text
  | [] => "empty".toList
  | r :: rest => joinLines ((r :: rest).map ListedItem.line)

/-- `parse_list_checklist_items` is honest about the items that are printed. -/
def ListedHonest (rows : List ListedItem) (text : Text) : Prop :=
  Honest ListChecklistItemsRow.IsRow rows (∃ r ∈ rows, r.Broken) (parseListChecklistItems text).rows

/-- Some line is no row of the found items. -/
def ListedUnread (text : Text) : Prop := ∃ line ∈ fullLines (strip text), readListedItem line = none

/-- **The reader of the found items is honest exactly when all rows are plain, or a text has a
line break and some line is no row.** -/
theorem listed_honest_iff (keepList keepItem : Text → Bool) (lists : List Checklist) :
    ListedHonest (listedRows keepList keepItem lists) (listChecklistItems keepList keepItem lists) ↔
      (∀ r ∈ listedRows keepList keepItem lists, r.Plain) ∨
        (∃ r ∈ listedRows keepList keepItem lists, r.Broken) ∧
          ListedUnread (listChecklistItems keepList keepItem lists) := by
  exact honest_parseRows_iff listedText (by decide) (fun r => ⟨_, r.line_eq.trans rfl⟩) (by decide) (fun _ _ => rfl)
    (fun _ _ h => listed_readsBack_iff h) (listedRows keepList keepItem lists)

end Sreda.Housewife
