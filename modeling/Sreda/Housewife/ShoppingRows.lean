import Sreda.Housewife.ShownRows

/-!
# The shopping list is read back

The reader of `list_shopping`: a header, a line with the name of a category in brackets where
the category changes, and one line for every item. A line in brackets is taken for a category
unless it begins as an item does.

## What is proved

* the reader tells a category from an item exactly when its name has no closing bracket and
  does not begin like an id (`shoppingToken_category_iff`);
* `parse_list_shopping` is honest about what `list_shopping` prints exactly when no line break
  stands in an item and all categories are told from items, or a text has a line break and the
  lines are not read (`shopping_honest_iff`).
-/

namespace Sreda.Housewife

open Lib.PyText Lib.Regex Lib.Regex.Re

/-- The item was read: the same id, and the texts up to surrounding white space. -/
def ListShoppingItem.IsRow (t : ListShoppingItem) (r : ShoppingListItem) : Prop :=
  t.itemId = r.id.text ∧ strip t.category = strip r.category.text ∧ strip t.rawLine = strip r.line ∧
    strip t.displayLine = strip r.shown

/-! ### Categories -/

theorem matches_listShoppingCategoryRe {s : Text} {g : Groups} :
    listShoppingCategoryRe.Matches s g ↔ ∃ name : Text, s = "[".toList ++ (name ++ "]".toList) ∧
      (name ≠ [] ∧ ∀ c ∈ name, notBracket c = true) ∧ g = [("cat", name)] := by
  simp only [listShoppingCategoryRe, cat, matches_lit_seq, matches_group_seq, matches_plus, matches_lit]
  constructor
  · rintro ⟨_, rfl, name, _, _, _, rfl, rfl, ⟨hne, hname, rfl⟩, rfl, rfl⟩
    exact ⟨name, rfl, ⟨hne, hname⟩, rfl⟩
  · rintro ⟨name, rfl, ⟨hne, hname⟩, rfl⟩
    exact ⟨_, rfl, name, _, [], _, rfl, rfl, ⟨hne, hname, rfl⟩, rfl, rfl⟩

/-- The category is told from an item. -/
def Category.Plain (c : Category) : Prop := ']' ∉ c.text ∧ ¬ "sh_".toList <+: c.text

theorem Category.line_eq (c : Category) : c.line = "[".toList ++ (c.text ++ "]".toList) := by
  simp only [Category.line, List.append_assoc]

/-- The line begins as an item does exactly if the name begins like an id. -/
theorem Category.prefix_line_iff (c : Category) :
    "[sh_".toList.isPrefixOf c.line = true ↔ "sh_".toList <+: c.text := by
  have hcons : c.line = '[' :: (c.text ++ [']']) := c.line_eq
  have hlit : "[sh_".toList = '[' :: "sh_".toList := rfl
  rw [List.isPrefixOf_iff_prefix, hcons, hlit, List.cons_prefix_cons, List.prefix_concat_iff]
  constructor
  · rintro ⟨-, h | h⟩
    · have hlast := congrArg List.getLast? h
      rw [List.getLast?_append] at hlast
      cases hlast
    · exact h
  · exact fun h => ⟨rfl, .inr h⟩

/-- **The line of a category is read as one exactly when its name has no closing bracket and
does not begin like an id.** -/
theorem shoppingToken_category_iff (c : Category) {name : Text} :
    shoppingToken c.line = some (.category name) ↔ c.Plain ∧ name = c.text := by
  unfold shoppingToken
  cases hg : (listShoppingCategoryRe.fullMatch c.line).filter fun _ => !"[sh_".toList.isPrefixOf c.line with
  | some g =>
    obtain ⟨hmatch, hfront⟩ := Option.filter_eq_some_iff.mp hg
    obtain ⟨name', hline, ⟨-, hname⟩, rfl⟩ := matches_listShoppingCategoryRe.mp (fullMatch_matches hmatch)
    rw [c.line_eq] at hline
    obtain rfl : c.text = name' := List.append_cancel_right (List.append_cancel_left hline)
    have hplain : c.Plain := by
      refine ⟨not_mem_of_notBracket hname, fun h => ?_⟩
      rw [c.prefix_line_iff.mpr h] at hfront
      cases hfront
    simp [captured, List.lookup, hplain, eq_comm]
  | none =>
    refine iff_of_false (fun h => ?_) fun h => ?_
    · simp only [Option.bind_eq_bind, Option.bind_eq_some_iff] at h
      obtain ⟨_, -, _, -, _, -, h⟩ := h
      cases h
    · obtain ⟨g, hmatch⟩ : ∃ g, listShoppingCategoryRe.fullMatch c.line = some g := by
        obtain ⟨g, hg, -⟩ := fullMatch_of_matches (matches_listShoppingCategoryRe.mpr
          ⟨c.text, c.line_eq, ⟨c.starts.ne_nil, notBracket_of_not_mem h.1.1⟩, rfl⟩)
        exact ⟨g, hg⟩
      have hfront : "[sh_".toList.isPrefixOf c.line = false := by
        rw [Bool.eq_false_iff, Ne, c.prefix_line_iff]
        exact h.1.2
      rw [hmatch, hfront] at hg
      cases hg

/-! ### Items -/

theorem matches_listShoppingItemRe {s : Text} {g : Groups} :
    listShoppingItemRe.Matches s g ↔ ∃ id ws rest : Text, s = "[".toList ++ (id ++ ("]".toList ++ (ws ++ rest))) ∧
      (∃ x : Text, id = "sh_".toList ++ x ∧ x ≠ [] ∧ ∀ c ∈ x, notBracket c = true) ∧ (ws ≠ [] ∧ Blank ws) ∧
      (rest ≠ [] ∧ ∀ c ∈ rest, dot c = true) ∧ g = [("id", id), ("rest", rest)] := by
  simp only [listShoppingItemRe, cat, matches_lit_seq, matches_group_seq, matches_plus_seq, matches_plus,
    matches_group]
  constructor
  · rintro ⟨_, rfl, id, _, _, _, rfl, rfl, ⟨x, rfl, hne, hx, rfl⟩, _, rfl, ws, rest, rfl, hws, _, ⟨hrest, hrest', rfl⟩,
      rfl⟩
    exact ⟨_, ws, rest, rfl, ⟨x, rfl, hne, hx⟩, hws, ⟨hrest, hrest'⟩, rfl⟩
  · rintro ⟨id, ws, rest, rfl, ⟨x, rfl, hne, hx⟩, hws, ⟨hrest, hrest'⟩, rfl⟩
    exact ⟨_, rfl, _, _, [], _, rfl, rfl, ⟨x, rfl, hne, hx, rfl⟩, _, rfl, ws, rest, rfl, hws, [], ⟨hrest, hrest', rfl⟩,
      rfl⟩

namespace ShoppingListItem

variable (r : ShoppingListItem)

/-- The line without the white space around it. -/
def clean : Text := "[".toList ++ (r.id.text ++ ("]".toList ++ (" ".toList ++ rstrip r.shown)))

theorem shown_starts : Starts r.shown := r.title.starts.append _

theorem rstrip_shown_ends : Starts (rstrip r.shown).reverse := by
  obtain ⟨ws, hws, hs, h⟩ := exists_rstrip r.shown
  exact h.resolve_left fun hnil => r.shown_starts.not_blank (rstrip_eq_nil_iff.mp hnil)

theorem strip_rstrip_shown : strip (rstrip r.shown) = rstrip r.shown := by
  rw [← r.shown_starts.strip_eq, strip_strip]

theorem line_eq : ∃ ws, Blank ws ∧ r.line = "  ".toList ++ r.clean ++ ws := by
  obtain ⟨ws, hws, hs, -⟩ := exists_rstrip r.shown
  refine ⟨ws, hws, ?_⟩
  have hline : r.line = "  ".toList ++ ("[".toList ++ (r.id.text ++ ("]".toList ++ (" ".toList ++ r.shown)))) := by
    simp [line]
  rw [hline]
  conv_lhs => rw [hs]
  simp [clean]

theorem clean_starts : Starts r.clean := ⟨'[', _, rfl, by decide⟩

theorem clean_ends : Starts r.clean.reverse :=
  starts_reverse_append _ (starts_reverse_append _ (starts_reverse_append _
    (starts_reverse_append _ r.rstrip_shown_ends)))

theorem strip_clean : strip r.clean = r.clean := strip_of_ends r.clean_starts r.clean_ends

theorem strip_line : strip r.line = r.clean := by
  obtain ⟨ws, hws, hline⟩ := r.line_eq
  rw [hline, strip_pad (by decide) hws, r.strip_clean]

theorem clean_noBreak_iff : NoBreak r.clean ↔ NoBreak (rstrip r.shown) := by
  have hid : NoBreak r.id.text := r.id.noBreak_text (by decide)
  have h₁ : NoBreak "[".toList := by decide
  have h₂ : NoBreak "]".toList := by decide
  have h₃ : NoBreak " ".toList := by decide
  refine ⟨fun h => ?_, fun h => h₁.append (hid.append (h₂.append (h₃.append h)))⟩
  exact h.of_append_right.of_append_right.of_append_right.of_append_right

/-- **An item on one line is read as itself.** -/
theorem shoppingToken_clean (h : NoBreak (rstrip r.shown)) :
    shoppingToken r.clean = some (.item r.id.text r.clean (rstrip r.shown)) := by
  have hfront : "[sh_".toList.isPrefixOf r.clean = true := by
    rw [List.isPrefixOf_iff_prefix]
    exact ⟨r.id.hex ++ ("]".toList ++ (" ".toList ++ rstrip r.shown)), by simp [clean, RowId.text]⟩
  have hnone : ((listShoppingCategoryRe.fullMatch r.clean).filter fun _ => !"[sh_".toList.isPrefixOf r.clean) = none := by
    rw [hfront]
    cases listShoppingCategoryRe.fullMatch r.clean <;> rfl
  have hid : ']' ∉ r.id.text := r.id.not_mem_text (by decide) (by decide)
  have hhex : r.id.hex ≠ [] := fun hnil => by
    have := r.id.length_eq
    simp [hnil] at this
  have hbracket : ∀ c ∈ r.id.hex, notBracket c = true :=
    notBracket_of_not_mem fun hm => hid (List.mem_append_right _ hm)
  have hne : rstrip r.shown ≠ [] := fun hnil => r.shown_starts.not_blank (rstrip_eq_nil_iff.mp hnil)
  obtain ⟨g, hg, hmatch⟩ := fullMatch_of_matches (matches_listShoppingItemRe.mpr ⟨r.id.text, " ".toList, rstrip r.shown,
    rfl, ⟨r.id.hex, rfl, hhex, hbracket⟩, ⟨by decide, by decide⟩, ⟨hne, dot_of_noBreak h⟩, rfl⟩)
  obtain ⟨id, ws, rest, hclean, ⟨x, rfl, -, hx⟩, ⟨-, hws⟩, -, rfl⟩ := matches_listShoppingItemRe.mp hmatch
  -- the id ends at the first bracket
  have hid' : ']' ∉ "sh_".toList ++ x := by
    have hx' : ']' ∉ x := not_mem_of_notBracket hx
    simp [hx']
  obtain ⟨hidEq, hrest⟩ := first_inj hid hid' (List.append_cancel_left hclean)
  have hstrip : strip rest = rstrip r.shown := by
    calc strip rest = strip (ws ++ rest) := (strip_blank_append hws _).symm
      _ = strip (" ".toList ++ rstrip r.shown) := congrArg strip hrest.symm
      _ = strip (rstrip r.shown) := strip_blank_append (by decide) _
      _ = rstrip r.shown := r.strip_rstrip_shown
  have htool : toolId "sh_" r.id.text = some r.id.text := r.id.toolId_text ⟨'s', "h_".toList, rfl, by decide⟩
  rw [← hidEq] at hg
  have hg' : listShoppingItemRe.fullMatch r.clean = some [("id", r.id.text), ("rest", rest)] := hg
  unfold shoppingToken
  rw [hnone]
  simp [hg', captured, List.lookup, hstrip, htool, hne]

end ShoppingListItem

/-! ### The loop -/

/-- The lines after the header without the white space around them. -/
def cleanShoppingLines : Option Text → List ShoppingListItem → List Text
  | _, [] => []
  | current, r :: rest =>
    (if current = some r.category.text then [] else [r.category.line]) ++
      r.clean :: cleanShoppingLines (some r.category.text) rest

theorem Category.strip_line (c : Category) : strip c.line = c.line := by
  refine strip_of_ends ⟨'[', _, c.line_eq, by decide⟩ ?_
  rw [c.line_eq]
  exact starts_reverse_append _ (starts_reverse_append _ ⟨']', [], rfl, by decide⟩)

variable {lines : List Text} {rows : List ShoppingListItem} {current : Option Text} {ts : List ListShoppingItem}

theorem readShopping_congr {lines' : List Text} (h : lines.map strip = lines'.map strip) (current : Option Text) :
    readShopping current lines = readShopping current lines' := by
  induction lines generalizing lines' current with
  | nil =>
    obtain rfl : lines' = [] := List.map_eq_nil_iff.mp h.symm
    rfl
  | cons line rest ih =>
    obtain ⟨line', rest', rfl, hline, hrest⟩ := List.map_eq_cons_iff.mp h.symm
    simp only [readShopping, hline, ih hrest.symm]

theorem readShopping_category {c : Category} (h : c.Plain) (current : Option Text) (lines : List Text) :
    readShopping current (c.line :: lines) = readShopping (some c.text) lines := by
  simp only [readShopping, c.strip_line, (shoppingToken_category_iff c).mpr ⟨h, rfl⟩]

theorem readShopping_item {r : ShoppingListItem} (h : NoBreak (rstrip r.shown)) (current : Option Text)
    (lines : List Text) :
    readShopping current (r.clean :: lines) =
      current.bind fun category =>
        (readShopping current lines).map (⟨r.id.text, category, r.clean, rstrip r.shown⟩ :: ·) := by
  simp only [readShopping, r.strip_clean, r.shoppingToken_clean h]
  cases current <;> rfl

/-- **Items with plain categories are read back.** -/
theorem readShopping_clean (h : ∀ r ∈ rows, NoBreak (rstrip r.shown) ∧ r.category.Plain) (current : Option Text) :
    ∃ ts, readShopping current (cleanShoppingLines current rows) = some ts ∧
      List.Forall₂ ListShoppingItem.IsRow ts rows := by
  induction rows generalizing current with
  | nil => exact ⟨[], rfl, .nil⟩
  | cons r rest ih =>
    obtain ⟨hshown, hcategory⟩ := h r (by simp)
    obtain ⟨ts, hts, hsame⟩ := ih (fun r hr => h r (by simp [hr])) (some r.category.text)
    have hrow : ListShoppingItem.IsRow ⟨r.id.text, r.category.text, r.clean, rstrip r.shown⟩ r :=
      ⟨rfl, rfl, by rw [r.strip_clean, r.strip_line], strip_rstrip _⟩
    refine ⟨_ :: ts, ?_, .cons hrow hsame⟩
    rw [cleanShoppingLines]
    split
    · next hc => rw [hc, List.nil_append, readShopping_item hshown, hts, Option.bind_some, Option.map_some]
    · rw [List.singleton_append, readShopping_category hcategory, readShopping_item hshown, hts, Option.bind_some,
        Option.map_some]

theorem exists_of_readShopping_item {r : ShoppingListItem} (h : NoBreak (rstrip r.shown))
    (hts : readShopping current (r.clean :: lines) = some ts) :
    ∃ t ts', ts = t :: ts' ∧ readShopping current lines = some ts' := by
  rw [readShopping_item h] at hts
  obtain ⟨category, -, hts⟩ := Option.bind_eq_some_iff.mp hts
  obtain ⟨ts', hts', rfl⟩ := Option.map_eq_some_iff.mp hts
  exact ⟨_, ts', rfl, hts'⟩

/-- The line of a category is read as one, or it takes a row. -/
theorem exists_of_readShopping_category {c : Category} (hts : readShopping current (c.line :: lines) = some ts) :
    (c.Plain ∧ readShopping (some c.text) lines = some ts) ∨
      ∃ t ts', ts = t :: ts' ∧ readShopping current lines = some ts' := by
  simp only [readShopping, c.strip_line] at hts
  cases ht : shoppingToken c.line with
  | none => simp [ht] at hts
  | some token =>
    cases token with
    | category name =>
      obtain ⟨hplain, rfl⟩ := (shoppingToken_category_iff c).mp ht
      exact .inl ⟨hplain, by simpa [ht] using hts⟩
    | item id rawLine displayLine =>
      cases current with
      | none => simp [ht] at hts
      | some category =>
        simp only [ht, Option.map_eq_some_iff] at hts
        obtain ⟨ts', hts', rfl⟩ := hts
        exact .inr ⟨_, ts', rfl, hts'⟩

theorem length_le_of_readShopping (h : ∀ r ∈ rows, NoBreak (rstrip r.shown)) {printed : Option Text}
    (hts : readShopping current (cleanShoppingLines printed rows) = some ts) : rows.length ≤ ts.length := by
  induction rows generalizing current printed ts with
  | nil => exact Nat.zero_le _
  | cons r rest ih =>
    have hitem : ∀ {current ts}, readShopping current (r.clean :: cleanShoppingLines (some r.category.text) rest) =
        some ts → (r :: rest).length ≤ ts.length := by
      intro current ts hts
      obtain ⟨t, ts', rfl, hts'⟩ := exists_of_readShopping_item (h r (by simp)) hts
      exact Nat.succ_le_succ (ih (fun r hr => h r (by simp [hr])) hts')
    rw [cleanShoppingLines] at hts
    split at hts
    · exact hitem hts
    · rcases exists_of_readShopping_category hts with ⟨-, hts'⟩ | ⟨t, ts', rfl, hts'⟩
      · exact hitem hts'
      · exact Nat.le_succ_of_le (hitem hts')

/-- **If as many rows are read as were printed, no category was taken for an item.** -/
theorem plain_of_readShopping (h : ∀ r ∈ rows, NoBreak (rstrip r.shown)) {printed : Option Text}
    (hts : readShopping current (cleanShoppingLines printed rows) = some ts) (hlen : ts.length = rows.length) :
    ∀ r ∈ rows, printed = some r.category.text ∨ r.category.Plain := by
  induction rows generalizing current printed ts with
  | nil => simp
  | cons r rest ih =>
    have hrest : ∀ r ∈ rest, NoBreak (rstrip r.shown) := fun r hr => h r (by simp [hr])
    have hitem : ∀ {current}, readShopping current (r.clean :: cleanShoppingLines (some r.category.text) rest) =
        some ts → ∀ r' ∈ rest, r'.category.text = r.category.text ∨ r'.category.Plain := by
      intro current hts r' hr'
      obtain ⟨t, ts', rfl, hts'⟩ := exists_of_readShopping_item (h r (by simp)) hts
      have hlen' : ts'.length = rest.length := Nat.succ.inj hlen
      exact (ih hrest hts' hlen' r' hr').imp (fun heq => (Option.some.inj heq).symm) id
    have hsame : ∀ {r' : ShoppingListItem}, r'.category.text = r.category.text → r.category.Plain →
        r'.category.Plain := fun heq hplain => by rwa [Category.Plain, heq]
    rw [cleanShoppingLines] at hts
    split at hts
    · next hc =>
      intro r' hr'
      rcases List.mem_cons.mp hr' with rfl | hr'
      · exact .inl hc
      · exact (hitem hts r' hr').imp (fun heq => by rw [hc, heq]) id
    · rcases exists_of_readShopping_category hts with ⟨hplain, hts'⟩ | ⟨t, ts', rfl, hts'⟩
      · intro r' hr'
        rcases List.mem_cons.mp hr' with rfl | hr'
        · exact .inr hplain
        · exact .inr ((hitem hts' r' hr').elim (fun heq => hsame heq hplain) id)
      · -- the category and the item would be two rows
        obtain ⟨t', ts'', rfl, hts''⟩ := exists_of_readShopping_item (h r (by simp)) hts'
        have hle := length_le_of_readShopping hrest hts''
        simp only [List.length_cons] at hlen
        omega

theorem rawLine_of_shoppingToken {clean id rawLine displayLine : Text}
    (h : shoppingToken clean = some (.item id rawLine displayLine)) : rawLine = clean := by
  unfold shoppingToken at h
  split at h
  · cases h
  · simp only [Option.bind_eq_bind, Option.bind_eq_some_iff] at h
    obtain ⟨_, -, _, -, _, -, h⟩ := h
    cases h
    rfl

/-- What is read as the line of an item is one line. -/
theorem noBreak_of_readShopping (hlines : ∀ line ∈ lines, NoBreak line) (hts : readShopping current lines = some ts) :
    ∀ t ∈ ts, NoBreak t.rawLine := by
  induction lines generalizing current ts with
  | nil =>
    obtain rfl := Option.some.inj hts
    simp
  | cons line rest ih =>
    have hrest : ∀ line ∈ rest, NoBreak line := fun line hl => hlines line (by simp [hl])
    cases ht : shoppingToken (strip line) with
    | none => simp [readShopping, ht] at hts
    | some token =>
      cases token with
      | category name =>
        simp only [readShopping, ht] at hts
        exact ih hrest hts
      | item id rawLine displayLine =>
        cases current with
        | none => simp [readShopping, ht] at hts
        | some category =>
          simp only [readShopping, ht, Option.map_eq_some_iff] at hts
          obtain ⟨ts', hts', rfl⟩ := hts
          intro t hmem
          rcases List.mem_cons.mp hmem with rfl | hmem
          · show NoBreak rawLine
            rw [rawLine_of_shoppingToken ht]
            exact (hlines line (by simp)).strip
          · exact ih hrest hts' t hmem

/-! ### When nothing is read -/

/-- The line is the line of an item. -/
def ReadsItem (line : Text) : Prop :=
  ∃ id rawLine displayLine, shoppingToken (strip line) = some (.item id rawLine displayLine)

/-- The line is the line of a category. -/
def ReadsCategory (line : Text) : Prop := ∃ name, shoppingToken (strip line) = some (.category name)

theorem readShopping_some_eq_none_iff {category : Text} :
    readShopping (some category) lines = none ↔ ∃ line ∈ lines, shoppingToken (strip line) = none := by
  induction lines generalizing category with
  | nil => simp [readShopping]
  | cons line rest ih =>
    cases ht : shoppingToken (strip line) with
    | none => simp [readShopping, ht]
    | some token => cases token <;> simp [readShopping, ht, ih]

theorem readShopping_eq_nil_iff : readShopping current lines = some [] ↔ ∀ line ∈ lines, ReadsCategory line := by
  induction lines generalizing current with
  | nil => simp [readShopping]
  | cons line rest ih =>
    cases ht : shoppingToken (strip line) with
    | none => simp [readShopping, ReadsCategory, ht]
    | some token =>
      cases token with
      | category name => simp [readShopping, ReadsCategory, ht, ih]
      | item id rawLine displayLine => cases current <;> simp [readShopping, ReadsCategory, ht]

theorem readShopping_none_eq_none_iff : readShopping none lines = none ↔
      (∃ line ∈ lines, shoppingToken (strip line) = none) ∨ ∃ line ∈ lines.head?, ReadsItem line := by
  cases lines with
  | nil => simp [readShopping]
  | cons line rest =>
    cases ht : shoppingToken (strip line) with
    | none => simp [readShopping, ht]
    | some token =>
      cases token with
      | category name => simp [readShopping, ReadsItem, ht, readShopping_some_eq_none_iff]
      | item id rawLine displayLine => simp [readShopping, ReadsItem, ht]

theorem acceptRows_eq_none_iff {τ : Type} {result : Option (List τ)} :
    (acceptRows result).rows = none ↔ result = none ∨ result = some [] := by
  match result with
  | none => simp [acceptRows, ListOutput.rows]
  | some [] => simp [acceptRows, ListOutput.rows]
  | some (_ :: _) => simp [acceptRows, ListOutput.rows]

theorem acceptRows_eq_some_iff {τ : Type} {result : Option (List τ)} {ts : List τ} (hne : ts ≠ []) :
    (acceptRows result).rows = some ts ↔ result = some ts := by
  match result with
  | none => simp [acceptRows, ListOutput.rows]
  | some [] => simp [acceptRows, ListOutput.rows, hne.symm]
  | some (_ :: _) => simp [acceptRows, ListOutput.rows]

/-! ### The whole text -/

theorem shoppingLines_ne_nil (hne : rows ≠ []) : shoppingLines none rows ≠ [] := by
  obtain ⟨r, rest, rfl⟩ := List.exists_cons_of_ne_nil hne
  simp [shoppingLines]

theorem mem_shoppingLines {line : Text}
    (h : line ∈ shoppingLines current rows) : ∃ r ∈ rows, line = r.line ∨ line = r.category.line := by
  induction rows generalizing current with
  | nil => cases h
  | cons r rest ih =>
    rw [shoppingLines] at h
    rcases List.mem_append.mp h with h | h
    · split at h
      · cases h
      · exact ⟨r, by simp, .inr (List.mem_singleton.mp h)⟩
    · rcases List.mem_cons.mp h with rfl | h
      · exact ⟨r, by simp, .inl rfl⟩
      · obtain ⟨r', hr', hline⟩ := ih h
        exact ⟨r', by simp [hr'], hline⟩

theorem shoppingLine_not_blank : ∀ line ∈ shoppingLines none rows, ¬ Blank line := by
  intro line hline hb
  have hbracket : isSpace '[' = false := by decide
  obtain ⟨r, -, rfl | rfl⟩ := mem_shoppingLines hline
  · simp [hb '[' (by simp [ShoppingListItem.line])] at hbracket
  · simp [hb '[' (by simp [Category.line])] at hbracket

theorem map_strip_shoppingLines (rows : List ShoppingListItem) (current : Option Text) :
    (shoppingLines current rows).map strip = (cleanShoppingLines current rows).map strip := by
  induction rows generalizing current with
  | nil => rfl
  | cons r rest ih =>
    simp only [shoppingLines, cleanShoppingLines, List.map_append, List.map_cons, r.strip_line, r.strip_clean, ih]

/-- A line that is one line when it is stripped is one line of the text. -/
theorem map_strip_block {r : ShoppingListItem} {line : Text} {b : List Text} (h : RowLines line b)
    (hline : line = r.line ∧ NoBreak (rstrip r.shown) ∨ line = r.category.line) : b.map strip = [strip line] := by
  rcases hline with ⟨rfl, hshown⟩ | rfl
  · obtain ⟨ws, hws, hline⟩ := r.line_eq
    rw [r.strip_line]
    rw [hline] at h
    have hsp : NoBreak "  ".toList := by decide
    obtain ⟨w, hw, -, rfl⟩ := h.eq_singleton (hsp.append (r.clean_noBreak_iff.mpr hshown))
      (starts_reverse_append _ r.clean_ends) hws
    rw [List.map_singleton, strip_pad (by decide) hw, r.strip_clean]
  · have hbreak : NoBreak r.category.line := by
      rw [r.category.line_eq]
      have h₁ : NoBreak "[".toList := by decide
      have h₂ : NoBreak "]".toList := by decide
      exact h₁.append (r.category.noBreak.append h₂)
    have hends : Starts r.category.line.reverse := by
      rw [r.category.line_eq]
      exact starts_reverse_append _ (starts_reverse_append _ ⟨']', [], rfl, by decide⟩)
    rw [h.eq_self hbreak hends, List.map_singleton]

/-- If no item is broken, the lines of the text are those that were printed. -/
theorem map_strip_blocks (h : ∀ r ∈ rows, NoBreak (rstrip r.shown)) {blocks : List (List Text)}
    (hblocks : List.Forall₂ (fun line b => RowLines line b) (shoppingLines current rows) blocks) :
    blocks.flatten.map strip = (cleanShoppingLines current rows).map strip := by
  rw [← map_strip_shoppingLines]
  have hlines : ∀ line ∈ shoppingLines current rows, ∃ r : ShoppingListItem,
      line = r.line ∧ NoBreak (rstrip r.shown) ∨ line = r.category.line := by
    intro line hline
    obtain ⟨r, hr, rfl | rfl⟩ := mem_shoppingLines hline
    · exact ⟨r, .inl ⟨rfl, h r hr⟩⟩
    · exact ⟨r, .inr rfl⟩
  generalize shoppingLines current rows = lines at hblocks hlines
  induction hblocks with
  | nil => rfl
  | @cons line b lines blocks hb _ ih =>
    obtain ⟨r, hr⟩ := hlines line (by simp)
    rw [List.flatten_cons, List.map_append, map_strip_block hb hr, ih fun line hl => hlines line (by simp [hl])]
    rfl

theorem parseListShopping_rows (hne : rows ≠ []) :
    ∃ blocks, List.Forall₂ (fun line b => RowLines line b) (shoppingLines none rows) blocks ∧
      ((fullLines (strip (joinLines (shoppingHeader :: shoppingLines none rows)))).map rstrip).drop 1 =
        blocks.flatten.map rstrip ∧
      (parseListShopping (joinLines (shoppingHeader :: shoppingLines none rows))).rows =
        (acceptRows (readShopping none (blocks.flatten.map rstrip))).rows := by
  have hlines := shoppingLines_ne_nil hne
  obtain ⟨tail, htail⟩ : ∃ tail, joinLines (shoppingHeader :: shoppingLines none rows) = 'p' :: tail :=
    joinLines_head (show shoppingHeader = _ from rfl) _
  have hstart : Starts (joinLines ([shoppingHeader] ++ (shoppingLines none rows).map id)) :=
    ⟨'p', tail, by simpa using htail, by decide⟩
  obtain ⟨blocks, hblocks, hfull⟩ := exists_blocks id [shoppingHeader] hlines shoppingLine_not_blank hstart
  have hheader : [shoppingHeader].flatMap fullLines = [shoppingHeader] := by decide
  rw [hheader, List.singleton_append, List.singleton_append, List.map_id] at hfull
  refine ⟨blocks, hblocks, by rw [hfull]; rfl, ?_⟩
  have hempty : strip (joinLines (shoppingHeader :: shoppingLines none rows)) ≠ "no shopping items".toList := by
    intro he
    rw [he, show fullLines "no shopping items".toList = ["no shopping items".toList] by decide,
      List.cons.injEq] at hfull
    exact absurd hfull.1 (by decide)
  have herr : parseError (joinLines (shoppingHeader :: shoppingLines none rows)) = none := by
    rw [htail]
    exact parseError_of_head (by decide)
  have hsame : strip (rstrip shoppingHeader) = shoppingHeader := by decide
  simp only [parseListShopping, herr, hempty, if_false, hfull, List.map_cons, hsame, ne_eq, not_true]

/-- An item whose texts have a line break. -/
def ShoppingListItem.Broken (r : ShoppingListItem) : Prop :=
  ¬ NoBreak r.title.text ∨ ∃ quantity ∈ r.quantityText, ¬ NoBreak quantity.text

/-- An item that is read back: nothing breaks its line before the white space at its end, and
its category is told from an item. -/
def ShoppingListItem.Plain (r : ShoppingListItem) : Prop := NoBreak (rstrip r.shown) ∧ r.category.Plain

/-- `parse_list_shopping` is honest about the items that are printed. -/
def ShoppingHonest (keep : Text → Bool) (rows : List ShoppingListItem) : Prop :=
  Honest ListShoppingItem.IsRow (shoppingRows keep rows) (∃ r ∈ shoppingRows keep rows, r.Broken)
    (parseListShopping (listShopping keep rows)).rows

/-- Some line after the header is neither, or an item stands before all categories, or there
is no item. -/
def ShoppingUnread (text : Text) : Prop :=
  let lines := ((fullLines (strip text)).map rstrip).drop 1
  ((∃ line ∈ lines, shoppingToken (strip line) = none) ∨ ∃ line ∈ lines.head?, ReadsItem line) ∨
    ∀ line ∈ lines, ReadsCategory line

/-- **What is read is what was printed exactly when all items are plain.** -/
theorem readShopping_rows_iff (hne : rows ≠ []) {blocks : List (List Text)}
    (hblocks : List.Forall₂ (fun line b => RowLines line b) (shoppingLines none rows) blocks) :
    (∃ ts, (acceptRows (readShopping none (blocks.flatten.map rstrip))).rows = some ts ∧
      List.Forall₂ ListShoppingItem.IsRow ts rows) ↔ ∀ r ∈ rows, r.Plain := by
  have hnil : ∀ {ts : List ListShoppingItem}, List.Forall₂ ListShoppingItem.IsRow ts rows → ts ≠ [] := by
    rintro ts hsame rfl
    exact hne (List.forall₂_nil_left_iff.mp hsame)
  have hclean : (∀ r ∈ rows, NoBreak (rstrip r.shown)) →
      readShopping none (blocks.flatten.map rstrip) = readShopping none (cleanShoppingLines none rows) := by
    intro h
    refine readShopping_congr ?_ none
    rw [List.map_map, ← map_strip_blocks h hblocks]
    exact List.map_congr_left fun line _ => strip_rstrip line
  constructor
  · rintro ⟨ts, hts, hsame⟩
    rw [acceptRows_eq_some_iff (hnil hsame)] at hts
    have hlines : ∀ line ∈ blocks.flatten.map rstrip, NoBreak line := by
      intro line hline
      obtain ⟨l, hl, rfl⟩ := List.mem_map.mp hline
      obtain ⟨b, hb, hlb⟩ := List.mem_flatten.mp hl
      obtain ⟨i, hi, rfl⟩ := List.getElem_of_mem hb
      have hb : RowLines _ blocks[i] := hblocks.get (hblocks.length_eq ▸ hi) hi
      have hl : NoBreak l := hb.noBreak l hlb
      obtain ⟨ws, -, hs, -⟩ := exists_rstrip l
      rw [hs] at hl
      exact hl.of_append_left
    have hraw := noBreak_of_readShopping hlines hts
    have hshown : ∀ r ∈ rows, NoBreak (rstrip r.shown) := by
      intro r hr
      obtain ⟨i, hi, rfl⟩ := List.getElem_of_mem hr
      have hi' : i < ts.length := hsame.length_eq ▸ hi
      obtain ⟨-, -, hrow, -⟩ := hsame.get hi' hi
      rw [← ShoppingListItem.clean_noBreak_iff, ← ShoppingListItem.strip_line]
      exact hrow ▸ (hraw _ (List.getElem_mem hi')).strip
    rw [hclean hshown] at hts
    intro r hr
    refine ⟨hshown r hr, ?_⟩
    rcases plain_of_readShopping hshown hts hsame.length_eq r hr with h | h
    · cases h
    · exact h
  · intro h
    obtain ⟨ts, hts, hsame⟩ := readShopping_clean h none
    refine ⟨ts, (acceptRows_eq_some_iff (hnil hsame)).mpr ?_, hsame⟩
    rw [hclean fun r hr => (h r hr).1, hts]

/-- **The reader of the shopping list is honest exactly when all items are plain, or a text has
a line break and the lines are not read.** -/
theorem shopping_honest_iff (keep : Text → Bool) (rows : List ShoppingListItem) :
    ShoppingHonest keep rows ↔
      (∀ r ∈ shoppingRows keep rows, r.Plain) ∨
        (∃ r ∈ shoppingRows keep rows, r.Broken) ∧ ShoppingUnread (listShopping keep rows) := by
  unfold ShoppingHonest ShoppingUnread listShopping
  generalize shoppingRows keep rows = printed
  cases printed with
  | nil =>
    have hempty : (parseListShopping "no shopping items".toList).rows = some [] := by decide
    refine ⟨fun _ => .inl (by simp), fun _ => ?_⟩
    show Honest _ [] _ (parseListShopping "no shopping items".toList).rows
    rw [hempty]
    exact honest_nil
  | cons r rest =>
    obtain ⟨blocks, hblocks, hlines, hrows⟩ := parseListShopping_rows (List.cons_ne_nil r rest)
    simp only [hrows, hlines]
    rw [honest_iff, readShopping_rows_iff (List.cons_ne_nil r rest) hblocks, acceptRows_eq_none_iff,
      readShopping_none_eq_none_iff, readShopping_eq_nil_iff]

end Sreda.Housewife
