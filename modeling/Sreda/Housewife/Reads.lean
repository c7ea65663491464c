import Sreda.Housewife.ListedRows
import Sreda.Housewife.FamilyRows
import Sreda.Housewife.ShoppingRows

/-!
# What is read is what was printed

The six readers together, over everything that is stored of a user. The ids that they return
select what later steps change.

## What is proved

* `reads_honest_iff`: the readers return exactly the printed rows, and accept every text
  without a line break, exactly when the stored texts keep clear of the marks of the formats;
* `named_list`: an item whose title names another list is read as an item of that list.
-/

namespace Sreda.Housewife

open Lib.PyText Lib.Regex Lib.Regex.Re

/-- What is stored of a user, in the order in which it is printed. -/
structure UserRows where
  shopping : List ShoppingListItem
  reminders : List FamilyReminder
  members : List FamilyMember
  checklists : List Checklist

/-- What a call of the tools depends on besides: the year, what `repr` takes for printable, and
the filters of the arguments. -/
structure ReadEnv where
  thisYear : Year
  printable : Printable
  keepShopping : Text → Bool
  keepReminder : Text → Bool
  keepList : Text → Bool
  keepItem : Text → Bool

/-- **Reads lose nothing and invent nothing.** -/
structure ReadsHonest (env : ReadEnv) (rows : UserRows) : Prop where
  shopping : ShoppingHonest env.keepShopping rows.shopping
  reminders : RemindersHonest env.keepReminder rows.reminders
  family : FamilyHonest env.thisYear rows.members
  checklists : ChecklistsHonest rows.checklists
  shown : ∀ cl ∈ rows.checklists, ShownHonest env.printable cl
  listed : ListedHonest (listedRows env.keepList env.keepItem rows.checklists)
    (listChecklistItems env.keepList env.keepItem rows.checklists)

/-- A shown list is read: its texts keep to their lines, or what is printed is rejected; of a
list without items `repr` changes nothing in the title, or it makes it too long. -/
def Checklist.Readable (u : Printable) (cl : Checklist) : Prop :=
  if cl.items = [] then
    PlainTitle u cl.title.text ∨ ¬ NoBreak cl.title.text ∧ 500 < (reprBody u cl.title.text).length
  else
    (NoBreak cl.title.text ∧ ∀ it ∈ cl.items, NoBreak (rstrip it.title.text)) ∨
      cl.Broken ∧ ShownUnread (showChecklist u cl)

/-- **The stored texts keep clear of the marks of the formats**; or, where one of them has a
line break, what is printed is rejected. -/
structure Readable (env : ReadEnv) (rows : UserRows) : Prop where
  shopping : (∀ r ∈ shoppingRows env.keepShopping rows.shopping, r.Plain) ∨
    (∃ r ∈ shoppingRows env.keepShopping rows.shopping, r.Broken) ∧
      ShoppingUnread (listShopping env.keepShopping rows.shopping)
  reminders : (∀ r ∈ reminderRows env.keepReminder rows.reminders, NoBreak r.title) ∨
    (∃ r ∈ reminderRows env.keepReminder rows.reminders, ¬ NoBreak r.title) ∧
      RemindersUnread (listReminders env.keepReminder rows.reminders)
  family : (∀ m ∈ rows.members, m.Plain env.thisYear) ∨
    (∃ m ∈ rows.members, m.Broken) ∧
      FamilyUnread rows.members.length (listFamilyMembers env.thisYear.1 rows.members)
  checklists : (∀ cl ∈ rows.checklists, NoBreak cl.title.text) ∨
    (∃ cl ∈ rows.checklists, ¬ NoBreak cl.title.text) ∧ ChecklistsUnread (listChecklists rows.checklists)
  shown : ∀ cl ∈ rows.checklists, cl.Readable env.printable
  listed : (∀ r ∈ listedRows env.keepList env.keepItem rows.checklists, r.Plain) ∨
    (∃ r ∈ listedRows env.keepList env.keepItem rows.checklists, r.Broken) ∧
      ListedUnread (listChecklistItems env.keepList env.keepItem rows.checklists)

theorem shownHonest_iff (u : Printable) (cl : Checklist) : ShownHonest u cl ↔ cl.Readable u := by
  unfold Checklist.Readable
  split
  · next h => exact shown_empty_honest_iff u h
  · next h => exact shown_honest_iff u h

/-- **The readers are honest exactly when the stored texts are readable.** -/
theorem reads_honest_iff (env : ReadEnv) (rows : UserRows) : ReadsHonest env rows ↔ Readable env rows := by
  have hshown : (∀ cl ∈ rows.checklists, ShownHonest env.printable cl) ↔
      ∀ cl ∈ rows.checklists, cl.Readable env.printable :=
    forall₂_congr fun cl _ => shownHonest_iff env.printable cl
  constructor
  · intro h
    exact ⟨(shopping_honest_iff _ _).mp h.shopping, (reminders_honest_iff _ _).mp h.reminders,
      (family_honest_iff _ _).mp h.family, (checklists_honest_iff _).mp h.checklists, hshown.mp h.shown,
      (listed_honest_iff _ _ _).mp h.listed⟩
  · intro h
    exact ⟨(shopping_honest_iff _ _).mpr h.shopping, (reminders_honest_iff _ _).mpr h.reminders,
      (family_honest_iff _ _).mpr h.family, (checklists_honest_iff _).mpr h.checklists, hshown.mpr h.shown,
      (listed_honest_iff _ _ _).mpr h.listed⟩

/-! ### An item that names a list -/

/-- What the reader takes for the id of the list. -/
def namedId : Text := "checklist_bbbbbbbbbbbbbbbbbbbbbbbb".toList

def namingItem : ChecklistItem where
  id := ⟨List.replicate 24 'a', rfl, List.all_eq_true.mp (by decide)⟩
  title := ⟨"молоко @ [checklist_bbbbbbbbbbbbbbbbbbbbbbbb] дача".toList, ⟨'м', _, rfl, by decide⟩, by decide⟩
  status := .pending

def namingList : Checklist where
  id := ⟨List.replicate 24 'c', rfl, List.all_eq_true.mp (by decide)⟩
  title := ⟨"дом".toList, ⟨'д', _, rfl, by decide⟩, by decide⟩
  items := [namingItem]

theorem namingItem_names : NamesList namingItem.title.text := by
  have hid : (idRe "checklist_").Matches namedId [] :=
    matches_idRe.mpr ⟨List.replicate 24 'b', rfl, rfl, List.all_eq_true.mp (by decide), rfl⟩
  exact ⟨"молоко".toList, " ".toList, " ".toList, namedId, " дача".toList, by decide +kernel, by decide,
    ⟨by decide, by decide⟩, ⟨by decide, by decide⟩, hid, .inr ⟨' ', "дача".toList, rfl, by decide⟩⟩

/-- **An item whose title names a list** has no line break, and it is not read as it is stored. -/
theorem named_list : ¬ ∀ (env : ReadEnv) (rows : UserRows), ReadsHonest env rows := by
  intro h
  let u : Printable := ⟨fun c => !isSpace c, fun c hc _ => by simp [hc]⟩
  let env : ReadEnv := ⟨⟨2026, by decide⟩, u, fun _ => true, fun _ => true, fun _ => true, fun _ => true⟩
  let rows : UserRows := ⟨[], [], [], [namingList]⟩
  have hrow : (⟨namingList, namingItem⟩ : ListedItem) ∈ listedRows env.keepList env.keepItem rows.checklists := by
    simp [listedRows, rows, env, namingList]
  rcases (listed_honest_iff _ _ _).mp (h env rows).listed with hplain | ⟨⟨r, hr, hbroken⟩, -⟩
  · exact (hplain _ hrow).2.2 namingItem_names
  · have hsingle : r = ⟨namingList, namingItem⟩ := by simpa [listedRows, rows, env, namingList] using hr
    subst hsingle
    rcases hbroken with hb | hb
    · exact hb (by decide)
    · exact hb (by decide)

end Sreda.Housewife
