import Sreda.Lib.TextLines

/-!
# The stored rows and what the list tools print

The rows of the shopping list, the reminders, the family and the checklists, with the texts
that the services store, and the texts that `list_shopping`, `list_reminders`,
`list_family_members`, `list_checklists`, `show_checklist` and `list_checklist_items` print
for them (`housewife_chat_tools.py`).

A stored text keeps what its service did to it: it was stripped and cut, so it begins with no
white space, but it may contain line breaks, brackets and anything else. The ids end in 24
hexadecimal digits. What `_format_reminder_for_llm` writes for the trigger is made of fixed
words and numbers; of it the model keeps that it is one line.
-/

namespace Sreda.Housewife

open Lib.PyText

/-! ### The stored texts -/

/-- `.strip()[:cap]`, as the services normalise a text. -/
def normalise (cap : ℕ) (raw : Text) : Text := (strip raw).take cap

/-- A text that a service stored. -/
structure StoredText (cap : ℕ) where
  text : Text
  starts : Starts text
  length_le : text.length ≤ cap

theorem normalise_starts {cap : ℕ} (hcap : 0 < cap) {raw : Text} (h : strip raw ≠ []) : Starts (normalise cap raw) := by
  obtain ⟨c, t, ht, hc⟩ : Starts (strip raw) := by
    obtain ⟨ws, -, hs, hl⟩ := exists_lstrip raw
    rcases hl with hl | hl
    · exact absurd (by rw [strip, hl]; rfl) h
    · obtain ⟨ws', -, hs', hr⟩ := exists_rstrip (lstrip raw)
      obtain ⟨c, t, ht, hc⟩ := hl
      obtain ⟨d, u, hu⟩ := List.exists_cons_of_ne_nil h
      rw [show rstrip (lstrip raw) = d :: u from hu, ht, List.cons_append, List.cons.injEq] at hs'
      exact ⟨d, u, hu, hs'.1 ▸ hc⟩
  refine ⟨c, t.take (cap - 1), ?_, hc⟩
  rw [normalise, ht]
  obtain ⟨n, rfl⟩ := Nat.exists_eq_add_of_lt hcap
  simp

/-- What a service stores for a text that is not blank. -/
def StoredText.ofRaw {cap : ℕ} (hcap : 0 < cap) (raw : Text) (h : strip raw ≠ []) : StoredText cap :=
  ⟨normalise cap raw, normalise_starts hcap h, List.length_take_le _ _⟩

/-- `str.split()`. -/
def words (s : Text) : List Text := (s.splitOnP isSpace).filter (· ≠ [])

/-- `" ".join(words)`. -/
def joinWords : List Text → Text
  | [] => []
  | [w] => w
  | w :: rest => w ++ ' ' :: joinWords rest

/-- `_coerce_category`; a name of the taxonomy is kept as it is, like any other. -/
def coerceCategory (lower : Text → Text) (raw : Text) : Text :=
  let candidate := joinWords (words (lower (strip raw)))
  if candidate = [] then "другое".toList else candidate.take 64

theorem mem_words {s w : Text} (h : w ∈ words s) : w ≠ [] ∧ ∀ c ∈ w, isSpace c = false := by
  have hsplit : ∀ (s : Text), ∀ w ∈ s.splitOnP isSpace, ∀ c ∈ w, isSpace c = false := by
    intro s
    induction s with
    | nil => simp
    | cons d s ih =>
      rw [List.splitOnP_cons_eq_if_modifyHead]
      obtain ⟨v, vs, hv⟩ := List.exists_cons_of_ne_nil (List.splitOnP_ne_nil isSpace s)
      rw [hv] at ih ⊢
      intro w hw c hc
      split at hw
      · rcases List.mem_cons.mp hw with rfl | hw
        · simp at hc
        · exact ih w hw c hc
      · next hd =>
        rw [List.modifyHead_cons] at hw
        rcases List.mem_cons.mp hw with rfl | hw
        · rcases List.mem_cons.mp hc with rfl | hc
          · simpa using hd
          · exact ih v (by simp) c hc
        · exact ih w (by simp [hw]) c hc
  rw [words, List.mem_filter] at h
  exact ⟨by simpa using h.2, hsplit s w h.1⟩

theorem joinWords_spaces {ws : List Text} (h : ∀ w ∈ ws, ∀ c ∈ w, isSpace c = false) :
    ∀ c ∈ joinWords ws, isSpace c = true → c = ' ' := by
  fun_induction joinWords ws with
  | case1 => simp
  | case2 w =>
    intro c hc hs
    simp [h w (by simp) c hc] at hs
  | case3 w rest _ ih =>
    intro c hc hs
    rcases List.mem_append.mp hc with hc | hc
    · simp [h w (by simp) c hc] at hs
    · rcases List.mem_cons.mp hc with rfl | hc
      · rfl
      · exact ih (fun v hv => h v (by simp [hv])) c hc hs

theorem joinWords_starts {ws : List Text} (h : ∀ w ∈ ws, w ≠ [] ∧ ∀ c ∈ w, isSpace c = false)
    (hne : joinWords ws ≠ []) : Starts (joinWords ws) := by
  have hword : ∀ w ∈ ws, Starts w := by
    intro w hw
    obtain ⟨c, t, rfl⟩ := List.exists_cons_of_ne_nil (h w hw).1
    exact ⟨c, t, rfl, (h _ hw).2 c (by simp)⟩
  fun_cases joinWords ws with
  | case1 => exact absurd rfl hne
  | case2 w => exact hword w (by simp)
  | case3 w rest _ => exact (hword w (by simp)).append _

/-- A stored category: words with a single space between them. -/
structure Category where
  text : Text
  starts : Starts text
  spaces : ∀ c ∈ text, isSpace c = true → c = ' '

/-- What the shopping service stores for a category. -/
def Category.ofRaw (lower : Text → Text) (raw : Text) : Category where
  text := coerceCategory lower raw
  starts := by
    simp only [coerceCategory]
    split
    · exact ⟨'д', "ругое".toList, by decide, by decide⟩
    · next hne =>
      obtain ⟨c, t, ht, hc⟩ := joinWords_starts (fun w hw => mem_words hw) hne
      exact ⟨c, t.take 63, by rw [ht]; rfl, hc⟩
  spaces := by
    simp only [coerceCategory]
    split
    · have hall : "другое".toList.all (fun c => !isSpace c) = true := by decide
      intro c hc hs
      simp [by simpa using List.all_eq_true.mp hall c hc] at hs
    · exact fun c hc => joinWords_spaces (fun w hw => (mem_words hw).2) c (List.mem_of_mem_take hc)

theorem Category.noBreak (c : Category) : NoBreak c.text := by
  intro d hd
  by_contra hb
  have hb : isLineBreak d = true := by simpa using hb
  rw [c.spaces d hd (isSpace_of_isLineBreak hb)] at hb
  simp [isLineBreak] at hb

/-! ### The ids -/

def isHex (c : Char) : Bool := ('0' ≤ c && c ≤ '9') || ('a' ≤ c && c ≤ 'f')

/-- An id: the prefix of its kind and the first 24 digits of a `uuid4`. -/
structure RowId (kind : String) where
  hex : Text
  length_eq : hex.length = 24
  isHex : ∀ c ∈ hex, isHex c = true

def RowId.text {kind : String} (id : RowId kind) : Text := kind.toList ++ id.hex

/-! ### The rows -/

/-- `ShoppingListItem`, a pending one. -/
structure ShoppingListItem where
  id : RowId "sh_"
  title : StoredText 500
  quantityText : Option (StoredText 64)
  category : Category

/-- What `_format_reminder_for_llm` writes for the trigger and the recurrence. -/
structure TriggerText where
  text : Text
  noBreak : NoBreak text
  ends : Starts text.reverse

/-- `FamilyReminder`, an active one; its title is stripped and not cut. -/
structure FamilyReminder where
  id : RowId "rem_"
  title : Text
  trigger : TriggerText

/-- `FAMILY_ROLES`. -/
inductive FamilyRole where
  | self | spouse | child | parent | other
  deriving DecidableEq

def FamilyRole.text : FamilyRole → String
  | self => "self"
  | spouse => "spouse"
  | child => "child"
  | parent => "parent"
  | other => "other"

/-- `FamilyMember`. -/
structure FamilyMember where
  id : RowId "fm_"
  name : StoredText 200
  role : FamilyRole
  birthYear : Option { y : ℕ // 1900 ≤ y ∧ y ≤ 2100 }
  ageHint : Option (StoredText 64)
  notes : Option (StoredText 500)

/-- `CHECKLIST_ITEM_STATUSES`. -/
inductive ItemStatus where
  | pending | done | cancelled
  deriving DecidableEq

/-- `ChecklistItem`. -/
structure ChecklistItem where
  id : RowId "clitem_"
  title : StoredText 1000
  status : ItemStatus

/-- `Checklist`, with its items in their order. The title is cut at 200 characters, and a
suffix ` (N)` of at most six may follow. -/
structure Checklist where
  id : RowId "checklist_"
  title : StoredText 206
  items : List ChecklistItem

/-- `list_summary`. -/
def Checklist.pendingCount (cl : Checklist) : ℕ := cl.items.countP (·.status = .pending)
def Checklist.doneCount (cl : Checklist) : ℕ := cl.items.countP (·.status = .done)
def Checklist.totalCount (cl : Checklist) : ℕ := cl.items.length

/-! ### `list_shopping` -/

/-- The title with the quantity in parentheses. -/
def ShoppingListItem.shown (r : ShoppingListItem) : Text :=
  r.title.text ++ match r.quantityText with
    | some q => " (".toList ++ q.text ++ ")".toList
    | none => []

def ShoppingListItem.line (r : ShoppingListItem) : Text := "  [".toList ++ r.id.text ++ "] ".toList ++ r.shown

def Category.line (c : Category) : Text := "[".toList ++ c.text ++ "]".toList

/-- The lines after the header: a category is printed where it changes. -/
def shoppingLines : Option Text → List ShoppingListItem → List Text
  | _, [] => []
  | current, r :: rest =>
    (if current = some r.category.text then [] else [r.category.line]) ++
      r.line :: shoppingLines (some r.category.text) rest

def shoppingHeader : Text := "pending shopping items:".toList

/-- `list_shopping`; `keep` is the filter on the titles. -/
def shoppingRows (keep : Text → Bool) (rows : List ShoppingListItem) : List ShoppingListItem :=
  rows.filter (keep ·.title.text)

def listShopping (keep : Text → Bool) (rows : List ShoppingListItem) : Text :=
  match shoppingRows keep rows with
  | [] => "no shopping items".toList
  | r :: rest => joinLines (shoppingHeader :: shoppingLines none (r :: rest))

/-! ### `list_reminders` -/

/-- The title and the trigger. -/
def FamilyReminder.shown (r : FamilyReminder) : Text := r.title ++ " — ".toList ++ r.trigger.text

/-- `_format_reminder_for_llm`. -/
def FamilyReminder.line (r : FamilyReminder) : Text := "[".toList ++ r.id.text ++ "] ".toList ++ r.shown

def remindersHeader : Text := "active reminders:".toList

/-- The reminders that `list_reminders` prints. -/
def reminderRows (keep : Text → Bool) (rows : List FamilyReminder) : List FamilyReminder :=
  (rows.filter (keep ·.title)).take 20

/-- `list_reminders`. -/
def listReminders (keep : Text → Bool) (rows : List FamilyReminder) : Text :=
  match reminderRows keep rows with
  | [] => "no active reminders".toList
  | r :: rest => joinLines (remindersHeader :: (r :: rest).map (·.line))

/-! ### `list_family_members` -/

/-- `f"{n}"` of an integer. -/
def intDigits : Int → Text
  | .ofNat n => digits n
  | .negSucc n => '-' :: digits (n + 1)

/-- The age as it is printed: from the year of birth, or else the hint. -/
def FamilyMember.ageText (thisYear : ℕ) (m : FamilyMember) : Option Text :=
  match m.birthYear, m.ageHint with
  | some y, _ => some (intDigits ((thisYear : Int) - (y.1 : Int)) ++ " лет".toList)
  | none, some hint => some hint.text
  | none, none => none

def FamilyMember.line (thisYear : ℕ) (m : FamilyMember) : Text :=
  "  [".toList ++ m.id.text ++ "] ".toList ++ m.name.text ++ " (".toList ++ m.role.text.toList ++
    (match m.ageText thisYear with
      | some age => ", ".toList ++ age
      | none => []) ++ ")".toList ++
    (match m.notes with
      | some notes => " — ".toList ++ notes.text
      | none => [])

def familyHeader (n : ℕ) : Text := digits n ++ " member(s):".toList

/-- `list_family_members`. -/
def listFamilyMembers (thisYear : ℕ) (rows : List FamilyMember) : Text :=
  match rows with
  | [] => "no family members recorded".toList
  | m :: rest => joinLines (familyHeader (m :: rest).length :: (m :: rest).map (·.line thisYear))

/-! ### `list_checklists` -/

def Checklist.line (cl : Checklist) : Text :=
  "[".toList ++ cl.id.text ++ "] · ".toList ++ cl.title.text ++ " · ".toList ++ digits cl.pendingCount ++
    " pending, ".toList ++ digits cl.doneCount ++ " done, ".toList ++ digits cl.totalCount ++ " total".toList

/-- `list_checklists`. -/
def listChecklists (rows : List Checklist) : Text :=
  match rows with
  | [] => "no checklists".toList
  | cl :: rest => joinLines ((cl :: rest).map (·.line))

/-! ### `show_checklist` -/

def ItemStatus.mark : ItemStatus → Char
  | pending => '☐'
  | done => '☑'
  | cancelled => '✗'

def ChecklistItem.line (it : ChecklistItem) : Text :=
  "[".toList ++ it.id.text ++ "] ".toList ++ [it.status.mark] ++ " ".toList ++ it.title.text

def Checklist.header (cl : Checklist) : Text :=
  "# ".toList ++ cl.title.text ++ " (".toList ++ cl.id.text ++ ")".toList

/-- The characters that `repr` writes as they are, where the Unicode database decides:
`str.isprintable`, which holds of no white space but the space. -/
structure Printable where
  isprintable : Char → Bool
  space : ∀ c, isSpace c = true → c ≠ ' ' → isprintable c = false

/-- A code in hexadecimal digits, padded to a width. -/
def hexPad (width n : ℕ) : Text :=
  let hex := Nat.toDigits 16 n
  List.replicate (width - hex.length) '0' ++ hex

/-- A character that `repr` writes as it is, when it is no quote and no backslash. -/
def Printable.plain (u : Printable) (c : Char) : Bool :=
  (0x20 ≤ c.toNat && c.toNat < 0x7F) || (0x7F < c.toNat && u.isprintable c)

/-- `repr` of one character between these quotes. -/
def reprChar (u : Printable) (quote c : Char) : Text :=
  if c = quote ∨ c = '\\' then ['\\', c]
  else if c = '\t' then ['\\', 't']
  else if c = '\n' then ['\\', 'n']
  else if c = '\r' then ['\\', 'r']
  else if u.plain c then [c]
  else if c.toNat ≤ 0xFF then ['\\', 'x'] ++ hexPad 2 c.toNat
  else if c.toNat ≤ 0xFFFF then ['\\', 'u'] ++ hexPad 4 c.toNat
  else ['\\', 'U'] ++ hexPad 8 c.toNat

/-- The quote that `repr` chooses. -/
def reprQuote (s : Text) : Char := if '\'' ∈ s ∧ '"' ∉ s then '"' else '\''

/-- What `repr` writes between the quotes. -/
def reprBody (u : Printable) (s : Text) : Text := s.flatMap (reprChar u (reprQuote s))

/-- `repr` of a text. -/
def reprText (u : Printable) (s : Text) : Text := reprQuote s :: reprBody u s ++ [reprQuote s]

/-- `show_checklist`, for the checklist that it found. -/
def showChecklist (u : Printable) (cl : Checklist) : Text :=
  match cl.items with
  | [] => "empty: list=".toList ++ cl.id.text ++ " title=".toList ++ reprText u cl.title.text
  | it :: rest => joinLines (cl.header :: (it :: rest).map (·.line))

/-! ### `list_checklist_items` -/

/-- An item with its list. -/
structure ListedItem where
  list : Checklist
  item : ChecklistItem

def ListedItem.line (r : ListedItem) : Text :=
  r.item.line ++ " @ [".toList ++ r.list.id.text ++ "] ".toList ++ r.list.title.text

/-- The items that `list_checklist_items` prints: those whose title and list are asked for. -/
def listedRows (keepList keepItem : Text → Bool) (lists : List Checklist) : List ListedItem :=
  (lists.filter (keepList ·.title.text)).flatMap fun cl =>
    (cl.items.filter (keepItem ·.title.text)).map fun it => ⟨cl, it⟩

/-- `list_checklist_items`. -/
def listChecklistItems (keepList keepItem : Text → Bool) (lists : List Checklist) : Text :=
  match listedRows keepList keepItem lists with
  | [] => "empty".toList
  | r :: rest => joinLines ((r :: rest).map (·.line))

end Sreda.Housewife
