import Sreda.Lib.Regex
import Sreda.Housewife.Rows

/-!
# The readers of the list tools

`parse_list_shopping`, `parse_list_reminders`, `parse_list_family_members`,
`parse_list_checklists`, `parse_show_checklist` and `parse_list_checklist_items`
(`tool_schemas/housewife.py`): they read the printed texts back into rows, whose ids select
what later steps change. A pattern is the one of the source; `^` and `$` are `fullMatch`,
since a line has no newline. A result that fails the checks of its schema is no row.

The code that `_parse_error` derives for an error text is left out: no printed list is one.
-/

namespace Sreda.Housewife

open Lib.PyText Lib.Regex

/-! ### Outputs -/

/-- What a reader makes of a text. -/
inductive ListOutput (τ : Type) where
  | ok (rows : List τ)
  | empty
  | error (message : Text)
  | violation
  deriving DecidableEq

/-- The rows of an accepted text. -/
def ListOutput.rows {τ : Type} : ListOutput τ → Option (List τ)
  | ok rows => some rows
  | empty => some []
  | error _ | violation => none

/-- The end of a reader of rows: no row is a violation, and so is a line that is none. -/
def acceptRows {τ : Type} : Option (List τ) → ListOutput τ
  | none | some [] => .violation
  | some rows => .ok rows

/-- `_parse_error`. -/
def parseError (raw : Text) : Option Text :=
  if "error:".toList.isPrefixOf raw then
    let rest := strip (raw.drop 6)
    some (if rest = [] then "unknown".toList else rest)
  else none

/-- The readers of rows without a header: the text for no rows, and the reader of one line. -/
def parseRows {τ : Type} (emptyText : String) (read : Text → Option τ) (raw : Text) : ListOutput τ :=
  match parseError raw with
  | some message => .error message
  | none =>
    let stripped := strip raw
    if stripped = emptyText.toList then .empty
    else if stripped = [] ∨ "error:".toList.isPrefixOf stripped ∨ "ok:".toList.isPrefixOf stripped then .violation
    else acceptRows (readLines read (fullLines stripped))

/-! ### Patterns -/

/-- `.` of a pattern. -/
def dot (c : Char) : Bool := c != '\n'

/-- `[^\]]` of a pattern. -/
def notBracket (c : Char) : Bool := c != ']'

/-- A captured group, or nothing. -/
def captured (g : Groups) (name : String) : Text := (g.lookup name).getD []

/-- An id of a kind, as a pattern. -/
def idRe (kind : String) : Re := Re.cat [.lit kind, .times 24 isHex]

/-- The white space that a schema strips. -/
def isSchemaSpace (c : Char) : Bool := isSpace c && !(28 ≤ c.toNat && c.toNat ≤ 31)

/-- The check of an id in a schema: `strip_whitespace` and the pattern of its kind. -/
def toolId (kind : String) (raw : Text) : Option Text :=
  let id := rstripWhile isSchemaSpace (raw.dropWhile isSchemaSpace)
  if ((idRe kind).fullMatch id).isSome then some id else none

/-! ### `parse_list_shopping` -/

/-- `ListShoppingItem`. -/
structure ListShoppingItem where
  itemId : Text
  category : Text
  rawLine : Text
  displayLine : Text
  deriving DecidableEq

/-- `_LIST_SHOPPING_CATEGORY_RE`. -/
def listShoppingCategoryRe : Re := .cat [.lit "[", .group "cat" (.plus false notBracket), .lit "]"]

/-- `_LIST_SHOPPING_ITEM_RE`. -/
def listShoppingItemRe : Re :=
  .cat [.lit "[", .group "id" (.cat [.lit "sh_", .plus false notBracket]), .lit "]", .plus false isSpace,
    .group "rest" (.plus false dot)]

/-- What a line of the shopping list is. -/
inductive ShoppingToken where
  | category (name : Text)
  | item (id rawLine displayLine : Text)

/-- One turn of the loop over the lines, for a stripped line. -/
def shoppingToken (clean : Text) : Option ShoppingToken :=
  match (listShoppingCategoryRe.fullMatch clean).filter fun _ => !"[sh_".toList.isPrefixOf clean with
  | some g => some (.category (captured g "cat"))
  | none => do
    let g ← listShoppingItemRe.fullMatch clean
    let id ← toolId "sh_" (captured g "id")
    let displayLine := strip (captured g "rest")
    guard (displayLine ≠ [])
    return .item id clean displayLine

/-- The loop over the lines, with the current category; an item before any category is a
violation. -/
def readShopping : Option Text → List Text → Option (List ListShoppingItem)
  | _, [] => some []
  | current, line :: rest =>
    match shoppingToken (strip line) with
    | none => none
    | some (.category name) => readShopping (some name) rest
    | some (.item id rawLine displayLine) =>
      match current with
      | none => none
      | some category => (readShopping current rest).map (⟨id, category, rawLine, displayLine⟩ :: ·)

/-- `parse_list_shopping`. -/
def parseListShopping (raw : Text) : ListOutput ListShoppingItem :=
  match parseError raw with
  | some message => .error message
  | none =>
    let stripped := strip raw
    if stripped = "no shopping items".toList then .empty
    else
      match (fullLines stripped).map rstrip with
      | [] => .violation
      | header :: lines =>
        if strip header ≠ shoppingHeader then .violation
        else acceptRows (readShopping none lines)

/-! ### `parse_list_reminders` -/

/-- `ListRemindersItem`. -/
structure ListRemindersItem where
  reminderId : Text
  rawLine : Text
  displayLine : Text
  deriving DecidableEq

/-- `_LIST_REMINDER_LINE_RE`. -/
def listReminderLineRe : Re :=
  .cat [.lit "[", .group "id" (.plus false notBracket), .lit "]", .plus false isSpace,
    .group "rest" (.plus false dot)]

/-- One turn of the loop, for a stripped line. -/
def readReminder (line : Text) : Option ListRemindersItem := do
  let g ← listReminderLineRe.fullMatch line
  let id ← toolId "rem_" (captured g "id")
  let displayLine := strip (captured g "rest")
  guard (displayLine ≠ [])
  return ⟨id, line, displayLine⟩

/-- `parse_list_reminders`. -/
def parseListReminders (raw : Text) : ListOutput ListRemindersItem :=
  match parseError raw with
  | some message => .error message
  | none =>
    let stripped := strip raw
    if stripped = "no active reminders".toList then .empty
    else
      match (fullLines stripped).map strip with
      | [] => .violation
      | header :: lines =>
        if header ≠ remindersHeader then .violation
        else acceptRows (readLines readReminder lines)

/-! ### `parse_list_family_members` -/

/-- `ListFamilyMembersRow`. -/
structure ListFamilyMembersRow where
  memberId : Text
  name : Text
  role : Text
  ageText : Option Text
  notes : Option Text
  deriving DecidableEq

/-- `[1-9]` of the header. -/
def nonzeroDigit (c : Char) : Bool := '1' ≤ c && c ≤ '9'

/-- `_LIST_FAMILY_HEADER_RE`. -/
def listFamilyHeaderRe : Re :=
  .cat [.group "n" (.cat [.char nonzeroDigit, .many false isDecimal]), .plus false isSpace, .lit "member(s):"]

/-- `[^()\n]` of the row. -/
def nameChar (c : Char) : Bool := c != '(' && c != ')' && c != '\n'

/-- `[^)]` of the row. -/
def ageChar (c : Char) : Bool := c != ')'

/-- `_LIST_FAMILY_ROW_RE`. -/
def listFamilyRowRe : Re :=
  .cat [.plus false isSpace, .lit "[", .group "id" (idRe "fm_"), .lit "]", .plus false isSpace,
    .group "name" (.plus true nameChar), .plus false isSpace, .lit "(",
    .group "role" (.oneOf ["self", "spouse", "child", "parent", "other"]),
    .opt (.cat [.lit ",", .plus false isSpace, .group "age" (.plus false ageChar)]), .lit ")",
    .opt (.cat [.plus false isSpace, .lit "—", .plus false isSpace, .group "notes" (.plus false dot)])]

/-- One turn of the loop over the lines. -/
def readMember (line : Text) : Option ListFamilyMembersRow := do
  let g ← listFamilyRowRe.fullMatch line
  let id ← toolId "fm_" (captured g "id")
  let name := strip (captured g "name")
  let ageText := (g.lookup "age").map strip
  let notes := (g.lookup "notes").map strip
  guard (1 ≤ name.length ∧ name.length ≤ 200)
  guard (∀ age ∈ ageText, age.length ≤ 64)
  guard (∀ text ∈ notes, text.length ≤ 500)
  return ⟨id, name, captured g "role", ageText, notes⟩

/-- `parse_list_family_members`. -/
def parseListFamilyMembers (raw : Text) : ListOutput ListFamilyMembersRow :=
  match parseError raw with
  | some message => .error message
  | none =>
    let stripped := strip raw
    if stripped = "no family members recorded".toList then .empty
    else
      match splitlines stripped with
      | [] => .violation
      | header :: lines =>
        match listFamilyHeaderRe.fullMatch (strip header) with
        | none => .violation
        | some g =>
          acceptRows ((readLines readMember (lines.filter fun line => strip line ≠ [])).filter fun rows =>
            rows.length = toInt (captured g "n"))

/-! ### `parse_list_checklists` -/

/-- `ListChecklistsRow`. -/
structure ListChecklistsRow where
  checklistId : Text
  title : Text
  pendingCount : ℕ
  doneCount : ℕ
  totalCount : ℕ
  deriving DecidableEq

/-- The counts at the end of a row. -/
def countsRe : Re :=
  .cat [.many false isSpace, .group "p" (.plus false isDecimal), .plus false isSpace, .lit "pending,",
    .many false isSpace, .group "d" (.plus false isDecimal), .plus false isSpace, .lit "done,",
    .many false isSpace, .group "t" (.plus false isDecimal), .plus false isSpace, .lit "total"]

/-- `_LIST_CHECKLISTS_ROW_RE`. -/
def listChecklistsRowRe : Re :=
  .cat [.lit "[", .group "cid" (idRe "checklist_"), .lit "]", .many false isSpace, .lit "·", .many false isSpace,
    .group "title" (.plus true dot), .many false isSpace, .lit "·", countsRe]

/-- One turn of the loop over the lines. -/
def readChecklist (line : Text) : Option ListChecklistsRow := do
  let g ← listChecklistsRowRe.fullMatch line
  let id ← toolId "checklist_" (captured g "cid")
  let title := strip (captured g "title")
  guard (1 ≤ title.length ∧ title.length ≤ 500)
  let p := toInt (captured g "p")
  let d := toInt (captured g "d")
  let t := toInt (captured g "t")
  guard (p + d ≤ t)
  return ⟨id, title, p, d, t⟩

/-- `parse_list_checklists`. -/
def parseListChecklists (raw : Text) : ListOutput ListChecklistsRow := parseRows "no checklists" readChecklist raw

/-! ### `parse_show_checklist` -/

/-- `ShowChecklistItem`. -/
structure ShowChecklistItem where
  itemId : Text
  itemStatus : ItemStatus
  title : Text
  deriving DecidableEq

/-- The outputs of `parse_show_checklist`. -/
inductive ShowOutput where
  | ok (checklistId title : Text) (items : List ShowChecklistItem)
  | empty (checklistId title : Text)
  | error (message : Text)
  | violation
  deriving DecidableEq

/-- The list, the title and the items of an accepted text. -/
def ShowOutput.shown : ShowOutput → Option (Text × Text × List ShowChecklistItem)
  | ok id title items => some (id, title, items)
  | empty id title => some (id, title, [])
  | error _ | violation => none

/-- `_SHOW_CHECKLIST_HEADER_RE`. -/
def showChecklistHeaderRe : Re :=
  .cat [.lit "#", .plus false isSpace, .group "title" (.plus true dot), .plus false isSpace, .lit "(",
    .group "cid" (idRe "checklist_"), .lit ")"]

/-- `[☐☑✗]` of a pattern. -/
def markChar (c : Char) : Bool := c == '☐' || c == '☑' || c == '✗'

/-- `_SHOW_CHECKLIST_ITEM_RE`. -/
def showChecklistItemRe : Re :=
  .cat [.lit "[", .group "iid" (idRe "clitem_"), .lit "]", .plus false isSpace, .group "mark" (.char markChar),
    .plus false isSpace, .group "title" (.plus false dot)]

/-- `_SHOW_CHECKLIST_EMPTY_RE`. -/
def showChecklistEmptyRe : Re :=
  .cat [.lit "empty:", .plus false isSpace, .lit "list=", .group "cid" (idRe "checklist_"), .plus false isSpace,
    .lit "title=", .group "title" (.plus false dot)]

/-- `_MARK_TO_STATUS`. -/
def markToStatus : Text → Option ItemStatus
  | ['☐'] => some .pending
  | ['☑'] => some .done
  | ['✗'] => some .cancelled
  | _ => none

/-- One turn of the loop over the lines. -/
def readShownItem (line : Text) : Option ShowChecklistItem := do
  let g ← showChecklistItemRe.fullMatch line
  let status ← markToStatus (captured g "mark")
  let id ← toolId "clitem_" (captured g "iid")
  let title := strip (captured g "title")
  guard (1 ≤ title.length ∧ title.length ≤ 1000)
  return ⟨id, status, title⟩

/-- The quotes around a title are taken off. -/
def stripQuotes (s : Text) : Text :=
  if (s.head? = some '\'' ∧ s.getLast? = some '\'') ∨ (s.head? = some '"' ∧ s.getLast? = some '"') then
    (s.drop 1).dropLast
  else s

/-- The list that the header or the empty form names, if its title passes the schema. -/
def shownList (cid title : Text) : Option (Text × Text) := do
  let id ← toolId "checklist_" cid
  guard (1 ≤ title.length ∧ title.length ≤ 500)
  return (id, title)

/-- The header of a list with items. -/
def readShownHeader (header : Text) : Option (Text × Text) := do
  let g ← showChecklistHeaderRe.fullMatch header
  shownList (captured g "cid") (strip (captured g "title"))

/-- `parse_show_checklist`. -/
def parseShowChecklist (raw : Text) : ShowOutput :=
  match parseError raw with
  | some message => .error message
  | none =>
    let stripped := strip raw
    match showChecklistEmptyRe.fullMatch ((splitlines stripped).headD []) with
    | some g =>
      match shownList (captured g "cid") (stripQuotes (strip (captured g "title"))) with
      | some (id, title) => .empty id title
      | none => .violation
    | none =>
      match splitlines stripped with
      | [] => .violation
      | header :: lines =>
        match readShownHeader header, readLines readShownItem (lines.filter fun line => strip line ≠ []) with
        | some (id, title), some (it :: items) => .ok id title (it :: items)
        | _, _ => .violation

/-! ### `parse_list_checklist_items` -/

/-- `ListChecklistItemsRow`. -/
structure ListChecklistItemsRow where
  itemId : Text
  itemTitle : Text
  listTitle : Text
  listId : Text
  itemStatus : ItemStatus
  deriving DecidableEq

/-- The list of an item, at the end of a row. -/
def parentRe : Re :=
  .cat [.plus false isSpace, .lit "@", .plus false isSpace, .lit "[", .group "cid" (idRe "checklist_"), .lit "]",
    .plus false isSpace, .group "ltitle" (.plus false dot)]

/-- `_LIST_CHECKLIST_ITEMS_ROW_RE`. -/
def listChecklistItemsRowRe : Re :=
  .cat [.lit "[", .group "iid" (idRe "clitem_"), .lit "]", .plus false isSpace, .group "mark" (.char markChar),
    .plus false isSpace, .group "ititle" (.plus true dot), parentRe]

/-- One turn of the loop over the lines. -/
def readListedItem (line : Text) : Option ListChecklistItemsRow := do
  let g ← listChecklistItemsRowRe.fullMatch line
  let status ← markToStatus (captured g "mark")
  let itemId ← toolId "clitem_" (captured g "iid")
  let itemTitle := strip (captured g "ititle")
  guard (1 ≤ itemTitle.length ∧ itemTitle.length ≤ 1000)
  let listTitle := strip (captured g "ltitle")
  guard (1 ≤ listTitle.length ∧ listTitle.length ≤ 500)
  let listId ← toolId "checklist_" (captured g "cid")
  return ⟨itemId, itemTitle, listTitle, listId, status⟩

/-- `parse_list_checklist_items`. -/
def parseListChecklistItems (raw : Text) : ListOutput ListChecklistItemsRow := parseRows "empty" readListedItem raw

end Sreda.Housewife
