import Mathlib.Data.List.Infix
import Sreda.Lib.Words
import Sreda.React.Compaction

/-!
# The reply names what was done

After a write the final reply must name its result. `collect_successful_writes` reads the acts of a
turn from its messages, `reply_grounds_result` says whether a reply names all of them, and
`fallback_reply` is what the user gets otherwise.

Texts are lists of characters; the class `\w` and the lower case of a character are parameters, and
so is `json.loads`. The lower case of a final sigma depends on its neighbours; neither of its two
forms is a letter of the tokens.

## What is proved

* when every reported name can be displayed, every reply that holds each of them as separate words
  is grounded exactly when each name has a significant token or is a single token, and so is the
  fallback (`replyGroundsResult_iff`).
-/

namespace Sreda.React

open Sreda.Lib.PyText
open Sreda.Planner (Dict Value)

/-- What the report relies on of Python. -/
structure ReportPy where
  /-- The class `\w`. -/
  isWord : Char → Bool
  /-- `str.lower` of one character. -/
  lowerOf : Char → Text
  lowerOf_punctuation : ∀ c ∈ [' ', ',', '.', ':', ';', '«', '»'], lowerOf c = [c]
  /-- `json.loads`; it raises on a text that is no JSON. -/
  loads : Text → Option Value

/-! ## The names -/

/-- `[a-zа-я]` in either case. -/
def isIdLetter (c : Char) : Bool :=
  let n := c.toNat
  (0x41 ≤ n && n ≤ 0x5A) || (0x61 ≤ n && n ≤ 0x7A) || n == 0x130 || n == 0x131 || n == 0x17F ||
    (0x410 ≤ n && n ≤ 0x44F) || (0x1C80 ≤ n && n ≤ 0x1C86) || n == 0x212A

/-- `[0-9a-f]` in either case. -/
def isIdDigit (c : Char) : Bool :=
  let n := c.toNat
  (0x30 ≤ n && n ≤ 0x39) || (0x41 ≤ n && n ≤ 0x46) || (0x61 ≤ n && n ≤ 0x66)

/-- The length of `[a-zа-я]+_[0-9a-f]{12,}` at the beginning of a text, its runs as long as they can be. -/
def idLength (s : Text) : Option ℕ :=
  match s.dropWhile isIdLetter with
  | '_' :: rest =>
    let letters := (s.takeWhile isIdLetter).length
    let hex := (rest.takeWhile isIdDigit).length
    if 0 < letters ∧ 12 ≤ hex then some (letters + 1 + hex) else none
  | _ => none

/-- `_ID_RE` on the stripped value. -/
def isId (value : Text) : Bool := idLength (strip value) == some (strip value).length

/-- `_IDLIKE_TOKEN_RE.sub(" ", s)`: an id between word boundaries becomes a space. -/
def dropIds (isWord : Char → Bool) (inWord : Bool) : ℕ → Text → Text
  | _, [] => []
  | skip + 1, c :: s => dropIds isWord (isWord c) skip s
  | 0, c :: s =>
    match idLength (c :: s) with
    | some n =>
      if !inWord && !(((c :: s).drop n).head?.any isWord) then ' ' :: dropIds isWord (isWord c) (n - 1) s
      else c :: dropIds isWord (isWord c) 0 s
    | none => c :: dropIds isWord (isWord c) 0 s

/-- `_CTRL_RE` and `_EMDASH_RE`, which replace one character. -/
def plainChar (c : Char) : Char :=
  if c.toNat < 0x20 || c.toNat == 0x7F then ' '
  else if c == '—' || c == '–' || c == '―' then '-'
  else c

/-- `_sanitize`. -/
def sanitize (py : ReportPy) (value : Text) : Text :=
  strip (squash isSpace ' ' false (dropIds py.isWord false 0 (value.map plainChar)))

/-- `[0-9а-яё]` in either case. -/
def isNameLetter (c : Char) : Bool :=
  let n := c.toNat
  (0x30 ≤ n && n ≤ 0x39) || n == 0x401 || n == 0x451 || (0x410 ≤ n && n ≤ 0x44F) || (0x1C80 ≤ n && n ≤ 0x1C86)

/-- `_ALLOWED_NAME_RE`, one character. -/
def isAllowed (c : Char) : Bool := isNameLetter c || " -.,!?«»()".toList.contains c

/-- `_LATIN_RE`, one character. -/
def isLatin (c : Char) : Bool :=
  let n := c.toNat
  (0x41 ≤ n && n ≤ 0x5A) || (0x61 ≤ n && n ≤ 0x7A)

/-- `s.rsplit(" ", 1)[0]`. -/
def beforeLastSpace (s : Text) : Text :=
  if ' ' ∈ s then ((s.reverse.dropWhile (· ≠ ' ')).tail).reverse else s

/-- The cut of a long name at a word. -/
def cutName (s : Text) : Text :=
  let head := s.take 64
  let shown := strip (beforeLastSpace head)
  if shown = [] then strip head else shown

/-- `_clean_name`; the empty text stands for a name that cannot be displayed. -/
def cleanName (py : ReportPy) (value : Text) : Text :=
  let s := sanitize py value
  if s = [] ∨ isId value = true then []
  else if s.any isLatin || !(s.all isAllowed) then []
  else if !(s.any isNameLetter) then []
  else if 64 < s.length then cutName s
  else s

/-! ### A date at the beginning -/

/-- What follows a character of a class. -/
def afterChar (p : Char → Bool) : Text → Option Text
  | [] => none
  | c :: s => if p c then some s else none

/-- What follows `\d{n}`. -/
def afterDigits : ℕ → Text → Option Text
  | 0, s => some s
  | n + 1, s => (afterChar isDecimal s).bind (afterDigits n)

/-- What follows `\s*\d{4}-\d{2}-\d{2}`. -/
def afterDay (s : Text) : Option Text := do
  let s ← afterDigits 4 (lstrip s)
  let s ← afterChar (· == '-') s
  let s ← afterDigits 2 s
  let s ← afterChar (· == '-') s
  afterDigits 2 s

/-- What follows `\.\d+`. -/
def afterFraction (s : Text) : Option Text := do
  let s ← afterChar (· == '.') s
  let s ← afterDigits 1 s
  return s.dropWhile isDecimal

/-- What follows `[zZ]|[+-]\d{2}:?\d{2}`. -/
def afterZone (s : Text) : Option Text :=
  (afterChar (fun c => c == 'z' || c == 'Z') s).or do
    let s ← afterChar (fun c => c == '+' || c == '-') s
    let s ← afterDigits 2 s
    afterDigits 2 ((afterChar (· == ':') s).getD s)

/-- What follows the time of a day. -/
def afterTime (s : Text) : Option Text := do
  let s ← afterChar (fun c => c == ' ' || c == 't' || c == 'T') s
  let s ← afterDigits 2 s
  let s ← afterChar (· == ':') s
  let s ← afterDigits 2 s
  let s := ((afterChar (· == ':') s).bind (afterDigits 2)).getD s
  let s := (afterFraction s).getD s
  return (afterZone s).getD s

/-- `_strip_leading_date`. -/
def stripLeadingDate (value : Text) : Text :=
  match afterDay value with
  | none => value
  | some s =>
    let s := lstrip ((afterTime s).getD s)
    lstrip ((afterChar (fun c => c == ':' || c == '-' || c == '—' || c == '–') s).getD s)

/-! ## The acts -/

inductive ActKind where
  | add | target
  deriving DecidableEq

structure WriteAct where
  tool : String
  kind : ActKind
  /-- The name of the target, empty if it cannot be displayed. -/
  target : Text
  /-- The names of the added items that can be displayed. -/
  items : List Text
  count : ℕ
  deriving DecidableEq

/-- The tools whose class in `TOOL_OP_CLASS` is `write`. -/
def writeTools : List String :=
  ["add_shopping_items", "mark_shopping_bought", "remove_shopping_items", "update_shopping_item",
   "update_shopping_items_category", "clear_bought_shopping", "schedule_reminder", "update_reminder",
   "cancel_reminder", "save_recipe", "save_recipes_batch", "update_recipe", "delete_recipe", "plan_week_menu",
   "update_menu_item", "generate_shopping_from_menu", "clear_menu", "add_family_members", "update_family_member",
   "remove_family_member", "add_task", "update_task", "complete_task", "uncomplete_task", "cancel_task",
   "delete_task", "attach_reminder", "detach_reminder", "link_task_to_checklist", "unlink_task",
   "create_checklist", "add_checklist_items", "move_task_to_checklist", "mark_checklist_item_done",
   "update_checklist_item", "delete_checklist_item", "archive_checklist", "onboarding_answered",
   "onboarding_deferred", "onboarding_complete", "reply_with_buttons", "save_core_fact", "save_episode",
   "create_memory_category", "log_unsupported_request"]

/-- `_ADD_TOOLS`: the field with the name of the list, none for the shopping list. -/
def addTools : List (String × Option String) :=
  [("add_checklist_items", some "list_id_or_title"), ("add_shopping_items", none)]

/-- `_ADD_WHERE`. -/
def addWhere : List (String × String) :=
  [("add_checklist_items", "чек-лист"), ("add_shopping_items", "список покупок")]

/-- An entry of `_TARGET_SPECS`. The last column stands in the note for the model only. -/
structure TargetSpec where
  verb : String
  /-- How the result of a success begins. -/
  success : String
  field : String

/-- `_TARGET_SPECS`. -/
def targetSpecs : List (String × TargetSpec) :=
  [("archive_checklist", ⟨"удалила список", "ok:archived", "list_id_or_title"⟩),
   ("schedule_reminder", ⟨"поставила напоминание", "ok:scheduled", "title"⟩),
   ("save_core_fact", ⟨"записала", "saved_core:", "content"⟩),
   ("save_episode", ⟨"записала", "saved_episode:", "summary"⟩)]

/-- `_MEMORY_TARGET_TOOLS`. -/
def memoryTargetTools : List String := ["save_core_fact", "save_episode"]

/-- What follows the first colons; with two of them it is `content.split(":", 2)[2]`. -/
def afterColons : ℕ → Text → Option Text
  | 0, s => some s
  | n + 1, s =>
    match s.dropWhile (· ≠ ':') with
    | [] => none
    | _ :: rest => afterColons n rest

/-- `_okv2_created`. -/
def okv2Created (py : ReportPy) (content : Text) : List Text :=
  if "okv2:".toList.isPrefixOf content then
    match (afterColons 2 content).bind py.loads with
    | some (.dict payload) =>
      match payload.lookup "created" with
      | some (.list created) => created.filterMap fun
          | .str s => if strip s.toList = [] then none else some s.toList
          | _ => none
      | _ => []
    | _ => []
  else []

/-- The text of an argument. -/
def argText (field : String) (args : Dict) : Option Text :=
  match args.lookup field with
  | some (.str s) => some s.toList
  | _ => none

/-- `_target_name`. -/
def targetName (py : ReportPy) (field : Option String) (args : Dict) : Text :=
  match field.bind fun field => argText field args with
  | some value => cleanName py value
  | none => []

def Message.toolMessage? : Message → Option ToolMessage
  | .tool message => some message
  | _ => none

/-- The messages after the last one of the user. -/
def turnWindow (messages : List Message) : List Message := (messages.reverse.takeWhile (!·.isHuman)).reverse

/-- The result of a call: of several the last. -/
def resultOf (window : List Message) (id : String) : Option ToolMessage :=
  (window.reverse.filterMap Message.toolMessage?).find? (·.toolCallId == id)

/-- The act of a call, when its effect is proved. -/
def actOf (py : ReportPy) (window : List Message) (call : ToolCall) : Option WriteAct :=
  if call.name ∉ writeTools then none
  else
    match resultOf window call.id with
    | none => none
    | some result =>
      let content := result.content.toList
      if result.resultKind ≠ some "ok" then none
      else
        match addTools.lookup call.name with
        | some field =>
          let created := okv2Created py content
          if created = [] then none
          else some
            { tool := call.name, kind := .add, target := targetName py field call.args
              items := (created.map (cleanName py)).filter (· ≠ []), count := created.length }
        | none =>
          match targetSpecs.lookup call.name with
          | none => none
          | some spec =>
            if !(spec.success.toList.isPrefixOf content) then none
            else
              let target := if call.name ∈ memoryTargetTools then
                  match argText spec.field call.args with
                  | some raw => cleanName py (stripLeadingDate raw)
                  | none => []
                else targetName py (some spec.field) call.args
              some { tool := call.name, kind := .target, target := target, items := [], count := 1 }

/-- `collect_successful_writes`. -/
def collectSuccessfulWrites (py : ReportPy) (messages : List Message) : List WriteAct :=
  let window := turnWindow messages
  window.flatMap fun m => m.calls.filterMap (actOf py window)

/-! ## The detector -/

/-- `[0-9a-zа-я]`. -/
def isTokenChar (c : Char) : Bool :=
  let n := c.toNat
  (0x30 ≤ n && n ≤ 0x39) || (0x61 ≤ n && n ≤ 0x7A) || (0x430 ≤ n && n ≤ 0x44F)

/-- `text.lower().replace("ё", "е")`. -/
def folded (py : ReportPy) (text : Text) : Text :=
  (text.flatMap py.lowerOf).map fun c => if c = 'ё' then 'е' else c

/-- `_norm`. -/
def norm (py : ReportPy) (text : Text) : Text := strip (squash (!isTokenChar ·) ' ' false (folded py text))

/-- `_norm(text).split()`. -/
def tokens (py : ReportPy) (text : Text) : List Text := wordsBy isSpace (norm py text)

/-- `_STOPWORDS`. -/
def stopwords : List Text :=
  (["и", "в", "во", "на", "с", "со", "по", "для", "из", "к", "ко", "о", "об", "от", "у", "за", "до", "не", "а", "но",
    "же", "ли", "бы", "то", "или", "без", "при", "над", "под", "про", "через", "между", "перед", "у", "я", "мы", "ты",
    "вы", "он", "она", "оно", "они", "это", "эта", "этот", "эти", "мой", "моя", "мои", "наш", "наша", "наши", "да",
    "нет"] : List String).map String.toList

/-- `_stem`. -/
def stem (word : Text) : Text := if 6 ≤ word.length then word.take 5 else word.dropLast

/-- The tokens of a name that count. -/
def significant (py : ReportPy) (name : Text) : List Text :=
  (tokens py name).filter fun t => 2 ≤ t.length ∧ t ∉ stopwords

/-- A token is hit: a short one exactly, a longer one by its stem. -/
def hit (replyTokens : List Text) (t : Text) : Bool :=
  if t.length < 4 then replyTokens.contains t else replyTokens.any fun r => (stem t).isPrefixOf r

/-- `_name_mentioned`. -/
def nameMentioned (py : ReportPy) (replyTokens : List Text) (name : Text) : Bool :=
  if significant py name = [] then norm py name ≠ [] && replyTokens.contains (norm py name)
  else (significant py name).all (hit replyTokens)

/-- What the loop of `reply_grounds_result` asks of one act. -/
def WriteAct.grounded (py : ReportPy) (replyTokens : List Text) (act : WriteAct) : Bool :=
  match act.kind with
  | .add =>
    if act.items.length < act.count then false
    else if !(act.items.all (nameMentioned py replyTokens)) then false
    else if act.tool ≠ "add_shopping_items" ∧ ¬ (act.target ≠ [] ∧ nameMentioned py replyTokens act.target) then false
    else true
  | .target => act.target ≠ [] && nameMentioned py replyTokens act.target

/-- `reply_grounds_result`. -/
def replyGroundsResult (py : ReportPy) (reply : Text) (acts : List WriteAct) : Bool :=
  if acts = [] then true
  else if tokens py reply = [] then false
  else acts.all (WriteAct.grounded py (tokens py reply))

/-! ## The fallback -/

/-- `_plural`. -/
def plural (n : ℕ) (one few many : String) : String :=
  if 11 ≤ n % 100 ∧ n % 100 ≤ 14 then many
  else if n % 100 % 10 = 1 then one
  else if 2 ≤ n % 100 % 10 ∧ n % 100 % 10 ≤ 4 then few
  else many

/-- `_units`. -/
def units (n : ℕ) : Text := digits n ++ " ".toList ++ (plural n "пункт" "пункта" "пунктов").toList

/-- `_phrase`. -/
def phrase (act : WriteAct) : Text :=
  match act.kind with
  | .add =>
    let complete := act.items ≠ [] ∧ act.items.length = act.count
    let items := ", ".toList.intercalate act.items
    if act.tool = "add_shopping_items" then
      if complete then "добавила в список покупок: ".toList ++ items
      else "добавила ".toList ++ units act.count ++ " в список покупок".toList
    else if act.target ≠ [] then
      if complete then "добавила в список «".toList ++ act.target ++ "»: ".toList ++ items
      else "добавила ".toList ++ units act.count ++ " в список «".toList ++ act.target ++ "»".toList
    else if complete then "добавила пункты: ".toList ++ items
    else "добавила ".toList ++ units act.count ++ " в ".toList ++ ((addWhere.lookup act.tool).getD "чек-лист").toList
  | .target =>
    match targetSpecs.lookup act.tool with
    | none => []
    | some spec =>
      if act.target ≠ [] then spec.verb.toList ++ " «".toList ++ act.target ++ "»".toList else spec.verb.toList

/-- `fallback_reply`. -/
def fallbackReply (acts : List WriteAct) : Text :=
  let body := "; ".toList.intercalate ((acts.map phrase).filter (· ≠ []))
  if body = [] then [] else "Готово, ".toList ++ body ++ ".".toList

/-! ## Separate words -/

variable {py : ReportPy}

/-- A character that keeps words apart. -/
def Clear (py : ReportPy) (c : Char) : Prop := folded py [c] ≠ [] ∧ ∀ d ∈ folded py [c], isTokenChar d = false

/-- The name stands in the text, and no letter or digit next to it. -/
def Separate (py : ReportPy) (name text : Text) : Prop :=
  ∃ u v, text = u ++ name ++ v ∧ (∀ c, u.getLast? = some c → Clear py c) ∧ ∀ c, v.head? = some c → Clear py c

theorem folded_append (s t : Text) : folded py (s ++ t) = folded py s ++ folded py t := by
  simp [folded]

theorem tokens_eq (text : Text) : tokens py text = wordsBy (!isTokenChar ·) (folded py text) := by
  have hclass : ∀ c, (!isTokenChar c) = false → isSpace c = false := by
    intro c hc
    simp only [isTokenChar, Bool.not_eq_false', Bool.or_eq_true, Bool.and_eq_true, decide_eq_true_eq] at hc
    simp only [isSpace, Bool.or_eq_false_iff, Bool.and_eq_false_iff, decide_eq_false_iff_not, beq_eq_false_iff_ne]
    omega
  rw [tokens, norm, wordsBy_strip, wordsBy_squash (by decide) hclass]

/-- The tokens of a text that is cut at a clear character. -/
theorem tokens_append_cons {c : Char} (hc : Clear py c) (s t : Text) :
    tokens py (s ++ c :: t) = tokens py s ++ tokens py t := by
  rw [tokens_eq, tokens_eq, tokens_eq, ← List.singleton_append, folded_append, folded_append, ← List.append_assoc,
    wordsBy_append_run hc.1 fun d hd => by simpa using hc.2 d hd]

variable {name : Text} {act : WriteAct}

/-- The tokens of a separate name are tokens of the text. -/
theorem Separate.tokens_subset {text : Text} (h : Separate py name text) : tokens py name ⊆ tokens py text := by
  obtain ⟨u, v, rfl, hu, hv⟩ := h
  have hleft : tokens py (name ++ v) ⊆ tokens py (u ++ name ++ v) := by
    rcases List.eq_nil_or_concat u with rfl | ⟨u', c, rfl⟩
    · exact List.Subset.refl _
    · rw [List.concat_eq_append, List.append_assoc, List.append_assoc, List.singleton_append,
        tokens_append_cons (hu c (by simp))]
      exact List.subset_append_right _ _
  have hright : tokens py name ⊆ tokens py (name ++ v) := by
    cases v with
    | nil => rw [List.append_nil]; exact List.Subset.refl _
    | cons c v =>
      rw [tokens_append_cons (hv c rfl)]
      exact List.subset_append_left _ _
  exact List.Subset.trans hright hleft

/-- What stands separate stays so when more is written around it. -/
theorem Separate.wrap {text : Text} (h : Separate py name text) {a b : Text}
    (ha : ∀ c, a.getLast? = some c → Clear py c) (hb : ∀ c, b.head? = some c → Clear py c) :
    Separate py name (a ++ text ++ b) := by
  obtain ⟨u, v, rfl, hu, hv⟩ := h
  refine ⟨a ++ u, v ++ b, by simp only [List.append_assoc], ?_, ?_⟩
  · intro c hc
    rw [List.getLast?_append] at hc
    cases hlast : u.getLast? with
    | none => exact ha c (by simpa [hlast] using hc)
    | some d => exact hu c (by simpa [hlast] using hc)
  · intro c hc
    rw [List.head?_append] at hc
    cases hhead : v.head? with
    | none => exact hb c (by simpa [hhead] using hc)
    | some d => exact hv c (by simpa [hhead] using hc)

theorem Separate.self (name : Text) : Separate py name name :=
  ⟨[], [], by simp, by simp, by simp⟩

theorem clear_of_punctuation {c : Char} (hmem : c ∈ [' ', ',', '.', ':', ';', '«', '»']) : Clear py c := by
  have hc : folded py [c] = [if c = 'ё' then 'е' else c] := by
    simp [folded, py.lowerOf_punctuation c hmem]
  rw [Clear, hc]
  refine ⟨List.cons_ne_nil _ _, fun d hd => ?_⟩
  rw [List.mem_singleton] at hd
  subst hd
  simp only [List.mem_cons, List.not_mem_nil, or_false] at hmem
  rcases hmem with rfl | rfl | rfl | rfl | rfl | rfl | rfl <;> decide

/-- Each part of a joined text stands separate in it. -/
theorem separate_intercalate {sep : Text} (hne : sep ≠ []) (hlast : ∀ c, sep.getLast? = some c → Clear py c)
    (hhead : ∀ c, sep.head? = some c → Clear py c) {parts : List Text} {part : Text} (h : part ∈ parts) :
    Separate py part (sep.intercalate parts) := by
  induction parts with
  | nil => cases h
  | cons x parts ih =>
    cases parts with
    | nil =>
      rw [List.mem_singleton] at h
      rw [h, List.intercalate_singleton]
      exact Separate.self x
    | cons y parts =>
      rw [List.intercalate_cons_cons]
      rcases List.mem_cons.1 h with rfl | h
      · refine ⟨[], sep ++ sep.intercalate (y :: parts), by simp only [List.nil_append, List.append_assoc], by simp, ?_⟩
        intro c hc
        exact hhead c (by simpa [List.head?_append, List.head?_eq_some_head hne] using hc)
      · have hwrap := (ih h).wrap (a := x ++ sep) (b := []) (fun c hc => hlast c ?_) (by simp)
        · simpa using hwrap
        · simpa [List.getLast?_append, List.getLast?_eq_some_getLast hne] using hc

/-! ## What is mentioned -/

/-- A name that a reply can mention: one of its tokens counts, or it is one token. -/
def Groundable (py : ReportPy) (name : Text) : Prop :=
  significant py name ≠ [] ∨ (tokens py name).length = 1

theorem hit_of_mem {replyTokens : List Text} {t : Text} (h : t ∈ replyTokens) : hit replyTokens t = true := by
  rw [hit]
  split
  · simpa using h
  · have hstem : stem t <+: t := by
      rw [stem]
      split
      · exact List.take_prefix _ _
      · exact List.dropLast_prefix _
    exact List.any_eq_true.2 ⟨t, h, List.isPrefixOf_iff_prefix.2 hstem⟩

/-- A name whose tokens all occur is mentioned exactly when it can be. -/
theorem nameMentioned_iff {reply : Text} (h : tokens py name ⊆ tokens py reply) :
    nameMentioned py (tokens py reply) name = true ↔ Groundable py name := by
  rw [nameMentioned, Groundable]
  by_cases hsig : significant py name = []
  · simp only [hsig, if_true, ne_eq, not_true, false_or, Bool.and_eq_true, decide_eq_true_eq, List.contains_iff_mem]
    constructor
    · rintro ⟨hne, hmem⟩
      obtain ⟨-, hword⟩ := mem_wordsBy hmem
      rw [tokens, wordsBy_word hne hword]
      rfl
    · intro hone
      obtain ⟨w, hw⟩ := List.length_eq_one_iff.1 hone
      have hnorm : norm py name = w := by
        rw [tokens, norm, wordsBy_strip] at hw
        exact strip_of_wordsBy hw
      have hmem : w ∈ tokens py name := by simp [hw]
      exact ⟨hnorm ▸ (mem_wordsBy hmem).1, hnorm ▸ h hmem⟩
  · simp only [hsig, if_false, ne_eq, not_false_eq_true, true_or, iff_true, List.all_eq_true]
    intro t ht
    exact hit_of_mem (h (List.mem_of_mem_filter ht))

theorem Groundable.tokens_ne_nil (h : Groundable py name) : tokens py name ≠ [] := by
  intro hnil
  rcases h with h | h
  · exact h (by simp [significant, hnil])
  · simp [hnil] at h

/-! ## The acts of a turn -/

/-- The names that an act reports. The shopping list is not named. -/
def WriteAct.names (act : WriteAct) : List Text :=
  act.items ++ if act.kind = .add ∧ act.tool = "add_shopping_items" then [] else [act.target]

/-- Every name of the act can be displayed: none of the added items is missing, and the target is there. -/
def WriteAct.Displayable (act : WriteAct) : Prop :=
  (act.kind = .add → act.items.length = act.count) ∧
    (act.kind = .add ∧ act.tool = "add_shopping_items" ∨ act.target ≠ [])

instance (act : WriteAct) : Decidable act.Displayable := by
  unfold WriteAct.Displayable
  infer_instance

/-- What `collect_successful_writes` keeps true of its acts. -/
structure WriteAct.Collected (act : WriteAct) : Prop where
  count_pos : 0 < act.count
  items_of_target : act.kind = .target → act.items = []
  spec_of_target : act.kind = .target → ∃ spec, targetSpecs.lookup act.tool = some spec

theorem actOf_collected {window : List Message} {call : ToolCall}
    (h : actOf py window call = some act) : act.Collected := by
  simp only [actOf] at h
  split at h
  · cases h
  · split at h
    · cases h
    · split at h
      · cases h
      · split at h
        · split at h
          · cases h
          · rename_i hcreated
            cases h
            exact ⟨List.length_pos_iff.2 hcreated, (fun hkind => by cases hkind), (fun hkind => by cases hkind)⟩
        · split at h
          · cases h
          · rename_i spec hspec
            split at h
            · cases h
            · cases h
              exact ⟨Nat.one_pos, fun _ => rfl, fun _ => ⟨spec, hspec⟩⟩

theorem collected_of_mem {messages : List Message}
    (h : act ∈ collectSuccessfulWrites py messages) : act.Collected := by
  obtain ⟨m, -, hact⟩ := List.mem_flatMap.1 h
  obtain ⟨call, -, hcall⟩ := List.mem_filterMap.1 hact
  exact actOf_collected hcall

theorem WriteAct.names_ne_nil (hact : act.Collected) (hshown : act.Displayable) : act.names ≠ [] := by
  rw [WriteAct.names]
  cases hkind : act.kind with
  | add =>
    have hne : act.items ≠ [] := List.length_pos_iff.1 (hshown.1 hkind ▸ hact.count_pos)
    simp [hne]
  | target => simp

/-- A displayable act is grounded when all its names are mentioned. -/
theorem WriteAct.grounded_iff (hact : act.Collected) (hshown : act.Displayable) (replyTokens : List Text) :
    act.grounded py replyTokens = true ↔ ∀ name ∈ act.names, nameMentioned py replyTokens name = true := by
  obtain ⟨hitems, htarget⟩ := hshown
  rw [WriteAct.grounded, WriteAct.names]
  cases hkind : act.kind with
  | add =>
    have hlen := hitems hkind
    by_cases htool : act.tool = "add_shopping_items"
    · simp [hlen, htool]
    · have hne : act.target ≠ [] := by simpa [htool] using htarget
      simp [hlen, htool, hne, or_imp, forall_and]
  | target =>
    have hne : act.target ≠ [] := by simpa [hkind] using htarget
    simp [hact.items_of_target hkind, hne]

/-! ## The names in the fallback -/

theorem clear_of_eq_some {o : Option Char} {d : Char} (h : o = some d) (hd : d ∈ [' ', ',', '.', ':', ';', '«', '»']) :
    ∀ c, o = some c → Clear py c := by
  rintro c rfl
  exact Option.some_inj.1 h ▸ clear_of_punctuation hd

theorem separate_items {a : Text} (ha : ∀ c, a.getLast? = some c → Clear py c) {items : List Text}
    (h : name ∈ items) : Separate py name (a ++ ", ".toList.intercalate items) := by
  have hitem : Separate py name (", ".toList.intercalate items) :=
    separate_intercalate (by decide) (clear_of_eq_some (d := ' ') rfl (by decide))
      (clear_of_eq_some (d := ',') rfl (by decide)) h
  simpa using hitem.wrap ha (b := []) (by simp)

/-- The phrase of a displayable act holds all its names. -/
theorem separate_phrase (hact : act.Collected) (hshown : act.Displayable)
    (h : name ∈ act.names) : Separate py name (phrase act) := by
  obtain ⟨hitems, htarget⟩ := hshown
  rw [WriteAct.names] at h
  rw [phrase]
  cases hkind : act.kind with
  | add =>
    have hlen := hitems hkind
    have hne : act.items ≠ [] := List.length_pos_iff.1 (hlen ▸ hact.count_pos)
    by_cases htool : act.tool = "add_shopping_items"
    · simp only [hkind, htool, and_self, if_true, List.append_nil] at h
      simp only [htool, hne, hlen, ne_eq, not_false_eq_true, and_self, if_true]
      exact separate_items (clear_of_eq_some (d := ' ') rfl (by decide)) h
    · have htarget' : act.target ≠ [] := by simpa [htool] using htarget
      simp only [hkind, htool, and_false, if_false, List.mem_append, List.mem_singleton] at h
      simp only [htool, htarget', hne, hlen, ne_eq, not_false_eq_true, and_self, if_true, if_false]
      rcases h with h | rfl
      · refine separate_items ?_ h
        exact clear_of_eq_some (d := ' ') (by rw [List.getLast?_append]; rfl) (by decide)
      · rw [List.append_assoc, List.append_assoc]
        rw [← List.append_assoc]
        refine (Separate.self act.target).wrap (clear_of_eq_some (d := '«') rfl (by decide)) ?_
        exact clear_of_eq_some (d := '»') rfl (by decide)
  | target =>
    have hne : act.target ≠ [] := by simpa [hkind] using htarget
    obtain ⟨spec, hspec⟩ := hact.spec_of_target hkind
    simp only [hact.items_of_target hkind, hkind, reduceCtorEq, false_and, if_false, List.nil_append,
      List.mem_singleton] at h
    subst h
    simp only [hspec, hne, ne_eq, not_false_eq_true, if_true]
    refine (Separate.self act.target).wrap ?_ (clear_of_eq_some (d := '»') rfl (by decide))
    exact clear_of_eq_some (d := '«') (by rw [List.getLast?_append]; rfl) (by decide)

theorem phrase_ne_nil (hact : act.Collected) : phrase act ≠ [] := by
  rw [phrase]
  cases hkind : act.kind with
  | add => simp only; split_ifs <;> simp
  | target =>
    obtain ⟨spec, hspec⟩ := hact.spec_of_target hkind
    have hverb : ∀ p ∈ targetSpecs, p.2.verb.toList ≠ [] := by decide
    obtain ⟨l, r, htable, -⟩ := List.lookup_eq_some_iff.1 hspec
    have hne := hverb (act.tool, spec) (by rw [htable]; simp)
    simp only [hspec]
    split_ifs <;> simp [hne]

theorem separate_fallbackReply {acts : List WriteAct} (hacts : ∀ act ∈ acts, act.Collected ∧ act.Displayable)
    (hact : act ∈ acts) (h : name ∈ act.names) :
    Separate py name (fallbackReply acts) := by
  obtain ⟨hcollected, hshown⟩ := hacts act hact
  have hmem : phrase act ∈ (acts.map phrase).filter (· ≠ []) := by
    simpa using ⟨⟨act, hact, rfl⟩, phrase_ne_nil hcollected⟩
  have hphrase : Separate py (phrase act) ("; ".toList.intercalate ((acts.map phrase).filter (· ≠ []))) :=
    separate_intercalate (by decide) (clear_of_eq_some (d := ' ') rfl (by decide))
      (clear_of_eq_some (d := ';') rfl (by decide)) hmem
  obtain ⟨u, v, hbody, hu, hv⟩ := hphrase
  have hname := ((separate_phrase hcollected hshown h).wrap hu hv)
  rw [← hbody] at hname
  have hne : "; ".toList.intercalate ((acts.map phrase).filter (· ≠ [])) ≠ [] := by
    rw [hbody]
    simp [phrase_ne_nil hcollected]
  rw [fallbackReply, if_neg hne]
  exact hname.wrap (clear_of_eq_some (d := ' ') rfl (by decide)) (clear_of_eq_some (d := '.') rfl (by decide))

/-- A reply with all the names is grounded when each of them can be mentioned. -/
theorem replyGroundsResult_of_separate {acts : List WriteAct} (hacts : ∀ act ∈ acts, act.Collected ∧ act.Displayable)
    {reply : Text} (hreply : ∀ act ∈ acts, ∀ name ∈ act.names, Separate py name reply) :
    replyGroundsResult py reply acts = true ↔ ∀ act ∈ acts, ∀ name ∈ act.names, Groundable py name := by
  have hall : acts.all (WriteAct.grounded py (tokens py reply)) = true ↔
      ∀ act ∈ acts, ∀ name ∈ act.names, Groundable py name := by
    rw [List.all_eq_true]
    refine forall₂_congr fun act hact => ?_
    rw [WriteAct.grounded_iff (hacts act hact).1 (hacts act hact).2]
    exact forall₂_congr fun name hname => nameMentioned_iff (hreply act hact name hname).tokens_subset
  rw [replyGroundsResult]
  split
  · next hnil => simp [hnil]
  · next hne =>
    split
    · next htokens =>
      -- Some act reports a name, and the tokens of a name are tokens of the reply.
      obtain ⟨act, hact⟩ := List.exists_mem_of_ne_nil acts hne
      obtain ⟨name, hname⟩ := List.exists_mem_of_ne_nil act.names
        (WriteAct.names_ne_nil (hacts act hact).1 (hacts act hact).2)
      have hnil : tokens py name = [] :=
        List.eq_nil_of_subset_nil (htokens ▸ (hreply act hact name hname).tokens_subset)
      simp only [Bool.false_eq_true, false_iff, not_forall]
      exact ⟨act, hact, name, hname, fun h => h.tokens_ne_nil hnil⟩
    · exact hall

/-- **When the guard accepts what names everything.** If every reported name can be displayed, the
replies that hold each of them as separate words are all grounded, and the fallback is, exactly when
each name has a token that counts or is a single token. -/
theorem replyGroundsResult_iff (py : ReportPy) (messages : List Message)
    (hshown : ∀ act ∈ collectSuccessfulWrites py messages, act.Displayable) :
    ((∀ reply : Text, (∀ act ∈ collectSuccessfulWrites py messages, ∀ name ∈ act.names, Separate py name reply) →
        replyGroundsResult py reply (collectSuccessfulWrites py messages) = true) ↔
      ∀ act ∈ collectSuccessfulWrites py messages, ∀ name ∈ act.names, Groundable py name) ∧
    (replyGroundsResult py (fallbackReply (collectSuccessfulWrites py messages))
        (collectSuccessfulWrites py messages) = true ↔
      ∀ act ∈ collectSuccessfulWrites py messages, ∀ name ∈ act.names, Groundable py name) := by
  have hacts : ∀ act ∈ collectSuccessfulWrites py messages, act.Collected ∧ act.Displayable :=
    fun act hact => ⟨collected_of_mem hact, hshown act hact⟩
  have hfallback : ∀ act ∈ collectSuccessfulWrites py messages, ∀ name ∈ act.names,
      Separate py name (fallbackReply (collectSuccessfulWrites py messages)) :=
    fun act hact name hname => separate_fallbackReply hacts hact hname
  have hiff := replyGroundsResult_of_separate hacts hfallback
  refine ⟨⟨fun hall => hiff.1 (hall _ hfallback), fun hground reply hreply => ?_⟩, hiff⟩
  exact (replyGroundsResult_of_separate hacts hreply).2 hground

/-- ASCII, the Russian letters, and no JSON. -/
def plainPy : ReportPy where
  isWord c := isTokenChar (lowerChar c) || c == '_' || c == 'ё' || c == 'Ё'
  lowerOf c := [lowerChar c]
  lowerOf_punctuation c hc := by
    simp only [List.mem_cons, List.not_mem_nil, or_false] at hc
    rcases hc with rfl | rfl | rfl | rfl | rfl | rfl | rfl <;> rfl
  loads _ := none

/-- A turn that deletes the list of the given title. -/
def archiveTurn (title : String) : List Message :=
  [.human "удали", .assistant "" [⟨"1", "archive_checklist", [("list_id_or_title", .str title)]⟩],
   .tool ⟨"ok:archived", "archive_checklist", "1", false, some "ok"⟩]

/-- «Дача» has a token that counts. -/
theorem replyGroundsResult_dacha :
    (∀ act ∈ collectSuccessfulWrites plainPy (archiveTurn "Дача"), act.Displayable) ∧
    (replyGroundsResult plainPy (fallbackReply (collectSuccessfulWrites plainPy (archiveTurn "Дача")))
        (collectSuccessfulWrites plainPy (archiveTurn "Дача")) = true ↔
      ∀ act ∈ collectSuccessfulWrites plainPy (archiveTurn "Дача"), ∀ name ∈ act.names, Groundable plainPy name) :=
  ⟨by decide, (replyGroundsResult_iff plainPy (archiveTurn "Дача") (by decide)).2⟩

/-- «Ты и я» has three tokens, and none that counts: the fallback holds it and is not grounded. -/
theorem not_grounded_fallback :
    (∀ act ∈ collectSuccessfulWrites plainPy (archiveTurn "Ты и я"), act.Displayable) ∧
    (collectSuccessfulWrites plainPy (archiveTurn "Ты и я")).flatMap WriteAct.names = ["Ты и я".toList] ∧
    fallbackReply (collectSuccessfulWrites plainPy (archiveTurn "Ты и я")) = "Готово, удалила список «Ты и я».".toList ∧
    Separate plainPy "Ты и я".toList "Готово, удалила список «Ты и я».".toList ∧
    replyGroundsResult plainPy "Готово, удалила список «Ты и я».".toList
      (collectSuccessfulWrites plainPy (archiveTurn "Ты и я")) = false := by
  refine ⟨by decide, by decide, by decide, ?_, by decide⟩
  exact ⟨"Готово, удалила список «".toList, "».".toList, by decide, clear_of_eq_some (d := '«') (by decide) (by decide),
    clear_of_eq_some (d := '»') (by decide) (by decide)⟩

end Sreda.React
