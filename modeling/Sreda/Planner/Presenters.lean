import Mathlib
import Sreda.Lib.JsonText
import Sreda.Lib.Keyed
import Sreda.Lib.PyText
import Sreda.Planner.Value

/-!
# What a step shows

`services/composer/presenters.py` and the pool of `breakdown_messages.py`: the text that is shown of the output of a
step that is ok, and the phrase for a step that is not. The map of the display fields comes from the tools that are
registered, and the phrase of a refusal is drawn from the pool; metrics, logs and alerts are left out.

A value of another type is never a tuple: the outputs of the tools have none.

## What is proved

* which values read as a text of white space (`whitespace?_eq`): the emptiness of a text is looked at before it is shown,
  white space is not;
* a phrase that is not taken from the output is never blank (`confirmPhrases_speak`, `breakdownPool_speaks`,
  `renderExecutionFailure_not_blank`);
* so what is shown is blank exactly when a value of the output is (`renderDisplayText_blank_iff`).
-/

namespace Sreda.Planner

open Sreda.Lib
open Sreda.Lib.PyText (Text Blank Starts isSpace)

/-! ### Coercion and length -/

/-- `DISPLAY_TEXT_MAX_CHARS`. -/
def displayTextMaxChars : ℕ := 2000

/-- `_EMPTY_DISPLAY`. -/
def emptyDisplay : String := "Нет данных для показа."

section Coercion

variable (py : Py)

mutual

/-- The tree that `json.dumps` prints, with `sort_keys=True` and `default=str`. -/
def jsonTree : Value → Json.Tree
  | .null => .null
  | .bool b => .bool b
  | .int n => .number (Json.text (toString n)) false
  | .float q => .number (Json.text (py.reprFloat q)) true
  | .str s => .string (Json.text s)
  | .list vs => .array (jsonItems vs)
  | .dict kvs => .object (((jsonPairs kvs).mergeSort fun a b => decide (a.1 ≤ b.1)).map fun kv => (Json.text kv.1, kv.2))
  | .literal v => .string (Json.text ((Value.literal v).toStr py))
  | .object type id => .string (Json.text (py.strObject type id))

def jsonItems : List Value → List Json.Tree
  | [] => []
  | v :: vs => jsonTree v :: jsonItems vs

def jsonPairs : List (String × Value) → List (String × Json.Tree)
  | [] => []
  | (k, v) :: kvs => (k, jsonTree v) :: jsonPairs kvs

end

/-- The characters of a text without lone surrogates. -/
def codeChars (text : Json.Text) : Text :=
  text.filterMap fun
    | .char c => some c
    | .surrogate _ => none

/-- `json.dumps` of a mapping. -/
def dumps (mapping : Dict) : Text := codeChars (Json.print (jsonTree py (.dict mapping)))

mutual

/-- `_coerce_to_str`. -/
def coerceToStr : Value → Text
  | .null => emptyDisplay.toList
  | .dict kvs => dumps py kvs
  | .list vs => ['\n'].intercalate (coerceItems vs)
  | v => (v.toStr py).toList

/-- The texts of the items that are not `None`. -/
def coerceItems : List Value → List Text
  | [] => []
  | .null :: vs => coerceItems vs
  | v :: vs => coerceToStr v :: coerceItems vs

end

/-- `_cap`. -/
def cap (text : Text) : Text :=
  if text.length > displayTextMaxChars then text.take (displayTextMaxChars - 3) ++ "...".toList else text

/-- `_finalize`. -/
def finalize (value : Value) : String :=
  let text := coerceToStr py value
  String.ofList (cap (if text = [] then emptyDisplay.toList else text))

end Coercion

/-! ### Phrases -/

/-- `BREAKDOWN_POOL`. -/
def breakdownPool : List String := [
  "Ой… у меня внутри что-то заело 🙈 Создатели уже разбираются. Попробуй ещё разок через минутку!",
  "Кажется, я споткнулась о собственный провод 🛠 Мастера уже в курсе и чинят. Повтори, пожалуйста, чуть позже.",
  "Что-то у меня шестерёнки заскрипели… Создателям уже пожаловалась — чинят. Давай попробуем ещё раз через минутку?",
  "Уф, тут у меня маленькая поломка 🧰 Создатели уже бегут с отвёрткой. Вернусь в строй совсем скоро — повтори чуть позже!",
  "Прости, я тут немножко сломалась 💔 Создатели уже знают и чинят. Попробуй снова через пару минут!"]

/-- `_EXECUTION_FAILURE_PHRASES`. -/
def executionFailurePhrases : List (String × String) := [
  ("error", "Не получилось выполнить действие. Попробуй ещё раз позже."),
  ("timeout", "Действие заняло слишком много времени. Попробуй ещё раз."),
  ("plan_gap", "Не получилось корректно подготовить действие. Попробуй переформулировать."),
  ("arg_violation", "Не получилось выполнить действие из-за неверных параметров."),
  ("unknown_outcome", "Действие выполнилось, но результат не удалось безопасно распознать.")]

/-- `_EXECUTION_FAILURE_DEFAULT`. -/
def executionFailureDefault : String := "Не получилось выполнить действие. Попробуй ещё раз позже."

/-- `render_execution_failure`: neither the tool nor the error is told. -/
def renderExecutionFailure (_ execStatus : String) (_ : Option String) : String :=
  (executionFailurePhrases.lookup execStatus).getD executionFailureDefault

/-- An entry of `_CONFIRM_PHRASES`. -/
inductive ConfirmPhrase where
  | text (phrase : String)
  /-- A sentence around a field, and another one when the field is falsy. -/
  | counted (key before after otherwise : String)
  /-- A sentence around a field that is 0 when it is missing. -/
  | total (key before after : String)

/-- `_CONFIRM_PHRASES`. -/
def confirmPhrases : List ((String × String) × ConfirmPhrase) := [
  (("archive_checklist", "archived"), .text "Список заархивирован."),
  (("attach_reminder", "reminder_attached"), .text "Напоминание прикреплено к задаче."),
  (("cancel_reminder", "cancelled"), .text "Напоминание отменено."),
  (("clear_bought_shopping", "cleared"),
    .counted "cleared_count" "Убрала купленные позиции: " "." "Купленных позиций не было."),
  (("clear_menu", "cleared"), .counted "cleared_count" "Очистила меню (" ")." "Меню уже было пустым."),
  (("delete_recipe", "deleted"), .text "Рецепт удалён."),
  (("delete_task", "deleted"), .text "Задача удалена."),
  (("detach_reminder", "reminder_detached"), .text "Напоминание откреплено от задачи."),
  (("generate_shopping_from_menu", "generated"), .total "generated_count" "Собрала покупки из меню: " "."),
  (("generate_shopping_from_menu", "plan_no_recipes"), .text "В меню нет рецептов с ингредиентами — собирать нечего."),
  (("link_task_to_checklist", "linked"), .text "Связала задачу со списком."),
  (("link_task_to_checklist", "already_linked"), .text "Задача уже в этом списке."),
  (("log_unsupported_request", "logged"), .text "Пока такого не умею — записала пожелание создателям."),
  (("move_task_to_checklist", "moved"), .text "Перенесла задачу в список."),
  (("move_task_to_checklist", "moved_dup"), .text "Перенесла — в списке уже была похожая задача."),
  (("move_task_to_checklist", "partial_failure"), .text "Перенесла не всё — часть не получилось."),
  (("onboarding_answered", "answered"), .text "Записала."),
  (("onboarding_complete", "complete"), .text "Знакомство завершено."),
  (("onboarding_deferred", "deferred"), .text "Хорошо, вернёмся к этому позже."),
  (("plan_week_menu", "plan_created"), .text "Меню на неделю готово."),
  (("remove_family_member", "removed"), .text "Удалила из семьи."),
  (("reply_with_buttons", "buttons_set"), .text "Готово."),
  (("save_core_fact", "saved_core"), .text "Запомнила."),
  (("save_episode", "saved_episode"), .text "Запомнила."),
  (("schedule_reminder", "scheduled"), .text "Напоминание поставила."),
  (("schedule_reminder", "skipped_past"), .text "Это время уже прошло — напоминание не ставлю."),
  (("unlink_task", "unlinked"), .text "Отвязала задачу от списка."),
  (("unlink_task", "not_linked"), .text "Задача и так не была привязана к списку."),
  (("update_menu_item", "updated"), .text "Обновила пункт меню."),
  (("update_menu_item", "cleared_or_not_found"), .text "Пункт меню очищён."),
  (("update_reminder", "updated"), .text "Напоминание обновила.")]

/-- `bool(v)`. -/
def Value.truthy : Value → Bool
  | .null => false
  | .bool b => b
  | .int n => n ≠ 0
  | .float q => q ≠ 0
  | .str s => s ≠ ""
  | .list vs => !vs.isEmpty
  | .dict kvs => !kvs.isEmpty
  | .literal _ => true
  | .object _ _ => true

/-- What an entry says of an output. -/
def ConfirmPhrase.said (py : Py) (output : Dict) : ConfirmPhrase → String
  | .text phrase => phrase
  | .counted key before after otherwise =>
    let count := (output.lookup key).getD .null
    if count.truthy then before ++ count.toStr py ++ after else otherwise
  | .total key before after => before ++ ((output.lookup key).getD (.int 0)).toStr py ++ after

/-! ### Presenters -/

/-- What the presenters are given. -/
structure PresenterEnv where
  py : Py
  /-- `_DISPLAY_FIELD_MAP`, by the tool and the domain status. -/
  displayFieldMap : String → String → Option String
  /-- `breakdown_phrase`, for the tool and the status that are refused. -/
  breakdownPhrase : String → String → { phrase : String // phrase ∈ breakdownPool }

section Presenters

variable (env : PresenterEnv)

/-- `_present_web_search`. -/
def presentWebSearch (output : Dict) : Value := (output.lookup "raw_text").getD .null

/-- The content of a hit, when it has one. -/
def hitContent : Value → Option Text
  | .dict hit =>
    match hit.lookup "content" with
    | none | some .null => none
    | some content => some (content.toStr env.py).toList
  | _ => none

/-- `_present_recall_memory`. -/
def presentRecallMemory (output : Dict) : Value :=
  let hits := match output.lookup "hits" with
    | some (.list hits) => hits
    | _ => []
  .str (String.ofList (['\n'].intercalate (hits.filterMap (hitContent env))))

/-- `_confirm_override`. -/
def confirmOverride (tool : String) (output : Dict) (domainStatus : String) : Value :=
  match confirmPhrases.lookup (tool, domainStatus) with
  | some entry => .str (entry.said env.py output)
  | none => .str (env.breakdownPhrase tool domainStatus)

/-- A tool with entries in `_CONFIRM_PHRASES`. -/
def isConfirmTool (tool : String) : Bool := confirmPhrases.any fun entry => entry.1.1 = tool

/-- `_OVERRIDES`. -/
def overrides (tool : String) : Option (Dict → String → Value) :=
  if isConfirmTool tool then some (confirmOverride env tool)
  else if tool = "web_search" then some fun output _ => presentWebSearch output
  else if tool = "recall_memory" then some fun output _ => presentRecallMemory env output
  else none

/-- `render_display_text`. -/
def renderDisplayText (tool : String) (output : Option Dict) (domainStatus : String) : String :=
  match output with
  | none => env.breakdownPhrase tool domainStatus
  | some mapping =>
    match overrides env tool with
    | some override => finalize env.py (override mapping domainStatus)
    | none =>
      match env.displayFieldMap tool domainStatus with
      | none => env.breakdownPhrase tool domainStatus
      | some field => finalize env.py ((mapping.lookup field).getD .null)

end Presenters

/-! ### Texts that say something -/

/-- The text begins with a character that is not white space. -/
def speaks (text : String) : Bool :=
  match text.toList with
  | [] => false
  | c :: _ => !isSpace c

theorem starts_of_speaks {text : String} (h : speaks text = true) : Starts text.toList := by
  unfold speaks at h
  split at h
  next => cases h
  next c rest heq =>
    rw [heq]
    exact ⟨c, rest, rfl, by simpa using h⟩

theorem speaks_ofList {c : Char} (rest : List Char) (h : isSpace c = false) : speaks (String.ofList (c :: rest)) = true := by
  simp only [speaks, String.toList_ofList, h, Bool.not_false]

theorem breakdownPool_speaks : ∀ phrase ∈ breakdownPool, speaks phrase = true := by
  simp only [breakdownPool, List.forall_mem_cons]
  refine ⟨?_, ?_, ?_, ?_, ?_, List.forall_mem_nil _⟩
  all_goals
    apply speaks_ofList
    rfl

theorem executionFailurePhrases_speak : ∀ entry ∈ executionFailurePhrases, speaks entry.2 = true := by
  simp only [executionFailurePhrases, List.forall_mem_cons]
  refine ⟨?_, ?_, ?_, ?_, ?_, List.forall_mem_nil _⟩
  all_goals
    apply speaks_ofList
    rfl

/-- An entry begins with words of its own, whatever the output is. -/
def ConfirmPhrase.speaks : ConfirmPhrase → Bool
  | .text phrase => Planner.speaks phrase
  | .counted _ before _ otherwise => Planner.speaks before && Planner.speaks otherwise
  | .total _ before _ => Planner.speaks before

theorem confirmPhrases_speak : ∀ entry ∈ confirmPhrases, entry.2.speaks = true := by
  simp only [confirmPhrases, List.forall_mem_cons, ConfirmPhrase.speaks, Bool.and_eq_true]
  repeat' apply And.intro
  any_goals
    apply speaks_ofList
    rfl
  exact List.forall_mem_nil _

theorem ConfirmPhrase.said_starts {entry : ConfirmPhrase} (h : entry.speaks = true) (py : Py) (output : Dict) :
    Starts (entry.said py output).toList := by
  cases entry with
  | text phrase => exact starts_of_speaks h
  | counted key before after otherwise =>
    obtain ⟨hbefore, hotherwise⟩ := Bool.and_eq_true_iff.mp h
    simp only [said]
    split
    · rw [String.toList_append, String.toList_append, List.append_assoc]
      exact (starts_of_speaks hbefore).append _
    · exact starts_of_speaks hotherwise
  | total key before after =>
    simp only [said]
    rw [String.toList_append, String.toList_append, List.append_assoc]
    exact (starts_of_speaks h).append _

/-- The phrase of a failure says something, whatever the status is. -/
theorem renderExecutionFailure_not_blank (tool status : String) (summary : Option String) :
    ¬ Blank (renderExecutionFailure tool status summary).toList := by
  apply Starts.not_blank
  apply starts_of_speaks
  unfold renderExecutionFailure
  cases h : executionFailurePhrases.lookup status with
  | none =>
    apply speaks_ofList
    rfl
  | some phrase => exact executionFailurePhrases_speak (status, phrase) (mem_of_lookup h)

theorem emptyDisplay_not_blank : ¬ Blank emptyDisplay.toList := by
  apply Starts.not_blank
  apply starts_of_speaks
  apply speaks_ofList
  rfl

theorem dumps_not_blank (py : Py) (mapping : Dict) : ¬ Blank (dumps py mapping) := by
  have hprint : ∀ pairs, ∃ rest, Json.print (.object pairs) = .char '\x7b' :: rest := by
    intro pairs
    cases pairs with
    | nil => exact ⟨_, rfl⟩
    | cons pair pairs => exact ⟨_, rfl⟩
  obtain ⟨rest, hrest⟩ := hprint _
  apply Starts.not_blank
  exact ⟨'\x7b', codeChars rest, by rw [dumps, jsonTree, hrest]; rfl, by decide⟩

/-! ### Values that read as white space -/

section Whitespace

variable (py : Py)

/-- The number of characters of a text of white space. -/
def blankLength (text : Text) : Option ℕ := if Blank text then some text.length else none

mutual

/-- The number of characters of a value that reads as white space. -/
def whitespace? : Value → Option ℕ
  | .null => none
  | .dict _ => none
  | .list vs => (whitespaceItems vs).map fun lengths => lengths.sum + (lengths.length - 1)
  | v => blankLength (v.toStr py).toList

/-- The same of the items that are not `None`, when all of them read so. -/
def whitespaceItems : List Value → Option (List ℕ)
  | [] => some []
  | .null :: vs => whitespaceItems vs
  | v :: vs => (whitespace? v).bind fun length => (whitespaceItems vs).map (length :: ·)

end

theorem blank_intercalate {texts : List Text} : Blank (['\n'].intercalate texts) ↔ ∀ text ∈ texts, Blank text := by
  have hnewline : Blank ['\n'] := by decide
  induction texts with
  | nil => simp [List.intercalate_nil, Blank]
  | cons text rest ih =>
    cases rest with
    | nil => simp [List.intercalate_singleton]
    | cons next rest =>
      rw [List.intercalate_cons_cons, List.forall_mem_cons]
      constructor
      · intro h
        exact ⟨h.of_append_left.of_append_left, ih.mp h.of_append_right⟩
      · intro h
        exact (h.1.append hnewline).append (ih.mpr h.2)

theorem length_intercalate (texts : List Text) :
    (['\n'].intercalate texts).length = (texts.map List.length).sum + (texts.length - 1) := by
  induction texts with
  | nil => rfl
  | cons text rest ih =>
    cases rest with
    | nil => simp [List.intercalate_singleton]
    | cons next rest =>
      rw [List.intercalate_cons_cons, List.length_append, List.length_append, ih]
      simp only [List.map_cons, List.sum_cons, List.length_cons, List.length_nil]
      omega

mutual

/-- **Which values read as white space**, and how long their text is. -/
theorem whitespace?_eq : ∀ v : Value, whitespace? py v = blankLength (coerceToStr py v)
  | .null => by rw [whitespace?, coerceToStr, blankLength, if_neg emptyDisplay_not_blank]
  | .dict kvs => by rw [whitespace?, coerceToStr, blankLength, if_neg (dumps_not_blank py kvs)]
  | .list vs => by
    rw [whitespace?, whitespaceItems_eq vs, coerceToStr, blankLength, length_intercalate]
    by_cases h : ∀ text ∈ coerceItems py vs, Blank text
    · rw [if_pos h, if_pos (blank_intercalate.mpr h), Option.map_some, List.length_map]
    · rw [if_neg h, if_neg fun hb => h (blank_intercalate.mp hb), Option.map_none]
  | .bool _ => rfl
  | .int _ => rfl
  | .float _ => rfl
  | .str _ => rfl
  | .literal _ => rfl
  | .object _ _ => rfl

theorem whitespaceItems_eq : ∀ vs : List Value, whitespaceItems py vs =
    if ∀ text ∈ coerceItems py vs, Blank text then some ((coerceItems py vs).map List.length) else none
  | [] => by simp [whitespaceItems, coerceItems]
  | v :: vs => by
    by_cases hnull : v = .null
    · subst hnull
      rw [whitespaceItems, coerceItems, whitespaceItems_eq vs]
    · rw [whitespaceItems, coerceItems, whitespace?_eq v, whitespaceItems_eq vs, blankLength]
      · by_cases hv : Blank (coerceToStr py v)
        · by_cases hvs : ∀ text ∈ coerceItems py vs, Blank text
          · rw [if_pos hv, if_pos hvs, if_pos (List.forall_mem_cons.mpr ⟨hv, hvs⟩)]
            rfl
          · rw [if_pos hv, if_neg hvs, if_neg fun h => hvs (List.forall_mem_cons.mp h).2]
            rfl
        · rw [if_neg hv, if_neg fun h => hv (List.forall_mem_cons.mp h).1]
          rfl
      · exact hnull
      · exact hnull

end

theorem cap_blank_iff (text : Text) : Blank (cap text) ↔ Blank text ∧ text.length ≤ displayTextMaxChars := by
  unfold cap
  split
  next hlong =>
    constructor
    · intro h
      exact absurd h.of_append_right (by decide)
    · intro h
      omega
  next hshort =>
    constructor
    · intro h
      exact ⟨h, by omega⟩
    · exact And.left

/-- A value is shown as white space when it reads as white space that fits. -/
theorem finalize_blank_iff (v : Value) :
    Blank (finalize py v).toList ↔ ∃ length, whitespace? py v = some length ∧ 0 < length ∧ length ≤ displayTextMaxChars := by
  rw [whitespace?_eq, blankLength, finalize, String.toList_ofList, cap_blank_iff]
  by_cases hempty : coerceToStr py v = []
  · rw [if_pos hempty]
    constructor
    · intro h
      exact absurd h.1 emptyDisplay_not_blank
    · rintro ⟨length, hlength, hpos, -⟩
      rw [hempty, if_pos (by decide)] at hlength
      cases hlength
      exact absurd hpos (by decide)
  · have hpos : 0 < (coerceToStr py v).length := List.length_pos_iff.mpr hempty
    rw [if_neg hempty]
    by_cases hblank : Blank (coerceToStr py v)
    · simp [hblank, hpos]
    · simp [hblank]

end Whitespace

/-! ### What is shown of an output -/

section Shown

variable (env : PresenterEnv)

/-- The value of the output that is shown, when it is not a phrase of our own. -/
def shownValue? (tool : String) (mapping : Dict) (domainStatus : String) : Option Value :=
  if isConfirmTool tool then none
  else if tool = "web_search" then some (presentWebSearch mapping)
  else if tool = "recall_memory" then some (presentRecallMemory env mapping)
  else (env.displayFieldMap tool domainStatus).map fun field => (mapping.lookup field).getD .null

/-- An output of which white space would be shown. -/
def ShowsWhitespace (tool : String) (output : Option Dict) (domainStatus : String) : Prop :=
  ∃ mapping value length, output = some mapping ∧ shownValue? env tool mapping domainStatus = some value ∧
    whitespace? env.py value = some length ∧ 0 < length ∧ length ≤ displayTextMaxChars

theorem breakdownPhrase_starts (tool status : String) : Starts (env.breakdownPhrase tool status).1.toList :=
  starts_of_speaks (breakdownPool_speaks _ (env.breakdownPhrase tool status).2)

theorem finalize_starts {py : Py} {phrase : String} (h : Starts phrase.toList) : ¬ Blank (finalize py (.str phrase)).toList := by
  rw [finalize_blank_iff]
  rintro ⟨length, hlength, -⟩
  rw [show whitespace? py (.str phrase) = blankLength phrase.toList from rfl, blankLength, if_neg h.not_blank] at hlength
  cases hlength

theorem confirmOverride_not_blank (tool : String) (mapping : Dict) (status : String) :
    ¬ Blank (finalize env.py (confirmOverride env tool mapping status)).toList := by
  unfold confirmOverride
  split
  next entry hentry =>
    apply finalize_starts
    exact entry.said_starts (confirmPhrases_speak _ (mem_of_lookup hentry)) _ _
  next => exact finalize_starts (breakdownPhrase_starts env tool status)

/-- **What is shown is blank** exactly when the value that is shown reads as white space. -/
theorem renderDisplayText_blank_iff (tool : String) (output : Option Dict) (status : String) :
    Blank (renderDisplayText env tool output status).toList ↔ ShowsWhitespace env tool output status := by
  have hrefused : ¬ Blank (env.breakdownPhrase tool status).1.toList := (breakdownPhrase_starts env tool status).not_blank
  cases output with
  | none => simp [renderDisplayText, ShowsWhitespace, hrefused]
  | some mapping =>
    by_cases hconfirm : isConfirmTool tool = true
    · simp [renderDisplayText, overrides, ShowsWhitespace, shownValue?, hconfirm, confirmOverride_not_blank]
    by_cases hweb : tool = "web_search"
    · subst hweb
      simp [renderDisplayText, overrides, ShowsWhitespace, shownValue?, hconfirm, finalize_blank_iff]
    by_cases hrecall : tool = "recall_memory"
    · subst hrecall
      simp [renderDisplayText, overrides, ShowsWhitespace, shownValue?, hconfirm, finalize_blank_iff]
    cases hfield : env.displayFieldMap tool status with
    | none => simp [renderDisplayText, overrides, ShowsWhitespace, shownValue?, hconfirm, hweb, hrecall, hfield, hrefused]
    | some field =>
      simp [renderDisplayText, overrides, ShowsWhitespace, shownValue?, hconfirm, hweb, hrecall, hfield, finalize_blank_iff]

end Shown

end Sreda.Planner
