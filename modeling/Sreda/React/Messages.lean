import Mathlib.Data.List.Perm.Basic
import Sreda.Planner.Value

/-!
# The messages of a thread

A thread of the ReAct loop is a list of messages. A provider accepts a conversation only if
every assistant message with tool calls is directly followed by exactly one tool message for
each of its calls, and no other tool message occurs. `validToolSequence` is the check that
`react_compaction` makes (`_assert_valid_tool_sequence`): one pass that keeps the ids still
owed to the last assistant message.

The check reads of a message only its slot: whether it owes results, is one, or neither.
-/

namespace Sreda.React

open Sreda.Planner (Dict)

/-- A tool call of an assistant message. A missing id is the empty text. -/
structure ToolCall where
  id : String
  name : String
  args : Dict

/-- `artifact["result_kind"]` of a tool message, and whether its `status` is `"error"`. -/
structure ToolMessage where
  content : String
  name : String
  toolCallId : String
  isError : Bool
  /-- The artifact's `result_kind`; the closing messages of the stop node carry no artifact. -/
  resultKind : Option String
deriving DecidableEq

inductive Message where
  | system (content : String)
  | human (content : String)
  | assistant (content : String) (toolCalls : List ToolCall)
  | tool (message : ToolMessage)

/-- What a message means for the pairing of calls and results. -/
inductive Slot where
  | plain
  /-- An assistant message that owes the results of these calls. -/
  | calls (ids : List String)
  | result (id : String)
deriving DecidableEq

/-- The ids an assistant message owes results for. -/
def owedIds (toolCalls : List ToolCall) : List String := (toolCalls.map (·.id)).filter (· ≠ "")

def Message.slot : Message → Slot
  | .system _ => .plain
  | .human _ => .plain
  | .assistant _ [] => .plain
  | .assistant _ toolCalls => .calls (owedIds toolCalls)
  | .tool message => .result message.toolCallId

/-- Read the slots, `owed` being the ids still owed to the assistant message before. -/
def settle : List String → List Slot → Bool
  | [], [] => true
  | _ :: _, [] => false
  | owed, .result id :: rest => owed.contains id && settle (owed.erase id) rest
  | [], .plain :: rest => settle [] rest
  | [], .calls ids :: rest => settle ids rest
  | _ :: _, .plain :: _ => false
  | _ :: _, .calls _ :: _ => false

/-- `_assert_valid_tool_sequence`. -/
def validToolSequence (messages : List Message) : Bool := settle [] (messages.map Message.slot)

/-! ### The check on parts of a list -/

variable {owed : List String} {xs messages : List Message}

/-- After a part that owes nothing the check goes on afresh. -/
theorem settle_append {xs : List Slot} (h : settle owed xs = true) (ys : List Slot) :
    settle owed (xs ++ ys) = settle [] ys := by
  induction xs generalizing owed with
  | nil => cases owed <;> simp_all [settle]
  | cons x xs ih =>
    cases x with
    | result id =>
      simp only [settle, Bool.and_eq_true] at h
      simp only [List.cons_append, settle, h.1, Bool.true_and]
      exact ih h.2
    | plain =>
      cases owed with
      | nil => simpa [settle] using ih (by simpa [settle] using h)
      | cons _ _ => simp [settle] at h
    | calls ids =>
      cases owed with
      | nil => simpa [settle] using ih (by simpa [settle] using h)
      | cons _ _ => simp [settle] at h

/-- Results for exactly the ids owed settle them. -/
theorem settle_results {ids : List String} (h : ids.Perm owed) : settle owed (ids.map Slot.result) = true := by
  induction ids generalizing owed with
  | nil => simp [List.nil_perm.mp h, settle]
  | cons id ids ih =>
    have hm : id ∈ owed := h.subset (List.mem_cons_self ..)
    simp only [List.map_cons, settle, List.contains_iff_mem.mpr hm, Bool.true_and]
    exact ih (List.cons_perm_iff_perm_erase.mp h).2

theorem validToolSequence_append {ys : List Message} (hx : validToolSequence xs = true) :
    validToolSequence (xs ++ ys) = validToolSequence ys := by
  simp only [validToolSequence, List.map_append]
  exact settle_append hx _

/-- Messages without calls and results may be added freely. -/
theorem validToolSequence_plain (h : ∀ m ∈ xs, m.slot = .plain) : validToolSequence xs = true := by
  induction xs with
  | nil => rfl
  | cons m xs ih =>
    simp only [validToolSequence, List.map_cons, h m (by simp)]
    exact ih fun m' hm => h m' (by simp [hm])

theorem validToolSequence_concat_plain (hx : validToolSequence xs = true) {m : Message}
    (hm : m.slot = .plain) : validToolSequence (xs ++ [m]) = true := by
  rw [validToolSequence_append hx]
  exact validToolSequence_plain (by simpa using hm)

/-- The check does not read what a message says. -/
theorem validToolSequence_congr {ys : List Message} (h : xs.map Message.slot = ys.map Message.slot) :
    validToolSequence xs = validToolSequence ys := by
  simp only [validToolSequence, h]

theorem validToolSequence_group (content : String) (toolCalls : List ToolCall) (results : List ToolMessage)
    (h : (results.map (·.toolCallId)).Perm (owedIds toolCalls)) :
    validToolSequence (.assistant content toolCalls :: results.map .tool) = true := by
  have hmap : (results.map Message.tool).map Message.slot = (results.map (·.toolCallId)).map Slot.result := by
    simp [List.map_map, Function.comp_def, Message.slot]
  cases toolCalls with
  | nil =>
    simp only [owedIds, List.map_nil, List.filter_nil, List.perm_nil, List.map_eq_nil_iff] at h
    subst h
    rfl
  | cons call rest =>
    simp only [validToolSequence, List.map_cons, hmap, Message.slot, settle]
    exact settle_results h

/-! ### What the check means -/

/-- **Every call has its result**: each assistant message with tool calls is directly followed
by exactly one tool message for each of them, and there is no other tool message. -/
inductive Paired : List Message → Prop where
  | nil : Paired []
  | plain {m : Message} {rest : List Message} (hm : m.slot = .plain) (hr : Paired rest) : Paired (m :: rest)
  | group {content : String} {toolCalls : List ToolCall} {results : List ToolMessage} {rest : List Message}
      (hc : toolCalls ≠ []) (hp : (results.map (·.toolCallId)).Perm (owedIds toolCalls)) (hr : Paired rest) :
      Paired (.assistant content toolCalls :: results.map .tool ++ rest)

theorem settle_split (h : settle owed (messages.map Message.slot) = true) :
    ∃ (results : List ToolMessage) (rest : List Message), messages = results.map .tool ++ rest
      ∧ (results.map (·.toolCallId)).Perm owed ∧ validToolSequence rest = true := by
  induction messages generalizing owed with
  | nil =>
    cases owed with
    | nil => exact ⟨[], [], rfl, .refl _, rfl⟩
    | cons _ _ => simp [settle] at h
  | cons m messages ih =>
    cases owed with
    | nil => exact ⟨[], m :: messages, rfl, .refl _, h⟩
    | cons id owed =>
      cases m with
      | tool result =>
        simp only [List.map_cons, Message.slot, settle, Bool.and_eq_true, List.contains_iff_mem] at h
        obtain ⟨results, rest, rfl, hp, hv⟩ := ih h.2
        exact ⟨result :: results, rest, rfl, (hp.cons _).trans (List.perm_cons_erase h.1).symm, hv⟩
      | system content => simp [Message.slot, settle] at h
      | human content => simp [Message.slot, settle] at h
      | assistant content toolCalls => cases toolCalls <;> simp [Message.slot, settle] at h

/-- **The check accepts exactly the lists in which every call has its result.** -/
theorem validToolSequence_iff_paired (messages : List Message) :
    validToolSequence messages = true ↔ Paired messages := by
  constructor
  · induction hn : messages.length using Nat.strong_induction_on generalizing messages with
    | _ n ih =>
      intro h
      cases messages with
      | nil => exact .nil
      | cons m messages =>
        have hrest : m.slot = .plain → Paired (m :: messages) := by
          intro hm
          refine .plain hm (ih messages.length (by simp [← hn]) messages rfl ?_)
          simpa [validToolSequence, hm, settle] using h
        cases m with
        | system content => exact hrest rfl
        | human content => exact hrest rfl
        | tool result => simp [validToolSequence, Message.slot, settle] at h
        | assistant content toolCalls =>
          cases toolCalls with
          | nil => exact hrest rfl
          | cons tc toolCalls =>
            have hs : settle (owedIds (tc :: toolCalls)) (messages.map Message.slot) = true := h
            obtain ⟨results, rest, rfl, hp, hv⟩ := settle_split hs
            refine .group (by simp) hp (ih rest.length ?_ rest rfl hv)
            simp only [← hn, List.length_cons, List.length_append, List.length_map]
            omega
  · intro h
    induction h with
    | nil => rfl
    | plain hm hr ih => simpa [validToolSequence, hm, settle] using ih
    | group hc hp hr ih => rwa [validToolSequence_append (validToolSequence_group _ _ _ hp)]

/-! ### Open calls -/

/-- The history before an assistant message whose results are still missing. -/
structure Owing (messages : List Message) (toolCalls : List ToolCall) : Prop where
  split : ∃ earlier content, messages = earlier ++ [.assistant content toolCalls] ∧
    validToolSequence earlier = true

theorem Owing.close {toolCalls : List ToolCall} (h : Owing messages toolCalls)
    {results : List ToolMessage} (hr : (results.map (·.toolCallId)).Perm (owedIds toolCalls)) :
    validToolSequence (messages ++ results.map .tool) = true := by
  obtain ⟨earlier, content, rfl, hv⟩ := h
  rw [List.append_assoc, validToolSequence_append hv]
  exact validToolSequence_group content toolCalls results hr

theorem Owing.of_valid (h : validToolSequence messages = true) (content : String)
    (toolCalls : List ToolCall) : Owing (messages ++ [.assistant content toolCalls]) toolCalls :=
  ⟨messages, content, rfl, h⟩

theorem Owing.getLast? {toolCalls : List ToolCall} (h : Owing messages toolCalls) :
    ∃ content, messages.getLast? = some (.assistant content toolCalls) := by
  obtain ⟨earlier, content, rfl, -⟩ := h
  exact ⟨content, by simp⟩

end Sreda.React
