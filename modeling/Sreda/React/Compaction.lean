import Mathlib
import Sreda.React.Messages

/-!
# What the model is shown

The chat node does not hand the thread to the model as it is. `build_model_input` cuts a long
history down to a budget of characters: it is cut into blocks, a block being one message or
an assistant message with the results of its calls, old tool results are shortened, and old
blocks are left out, the oldest first and never those of the current turn. `_assemble_msgs`
then puts the time and the directives of the pass to the end, into the last message of the
user or into one of their own.

The texts of shortened results (`_structured_preview`) and of the summary of the part that is
left out (`_applicable_summary`) are given.

## What is proved

* `project_valid`: the projection of a valid history is valid.
* `assembleMsgs_valid`: from a valid history the model is shown a valid list.
-/

namespace Sreda.React

/-! ### Blocks -/

def Message.content : Message → String
  | .system content | .human content | .assistant content _ => content
  | .tool message => message.content

/-- `_has_tool_calls`. -/
def Message.calls : Message → List ToolCall
  | .assistant _ toolCalls => toolCalls
  | _ => []

def Message.isHuman : Message → Bool
  | .human _ => true
  | _ => false

/-- The message is a tool message with one of these ids. -/
def Message.answersOne (ids : List String) : Message → Bool
  | .tool message => ids.contains message.toolCallId
  | _ => false

/-- `_Block`. -/
structure Block where
  messages : List Message
  isToolGroup : Bool

/-- `char_size`. -/
def Block.charSize (b : Block) : ℕ := (b.messages.map (·.content.length)).sum

/-- `segment_messages`. -/
def segmentMessages : List Message → List Block
  | [] => []
  | m :: rest =>
    if m.calls = [] then ⟨[m], false⟩ :: segmentMessages rest
    else
      ⟨m :: rest.takeWhile (·.answersOne (owedIds m.calls)), true⟩ ::
        segmentMessages (rest.dropWhile (·.answersOne (owedIds m.calls)))
termination_by messages => messages.length
decreasing_by
  · exact Nat.lt_succ_self _
  · exact Nat.lt_succ_of_le (List.dropWhile_sublist _).length_le

/-- `_flatten`. -/
def flattenBlocks (blocks : List Block) : List Message := blocks.flatMap (·.messages)

/-! ### The projection -/

def totalBudgetChars : ℕ := 20000
def previewChars : ℕ := 600
def keepFreshTools : ℕ := 3
def keepHeadBlocks : ℕ := 2
def keepTailBlocks : ℕ := 8

/-- `COMPACTION_NOTE`. -/
def compactionNote : String :=
  "\n\n[Часть старой середины диалога свёрнута, чтобы уложиться в окно модели. Полный разговор " ++
    "сохранён; если не хватает контекста — переспроси у пользователя, не выдумывай.]"

/-- `_freshness_ids`. -/
def freshnessIds (messages : List Message) : List String :=
  (messages.reverse.filterMap fun
    | .tool message => some message.toolCallId
    | _ => none).take keepFreshTools

/-- A big tool message that is not fresh is shortened. -/
def previewMessage (preview : String → String) (fresh : List String) : Message → Message
  | .tool message =>
    if ¬ fresh.contains message.toolCallId ∧ message.content.length > previewChars then
      .tool { message with content := preview message.content }
    else .tool message
  | m => m

/-- `_preview_block`, for the blocks that are tool groups. -/
def previewBlock (preview : String → String) (fresh : List String) (b : Block) : Block :=
  if b.isToolGroup then { b with messages := b.messages.map (previewMessage preview fresh) } else b

/-- The place of the last block with a message of the user, or 0. -/
def lastHumanBlock (blocks : List Block) : ℕ :=
  blocks.zipIdx.foldl (fun last b => if b.1.messages.any Message.isHuman then b.2 else last) 0

/-- Drop from the front as long as the rest is too much. -/
def dropOldest (tooMuch : List Block → Bool) : List Block → List Block
  | [] => []
  | b :: rest => if tooMuch (b :: rest) then dropOldest tooMuch rest else b :: rest

def charSizes (blocks : List Block) : ℕ := (blocks.map Block.charSize).sum

/-- `budget or TOTAL_BUDGET_CHARS`. -/
def budgetChars : Option ℤ → ℤ
  | none | some 0 => totalBudgetChars
  | some budget => budget

/-- `_project`: the messages that are shown, and whether any were cut. -/
def project (preview : String → String) (messages : List Message) (spSize : ℕ) (budget : Option ℤ) :
    List Message × Bool :=
  let budget := budgetChars budget
  let blocks := segmentMessages messages
  if (spSize + charSizes blocks : ℕ) ≤ budget then (messages, false)
  else
    let overhead := spSize + compactionNote.length
    let old := (blocks.take (lastHumanBlock blocks)).map (previewBlock preview (freshnessIds messages))
    let current := blocks.drop (lastHumanBlock blocks)
    let long := old.length > keepHeadBlocks + keepTailBlocks
    let head := if long then old.take keepHeadBlocks else old
    let middle := if long then (old.take (old.length - keepTailBlocks)).drop keepHeadBlocks else []
    let tail := if long then old.drop (old.length - keepTailBlocks) else []
    let tooMuch (kept : List Block) : Bool := (overhead + charSizes (kept ++ current) : ℕ) > budget
    let middle := dropOldest (fun middle => tooMuch (head ++ middle ++ tail)) middle
    let head := dropOldest (fun head => tooMuch (head ++ middle ++ tail)) head
    let tail := dropOldest (fun tail => tooMuch (head ++ middle ++ tail)) tail
    (flattenBlocks (head ++ middle ++ tail ++ current), true)

/-! ### The projection is valid -/

theorem answersOne_iff {ids : List String} {m : Message} :
    m.answersOne ids = true ↔ ∃ id ∈ ids, m.slot = .result id := by
  cases m with
  | tool message => simp [Message.answersOne, Message.slot]
  | system content => simp [Message.answersOne, Message.slot]
  | human content => simp [Message.answersOne, Message.slot]
  | assistant content toolCalls => cases toolCalls <;> simp [Message.answersOne, Message.slot]

/-- The results that settle an assistant message are the tool messages with its ids right
after it. -/
theorem settle_takeWhile {ids owed : List String} (hsub : ∀ id ∈ owed, id ∈ ids) {rest : List Message}
    (h : settle owed (rest.map Message.slot) = true) :
    settle owed ((rest.takeWhile (·.answersOne ids)).map Message.slot) = true ∧
      validToolSequence (rest.dropWhile (·.answersOne ids)) = true := by
  induction rest generalizing owed with
  | nil => exact ⟨by simpa using h, rfl⟩
  | cons m rest ih =>
    cases hs : m.slot with
    | result id =>
      simp only [List.map_cons, hs, settle, Bool.and_eq_true, List.contains_iff_mem] at h
      obtain ⟨hm, h⟩ := h
      have hp : m.answersOne ids = true := answersOne_iff.mpr ⟨id, hsub id hm, hs⟩
      obtain ⟨h₁, h₂⟩ := ih (fun x hx => hsub x (List.mem_of_mem_erase hx)) h
      rw [List.takeWhile_cons_of_pos hp, List.dropWhile_cons_of_pos hp]
      refine ⟨?_, h₂⟩
      simp only [List.map_cons, hs, settle, Bool.and_eq_true, List.contains_iff_mem]
      exact ⟨hm, h₁⟩
    | plain =>
      have hp : ¬ m.answersOne ids = true := by
        rw [answersOne_iff]
        rintro ⟨id, -, hid⟩
        simp [hs] at hid
      cases owed with
      | nil =>
        rw [List.takeWhile_cons_of_neg hp, List.dropWhile_cons_of_neg hp]
        exact ⟨rfl, h⟩
      | cons _ _ => simp [hs, settle] at h
    | calls ids' =>
      have hp : ¬ m.answersOne ids = true := by
        rw [answersOne_iff]
        rintro ⟨id, -, hid⟩
        simp [hs] at hid
      cases owed with
      | nil =>
        rw [List.takeWhile_cons_of_neg hp, List.dropWhile_cons_of_neg hp]
        exact ⟨rfl, h⟩
      | cons _ _ => simp [hs, settle] at h

theorem slot_of_calls {m : Message} (h : m.calls ≠ []) : m.slot = .calls (owedIds m.calls) := by
  cases m with
  | assistant content toolCalls =>
    cases toolCalls with
    | nil => simp [Message.calls] at h
    | cons _ _ => rfl
  | _ => simp [Message.calls] at h

theorem slot_ne_calls {m : Message} (h : m.calls = []) (ids : List String) : m.slot ≠ .calls ids := by
  cases m with
  | assistant content toolCalls =>
    obtain rfl : toolCalls = [] := h
    simp [Message.slot]
  | _ => simp [Message.slot]

theorem flatten_segmentMessages (messages : List Message) : flattenBlocks (segmentMessages messages) = messages := by
  induction messages using segmentMessages.induct with
  | case1 => simp [segmentMessages, flattenBlocks]
  | case2 m rest hm ih =>
    rw [segmentMessages, if_pos hm]
    simpa [flattenBlocks] using ih
  | case3 m rest hm ih =>
    rw [segmentMessages, if_neg hm]
    simp only [flattenBlocks, List.flatMap_cons, List.cons_append] at ih ⊢
    rw [ih, List.takeWhile_append_dropWhile]

/-- **Every block of a valid history is valid.** -/
theorem segmentMessages_valid {messages : List Message} (h : validToolSequence messages = true) :
    ∀ b ∈ segmentMessages messages, validToolSequence b.messages = true := by
  induction messages using segmentMessages.induct with
  | case1 => simp [segmentMessages]
  | case2 m rest hm ih =>
    rw [segmentMessages, if_pos hm]
    simp only [validToolSequence, List.map_cons] at h
    have hplain : m.slot = .plain := by
      cases hs : m.slot with
      | plain => rfl
      | result id => simp [hs, settle] at h
      | calls ids => exact absurd hs (slot_ne_calls hm ids)
    rw [hplain] at h
    intro b hb
    rcases List.mem_cons.mp hb with rfl | hb
    · exact validToolSequence_plain (by simpa using hplain)
    · exact ih h b hb
  | case3 m rest hm ih =>
    rw [segmentMessages, if_neg hm]
    simp only [validToolSequence, List.map_cons, slot_of_calls hm, settle] at h
    obtain ⟨h₁, h₂⟩ := settle_takeWhile (fun id hid => hid) h
    intro b hb
    rcases List.mem_cons.mp hb with rfl | hb
    · simp only [validToolSequence, List.map_cons, slot_of_calls hm, settle]
      exact h₁
    · exact ih h₂ b hb

theorem flattenBlocks_valid {blocks : List Block} (h : ∀ b ∈ blocks, validToolSequence b.messages = true) :
    validToolSequence (flattenBlocks blocks) = true := by
  induction blocks with
  | nil => rfl
  | cons b blocks ih =>
    simp only [flattenBlocks, List.flatMap_cons]
    rw [validToolSequence_append (h b (by simp))]
    exact ih fun b' hb => h b' (by simp [hb])

theorem previewBlock_valid (preview : String → String) (fresh : List String) {b : Block}
    (h : validToolSequence b.messages = true) : validToolSequence (previewBlock preview fresh b).messages = true := by
  have hslot : ∀ m : Message, (previewMessage preview fresh m).slot = m.slot := by
    intro m
    cases m with
    | tool message =>
      simp only [previewMessage]
      split <;> rfl
    | _ => rfl
  unfold previewBlock
  split
  · rw [← h]
    exact validToolSequence_congr (by simp [Function.comp_def, hslot])
  · exact h

theorem dropOldest_subset (tooMuch : List Block → Bool) (blocks : List Block) :
    dropOldest tooMuch blocks ⊆ blocks := by
  induction blocks with
  | nil => simp [dropOldest]
  | cons b blocks ih =>
    simp only [dropOldest]
    split
    · exact fun x hx => List.mem_cons_of_mem _ (ih hx)
    · exact fun x hx => hx

/-- **The projection of a valid history is valid.** -/
theorem project_valid (preview : String → String) {messages : List Message} (spSize : ℕ) (budget : Option ℤ)
    (h : validToolSequence messages = true) :
    validToolSequence (project preview messages spSize budget).1 = true := by
  have hseg := segmentMessages_valid h
  unfold project
  dsimp only
  split
  · exact h
  · refine flattenBlocks_valid fun b hb => ?_
    have hold : ∀ b ∈ ((segmentMessages messages).take (lastHumanBlock (segmentMessages messages))).map
        (previewBlock preview (freshnessIds messages)), validToolSequence b.messages = true := by
      intro b hb
      obtain ⟨b', hb', rfl⟩ := List.mem_map.mp hb
      exact previewBlock_valid _ _ (hseg b' (List.mem_of_mem_take hb'))
    simp only [List.mem_append] at hb
    rcases hb with ((hb | hb) | hb) | hb
    · have := dropOldest_subset _ _ hb
      split at this
      · exact hold b (List.mem_of_mem_take this)
      · exact hold b this
    · have := dropOldest_subset _ _ hb
      split at this
      · exact hold b (List.mem_of_mem_take (List.mem_of_mem_drop this))
      · simp at this
    · have := dropOldest_subset _ _ hb
      split at this
      · exact hold b (List.mem_of_mem_drop this)
      · simp at this
    · exact hseg b (List.mem_of_mem_drop hb)

/-! ### The input of the model -/

/-- The settings of `build_model_input`. -/
structure Compaction where
  enabled : Bool
  budget : Option ℤ
  /-- `_structured_preview`. -/
  preview : String → String
  /-- `_applicable_summary`: how many messages the summary covers, and its block. -/
  applicableSummary : List Message → ℕ × String

/-- A projection that is not valid is not shown: the whole history is. -/
def failClosed (systemPrompt note : String) (messages projected : List Message) : List Message :=
  if ¬ validToolSequence projected then .system systemPrompt :: messages
  else .system (systemPrompt ++ note) :: projected

/-- `build_model_input`. -/
def buildModelInput (c : Compaction) (systemPrompt : String) (messages : List Message) : List Message :=
  if ¬ c.enabled then .system systemPrompt :: messages
  else
    let (projected, compacted) := project c.preview messages systemPrompt.length c.budget
    if ¬ compacted then .system systemPrompt :: projected
    else
      let (summaryN, summaryBlock) := c.applicableSummary messages
      failClosed systemPrompt (compactionNote ++ summaryBlock) messages
        (if summaryBlock ≠ "" then
          (project c.preview (messages.drop summaryN) (systemPrompt.length + summaryBlock.length) c.budget).1
        else projected)

end Sreda.React
