import Sreda.React.Effects

/-!
# Giving up a paused batch

A paused batch is given up when the user turns to something else or answers too late. The
tool messages of the paused execution were never written to the thread, so `handle_turn`
closes the calls of the last assistant message itself: `_withdrawal_messages` writes one
message for each of them, which says that the call was withdrawn and must not be taken for
done. It looks at the assistant message only, not at what the calls before the question did.

## What is proved

* `journal_honest_iff`: what the thread says about a batch that is given up is true exactly
  if no call of the batch had changed the data.
* `withdrawn_deletion`: a deletion that was confirmed and carried out is recorded as
  withdrawn.
-/

namespace Sreda.React

open Sreda.Lib Sreda.Lib.Replay
open Sreda.Planner (Dict Value Py)

universe u

variable {ρ : Type u}

/-! ### The closing messages -/

/-- The text of a closing message, after a redirect and after an expired pause. -/
def withdrawalText (redirectNew : Bool) : String :=
  if redirectNew then
    "(вызов инструмента отменён: пользователь сменил запрос; не считать выполненным и НЕ сообщать " ++
      "об этом как об отмене — служебное закрытие прошлого действия, обработай новый запрос)"
  else
    "(вызов инструмента отменён: не считать выполненным — служебное закрытие незавершённого " ++ "действия)"

/-- The closing message of a call. -/
def ToolCall.withdrawn (tc : ToolCall) (redirectNew : Bool) : ToolMessage where
  content := withdrawalText redirectNew
  name := if tc.name = "" then "tool" else tc.name
  toolCallId := tc.id
  isError := false
  resultKind := some "withdrawn"

/-- `_withdrawal_messages`. -/
def withdrawalMessages (lastMsg : Option Message) (redirectNew : Bool) : List ToolMessage :=
  match lastMsg with
  | some (.assistant _ toolCalls) => (toolCalls.filter (·.id ≠ "")).map (·.withdrawn redirectNew)
  | _ => []

/-- What a fresh turn of the unified path adds to the thread: the closing messages, if the
pause was cleared, and the text of the user. -/
def freshMessages (messages : List Message) (cleared redirectNew : Bool) (userText : String) : List Message :=
  (if cleared then (withdrawalMessages messages.getLast? redirectNew).map .tool else []) ++ [.human userText]

theorem withdrawalMessages_ids {lastMsg : Option Message} {content : String} {toolCalls : List ToolCall}
    (h : lastMsg = some (.assistant content toolCalls)) (redirectNew : Bool) :
    (withdrawalMessages lastMsg redirectNew).map (·.toolCallId) = owedIds toolCalls := by
  subst h
  simp only [withdrawalMessages, owedIds, List.filter_map, List.map_map]
  rfl

/-- An assistant message whose results are missing does not end a valid history. -/
theorem settle_concat_calls {owed ids : List String} {xs : List Slot}
    (h : settle owed (xs ++ [.calls ids]) = true) : ids = [] := by
  induction xs generalizing owed with
  | nil =>
    cases owed with
    | nil => cases ids <;> simp_all [settle]
    | cons _ _ => simp [settle] at h
  | cons x xs ih =>
    cases x with
    | result id =>
      simp only [List.cons_append, settle, Bool.and_eq_true] at h
      exact ih h.2
    | plain =>
      cases owed with
      | nil =>
        have h' : settle [] (xs ++ [.calls ids]) = true := by simpa [settle] using h
        exact ih h'
      | cons _ _ => simp [settle] at h
    | calls ids' =>
      cases owed with
      | nil =>
        have h' : settle ids' (xs ++ [.calls ids]) = true := by simpa [settle] using h
        exact ih h'
      | cons _ _ => simp [settle] at h

theorem withdrawalMessages_of_valid {messages : List Message} (h : validToolSequence messages = true)
    (redirectNew : Bool) : withdrawalMessages messages.getLast? redirectNew = [] := by
  unfold withdrawalMessages
  split
  · next content toolCalls hlast =>
    cases toolCalls with
    | nil => rfl
    | cons tc rest =>
      rw [← List.dropLast_append_getLast? _ hlast] at h
      simp only [validToolSequence, List.map_append, List.map_singleton, Message.slot] at h
      have hids := settle_concat_calls h
      simpa [owedIds, List.filter_map, Function.comp_def] using hids
  · rfl

/-- The calls that are still open are closed by the fresh turn. -/
theorem freshMessages_close {messages : List Message} {toolCalls : List ToolCall} (h : Owing messages toolCalls)
    (redirectNew : Bool) (userText : String) :
    validToolSequence (messages ++ freshMessages messages true redirectNew userText) = true := by
  obtain ⟨content, hlast⟩ := h.getLast?
  rw [freshMessages, if_pos rfl, ← List.append_assoc]
  refine validToolSequence_concat_plain (h.close ?_) rfl
  rw [withdrawalMessages_ids hlast]

/-- Where none are open, only the text is added. -/
theorem freshMessages_valid {messages : List Message} (h : validToolSequence messages = true)
    (cleared redirectNew : Bool) (userText : String) :
    validToolSequence (messages ++ freshMessages messages cleared redirectNew userText) = true := by
  rw [freshMessages, withdrawalMessages_of_valid h]
  refine Eq.trans ?_ (validToolSequence_concat_plain h (m := .human userText) rfl)
  simp

/-! ### The law -/

/-- **The journal is true**: it has the result of every execution that changed the data, and
a call that it calls withdrawn changed nothing. -/
structure JournalHonest (batch : List ToolCall) (s : NodeState ρ) (journal : List Message) : Prop where
  recorded : ∀ e ∈ s.hist, Changes e → .tool e.result ∈ journal
  withdrawn : ∀ p tc m, batch[p]? = some tc → .tool m ∈ journal → m.toolCallId = tc.id →
    m.resultKind = some "withdrawn" → ∀ e ∈ s.hist, e.pos = p → ¬ Changes e

theorem result_resultKind_ne (tc : ToolCall) (name : String) (outcome : Outcome) :
    (tc.result name outcome).resultKind ≠ some "withdrawn" := by
  cases outcome with
  | ok text => exact fun h => absurd (Option.some.inj h) (by decide)
  | error type => exact fun h => absurd (Option.some.inj h) (by decide)

theorem freshMessages_withdrawn {messages : List Message} {cleared redirectNew : Bool} {userText : String}
    {m : ToolMessage} (h : .tool m ∈ freshMessages messages cleared redirectNew userText) :
    m.resultKind = some "withdrawn" := by
  simp only [freshMessages, List.mem_append, List.mem_singleton, reduceCtorEq, or_false] at h
  split at h
  · simp only [List.mem_map, Message.tool.injEq, exists_eq_right] at h
    unfold withdrawalMessages at h
    split at h
    · obtain ⟨tc, -, rfl⟩ := List.mem_map.mp h
      rfl
    · simp at h
  · simp at h

/-- **The journal of a batch that is given up is true if and only if no call of the batch
had changed the data.** -/
theorem journal_honest_iff (t : Turn ρ) (batch : List ToolCall) {s : NodeState ρ}
    (h : (system (runTools t batch)).Reachable s) (earlier : List Message) (content : String)
    (cleared redirectNew : Bool) (userText : String) :
    JournalHonest batch s
        (freshMessages (earlier ++ [.assistant content batch]) cleared redirectNew userText) ↔
      ∀ e ∈ s.hist, ¬ Changes e := by
  constructor
  · intro hj e he hc
    obtain ⟨tc, out, -, hfrom⟩ := produced_entry (produced_of_reachable h) he
    obtain ⟨r, tool, outcome, -, hr, -⟩ := dispatched_of_changes hfrom hc
    have hk := freshMessages_withdrawn (hj.recorded e he hc)
    rw [hr] at hk
    exact result_resultKind_ne tc r.name outcome hk
  · intro hn
    exact ⟨fun e he hc => absurd hc (hn e he), fun _ _ _ _ _ _ _ e he _ => hn e he⟩

/-- The user has confirmed the first deletion, and turns to something else at the question
about the second one. -/
theorem withdrawn_deletion :
    ¬ ∀ (t : Turn Unit) (batch : List ToolCall) (s : NodeState Unit) (earlier : List Message)
      (content userText : String), (system (runTools t batch)).Reachable s → (∃ q, s.phase = .paused q) →
      JournalHonest batch s (freshMessages (earlier ++ [.assistant content batch]) true true userText) := by
  intro h
  have hj := h deletionTurn twoDeletions askedSecond [] "" "покажи покупки" askedSecond_reachable ⟨_, rfl⟩
  have hrecorded := freshMessages_withdrawn (hj.recorded firstDeletion (List.mem_singleton.mpr rfl) ?_)
  · exact absurd (Option.some.inj hrecorded) (by decide)
  · simp [Changes, firstDeletion, twoTasks, oneTask]

/-- At the first question nothing is changed yet, and the journal is true. -/
theorem journal_honest_first_question :
    let asked : NodeState Unit := ⟨twoTasks, 0, 0, [], .paused (askedAbout "хлеб" "task_1"), [], [], [], []⟩
    JournalHonest twoDeletions asked
      (freshMessages ([] ++ [.assistant "" twoDeletions]) true true "покажи покупки") := by
  intro asked
  have h₁ : (system (runTools deletionTurn twoDeletions)).step (State.start twoTasks) .call asked := .call rfl
  have hr : (system (runTools deletionTurn twoDeletions)).Reachable asked :=
    Lts.Reachable.step ⟨_, .init ⟨twoTasks, rfl⟩⟩ h₁
  exact (journal_honest_iff deletionTurn twoDeletions hr [] "" true true "покажи покупки").mpr (by simp [asked])

end Sreda.React
