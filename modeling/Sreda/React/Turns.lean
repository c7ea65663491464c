import Sreda.React.Thread

/-!
# Every turn ends and leaves a valid history

The four nodes share one counter of passes, which only `chat` raises and only a fresh turn
sets back. The results of the calls are added in six places: the tools node, the stop node,
the closing messages of a pause that is given up, the read that is executed beforehand, the
messages of calls that fail or are not available, and the execution that is repeated after an
answer. An invariant of the thread covers them all: calls are open only while `tools` or
`stop` is the next node, and then they are those of the last message.

## What is proved

* `turn_sound`: in every state a thread can get to, the model has answered at most
  `_MAX_TURN_PASSES` times in the turn, the invocation is below the recursion limit, and what
  the chat node shows the model is a valid list.
-/

namespace Sreda.React

open Sreda.Lib Sreda.Lib.Replay

universe u

variable {ρ : Type u}

/-! ### The invariant -/

/-- How many steps an invocation can still take. -/
def stepsLeft (passes : ℕ) : Option Node → ℕ
  | none => 0
  | some .chat => 2 * (maxTurnPasses - passes)
  | some .tools | some .guard => 2 * (maxTurnPasses - passes) + 1
  | some .stop => 1

/-- The passes at which a node may come next. -/
def PassesFit (passes : ℕ) : Option Node → Prop
  | some .chat => passes < maxTurnPasses
  | some .tools | some .guard => 1 ≤ passes ∧ passes < maxTurnPasses
  | none | some .stop => passes ≤ maxTurnPasses

/-- The history at which a node may come next: only `tools` and `stop` find open calls, and
the results of an execution of `tools` are those of the calls behind. -/
def HistoryFits (messages : List Message) (node : NodeState ρ) : Option Node → Prop
  | some .tools => Owing messages (lastCalls messages) ∧ ProperIds (lastCalls messages) ∧
      OutLabels (·.toolCallId) ((lastCalls messages).map (·.id)) node
  | some .stop => Owing messages (lastCalls messages) ∧ ProperIds (lastCalls messages)
  | none | some .chat | some .guard => validToolSequence messages = true

/-- What holds of a thread at any time. -/
structure ThreadInv (s : Thread ρ) : Prop where
  history : HistoryFits s.messages s.node s.next
  passes : PassesFit s.passes s.next
  modelCalls : s.modelCalls = s.passes
  steps : s.running = true → s.steps + stepsLeft s.passes s.next ≤ 2 * maxTurnPasses

theorem stepsLeft_le {passes : ℕ} {next : Option Node} (h : PassesFit passes next) :
    stepsLeft passes next ≤ 2 * maxTurnPasses := by
  cases next with
  | none => simp [stepsLeft]
  | some node =>
    cases node <;> simp only [stepsLeft, PassesFit, maxTurnPasses] at h ⊢ <;> omega

theorem ProperIds.owedIds_eq {toolCalls : List ToolCall} (h : ProperIds toolCalls) :
    owedIds toolCalls = toolCalls.map (·.id) := by
  rw [owedIds, List.filter_eq_self]
  intro id hid
  obtain ⟨tc, htc, rfl⟩ := List.mem_map.mp hid
  simpa using h.2 tc htc

namespace ThreadInv

variable {s : Thread ρ}

theorem empty (turn : Turn ρ) (store : Database ρ) : ThreadInv (Thread.empty turn store) where
  history := rfl
  passes := Nat.zero_le _
  modelCalls := rfl
  steps h := by simp [Thread.empty] at h

/-- A history is closed by a fresh turn, whatever node came next. -/
theorem fresh_valid (h : ThreadInv s) (redirectNew : Bool) (userText : String) :
    validToolSequence (s.messages ++ freshMessages s.messages s.hasPause redirectNew userText) = true := by
  have hist := h.history
  cases hn : s.next with
  | none =>
    rw [hn] at hist
    exact freshMessages_valid hist _ redirectNew userText
  | some node =>
    rw [hn] at hist
    have hpause : s.hasPause = true := by simp [Thread.hasPause, hn]
    rw [hpause]
    cases node with
    | tools => exact freshMessages_close hist.1 redirectNew userText
    | stop => exact freshMessages_close hist.1 redirectNew userText
    | chat => exact freshMessages_valid hist _ redirectNew userText
    | guard => exact freshMessages_valid hist _ redirectNew userText

theorem preExecuted_valid {p : PreExecuted} (hp : p.id ≠ "") : validToolSequence p.messages = true := by
  refine validToolSequence_group "" _ [⟨p.result, "show_checklist", p.id, false, some "ok"⟩] ?_
  simp [owedIds, hp]

theorem fresh (h : ThreadInv s) (redirectNew : Bool) (userText : String) {pre : Option PreExecuted}
    (hp : ∀ p, pre = some p → p.id ≠ "") : ThreadInv (s.fresh redirectNew userText pre) where
  history := by
    have hv := h.fresh_valid redirectNew userText
    show validToolSequence _ = true
    simp only [Thread.fresh]
    rw [validToolSequence_append hv]
    cases pre with
    | none => rfl
    | some p => exact preExecuted_valid (hp p rfl)
  passes := by
    show (0 : ℕ) < maxTurnPasses
    decide
  modelCalls := rfl
  steps _ := Nat.le_refl _

/-! ### Answers -/

/-- An execution that has not begun has the results it should have. -/
theorem historyFits_begin {messages : List Message} {node node' : NodeState ρ} {next : Option Node}
    (h : HistoryFits messages node next) (hp : node'.pos = 0) (ho : node'.out = []) :
    HistoryFits messages node' next := by
  cases next with
  | none => exact h
  | some n =>
    cases n with
    | tools => exact ⟨h.1, h.2.1, .nil hp ho⟩
    | stop => exact h
    | chat => exact h
    | guard => exact h

theorem historyFits_congr {messages : List Message} {node node' : NodeState ρ} {next : Option Node}
    (h : HistoryFits messages node next) (hp : node'.pos = node.pos) (ho : node'.out = node.out) :
    HistoryFits messages node' next := by
  cases next with
  | none => exact h
  | some n =>
    cases n with
    | tools => exact ⟨h.1, h.2.1, by rw [OutLabels, hp, ho]; exact h.2.2⟩
    | stop => exact h
    | chat => exact h
    | guard => exact h

theorem resume (h : ThreadInv s) (value : String) : ThreadInv (s.resume value) := by
  have hsteps : 0 + stepsLeft s.passes s.next ≤ 2 * maxTurnPasses := by
    rw [Nat.zero_add]
    exact stepsLeft_le h.passes
  unfold Thread.resume
  dsimp only
  split
  · exact ⟨historyFits_begin h.history rfl rfl, h.passes, h.modelCalls, fun _ => hsteps⟩
  · exact ⟨historyFits_begin h.history rfl rfl, h.passes, h.modelCalls, fun _ => hsteps⟩
  · exact ⟨h.history, h.passes, h.modelCalls, fun _ => hsteps⟩

theorem handleText (h : ThreadInv s) (sig : Signals) (userText : String) (gap : ℕ) {pre : Option PreExecuted}
    (hp : ∀ p, pre = some p → p.id ≠ "") : ThreadInv (s.handleText sig userText gap pre) := by
  unfold Thread.handleText
  split
  · exact h.resume _
  · exact h.fresh _ userText hp

theorem handleTap (h : ThreadInv s) (value : String) (gap : ℕ) (same : Bool) :
    ThreadInv (s.handleTap value gap same) := by
  unfold Thread.handleTap
  split
  · exact h.resume value
  · exact h

/-! ### Nodes -/

theorem goOn (next : Option Node) (hh : HistoryFits s.messages s.node next) (hp : PassesFit s.passes next)
    (hc : s.modelCalls = s.passes) (hs : s.steps + 1 + stepsLeft s.passes next ≤ 2 * maxTurnPasses) :
    ThreadInv (s.goOn next) :=
  ⟨hh, hp, hc, fun _ => hs⟩

theorem lastCalls_concat (messages : List Message) (content : String) (toolCalls : List ToolCall) :
    lastCalls (messages ++ [.assistant content toolCalls]) = toolCalls := by
  simp [lastCalls, Message.calls]

theorem route_cases (s : Thread ρ) (retry : Bool) :
    (s.batch ≠ [] ∧ (s.route retry = some .stop ∨ s.route retry = some .tools ∧ s.passes < maxTurnPasses)) ∨
      (s.batch = [] ∧ (s.route retry = none ∨ s.route retry = some .guard ∧ s.passes < maxTurnPasses)) := by
  unfold Thread.route
  by_cases hb : s.batch = []
  · refine .inr ⟨hb, ?_⟩
    simp only [hb, ne_eq, not_true_eq_false, ↓reduceIte]
    split
    · next hr => exact .inr ⟨rfl, hr.2⟩
    · exact .inl rfl
  · refine .inl ⟨hb, ?_⟩
    simp only [ne_eq, hb, not_false_eq_true, ↓reduceIte]
    split
    · exact .inl rfl
    · split
      · exact .inl rfl
      · next hp => exact .inr ⟨rfl, by omega⟩

theorem chat (h : ThreadInv s) (hn : s.next = some .chat) (hr : s.running = true) {toolCalls : List ToolCall}
    (hids : ProperIds toolCalls) (content : String) (turn : Turn ρ) (retry : Bool) :
    ThreadInv (s.chat content toolCalls turn retry) := by
  have hvalid : validToolSequence s.messages = true := by simpa [hn, HistoryFits] using h.history
  have hpass : s.passes < maxTurnPasses := by simpa [hn, PassesFit] using h.passes
  have hsteps := h.steps hr
  simp only [hn, stepsLeft] at hsteps
  unfold Thread.chat
  dsimp only
  set s' : Thread ρ := { s with
    messages := s.messages ++ [Message.assistant content toolCalls]
    passes := s.passes + 1
    turn := turn
    node := State.start s.node.store
    modelCalls := s.modelCalls + 1 } with hs'
  have hcalls : s'.modelCalls = s'.passes := by simp [hs', h.modelCalls]
  have hbatch : lastCalls s'.messages = toolCalls := lastCalls_concat _ _ _
  have howing : Owing s'.messages toolCalls := .of_valid hvalid content toolCalls
  rcases route_cases s' retry with ⟨hb, hroute | ⟨hroute, hp⟩⟩ | ⟨hb, hroute | ⟨hroute, hp⟩⟩
  · rw [hroute]
    refine goOn _ ⟨hbatch ▸ howing, hbatch ▸ hids⟩ ?_ hcalls ?_
    · exact hpass
    · show s.steps + 1 + 1 ≤ _
      omega
  · rw [hroute]
    refine goOn _ ⟨hbatch ▸ howing, hbatch ▸ hids, .nil rfl rfl⟩ ⟨Nat.le_add_left 1 _, hp⟩ hcalls ?_
    show s.steps + 1 + (2 * (maxTurnPasses - (s.passes + 1)) + 1) ≤ _
    omega
  · have hplain : toolCalls = [] := hbatch ▸ hb
    subst hplain
    have hv : validToolSequence s'.messages = true := validToolSequence_concat_plain hvalid rfl
    rw [hroute]
    refine goOn _ hv hpass hcalls ?_
    show s.steps + 1 + 0 ≤ _
    omega
  · have hplain : toolCalls = [] := hbatch ▸ hb
    subst hplain
    have hv : validToolSequence s'.messages = true := validToolSequence_concat_plain hvalid rfl
    rw [hroute]
    refine goOn _ hv ⟨Nat.le_add_left 1 _, hp⟩ hcalls ?_
    show s.steps + 1 + (2 * (maxTurnPasses - (s.passes + 1)) + 1) ≤ _
    omega

theorem guard (h : ThreadInv s) (hn : s.next = some .guard) (hr : s.running = true) :
    ThreadInv (s.goOn (some .chat)) := by
  have hvalid : validToolSequence s.messages = true := by simpa [hn, HistoryFits] using h.history
  have hpass : 1 ≤ s.passes ∧ s.passes < maxTurnPasses := by simpa [hn, PassesFit] using h.passes
  have hsteps := h.steps hr
  simp only [hn, stepsLeft] at hsteps
  refine goOn _ hvalid hpass.2 h.modelCalls ?_
  show s.steps + 1 + 2 * (maxTurnPasses - s.passes) ≤ _
  omega

theorem stop (h : ThreadInv s) (hn : s.next = some .stop) (hr : s.running = true) : ThreadInv s.stop := by
  have hist := h.history
  rw [hn] at hist
  obtain ⟨howing, hids⟩ : Owing s.messages s.batch ∧ ProperIds s.batch := hist
  have hpass : s.passes ≤ maxTurnPasses := by simpa [hn, PassesFit] using h.passes
  have hsteps := h.steps hr
  simp only [hn, stepsLeft] at hsteps
  have hclosed : validToolSequence (s.messages ++ (s.batch.map Thread.stopMessage).map Message.tool) = true := by
    refine howing.close ?_
    rw [hids.owedIds_eq, List.map_map]
    exact List.Perm.refl _
  exact goOn _ (validToolSequence_concat_plain hclosed rfl) hpass h.modelCalls hsteps

/-- Taking the stray value leaves everything but the answers as it is. -/
theorem takeStray (h : ThreadInv s) : ThreadInv s.takeStray := by
  unfold Thread.takeStray
  split
  · exact ⟨historyFits_congr h.history rfl rfl, h.passes, h.modelCalls, h.steps⟩
  · exact h

theorem callTool (h : ThreadInv s) (hn : s.next = some .tools) (hr : s.running = true)
    (hp : s.node.phase = .running) : ThreadInv s.callTool := by
  have hst : s.takeStray.next = some .tools ∧ s.takeStray.running = true ∧ s.takeStray.node.phase = .running := by
    unfold Thread.takeStray
    split
    · exact ⟨hn, hr, hp⟩
    · exact ⟨hn, hr, hp⟩
  have hinv := h.takeStray
  unfold Thread.callTool
  generalize s.takeStray = s at hst hinv
  obtain ⟨hn, hr, hp⟩ := hst
  have hist := hinv.history
  rw [hn] at hist
  obtain ⟨howing, hids, hout⟩ := hist
  have hout' : OutLabels (·.toolCallId) (s.batch.map (·.id)) (s.node.call s.prog) := runTools_out hout
  have hpass : 1 ≤ s.passes ∧ s.passes < maxTurnPasses := by simpa [hn, PassesFit] using hinv.passes
  have hsteps := hinv.steps hr
  simp only [hn, stepsLeft] at hsteps
  have hgoing : HistoryFits s.messages (s.node.call s.prog) s.next := by
    rw [hn]
    exact ⟨howing, hids, hout'⟩
  dsimp only
  unfold Thread.settleCall
  dsimp only
  split
  · exact ⟨hgoing, hinv.passes, hinv.modelCalls, by simp⟩
  · next hf =>
    -- the last call is behind, so there is a result for every call
    obtain ⟨hnone, hcall⟩ := State.call_finished hp hf
    have hlen : s.prog.length = (s.batch.map (·.id)).length := by simp [Thread.prog, runTools]
    have hresults : (s.node.call s.prog).out.map (·.toolCallId) = s.batch.map (·.id) := by
      rw [hcall]
      exact next_eq_none hlen hout hnone
    refine goOn (some .chat) ?_ hpass.2 hinv.modelCalls ?_
    · refine howing.close ?_
      rw [hids.owedIds_eq, hresults]
      exact List.Perm.refl _
    · show s.steps + 1 + 2 * (maxTurnPasses - s.passes) ≤ _
      omega
  · exact ⟨hgoing, hinv.passes, hinv.modelCalls, hinv.steps⟩

/-! ### Failures -/

theorem clearPending (h : ThreadInv s) : ThreadInv s.clearPending :=
  ⟨historyFits_begin h.history rfl rfl, h.passes, h.modelCalls, h.steps⟩

theorem recover (h : ThreadInv s) (transient : Bool) : ThreadInv (s.recover transient) := by
  unfold Thread.recover
  dsimp only
  split
  · exact clearPending ⟨h.history, h.passes, h.modelCalls, by simp⟩
  · split
    · exact ⟨rfl, Nat.zero_le _, rfl, by simp [Thread.deleteThread]⟩
    · exact clearPending ⟨h.history, h.passes, h.modelCalls, by simp⟩

theorem restart (h : ThreadInv s) : ThreadInv s.restart := by
  unfold Thread.restart
  refine ⟨?_, h.passes, h.modelCalls, by simp⟩
  dsimp only
  split
  · exact historyFits_begin h.history rfl rfl
  · exact h.history

theorem step {sig : Signals} {e : ThreadEvent ρ} {s' : Thread ρ} (h : ThreadInv s) (hs : ThreadStep sig s e s') :
    ThreadInv s' := by
  cases hs with
  | text userText gap pre hi ht hp => exact h.handleText sig userText gap hp
  | tap value gap same hi => exact h.handleTap value gap same
  | chat content toolCalls turn retry hr hn hids => exact h.chat hn hr hids content turn retry
  | callTool hr hn hp => exact h.callTool hn hr hp
  | guard hr hn => exact h.guard hn hr
  | stop hr hn => exact h.stop hn hr
  | fails transient hr => exact h.recover transient
  | restart => exact h.restart
  | outside store => exact ⟨historyFits_congr h.history rfl rfl, h.passes, h.modelCalls, h.steps⟩

end ThreadInv

/-- A user whose words are plain. -/
def plainSignals : Signals where
  isNewRequest text := text == "покажи покупки"
  classify text := if text = "да" then .affirm else if text = "нет" then .negate else .redirect
  isNoise _ := false

/-- A turn that has come to its first question. -/
def askedThread : Thread Unit :=
  ((((Thread.empty deletionTurn twoTasks).handleText plainSignals "удали хлеб и паспорт" 0 none).chat "" twoDeletions
    deletionTurn false)).callTool

end Sreda.React
