import Sreda.React.Compaction
import Sreda.React.Journal

/-!
# A durable thread

A thread of the loop as the checkpointer keeps it, and what `handle_turn` and the nodes of
the graph do with it. A turn begins with a text of the user and runs through the nodes
`chat`, `tools`, `guard` and `stop`; a question of a tool ends the invocation of the graph,
and the turn goes on when the answer is there. An invocation may also end by an exception in
a node, which `handle_turn` recovers from, or by a restart of the process.

What `handle_turn` knows of a thread is the checkpoint: the pending interrupt, the node that
comes next, and the age. A pause is live if there is an interrupt, or only a next node, and
the checkpoint is not older than five minutes. A text that meets a live pause resumes the
graph, unless it is taken for a new request.

The readings of the user's words (`Signals`), the environment of the tools node (`Turn`), and
whether the guard is to step in are left open. The tools node is the program of calls of
`Sreda.React.RunTools`.
-/

namespace Sreda.React

open Sreda.Lib Sreda.Lib.Replay

universe u

variable {ρ : Type u}

/-! ### The thread -/

/-- The nodes of the graph. -/
inductive Node where
  | chat | tools | guard | stop
deriving DecidableEq

/-- A thread: its last checkpoint, and the invocation that is under way. -/
structure Thread (ρ : Type u) where
  /-- `state["messages"]`. -/
  messages : List Message
  /-- `snap.next`. -/
  next : Option Node
  /-- `snap.tasks[0].interrupts`: the question of the interrupt that is stored. -/
  shown : Option Question
  /-- `state["turn_pass_count"]`. -/
  passes : ℕ
  /-- What the tools node reads on the last message. -/
  turn : Turn ρ
  /-- The tools node on the calls of the last message, and the stored data. -/
  node : NodeState ρ
  /-- A resume value that no question has taken. It lasts for one step of the graph. -/
  stray : Option String
  /-- The graph is under way. -/
  running : Bool
  /-- `_DURABLE_CRASH`. -/
  crashes : ℕ
  /-- The answers of the model in this turn; kept for the statements only. -/
  modelCalls : ℕ
  /-- The steps of the graph in this invocation; kept for the statements only. -/
  steps : ℕ

/-- `_MAX_TURN_PASSES`. -/
def maxTurnPasses : ℕ := 8

/-- `_PENDING_TTL_SECONDS`. -/
def pendingTtlSeconds : ℕ := 300

/-- `_DURABLE_CRASH_LIMIT`. -/
def durableCrashLimit : ℕ := 2

/-- No batch is being executed. -/
def idle (store : Database ρ) : NodeState ρ := { (State.start store : NodeState ρ) with phase := .stopped }

/-- A thread that does not exist yet. -/
def Thread.empty (turn : Turn ρ) (store : Database ρ) : Thread ρ where
  messages := []
  next := none
  shown := none
  passes := 0
  turn := turn
  node := idle store
  stray := none
  running := false
  crashes := 0
  modelCalls := 0
  steps := 0

/-- `state["messages"][-1].tool_calls`. -/
def lastCalls (messages : List Message) : List ToolCall := (messages.getLast?.map Message.calls).getD []

namespace Thread

/-- The calls of the last message. -/
def batch (s : Thread ρ) : List ToolCall := lastCalls s.messages

/-- The program of the tools node. -/
def prog (s : Thread ρ) : List (Call (Database ρ) Question String ToolMessage) := runTools s.turn s.batch

/-! ### What `handle_turn` reads off the checkpoint -/

/-- `_has_pause`. -/
def hasPause (s : Thread ρ) : Bool := s.shown.isSome || s.next.isSome

/-- `live_pause`; `gap` is the age of the checkpoint in seconds. -/
def livePause (s : Thread ρ) (gap : ℕ) : Bool := s.hasPause && decide (gap ≤ pendingTtlSeconds)

/-- `is_confirm` of `_pending`. -/
def isConfirm (s : Thread ρ) : Bool :=
  match s.shown with
  | some (.confirm _ _) => true
  | _ => false

end Thread

/-- What `classify_confirm_reply` returns. -/
inductive ConfirmReply where
  | affirm | negate | redirect
deriving DecidableEq

/-- How the user's words are read. -/
structure Signals where
  /-- `_is_new_request_on_pause`. -/
  isNewRequest : String → Bool
  /-- `classify_confirm_reply`. -/
  classify : String → ConfirmReply
  /-- `confirm_reply_is_noise`. -/
  isNoise : String → Bool

/-- `_should_redirect_on_pause`. -/
def shouldRedirectOnPause (sig : Signals) (userText : String) (isConfirmPause : Bool) : Bool :=
  if isConfirmPause then sig.classify userText == .redirect && !sig.isNoise userText
  else sig.isNewRequest userText

/-- `_resume_val`: a confirmation is answered with «да» or «нет», a question with the text. -/
def resumeVal (sig : Signals) (userText : String) (isConfirmPause : Bool) : String :=
  if isConfirmPause then (if sig.classify userText = .affirm then "да" else "нет") else userText

/-- The read that the server executes beforehand: the id of its call, the list, the result. -/
structure PreExecuted where
  id : String
  listRef : String
  result : String

/-- `_prebuilt_checklist_read`. -/
def PreExecuted.messages (p : PreExecuted) : List Message :=
  [.assistant "" [⟨p.id, "show_checklist", [("list_id_or_title", .str p.listRef)]⟩],
    .tool ⟨p.result, "show_checklist", p.id, false, some "ok"⟩]

namespace Thread

/-! ### Turns -/

/-- `Command(resume=value)`: the node that comes next is executed. A pending question takes
the value; without one the value waits for the next question of the tools node, and the other
nodes do not read it. -/
def resume (s : Thread ρ) (value : String) : Thread ρ :=
  let s := { s with running := true, steps := 0 }
  match s.next, s.node.phase with
  | some .tools, .paused _ => { s with node := s.node.resume value, stray := none }
  | some .tools, _ => { s with node := s.node.rerun, stray := some value }
  | _, _ => { s with stray := none }

/-- A fresh turn: the pause, if there is one, is cleared and its calls are closed. -/
def fresh (s : Thread ρ) (redirectNew : Bool) (userText : String) (pre : Option PreExecuted) : Thread ρ :=
  { s with
    messages := s.messages ++ freshMessages s.messages s.hasPause redirectNew userText ++
      (pre.map PreExecuted.messages).getD []
    next := some .chat
    shown := none
    passes := 0
    node := idle s.node.store
    stray := none
    running := true
    modelCalls := 0
    steps := 0 }

/-- `_redirect_new`. -/
def redirectNew (sig : Signals) (s : Thread ρ) (userText : String) (gap : ℕ) : Bool :=
  s.livePause gap && shouldRedirectOnPause sig userText s.isConfirm

/-- `handle_turn` on a text. -/
def handleText (sig : Signals) (s : Thread ρ) (userText : String) (gap : ℕ) (pre : Option PreExecuted) : Thread ρ :=
  if s.livePause gap && !s.redirectNew sig userText gap then s.resume (resumeVal sig userText s.isConfirm)
  else s.fresh (s.redirectNew sig userText gap) userText pre

/-- `handle_turn` on a tap (`resume_only`); `same` says that the button belongs to the pause. -/
def handleTap (s : Thread ρ) (value : String) (gap : ℕ) (same : Bool) : Thread ρ :=
  if s.livePause gap && s.isConfirm && same then s.resume value else s

/-! ### Nodes -/

/-- `_domain_blocked_count`. -/
def domainBlockedCount (messages : List Message) : ℕ :=
  ((messages.reverse.takeWhile fun m => !m.isHuman).filter fun
    | .tool m => m.resultKind == some "domain_blocked"
    | _ => false).length

/-- `route`; `retry` says that the refusal or the freshness of the answer, with their flags,
calls for the guard. -/
def route (s : Thread ρ) (retry : Bool) : Option Node :=
  if s.batch ≠ [] then
    if s.turn.unified ∧ 2 ≤ domainBlockedCount s.messages then some .stop
    else if maxTurnPasses ≤ s.passes then some .stop
    else some .tools
  else if retry ∧ s.passes < maxTurnPasses then some .guard
  else none

/-- The graph goes on with this node, or has come to its end. -/
def goOn (s : Thread ρ) (next : Option Node) : Thread ρ :=
  { s with
    next := next
    shown := none
    stray := none
    steps := s.steps + 1
    running := next.isSome
    crashes := if next.isSome then s.crashes else 0 }

/-- `chat`, when the model has answered, and `route`. -/
def chat (s : Thread ρ) (content : String) (toolCalls : List ToolCall) (turn : Turn ρ) (retry : Bool) : Thread ρ :=
  let s := { s with
    messages := s.messages ++ [Message.assistant content toolCalls]
    passes := s.passes + 1
    turn := turn
    node := State.start s.node.store
    modelCalls := s.modelCalls + 1 }
  s.goOn (s.route retry)

/-- The call that comes next puts a question to which there is no answer but the stray value. -/
def takesStray (s : Thread ρ) : Bool :=
  s.stray.isSome && s.node.asks s.prog && decide (s.node.answers.length ≤ s.node.cursor)

/-- Such a question takes the value. -/
def takeStray (s : Thread ρ) : Thread ρ :=
  if s.takesStray then
    { s with
      node := { s.node with answers := s.node.answers ++ s.stray.toList, owners := s.node.owners ++ [s.node.pos] }
      stray := none }
  else s

/-- What comes after a call: a question ends the invocation, and after the last call the
tool messages are written to the thread. -/
def settleCall (s : Thread ρ) : Thread ρ :=
  match s.node.phase with
  | .paused question => { s with shown := some question, running := false, crashes := 0 }
  | .finished => { s with messages := s.messages ++ s.node.out.map Message.tool }.goOn (some .chat)
  | _ => s

/-- One call of `run_tools`. -/
def callTool (s : Thread ρ) : Thread ρ :=
  let s := s.takeStray
  { s with node := s.node.call s.prog }.settleCall

/-- The closing message of the stop node. -/
def stopMessage (tc : ToolCall) : ToolMessage :=
  ⟨"прервано: исчерпан лимит шагов хода", tc.name, tc.id, false, none⟩

/-- `_MAX_STEPS_REPLY`. -/
def maxStepsReply : String :=
  "Прости, не получилось довести до конца за разумное число шагов. Уточни, пожалуйста, что именно нужно?"

/-- `stop`: the calls are closed, and the turn ends with a reply. -/
def stop (s : Thread ρ) : Thread ρ :=
  { s with messages := s.messages ++ (s.batch.map stopMessage).map Message.tool ++
      [Message.assistant maxStepsReply []] }.goOn none

/-! ### Failures -/

/-- `clear_pending`: the interrupts and the answers of the last checkpoint are deleted. -/
def clearPending (s : Thread ρ) : Thread ρ := { s with shown := none, node := s.node.forget, stray := none }

/-- `delete_thread`. -/
def deleteThread (s : Thread ρ) : Thread ρ :=
  { s with
    messages := []
    next := none
    shown := none
    passes := 0
    node := idle s.node.store
    stray := none
    modelCalls := 0 }

/-- The recovery of `handle_turn`, after an exception in a node. -/
def recover (s : Thread ρ) (transient : Bool) : Thread ρ :=
  let s := { s with running := false }
  if transient then { s with crashes := 0 }.clearPending
  else if durableCrashLimit ≤ s.crashes + 1 then { s with crashes := 0 }.deleteThread
  else { s with crashes := s.crashes + 1 }.clearPending

/-- The process is restarted. What was under way is lost, the checkpoint is not. -/
def restart (s : Thread ρ) : Thread ρ :=
  { s with
    running := false
    crashes := 0
    stray := none
    node := if s.running then s.node.halt else s.node }

end Thread

/-! ### The system -/

/-- What happens to a thread. -/
inductive ThreadEvent (ρ : Type u) where
  /-- The user writes a text, so many seconds after the last checkpoint. -/
  | text (userText : String) (gap : ℕ) (pre : Option PreExecuted)
  | tap (value : String) (gap : ℕ) (same : Bool)
  /-- The model answers the chat node. -/
  | chat (content : String) (toolCalls : List ToolCall) (turn : Turn ρ) (retry : Bool)
  | callTool
  | guard
  | stop
  /-- A node raises an exception. -/
  | fails (transient : Bool)
  | restart
  /-- Somebody else writes the stored data. -/
  | outside (store : Database ρ)

/-- The ids of the calls are distinct and not empty. -/
def ProperIds (toolCalls : List ToolCall) : Prop :=
  (toolCalls.map (·.id)).Nodup ∧ ∀ tc ∈ toolCalls, tc.id ≠ ""

inductive ThreadStep (sig : Signals) : Thread ρ → ThreadEvent ρ → Thread ρ → Prop where
  | text {s} (userText : String) (gap : ℕ) (pre : Option PreExecuted) (hi : s.running = false)
      (ht : userText ≠ "") (hp : ∀ p, pre = some p → p.id ≠ "") :
      ThreadStep sig s (.text userText gap pre) (s.handleText sig userText gap pre)
  | tap {s} (value : String) (gap : ℕ) (same : Bool) (hi : s.running = false) :
      ThreadStep sig s (.tap value gap same) (s.handleTap value gap same)
  | chat {s} (content : String) (toolCalls : List ToolCall) (turn : Turn ρ) (retry : Bool) (hr : s.running = true)
      (hn : s.next = some .chat) (hids : ProperIds toolCalls) :
      ThreadStep sig s (.chat content toolCalls turn retry) (s.chat content toolCalls turn retry)
  | callTool {s} (hr : s.running = true) (hn : s.next = some .tools) (hp : s.node.phase = .running) :
      ThreadStep sig s .callTool s.callTool
  | guard {s} (hr : s.running = true) (hn : s.next = some .guard) :
      ThreadStep sig s .guard (s.goOn (some .chat))
  | stop {s} (hr : s.running = true) (hn : s.next = some .stop) : ThreadStep sig s .stop s.stop
  | fails {s} (transient : Bool) (hr : s.running = true) : ThreadStep sig s (.fails transient) (s.recover transient)
  | restart {s} : ThreadStep sig s .restart s.restart
  | outside {s} (store : Database ρ) :
      ThreadStep sig s (.outside store) { s with node := { s.node with store := store } }

/-- A durable thread from its first text on. -/
def thread (sig : Signals) : Lts (Thread ρ) (ThreadEvent ρ) where
  init s := ∃ turn store, s = .empty turn store
  step := ThreadStep sig

end Sreda.React
