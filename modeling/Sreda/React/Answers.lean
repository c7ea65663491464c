import Sreda.React.RunTools

/-!
# Whose answer it is

A batch of calls is a program that runs again for every answer, and an answer is matched to
a question by its place. The places stay aligned as long as a call that asked before asks
again. The tools with a confirmation of their own break this: once `delete_task` is
confirmed, its next execution returns the stored result (`_replay_done`) before it reaches
its question, and the answer that was given to it goes to the next call that asks.

## What is proved

* `own_answers`: in every run in which the question of a call stays open until the batch is
  done, each destructive call acts exactly on the answer to its own question, and
  `handle_turn` says that it cancelled only what was left alone.
* `second_deletion`: two deletions, the first confirmed and the second refused. The second
  one is carried out, and the user is told that it is not.
-/

namespace Sreda.React

open Sreda.Lib Sreda.Lib.Replay
open Sreda.Planner (Dict Value Py)

universe u

variable {ρ : Type u}

/-! ### Open questions -/

/-- The tool, invoked now, puts its question: no result is stored for the operation, and
the row it is about is there. -/
def Tool.isOpen (cx : ToolRuntimeContext) (args : Dict) (db : Database ρ) : Tool ρ → Bool
  | .cancelReminder =>
    (replayDone cx "cancel" "family_reminder" (textArg args "reminder_ref") db).isNone &&
      (db.data.reminder? (textArg args "reminder_ref")).any fun r =>
        r.tenantId = cx.tenantId ∧ r.userId = cx.userId ∧ r.status = "pending"
  | .cancelTask =>
    (replayDone cx "cancel" "task" (textArg args "task_ref") db).isNone &&
      (db.data.task? cx (textArg args "task_ref")).any fun t => t.status ≠ "cancelled"
  | .deleteTask =>
    (replayDone cx "delete" "task" (textArg args "task_ref") db).isNone &&
      (db.data.task? cx (textArg args "task_ref")).isSome
  | .confirmWrap refused _ _ _ _ => (refused args db.data).isNone
  | .askHuman => true
  | .other _ => false

/-- The call, dispatched now, puts its question. -/
def questionOpen (t : Turn ρ) (batch : List ToolCall) (tc : ToolCall) (out : List ToolMessage) (db : Database ρ) :
    Bool :=
  match gates t batch out db tc with
  | .error _ => false
  | .ok r =>
    if r.name = "need_family" ∧ ¬ t.intent.talk then false
    else (t.bound r.name).any fun tool => tool.isOpen (t.context tc r.name) r.args db

theorem asks_cancelReminder (cx : ToolRuntimeContext) (args : Dict) (db : Database ρ) :
    (cancelReminder cx args db).asks = Tool.isOpen cx args db .cancelReminder := by
  simp only [cancelReminder, Tool.isOpen]
  cases replayDone cx "cancel" "family_reminder" (textArg args "reminder_ref") db with
  | some payload => rfl
  | none =>
    cases db.data.reminder? (textArg args "reminder_ref") with
    | none => rfl
    | some r =>
      simp only [Option.isNone_none, Bool.true_and, Option.any_some]
      split
      · next h =>
        refine (decide_eq_false ?_).symm
        rintro ⟨ht, hu, -⟩
        exact h.elim (· ht) (· hu)
      · next h =>
        push Not at h
        split
        · next hs => exact (decide_eq_false fun hc => hs hc.2.2).symm
        · next hs => exact (decide_eq_true ⟨h.1, h.2, not_not.mp hs⟩).symm

theorem asks_confirmDestructiveTask (cx : ToolRuntimeContext) (ref verb action : String)
    (apply : Task → UserData ρ → UserData ρ) (db : Database ρ) :
    (confirmDestructiveTask cx ref verb action apply db).asks =
      ((replayDone cx action "task" ref db).isNone && (db.data.task? cx ref).isSome) := by
  simp only [confirmDestructiveTask]
  cases replayDone cx action "task" ref db with
  | some payload => rfl
  | none => cases db.data.task? cx ref <;> rfl

theorem asks_cancelTask (cx : ToolRuntimeContext) (args : Dict) (db : Database ρ) :
    (cancelTask cx args db).asks = Tool.isOpen cx args db .cancelTask := by
  simp only [cancelTask, Tool.isOpen]
  cases hd : replayDone cx "cancel" "task" (textArg args "task_ref") db with
  | some payload => rfl
  | none =>
    cases ht : db.data.task? cx (textArg args "task_ref") with
    | none => simp [asks_confirmDestructiveTask, ht]
    | some t =>
      by_cases hs : t.status = "cancelled"
      · simp [hs, Move.asks]
      · simp [hs, asks_confirmDestructiveTask, hd, ht]

theorem Tool.asks_invoke (tool : Tool ρ) (cx : ToolRuntimeContext) (args : Dict) (db : Database ρ) :
    (tool.invoke cx args db).asks = tool.isOpen cx args db := by
  cases tool with
  | cancelReminder => exact asks_cancelReminder cx args db
  | cancelTask => exact asks_cancelTask cx args db
  | deleteTask => exact asks_confirmDestructiveTask cx _ _ _ _ db
  | confirmWrap refused question key declined inner =>
    simp only [Tool.invoke, Tool.isOpen]
    cases refused args db.data <;> rfl
  | askHuman => rfl
  | other inner => rfl

theorem asks_dispatch (t : Turn ρ) (batch : List ToolCall) (tc : ToolCall) (out : List ToolMessage)
    (db : Database ρ) : (dispatch t batch tc out db).asks = questionOpen t batch tc out db := by
  unfold dispatch questionOpen
  cases gates t batch out db tc with
  | error message => rfl
  | ok r =>
    by_cases hf : r.name = "need_family" ∧ ¬ t.intent.talk
    · simp only [if_pos hf, Move.asks]
    · simp only [if_neg hf]
      cases t.bound r.name with
      | none => rfl
      | some tool => simp only [Move.asks_mapResult, Tool.asks_invoke, Option.any_some]

/-- The state of the tools node on a batch. -/
abbrev NodeState (ρ : Type u) := State (Database ρ) Question String ToolMessage

/-- The question of the call that comes next is open. -/
def nextOpen (t : Turn ρ) (batch : List ToolCall) (s : NodeState ρ) : Bool :=
  (batch[s.pos]?).any fun tc => questionOpen t batch tc s.out s.store

theorem asks_runTools (t : Turn ρ) (batch : List ToolCall) (s : NodeState ρ) :
    s.asks (runTools t batch) = nextOpen t batch s := by
  simp only [State.asks, State.next, nextOpen, runTools, List.getElem?_map]
  cases batch[s.pos]? with
  | none => rfl
  | some tc => simp [asks_dispatch]

/-- **The questions stay open**: when a call is executed before the last answered one, its
question is open exactly if it was put to the user. -/
def questionsKept (t : Turn ρ) (batch : List ToolCall) (s : NodeState ρ) : Event (Database ρ) String → Prop
  | .call => s.cursor < s.answers.length → (nextOpen t batch s = true ↔ s.pos ∈ s.owners)
  | _ => True

theorem questionsKept_iff (t : Turn ρ) (batch : List ToolCall) (s : NodeState ρ)
    (e : Event (Database ρ) String) : questionsKept t batch s e ↔ faithful (runTools t batch) s e := by
  cases e with
  | call => simp only [questionsKept, faithful, State.Faithful, asks_runTools]
  | resume a => exact Iff.rfl
  | outside store => exact Iff.rfl

/-! ### What the user is told -/

/-- `_DECLINE_OBJ_RE`: the first text in «…» of a line. -/
def quoted : List Char → Option (List Char)
  | [] => none
  | '\n' :: _ => none
  | '«' :: rest =>
    let title := rest.takeWhile (· ≠ '»')
    if title ≠ [] ∧ (rest.drop title.length).head? = some '»' then some title else quoted rest
  | _ :: rest => quoted rest

/-- `_declined_reply`. -/
def declinedReply (question : String) : String :=
  if "Я сейчас ".toList.isPrefixOf question.toList then
    match quoted (question.toList.drop "Я сейчас ".length) with
    | some title => "Отменила, не трогаю «" ++ String.ofList title ++ "»."
    | none => "Отменила, ничего не делаю."
  else "Отменила, ничего не делаю."

/-- The reply of `handle_turn` after an answer that refuses a confirmation (`_confirm_declined`);
`unified` is `_unified_execute_for(tenant_id)`. -/
def cancelReply (unified : Bool) (question : Question) (answer : String) : Option String :=
  match question with
  | .confirm text _ => if ¬ isYes answer ∧ unified then some (declinedReply text) else none
  | .text _ => none

/-! ### The law -/

/-- The tool a call is for. -/
def Turn.toolOf (t : Turn ρ) (tc : ToolCall) : Option (Tool ρ) := t.bound (canonicalise t tc).name

/-- The call at a place of the batch is destructive. -/
def DestructiveAt (t : Turn ρ) (batch : List ToolCall) (p : ℕ) : Prop :=
  ∃ tc tool, batch[p]? = some tc ∧ t.toolOf tc = some tool ∧ tool.destructive = true

/-- The entry changed the data of the user. -/
def Changes (e : Entry (Database ρ) String ToolMessage) : Prop := e.after.data ≠ e.before.data

/-- **Each answer belongs to its own question.** -/
structure OwnAnswers (t : Turn ρ) (batch : List ToolCall) (s : NodeState ρ) : Prop where
  /-- A destructive call changes data only on a yes to its own question. -/
  only_on_yes : ∀ e ∈ s.hist, DestructiveAt t batch e.pos → Changes e →
    ∃ a, (e.pos, a) ∈ s.log ∧ isYes a = true
  /-- A call that is behind, and was answered with yes, was carried out. -/
  acts_on_yes : ∀ p tc tool a, batch[p]? = some tc → t.toolOf tc = some tool → tool.destructive = true →
    s.phase ≠ .stopped → p < s.pos → (p, a) ∈ s.log → isYes a = true →
    ∃ e ∈ s.hist, e.pos = p ∧ ∃ cx args outcome, tool.Carried cx args e.before e.after outcome
  /-- What the user is told to be cancelled was left alone. -/
  honest : ∀ p a unified question text, s.log.getLast? = some (p, a) →
    cancelReply unified question a = some text → DestructiveAt t batch p → ∀ e ∈ s.hist, e.pos = p → ¬ Changes e

/-- A destructive call does nothing without a question, nothing on a refusal, and on a yes
what its tool does. -/
theorem entry_of_destructive {t : Turn ρ} {batch : List ToolCall} {tc : ToolCall} {tool : Tool ρ}
    (ht : t.toolOf tc = some tool) (hd : tool.destructive = true) {out : List ToolMessage}
    {e : Entry (Database ρ) String ToolMessage} (he : e.From (dispatch t batch tc out e.before)) :
    (e.answer = none → e.after = e.before) ∧
      ∀ a, e.answer = some a →
        (isYes a = true → ∃ cx args outcome, tool.Carried cx args e.before e.after outcome) ∧
        (isYes a = false → e.after = e.before) := by
  rcases dispatch_cases t batch tc out e.before with ⟨message, hm⟩ | ⟨r, tool', ⟨hg, -, hb⟩, hm⟩
  · rw [hm] at he
    obtain ⟨h₁, h₂, -⟩ := he
    exact ⟨fun _ => h₂, fun a ha => by simp [h₁] at ha⟩
  · obtain rfl : tool = tool' := by
      rw [Turn.toolOf, ← name_of_gates hg, hb] at ht
      exact (Option.some.inj ht).symm
    have hfirst := tool.invoke_asksFirst hd (t.context tc r.name) r.args e.before
    rw [hm] at he
    cases hmove : tool.invoke (t.context tc r.name) r.args e.before with
    | finish db outcome =>
      rw [hmove] at he hfirst
      obtain ⟨h₁, h₂, -⟩ := he
      exact ⟨fun _ => h₂.trans hfirst, fun a ha => by simp [h₁] at ha⟩
    | ask question answered =>
      rw [hmove] at he hfirst
      obtain ⟨a, h₁, h₂⟩ := he
      have hafter : (answered a).1 = e.after := congrArg Prod.fst h₂
      refine ⟨fun hn => by simp [h₁] at hn, fun b hb => ?_⟩
      obtain rfl : a = b := Option.some.inj (h₁.symm.trans hb)
      obtain ⟨hy, hn⟩ := hfirst a
      rw [hafter] at hy hn
      exact ⟨fun hyes => ⟨_, _, _, hy hyes⟩, hn⟩

theorem produced_entry {t : Turn ρ} {batch : List ToolCall} {s : NodeState ρ} (h : Produced (runTools t batch) s)
    {e : Entry (Database ρ) String ToolMessage} (he : e ∈ s.hist) :
    ∃ tc out, batch[e.pos]? = some tc ∧ e.From (dispatch t batch tc out e.before) := by
  obtain ⟨c, out, hc, hfrom⟩ := h e he
  rw [runTools, List.getElem?_map, Option.map_eq_some_iff] at hc
  obtain ⟨tc, htc, rfl⟩ := hc
  exact ⟨tc, out, htc, hfrom⟩

/-- **Each answer belongs to its own question**, in every run in which the questions that
were put stay open until the batch is done. -/
theorem own_answers (t : Turn ρ) (batch : List ToolCall) {s : NodeState ρ}
    (h : ((system (runTools t batch)).guard (questionsKept t batch)).Reachable s) : OwnAnswers t batch s := by
  have hg : ((system (runTools t batch)).guard (faithful (runTools t batch))).Reachable s := by
    obtain ⟨as, s₀, h₀, hr⟩ := h
    exact ⟨as, s₀, h₀, (Lts.guard_run_congr fun _ _ _ _ => questionsKept_iff t batch _ _).mp hr⟩
  have hal := aligned_of_reachable hg
  have hp := produced_of_reachable hg.of_guard
  obtain ⟨-, hlog⟩ := log_of_reachable hg.of_guard
  have hyes : ∀ e ∈ s.hist, DestructiveAt t batch e.pos → Changes e →
      ∃ a, (e.pos, a) ∈ s.log ∧ isYes a = true := by
    rintro e he ⟨tc, tool, htc, ht, hd⟩ hc
    obtain ⟨tc', out, htc', hfrom⟩ := produced_entry hp he
    obtain rfl : tc = tc' := Option.some.inj (htc.symm.trans htc')
    obtain ⟨hnone, hsome⟩ := entry_of_destructive ht hd hfrom
    cases ha : e.answer with
    | none => exact absurd (by rw [hnone ha]) hc
    | some a =>
      cases hy : isYes a with
      | true => exact ⟨a, hal.taken e he a ha, hy⟩
      | false => exact absurd (by rw [(hsome a ha).2 hy]) hc
  refine ⟨hyes, ?_, ?_⟩
  · intro p tc tool a htc ht hd hph hlt hm hy
    obtain ⟨e, he, rfl, hea⟩ := hal.heard hph p a hlt (hlog ▸ hm)
    obtain ⟨tc', out, htc', hfrom⟩ := produced_entry hp he
    obtain rfl : tc = tc' := Option.some.inj (htc.symm.trans htc')
    obtain ⟨-, hsome⟩ := entry_of_destructive ht hd hfrom
    exact ⟨e, he, rfl, (hsome a hea).1 hy⟩
  · rintro p a unified question text hlast hreply hd e he rfl hc
    obtain ⟨b, hb, hy⟩ := hyes e he hd hc
    have hm : (e.pos, a) ∈ s.log := List.mem_of_getLast? hlast
    obtain rfl : a = b := hal.answer_unique hlog hm hb
    cases question with
    | confirm text' key => simp [cancelReply, hy] at hreply
    | text q => simp [cancelReply] at hreply

/-! ### Two deletions in one message -/

/-- A turn on tasks in which no gate objects and `delete_task` is bound. -/
def deletionTurn : Turn Unit where
  py := Py.ascii
  turnKey := "turn_1"
  tenantId := "tenant_1"
  userId := "user_1"
  intent := .task
  unified := true
  allowedRead := none
  allowedWrite := none
  checklistUnified := false
  sliceB := false
  crossCheck _ _ _ := none
  writeEnforce _ _ _ _ := none
  timeNamed := true
  hasEnd _ := false
  endAsked := false
  executed _ := 0
  known name := name == "delete_task"
  readDomains _ := []
  writeDomains _ := ["tasks"]
  bound name := if name = "delete_task" then some .deleteTask else none

/-- `delete_task(task_ref)`. -/
def deletion (id ref : String) : ToolCall := ⟨id, "delete_task", [("task_ref", .str ref)]⟩

/-- Two tasks of the user. -/
def twoTasks : Database Unit where
  data := ⟨[], [⟨"task_1", "tenant_1", "user_1", "хлеб", "pending", none⟩,
    ⟨"task_2", "tenant_1", "user_1", "паспорт", "pending", none⟩], ()⟩
  results := []

theorem deletion_destructive {batch : List ToolCall} {p : ℕ} {id ref : String}
    (h : batch[p]? = some (deletion id ref)) : DestructiveAt deletionTurn batch p :=
  ⟨_, .deleteTask, h, rfl, rfl⟩

/-- What is stored after `delete_task` has removed the first task under `call_1`. -/
def oneTask : Database Unit where
  data := ⟨[], [⟨"task_2", "tenant_1", "user_1", "паспорт", "pending", none⟩], ()⟩
  results := [(⟨"turn_1", "call_1", "delete", "task", "task_1"⟩, "Готово, удаляю: «хлеб».")]

/-- What is stored after both deletions. -/
def noTask : Database Unit where
  data := ⟨[], [], ()⟩
  results := (⟨"turn_1", "call_2", "delete", "task", "task_2"⟩, "Готово, удаляю: «паспорт».") :: oneTask.results

/-- The question of `delete_task`. -/
def askedAbout (title ref : String) : Question :=
  .confirm ("Я сейчас удалю задачу «" ++ title ++ "». Нужно твоё подтверждение.") ("task:" ++ ref ++ ":удаляю")

/-- The tool message after a deletion. -/
def deleted (id text : String) : ToolMessage := ⟨text, "delete_task", id, false, some "ok"⟩

/-- Two deletions in one message. -/
def twoDeletions : List ToolCall := [deletion "call_1" "task_1", deletion "call_2" "task_2"]

/-- The execution of the first deletion, confirmed. -/
def firstDeletion : Entry (Database Unit) String ToolMessage :=
  ⟨0, twoTasks, some "да", oneTask, deleted "call_1" "Готово, удаляю: «хлеб»."⟩

/-- The first deletion is confirmed and carried out, the second one is asked about. -/
def askedSecond : NodeState Unit where
  store := oneTask
  pos := 1
  cursor := 1
  out := [deleted "call_1" "Готово, удаляю: «хлеб»."]
  phase := .paused (askedAbout "паспорт" "task_2")
  answers := ["да"]
  owners := [0]
  log := [(0, "да")]
  hist := [firstDeletion]

theorem askedSecond_reachable : (system (runTools deletionTurn twoDeletions)).Reachable askedSecond := by
  have hpath : (system (runTools deletionTurn twoDeletions)).Passes (State.start twoTasks)
      [(.call, ⟨twoTasks, 0, 0, [], .paused (askedAbout "хлеб" "task_1"), [], [], [], []⟩),
       (.resume "да", ⟨twoTasks, 0, 0, [], .running, ["да"], [0], [(0, "да")], []⟩),
       (.call, { askedSecond with phase := .running }), (.call, askedSecond)] :=
    ⟨.call rfl, .resume _ _ rfl, .call rfl, .call rfl, trivial⟩
  exact Lts.Reachable.of_passes hpath ⟨twoTasks, rfl⟩

/-- The first deletion is confirmed, the second one refused: in the last execution the first
call replays its result, and the second one takes the yes. -/
theorem second_deletion :
    ¬ ∀ (t : Turn Unit) (batch : List ToolCall) (s : NodeState Unit),
      (system (runTools t batch)).Reachable s → OwnAnswers t batch s := by
  intro h
  let first := deleted "call_1" "Готово, удаляю: «хлеб»."
  let second := deleted "call_2" "Готово, удаляю: «паспорт»."
  let replayed : Entry (Database Unit) String ToolMessage := ⟨0, oneTask, none, oneTask, first⟩
  let shifted : Entry (Database Unit) String ToolMessage := ⟨1, oneTask, some "да", noTask, second⟩
  let log := [(0, "да"), (1, "нет")]
  have hpath : (system (runTools deletionTurn twoDeletions)).Passes askedSecond
      [(.resume "нет", ⟨oneTask, 0, 0, [], .running, ["да", "нет"], [0, 1], log, [firstDeletion]⟩),
       (.call, ⟨oneTask, 1, 0, [first], .running, ["да", "нет"], [0, 1], log, [firstDeletion, replayed]⟩),
       (.call, ⟨noTask, 2, 1, [first, second], .running, ["да", "нет"], [0, 1], log, [firstDeletion, replayed, shifted]⟩)] :=
    ⟨.resume _ _ rfl, .call rfl, .call rfl, trivial⟩
  have hr := askedSecond_reachable.passes hpath
  obtain ⟨a, ha, hy⟩ := (h deletionTurn twoDeletions _ hr).only_on_yes shifted (by simp) (deletion_destructive rfl)
    (by simp [Changes, shifted, oneTask, noTask])
  obtain rfl : a = "нет" := by simpa [shifted, log] using ha
  exact absurd hy (by decide)

/-- One deletion, confirmed. -/
theorem own_answers_deletion :
    OwnAnswers deletionTurn [deletion "call_1" "task_1"]
      ⟨oneTask, 1, 1, [deleted "call_1" "Готово, удаляю: «хлеб»."], .running, ["да"], [0], [(0, "да")],
        [⟨0, twoTasks, some "да", oneTask, deleted "call_1" "Готово, удаляю: «хлеб»."⟩]⟩ := by
  let batch := [deletion "call_1" "task_1"]
  let first := deleted "call_1" "Готово, удаляю: «хлеб»."
  let e₁ : Entry (Database Unit) String ToolMessage := ⟨0, twoTasks, some "да", oneTask, first⟩
  have hpath : ((system (runTools deletionTurn batch)).guard (questionsKept deletionTurn batch)).Passes (State.start twoTasks)
      [(.call, ⟨twoTasks, 0, 0, [], .paused (askedAbout "хлеб" "task_1"), [], [], [], []⟩),
       (.resume "да", ⟨twoTasks, 0, 0, [], .running, ["да"], [0], [(0, "да")], []⟩),
       (.call, ⟨oneTask, 1, 1, [first], .running, ["да"], [0], [(0, "да")], [e₁]⟩)] :=
    ⟨⟨.call rfl, fun h => absurd h (by decide)⟩, ⟨.resume _ _ rfl, trivial⟩,
      ⟨.call rfl, fun _ => ⟨fun _ => List.mem_singleton.mpr rfl, fun _ => rfl⟩⟩, trivial⟩
  exact own_answers deletionTurn batch (.of_passes hpath ⟨twoTasks, rfl⟩)

end Sreda.React
