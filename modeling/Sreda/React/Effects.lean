import Sreda.React.Answers

/-!
# Each effect once

Every call before the one that asks is executed again for each answer. Whether it has its
effect a second time depends on its tool. The tools with an operation id find their stored
result and return it. A tool that looks first whether there is anything left to do changes
nothing, but it may say something else than before. A wrapped tool asks again. The
remaining tools, `web_search` with its quota among them, do it all again.

## What is proved

* `effects_once`: in every run in which a call without an operation id, when it is executed
  again after its effect, finds the work done and what it said, each call changes the data
  at most once, and its tool message is that of the execution that did.
* `search_twice`: a search and a cancellation. The search is paid for twice.
-/

namespace Sreda.React

open Sreda.Lib Sreda.Lib.Replay
open Sreda.Planner (Dict Value Py)

universe u

variable {ρ : Type u}

/-! ### Operation ids -/

/-- The operation under which the result is stored. -/
def Inner.operation (cx : ToolRuntimeContext) (args : Dict) : Inner ρ → Option OperationId
  | .durable invalid operation _ => if (invalid args).isNone then some (operation cx args) else none
  | .checked _ _ | .plain _ => none

/-- The operation of a tool that returns its stored result before anything else. -/
def Tool.operation (cx : ToolRuntimeContext) (args : Dict) : Tool ρ → Option OperationId
  | .cancelReminder => some (operationIdUpdate cx "cancel" "family_reminder" (textArg args "reminder_ref"))
  | .cancelTask => some (operationIdUpdate cx "cancel" "task" (textArg args "task_ref"))
  | .deleteTask => some (operationIdUpdate cx "delete" "task" (textArg args "task_ref"))
  | .other inner => inner.operation cx args
  | .confirmWrap .. | .askHuman => none

/-- The names whose gates look at the data or at the results before: checklist reads and
writes, and the web. -/
def dataGated (name : String) : Bool :=
  (["show_checklist", "list_checklists", "get_checklist", "list_checklist_items", "web_search", "fetch_url"] ++
    checklistWrites).contains name

/-- The operation of a call, if its gates decide alike in every execution. -/
def Turn.operationOf (t : Turn ρ) (tc : ToolCall) : Option OperationId :=
  if dataGated tc.name then none else (t.bound tc.name).bind (·.operation (t.context tc tc.name) tc.args)

/-- What the tool returns without doing anything, as the work is done. -/
def Inner.recorded (cx : ToolRuntimeContext) (args : Dict) (db : Database ρ) : Inner ρ → Option String
  | .checked settled _ => settled cx args db.data
  | inner => (inner.operation cx args).bind fun op => db.results.lookup op

/-- The same for a bound tool; a wrapped one has to be confirmed again. -/
def Tool.recorded (cx : ToolRuntimeContext) (args : Dict) (db : Database ρ) (answer : Option String) :
    Tool ρ → Option String
  | .confirmWrap refused _ _ _ inner =>
    if (refused args db.data).isNone ∧ answer.any isYes then inner.recorded cx args db else none
  | .other inner => inner.recorded cx args db
  | tool => (tool.operation cx args).bind fun op => db.results.lookup op

/-! ### A tool with an operation id -/

/-- Such a tool leaves everything as it is, or runs its durable operation. -/
theorem cancelReminder_all (cx : ToolRuntimeContext) (args : Dict) {db : Database ρ}
    {P : Database ρ → Outcome → Prop} (same : ∀ outcome, P db outcome)
    (run : ∀ mutate, P (idempotentWrite cx "cancel" "family_reminder" (textArg args "reminder_ref") mutate db).1
      (idempotentWrite cx "cancel" "family_reminder" (textArg args "reminder_ref") mutate db).2) :
    (cancelReminder cx args db).All P := by
  simp only [cancelReminder]
  cases replayDone cx "cancel" "family_reminder" (textArg args "reminder_ref") db with
  | some payload => exact same _
  | none =>
    cases db.data.reminder? (textArg args "reminder_ref") with
    | none => exact same _
    | some r =>
      dsimp only
      split
      · exact same _
      · split
        · exact same _
        · intro a
          dsimp only
          split
          · exact run _
          · exact same _

theorem confirmDestructiveTask_all (cx : ToolRuntimeContext) (ref verb action : String)
    (apply : Task → UserData ρ → UserData ρ) {db : Database ρ} {P : Database ρ → Outcome → Prop}
    (same : ∀ outcome, P db outcome)
    (run : ∀ mutate, P (idempotentWrite cx action "task" ref mutate db).1
      (idempotentWrite cx action "task" ref mutate db).2) :
    (confirmDestructiveTask cx ref verb action apply db).All P := by
  simp only [confirmDestructiveTask]
  cases replayDone cx action "task" ref db with
  | some payload => exact same _
  | none =>
    cases db.data.task? cx ref with
    | none => exact same _
    | some t =>
      intro a
      dsimp only
      split
      · exact run _
      · exact same _

theorem cancelTask_all (cx : ToolRuntimeContext) (args : Dict) {db : Database ρ}
    {P : Database ρ → Outcome → Prop} (same : ∀ outcome, P db outcome)
    (run : ∀ mutate, P (idempotentWrite cx "cancel" "task" (textArg args "task_ref") mutate db).1
      (idempotentWrite cx "cancel" "task" (textArg args "task_ref") mutate db).2) :
    (cancelTask cx args db).All P := by
  simp only [cancelTask]
  cases replayDone cx "cancel" "task" (textArg args "task_ref") db with
  | some payload => exact same _
  | none =>
    cases db.data.task? cx (textArg args "task_ref") with
    | none => exact confirmDestructiveTask_all cx _ _ _ _ same run
    | some t =>
      dsimp only
      split
      · exact same _
      · exact confirmDestructiveTask_all cx _ _ _ _ same run

variable {tool : Tool ρ} {cx : ToolRuntimeContext} {args : Dict} {op : OperationId} {text : String} {t : Turn ρ}
variable {tc : ToolCall} {batch : List ToolCall} {s : NodeState ρ}

theorem Tool.invoke_all (h : tool.operation cx args = some op) {db : Database ρ} {P : Database ρ → Outcome → Prop}
    (same : ∀ outcome, P db outcome)
    (run : ∀ mutate, P (executeIdempotentDurableOp op mutate db).1 (executeIdempotentDurableOp op mutate db).2) :
    (tool.invoke cx args db).All P := by
  cases tool with
  | cancelReminder =>
    obtain rfl := Option.some.inj h
    exact cancelReminder_all cx args same fun _ => run _
  | cancelTask =>
    obtain rfl := Option.some.inj h
    exact cancelTask_all cx args same fun _ => run _
  | deleteTask =>
    obtain rfl := Option.some.inj h
    exact confirmDestructiveTask_all cx _ _ _ _ same fun _ => run _
  | confirmWrap refused question key declined inner => simp [Tool.operation] at h
  | askHuman => simp [Tool.operation] at h
  | other inner =>
    cases inner with
    | durable invalid operation mutate =>
      cases hi : invalid args with
      | some text => simp [Tool.operation, Inner.operation, hi] at h
      | none =>
        simp only [Tool.operation, Inner.operation, hi, Option.isNone_none, ↓reduceIte, Option.some.injEq] at h
        subst h
        simp only [Tool.invoke, Inner.invoke, hi]
        exact run (mutate args)
    | checked settled act => simp [Tool.operation, Inner.operation] at h
    | plain act => simp [Tool.operation, Inner.operation] at h

/-- **Exact replay**: where the result is stored, the tool returns it and does nothing. -/
theorem Tool.invoke_replays (h : tool.operation cx args = some op) {db : Database ρ}
    (hl : db.results.lookup op = some text) : tool.invoke cx args db = .finish db (.ok text) := by
  cases tool with
  | cancelReminder =>
    obtain rfl := Option.some.inj h
    simp only [Tool.invoke, React.cancelReminder, replayDone, hl]
  | cancelTask =>
    obtain rfl := Option.some.inj h
    simp only [Tool.invoke, React.cancelTask, replayDone, hl]
  | deleteTask =>
    obtain rfl := Option.some.inj h
    simp only [Tool.invoke, React.deleteTask, confirmDestructiveTask, replayDone, hl]
  | confirmWrap refused question key declined inner => simp [Tool.operation] at h
  | askHuman => simp [Tool.operation] at h
  | other inner =>
    cases inner with
    | durable invalid operation mutate =>
      cases hi : invalid args with
      | some text => simp [Tool.operation, Inner.operation, hi] at h
      | none =>
        simp only [Tool.operation, Inner.operation, hi, Option.isNone_none, ↓reduceIte, Option.some.injEq] at h
        subst h
        simp only [Tool.invoke, Inner.invoke, hi, executeIdempotentDurableOp_replay (mutate args) hl]
    | checked settled act => simp [Tool.operation, Inner.operation] at h
    | plain act => simp [Tool.operation, Inner.operation] at h

/-- What is left under `op` after an invocation that changed the data is its result. -/
def Stores (op : OperationId) (db after : Database ρ) (outcome : Outcome) : Prop :=
  after.data ≠ db.data → ∃ text, outcome = .ok text ∧ after.results.lookup op = some text

theorem executeIdempotentDurableOp_stores (op : OperationId)
    (mutate : UserData ρ → Except String (UserData ρ × String)) (db : Database ρ) :
    Stores op db (executeIdempotentDurableOp op mutate db).1 (executeIdempotentDurableOp op mutate db).2 := by
  rcases executeIdempotentDurableOp_cases op mutate db with heq | ⟨data, payload, -, -, heq⟩
  · rw [heq]
    exact fun h => absurd rfl h
  · rw [heq]
    exact fun _ => ⟨payload, rfl, by simp⟩

theorem Tool.invoke_stores
    (h : tool.operation cx args = some op) (db : Database ρ) : (tool.invoke cx args db).All (Stores op db) :=
  Tool.invoke_all h (fun _ hne => absurd rfl hne) fun mutate => executeIdempotentDurableOp_stores op mutate db

/-! ### Stored results are kept -/

/-- Every stored result stays. -/
def KeepsResults (db db' : Database ρ) : Prop :=
  ∀ op text, db.results.lookup op = some text → db'.results.lookup op = some text

theorem KeepsResults.of_eq {db db' : Database ρ} (h : db'.results = db.results) : KeepsResults db db' :=
  fun op text hl => by rw [h]; exact hl

theorem executeIdempotentDurableOp_keeps (op : OperationId)
    (mutate : UserData ρ → Except String (UserData ρ × String)) (db : Database ρ) :
    KeepsResults db (executeIdempotentDurableOp op mutate db).1 := by
  rcases executeIdempotentDurableOp_cases op mutate db with heq | ⟨data, payload, hl, -, heq⟩
  · rw [heq]
    exact .of_eq rfl
  · intro op' text hl'
    rw [heq]
    have hne : op' ≠ op := by
      rintro rfl
      rw [hl] at hl'
      simp at hl'
    have hb : (op' == op) = false := beq_false_of_ne hne
    simpa [List.lookup_cons, hb] using hl'

theorem Inner.invoke_keeps (inner : Inner ρ) (cx : ToolRuntimeContext) (args : Dict) (db : Database ρ) :
    KeepsResults db (inner.invoke cx args db).1 := by
  cases inner with
  | durable invalid operation mutate =>
    simp only [Inner.invoke]
    cases invalid args with
    | some text => exact .of_eq rfl
    | none => exact executeIdempotentDurableOp_keeps _ _ db
  | checked settled act =>
    simp only [Inner.invoke]
    cases settled cx args db.data <;> exact .of_eq rfl
  | plain act => exact .of_eq rfl

theorem Tool.invoke_keeps (tool : Tool ρ) (cx : ToolRuntimeContext) (args : Dict) (db : Database ρ) :
    (tool.invoke cx args db).All fun after _ => KeepsResults db after := by
  have same : ∀ _ : Outcome, KeepsResults db db := fun _ => .of_eq rfl
  cases tool with
  | cancelReminder => exact cancelReminder_all cx args same fun _ => executeIdempotentDurableOp_keeps _ _ db
  | cancelTask => exact cancelTask_all cx args same fun _ => executeIdempotentDurableOp_keeps _ _ db
  | deleteTask =>
    exact confirmDestructiveTask_all cx _ _ _ _ same fun _ => executeIdempotentDurableOp_keeps _ _ db
  | confirmWrap refused question key declined inner =>
    simp only [Tool.invoke]
    cases refused args db.data with
    | some text => exact .of_eq rfl
    | none =>
      intro a
      dsimp only
      split
      · exact inner.invoke_keeps cx args db
      · exact .of_eq rfl
  | askHuman => exact fun a => .of_eq rfl
  | other inner => exact inner.invoke_keeps cx args db

theorem dispatch_keeps (t : Turn ρ) (batch : List ToolCall) (tc : ToolCall) (out : List ToolMessage)
    (db : Database ρ) : (dispatch t batch tc out db).All fun after _ => KeepsResults db after := by
  rcases dispatch_cases t batch tc out db with ⟨message, hm⟩ | ⟨r, tool, -, hm⟩
  · rw [hm]
    exact .of_eq rfl
  · rw [hm]
    exact Move.all_mapResult.mpr (tool.invoke_keeps _ _ db)

/-! ### Executed again -/

/-- The data of the user differ. -/
def DataChanged (db db' : Database ρ) : Prop := db'.data ≠ db.data

/-- Where a tool finds its work done, it does nothing and says so. -/
theorem Inner.invoke_recorded {inner : Inner ρ} {db : Database ρ}
    (h : inner.recorded cx args db = some text) : inner.invoke cx args db = (db, .ok text) := by
  cases inner with
  | durable invalid operation mutate =>
    simp only [Inner.recorded, Inner.operation] at h
    cases hi : invalid args with
    | some text => simp [hi] at h
    | none =>
      simp only [hi, Option.isNone_none, ↓reduceIte, Option.bind_some] at h
      simp only [Inner.invoke, hi, executeIdempotentDurableOp_replay (mutate args) h]
  | checked settled act =>
    simp only [Inner.recorded] at h
    simp only [Inner.invoke, h]
  | plain act => simp [Inner.recorded, Inner.operation] at h

theorem Tool.recorded_repeats {db : Database ρ}
    {answer : Option String} (h : tool.recorded cx args db answer = some text) :
    (tool.invoke cx args db).Repeats DataChanged db (.ok text) answer := by
  have stored : ∀ tool : Tool ρ, ((tool.operation cx args).bind fun op => db.results.lookup op) = some text →
      (tool.invoke cx args db).Repeats DataChanged db (.ok text) answer := by
    intro tool hop
    obtain ⟨op, ho, hl⟩ := Option.bind_eq_some_iff.mp hop
    rw [Tool.invoke_replays ho hl]
    exact ⟨fun hne => hne rfl, rfl⟩
  cases tool with
  | cancelReminder => exact stored _ h
  | cancelTask => exact stored _ h
  | deleteTask => exact stored _ h
  | confirmWrap refused question key declined inner =>
    simp only [Tool.recorded] at h
    split at h
    · next hc =>
      obtain ⟨hr, ha⟩ := hc
      simp only [Tool.invoke, Option.isNone_iff_eq_none.mp hr]
      rintro a rfl
      have hy : isYes a = true := by simpa using ha
      simp only [hy, ↓reduceIte, Inner.invoke_recorded h]
      exact ⟨fun hne => hne rfl, trivial⟩
    · simp at h
  | askHuman => exact stored _ h
  | other inner =>
    simp only [Tool.recorded] at h
    simp only [Tool.invoke, Inner.invoke_recorded h]
    exact ⟨fun hne => hne rfl, rfl⟩

theorem dataGated_false {name : String} (h : dataGated name = false) :
    name ≠ "show_checklist" ∧ name ≠ "list_checklists" ∧ name ≠ "get_checklist" ∧
      name ≠ "list_checklist_items" ∧ name ≠ "web_search" ∧ name ≠ "fetch_url" ∧
      checklistWrites.contains name = false := by
  simpa [dataGated, checklistWrites, and_assoc] using h

theorem canonicalise_ungated (h : dataGated tc.name = false) : canonicalise t tc = ⟨tc.name, tc.args⟩ := by
  obtain ⟨h₁, h₂, h₃, -⟩ := dataGated_false h
  unfold canonicalise
  split
  · split
    · next hn => exact absurd hn h₁
    · next hn => exact absurd hn h₂
    · rfl
  · rfl

/-- The gates of an ordinary name look neither at the data nor at the results before. -/
theorem gates_ungated (h : dataGated tc.name = false) (out : List ToolMessage) (db : Database ρ) :
    gates t batch out db tc = timeGate t tc ⟨tc.name, tc.args⟩ >>= fun r => recurrenceGate t tc r := by
  obtain ⟨-, -, h₃, h₄, h₅, h₆, h₇⟩ := dataGated_false h
  have hcross : crossChecked t db tc ⟨tc.name, tc.args⟩ = .ok ⟨tc.name, tc.args⟩ :=
    if_neg (not_or.mpr ⟨h₄, h₃⟩)
  have hwrite : writeEnforced t batch out tc ⟨tc.name, tc.args⟩ = .ok ⟨tc.name, tc.args⟩ := by
    simp only [writeEnforced, h₇, Bool.false_eq_true, ↓reduceIte]
  have hsearch : ∀ r : Request, r.name = tc.name → searchGate t out tc r = .ok r := by
    intro r hr
    refine if_neg ?_
    rintro ⟨-, hs | hs, -⟩
    · exact h₅ (hr ▸ hs)
    · exact h₆ (hr ▸ hs)
  simp only [gates, canonicalise_ungated h, hcross, hwrite, bind, Except.bind]
  have htime := timeGate_gated t tc ⟨tc.name, tc.args⟩
  cases ht : timeGate t tc ⟨tc.name, tc.args⟩ with
  | error message => rfl
  | ok r =>
    rw [ht] at htime
    have hrec := recurrenceGate_gated t tc r
    cases hr : recurrenceGate t tc r with
    | error message => simp only [hr]
    | ok r' =>
      rw [hr] at hrec
      simp only [hr, hsearch r' (Eq.trans hrec htime)]

theorem timeGate_ok {r r' : Request} (h : timeGate t tc r = .ok r') : r' = r := by
  unfold timeGate at h
  dsimp only at h
  split at h
  · simp at h
  · exact (Except.ok.inj h).symm

theorem recurrenceGate_ok {r r' : Request} (h : recurrenceGate t tc r = .ok r') : r' = r := by
  unfold recurrenceGate at h
  dsimp only at h
  split at h
  · simp at h
  · exact (Except.ok.inj h).symm

/-- A call with an ordinary name is dispatched alike in every execution. -/
theorem Dispatched.ungated {out : List ToolMessage} {db : Database ρ}
    {r : Request} (h : Dispatched t batch out db tc r tool)
    (hu : dataGated tc.name = false) :
    r = ⟨tc.name, tc.args⟩ ∧ ∀ out' db', Dispatched t batch out' db' tc r tool := by
  obtain ⟨hg, hf, hb⟩ := h
  refine ⟨?_, fun out' db' => ⟨?_, hf, hb⟩⟩
  · rw [gates_ungated hu] at hg
    cases ht : timeGate t tc ⟨tc.name, tc.args⟩ with
    | error message => simp [ht, bind, Except.bind] at hg
    | ok r₁ =>
      simp only [ht, bind, Except.bind] at hg
      rw [recurrenceGate_ok hg, timeGate_ok ht]
  · rw [gates_ungated hu] at hg ⊢
    exact hg

/-- An execution of a call that changed the data has invoked its tool. -/
theorem dispatched_of_changes {out : List ToolMessage}
    {e : Entry (Database ρ) String ToolMessage} (he : e.From (dispatch t batch tc out e.before)) (hc : Changes e) :
    ∃ r tool outcome, Dispatched t batch out e.before tc r tool ∧ e.result = tc.result r.name outcome ∧
      Entry.From ⟨e.pos, e.before, e.answer, e.after, outcome⟩
        (tool.invoke (t.context tc r.name) r.args e.before) := by
  rcases dispatch_cases t batch tc out e.before with ⟨message, hm⟩ | ⟨r, tool, hd, hm⟩
  · rw [hm] at he
    obtain ⟨-, h₂, -⟩ := he
    exact absurd (congrArg Database.data h₂) hc
  · rw [hm] at he
    obtain ⟨outcome, hfrom, hr⟩ := he.of_mapResult
    exact ⟨r, tool, outcome, hd, hr, hfrom⟩

/-! ### The law -/

/-- **Found done**: a call that has changed the data is executed again only where its
result is stored under its operation id, or its tool finds the work done and says what it
said. Nobody removes stored results. -/
def foundDone (t : Turn ρ) (batch : List ToolCall) (s : NodeState ρ) : Event (Database ρ) String → Prop
  | .call => ∀ tc, batch[s.pos]? = some tc → ∀ e ∈ s.hist, e.pos = s.pos → Changes e →
      (t.operationOf tc).isSome ∨
        ∃ r tool text, Dispatched t batch s.out s.store tc r tool ∧
          tool.recorded (t.context tc r.name) r.args s.store s.answers[s.cursor]? = some text ∧
          e.result = tc.result r.name (.ok text)
  | .resume _ => True
  | .outside store => KeepsResults s.store store

/-- **Each effect once**: no call changes the data in two of its executions, and when the
batch is done, the tool message of a call that changed them is that of the execution that did. -/
structure EffectsOnce (s : NodeState ρ) : Prop where
  once : s.hist.Pairwise fun e e' => e.pos = e'.pos → Changes e → ¬ Changes e'
  reported : ∀ e ∈ s.hist, Changes e → s.phase = .finished → s.out[e.pos]? = some e.result

/-- The results of the calls with an operation id are stored. -/
def ResultsStored (t : Turn ρ) (batch : List ToolCall) (s : NodeState ρ) : Prop :=
  ∀ e ∈ s.hist, Changes e → ∀ tc op, batch[e.pos]? = some tc → t.operationOf tc = some op →
    ∃ tool text, s.store.results.lookup op = some text ∧ e.result = tc.result tc.name (.ok text) ∧
      tool.operation (t.context tc tc.name) tc.args = some op ∧
      ∀ out db, Dispatched t batch out db tc ⟨tc.name, tc.args⟩ tool

theorem ResultsStored.keeps {s' : NodeState ρ} (h : ResultsStored t batch s)
    (hk : KeepsResults s.store s'.store) (hh : s'.hist = s.hist) : ResultsStored t batch s' := by
  intro e he hc tc op htc hop
  obtain ⟨tool, text, hl, hrest⟩ := h e (hh ▸ he) hc tc op htc hop
  exact ⟨tool, text, hk op text hl, hrest⟩

theorem operationOf_eq_some (h : t.operationOf tc = some op) : dataGated tc.name = false ∧
      ∃ tool, t.bound tc.name = some tool ∧ tool.operation (t.context tc tc.name) tc.args = some op := by
  unfold Turn.operationOf at h
  split at h
  · simp at h
  · next hu => exact ⟨by simpa using hu, Option.bind_eq_some_iff.mp h⟩

theorem ResultsStored.call (h : ResultsStored t batch s) : ResultsStored t batch (s.call (runTools t batch)) := by
  rcases State.call_inv (runTools t batch) s with ⟨phase, heq⟩ | ⟨c, answer, store, result, hc, hfrom, -, heq⟩
  · rw [heq]
    exact h
  · rw [runTools, List.getElem?_map, Option.map_eq_some_iff] at hc
    obtain ⟨tc, htc, rfl⟩ := hc
    have hk : KeepsResults s.store store := (dispatch_keeps t batch tc s.out s.store).of_from hfrom
    rw [heq]
    intro e he hch tc' op htc' hop
    simp only [State.complete, List.mem_append, List.mem_singleton] at he
    rcases he with he | rfl
    · obtain ⟨tool, text, hl, hrest⟩ := h e he hch tc' op htc' hop
      exact ⟨tool, text, hk op text hl, hrest⟩
    · obtain rfl : tc = tc' := Option.some.inj (htc.symm.trans htc')
      obtain ⟨hu, tool, hb, htool⟩ := operationOf_eq_some hop
      obtain ⟨r, tool', outcome, hd, hr, hfrom'⟩ := dispatched_of_changes hfrom hch
      obtain ⟨rfl, hd'⟩ := hd.ungated hu
      obtain rfl : tool = tool' := Option.some.inj (hb.symm.trans hd.2.2)
      obtain ⟨text, rfl, hl⟩ := (Tool.invoke_stores htool s.store).of_from hfrom' hch
      exact ⟨tool, text, hl, hr, htool, hd'⟩

/-- A call that is found done repeats its result. -/
theorem repeats_of_foundDone (h : ResultsStored t batch s)
    (hg : foundDone t batch s .call) : ∀ c, (runTools t batch)[s.pos]? = some c → ∀ e ∈ s.hist, e.pos = s.pos →
      DataChanged e.before e.after → (c s.out s.store).Repeats DataChanged s.store e.result s.answers[s.cursor]? := by
  intro c hc e he hp hch
  rw [runTools, List.getElem?_map, Option.map_eq_some_iff] at hc
  obtain ⟨tc, htc, rfl⟩ := hc
  rcases hg tc htc e he hp hch with hop | ⟨r, tool, text, hd, hrec, hr⟩
  · obtain ⟨op, hop⟩ := Option.isSome_iff_exists.mp hop
    obtain ⟨tool, text, hl, hr, htool, hd⟩ := h e he hch tc op (hp ▸ htc) hop
    rw [(hd s.out s.store).dispatch_eq, hr, Tool.invoke_replays htool hl]
    exact ⟨fun hne => hne rfl, rfl⟩
  · rw [hd.dispatch_eq, hr]
    exact (Tool.recorded_repeats hrec).mapResult _

/-- **Each effect once**, in every run in which the calls that are executed again are found
done. -/
theorem effects_once (t : Turn ρ) (batch : List ToolCall) {s : NodeState ρ}
    (h : ((system (runTools t batch)).guard (foundDone t batch)).Reachable s) : EffectsOnce s := by
  have hinv : Once DataChanged s ∧ ResultsStored t batch s := by
    refine h.induct (P := fun s => Once DataChanged s ∧ ResultsStored t batch s) ?_ ?_
    · rintro s ⟨store, rfl⟩
      exact ⟨.start store, by simp [ResultsStored, State.start]⟩
    · rintro s e s' - ⟨ho, hst⟩ ⟨hs, hg⟩
      cases hs with
      | call hr => exact ⟨ho.call (repeats_of_foundDone hst hg), hst.call⟩
      | resume question a hq => exact ⟨ho.resume a, hst.keeps (.of_eq rfl) rfl⟩
      | outside question store hq => exact ⟨⟨ho.length, ho.once, ho.reported⟩, hst.keeps hg rfl⟩
  refine ⟨hinv.1.once, fun e he hc hf => hinv.1.reported e he hc ?_⟩
  obtain ⟨tc, out, htc, -⟩ := produced_entry (produced_of_reachable h.of_guard) he
  obtain ⟨hlt, -⟩ := List.getElem?_eq_some_iff.mp htc
  have hle := pos_of_finished h.of_guard hf
  rw [runTools, List.length_map] at hle
  omega

/-- Two deletions, both confirmed: in the last execution the first one replays its result. -/
theorem effects_once_deletions :
    let first := deleted "call_1" "Готово, удаляю: «хлеб»."
    EffectsOnce ⟨oneTask, 1, 0, [first], .running, ["да", "да"], [0, 1], [(0, "да"), (1, "да")],
      [firstDeletion, ⟨0, oneTask, none, oneTask, first⟩]⟩ := by
  intro first
  have fresh : ∀ s : NodeState Unit, (∀ e ∈ s.hist, e.pos ≠ s.pos) → foundDone deletionTurn twoDeletions s .call :=
    fun s hs tc htc e he hp => absurd hp (hs e he)
  have hpath : ((system (runTools deletionTurn twoDeletions)).guard (foundDone deletionTurn twoDeletions)).Passes
      (State.start twoTasks)
      [(.call, ⟨twoTasks, 0, 0, [], .paused (askedAbout "хлеб" "task_1"), [], [], [], []⟩),
       (.resume "да", ⟨twoTasks, 0, 0, [], .running, ["да"], [0], [(0, "да")], []⟩),
       (.call, { askedSecond with phase := .running }), (.call, askedSecond),
       (.resume "да", ⟨oneTask, 0, 0, [], .running, ["да", "да"], [0, 1], [(0, "да"), (1, "да")], [firstDeletion]⟩),
       (.call, ⟨oneTask, 1, 0, [first], .running, ["да", "да"], [0, 1], [(0, "да"), (1, "да")],
         [firstDeletion, ⟨0, oneTask, none, oneTask, first⟩]⟩)] := by
    refine ⟨⟨.call rfl, fresh _ (by simp [State.start])⟩, ⟨.resume _ _ rfl, trivial⟩, ⟨.call rfl, fresh _ (by simp)⟩,
      ⟨.call rfl, fresh _ (by simp [askedSecond, firstDeletion])⟩, ⟨.resume _ _ rfl, trivial⟩, ⟨.call rfl, ?_⟩, trivial⟩
    intro tc htc e he hp hc
    obtain rfl : deletion "call_1" "task_1" = tc := Option.some.inj htc
    exact .inl rfl
  exact effects_once deletionTurn twoDeletions (.of_passes hpath ⟨twoTasks, rfl⟩)

/-! ### A search and a cancellation -/

/-- A turn with `web_search`, which takes one from the quota, and `cancel_reminder`. -/
def searchTurn : Turn ℕ where
  py := Py.ascii
  turnKey := "turn_1"
  tenantId := "tenant_1"
  userId := "user_1"
  intent := .task
  unified := true
  allowedRead := none
  allowedWrite := none
  checklistUnified := false
  sliceB := false
  crossCheck _ _ _ := none
  writeEnforce _ _ _ _ := none
  timeNamed := true
  hasEnd _ := false
  endAsked := false
  executed _ := 0
  known name := name == "web_search" || name == "cancel_reminder"
  readDomains name := if name = "web_search" then ["web"] else []
  writeDomains name := if name = "cancel_reminder" then ["reminders"] else []
  bound name :=
    if name = "web_search" then
      some (.other (.plain fun _ data => ({ data with rest := data.rest - 1 }, .ok "1. Кино")))
    else if name = "cancel_reminder" then some .cancelReminder
    else none

/-- One pending reminder, and a quota of `n` searches. -/
def oneReminder (n : ℕ) : Database ℕ where
  data := ⟨[⟨"rem_1", "tenant_1", "user_1", "кино", "20:00", "pending"⟩], [], n⟩
  results := []

/-- The search is executed before the question, and again after the answer. -/
theorem search_twice :
    ¬ ∀ (t : Turn ℕ) (batch : List ToolCall) (s : NodeState ℕ),
      (system (runTools t batch)).Reachable s → EffectsOnce s := by
  intro h
  let batch : List ToolCall := [⟨"call_1", "web_search", [("query", .str "кино")]⟩,
    ⟨"call_2", "cancel_reminder", [("reminder_ref", .str "rem_1")]⟩]
  let prog := runTools searchTurn batch
  let found : ToolMessage := ⟨"1. Кино", "web_search", "call_1", false, some "ok"⟩
  let question : Question :=
    .confirm ("Я сейчас удалю напоминание «" ++ "кино" ++ " — " ++ "20:00" ++ "». Нужно твоё подтверждение.")
      ("reminder:" ++ "rem_1" ++ ":cancel")
  let e₁ : Entry (Database ℕ) String ToolMessage := ⟨0, oneReminder 5, none, oneReminder 4, found⟩
  let e₂ : Entry (Database ℕ) String ToolMessage := ⟨0, oneReminder 4, none, oneReminder 3, found⟩
  have hpath : (system prog).Passes (State.start (oneReminder 5))
      [(.call, ⟨oneReminder 4, 1, 0, [found], .running, [], [], [], [e₁]⟩),
       (.call, ⟨oneReminder 4, 1, 0, [found], .paused question, [], [], [], [e₁]⟩),
       (.resume "да", ⟨oneReminder 4, 0, 0, [], .running, ["да"], [1], [(1, "да")], [e₁]⟩),
       (.call, ⟨oneReminder 3, 1, 0, [found], .running, ["да"], [1], [(1, "да")], [e₁, e₂]⟩)] :=
    ⟨.call rfl, .call rfl, .resume _ _ rfl, .call rfl, trivial⟩
  have hr := Lts.Reachable.of_passes hpath ⟨oneReminder 5, rfl⟩
  have honce := (h searchTurn batch _ hr).once
  simp [e₁, e₂, Changes, oneReminder] at honce

end Sreda.React
