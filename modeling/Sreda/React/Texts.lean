import Sreda.React.Turns

/-!
# No text is swallowed

A text either begins a turn, and is then a message of the thread, or it is the answer to a
question that waits for it. `handle_turn` decides by the checkpoint, where a step that was
broken off looks like a pause: `clear_pending` deletes the interrupts and the answers, but the
next node stays. The text that comes after a failure resumes that step. It is no message, and
no question waits for it: it is lost, or the next question of the tools node takes it.

## What is proved

* `texts_heard`: in every run in which a text that resumes finds a question, and questions
  that were put stay open, every text is a new message or the answer to the question that was
  pending, and no call takes an answer that was given to another.
* `text_after_failure`: a text after a failure of the model is lost.
-/

namespace Sreda.React

open Sreda.Lib Sreda.Lib.Replay

universe u

variable {ρ : Type u}

/-! ### The law -/

/-- The text is a new message of the thread. -/
def Appended (s : Thread ρ) (userText : String) (s' : Thread ρ) : Prop :=
  ∃ before after, s'.messages = s.messages ++ before ++ .human userText :: after

/-- The value is the answer to the question that was pending. -/
def Delivered (s : Thread ρ) (value : String) (s' : Thread ρ) : Prop :=
  ∃ question, s.shown = some question ∧ s.node.phase = .paused question ∧
    s'.node.answers = s.node.answers ++ [value] ∧ s'.node.log = s.node.log ++ [(s.node.pos, value)]

/-- A text is heard at once. -/
def Heard (sig : Signals) (s : Thread ρ) (e : ThreadEvent ρ) (s' : Thread ρ) : Prop :=
  match e with
  | .text userText _ _ => Appended s userText s' ∨ Delivered s (resumeVal sig userText s.isConfirm) s'
  | _ => True

/-- An answer that a call has taken was given to its own question while it was pending. -/
def TakenByOwn (s : Thread ρ) : Prop := ∀ e ∈ s.node.hist, ∀ a, e.answer = some a → (e.pos, a) ∈ s.node.log

/-- **A question waits**: what resumes the graph finds a pending question; and when a call is
executed before the last answered one, its question is open exactly if it was put before. -/
def questionWaits (sig : Signals) (s : Thread ρ) : ThreadEvent ρ → Prop
  | .text userText gap _ => s.livePause gap = true → s.redirectNew sig userText gap = false →
      s.next = some .tools ∧ ∃ question, s.node.phase = .paused question
  | .tap _ gap _ => s.livePause gap = true → s.isConfirm = true →
      s.next = some .tools ∧ ∃ question, s.node.phase = .paused question
  | .callTool => questionsKept s.turn s.batch s.node .call
  | _ => True

/-! ### The invariant -/

/-- The answers of the tools node are aligned, no value goes astray, and the question that the
tools node waits at is the one that is stored. -/
structure TextInv (s : Thread ρ) : Prop where
  aligned : Aligned s.node
  stray : s.stray = none
  shown : ∀ question, s.next = some .tools → s.node.phase = .paused question → s.shown = some question

theorem aligned_idle (store : Database ρ) : Aligned (idle store) := (Aligned.start store).forget

namespace TextInv

variable {sig : Signals} {s : Thread ρ}

theorem empty (turn : Turn ρ) (store : Database ρ) : TextInv (Thread.empty turn store) :=
  ⟨aligned_idle store, rfl, by simp [Thread.empty]⟩

theorem fresh (s : Thread ρ) (redirectNew : Bool) (userText : String) (pre : Option PreExecuted) :
    TextInv (s.fresh redirectNew userText pre) :=
  ⟨aligned_idle _, rfl, by simp [Thread.fresh]⟩

/-- A resume value that finds a question is its answer. -/
theorem resume_eq (hn : s.next = some .tools) {question : Question} (hq : s.node.phase = .paused question)
    (value : String) :
    s.resume value = { s with running := true, steps := 0, node := s.node.resume value, stray := none } := by
  simp only [Thread.resume, hn, hq]

theorem resume (h : TextInv s) (hn : s.next = some .tools) {question : Question}
    (hq : s.node.phase = .paused question) (value : String) : TextInv (s.resume value) := by
  rw [resume_eq hn hq]
  exact ⟨h.aligned.resume hq value, rfl, by simp [State.resume, State.rerun]⟩

theorem handleText (h : TextInv s) (userText : String) (gap : ℕ) (pre : Option PreExecuted)
    (hg : questionWaits sig s (.text userText gap pre)) : TextInv (s.handleText sig userText gap pre) := by
  unfold Thread.handleText
  split
  · next hc =>
    simp only [Bool.and_eq_true, Bool.not_eq_eq_eq_not, Bool.not_true] at hc
    obtain ⟨hn, question, hq⟩ := hg hc.1 hc.2
    exact h.resume hn hq _
  · exact fresh _ _ userText pre

theorem handleTap (h : TextInv s) (value : String) (gap : ℕ) (same : Bool)
    (hg : questionWaits sig s (.tap value gap same)) : TextInv (s.handleTap value gap same) := by
  unfold Thread.handleTap
  split
  · next hc =>
    simp only [Bool.and_eq_true] at hc
    obtain ⟨hn, question, hq⟩ := hg hc.1.1 hc.1.2
    exact h.resume hn hq _
  · exact h

theorem chat (content : String) (toolCalls : List ToolCall) (turn : Turn ρ) (retry : Bool) :
    TextInv (s.chat content toolCalls turn retry) :=
  ⟨.start _, rfl, by simp [Thread.chat, Thread.goOn, State.start]⟩

theorem callTool (h : TextInv s) (hp : s.node.phase = .running) (hg : questionWaits sig s .callTool) :
    TextInv s.callTool := by
  have hstray : s.takeStray = s := by simp [Thread.takeStray, Thread.takesStray, h.stray]
  have hfaithful : s.node.Faithful s.prog := (questionsKept_iff s.turn s.batch s.node .call).mp hg
  have hal : Aligned (s.node.call s.prog) := h.aligned.call hp hfaithful
  unfold Thread.callTool
  rw [hstray]
  dsimp only
  unfold Thread.settleCall
  dsimp only
  split
  · next question hq => exact ⟨hal, h.stray, fun q _ hq' => by rw [hq] at hq'; simpa using hq'⟩
  · exact ⟨hal, rfl, by simp [Thread.goOn]⟩
  · next hq _ => exact ⟨hal, h.stray, fun q _ hq' => absurd hq' (hq q)⟩

theorem goOn (h : TextInv s) (next : Option Node) (hn : next ≠ some .tools) : TextInv (s.goOn next) :=
  ⟨h.aligned, rfl, fun _ ht => absurd ht hn⟩

theorem stop (h : TextInv s) : TextInv s.stop :=
  ⟨h.aligned, rfl, by simp [Thread.stop, Thread.goOn]⟩

theorem clearPending (h : TextInv s) : TextInv s.clearPending :=
  ⟨h.aligned.forget, rfl, by simp [Thread.clearPending, State.forget]⟩

theorem recover (h : TextInv s) (transient : Bool) : TextInv (s.recover transient) := by
  unfold Thread.recover
  dsimp only
  split
  · exact clearPending ⟨h.aligned, h.stray, h.shown⟩
  · split
    · exact ⟨aligned_idle _, rfl, by simp [Thread.deleteThread]⟩
    · exact clearPending ⟨h.aligned, h.stray, h.shown⟩

theorem restart (h : TextInv s) : TextInv s.restart := by
  unfold Thread.restart
  refine ⟨?_, rfl, ?_⟩
  · dsimp only
    split
    · exact h.aligned.halt
    · exact h.aligned
  · intro question hn hq
    dsimp only at hn hq ⊢
    split at hq
    · exact absurd hq (by simp [State.halt])
    · exact h.shown question hn hq

/-- Every step that finds its question keeps the invariant. -/
theorem step {e : ThreadEvent ρ} {s' : Thread ρ} (h : TextInv s) (hs : ThreadStep sig s e s')
    (hg : questionWaits sig s e) : TextInv s' := by
  cases hs with
  | text userText gap pre hi ht hp => exact h.handleText userText gap pre hg
  | tap value gap same hi => exact h.handleTap value gap same hg
  | chat content toolCalls turn retry hr hn hids => exact chat content toolCalls turn retry
  | callTool hr hn hp => exact h.callTool hp hg
  | guard hr hn => exact h.goOn _ (by simp)
  | stop hr hn => exact h.stop
  | fails transient hr => exact h.recover transient
  | restart => exact h.restart
  | outside store => exact ⟨h.aligned.outside store, h.stray, h.shown⟩

end TextInv

theorem textInv_of_reachable {sig : Signals} {s : Thread ρ}
    (h : ((thread sig).guard (questionWaits sig)).Reachable s) : TextInv s := by
  refine h.induct ?_ fun s e s' _ hinv hs => hinv.step hs.1 hs.2
  rintro s ⟨turn, store, rfl⟩
  exact .empty turn store

theorem heard_of_handleText {sig : Signals} {s : Thread ρ} (h : TextInv s) (userText : String) (gap : ℕ)
    (pre : Option PreExecuted) (hg : questionWaits sig s (.text userText gap pre)) :
    Heard sig s (.text userText gap pre) (s.handleText sig userText gap pre) := by
  show Appended _ _ _ ∨ Delivered _ _ _
  unfold Thread.handleText
  split
  · next hc =>
    simp only [Bool.and_eq_true, Bool.not_eq_eq_eq_not, Bool.not_true] at hc
    obtain ⟨hn, question, hq⟩ := hg hc.1 hc.2
    rw [TextInv.resume_eq hn hq]
    exact .inr ⟨question, h.shown question hn hq, hq, rfl, rfl⟩
  · refine .inl ⟨if s.hasPause then
      (withdrawalMessages s.messages.getLast? (s.redirectNew sig userText gap)).map .tool else [],
      (pre.map PreExecuted.messages).getD [], ?_⟩
    simp only [Thread.fresh, freshMessages, List.append_assoc, List.singleton_append]

/-- **No text is swallowed**: over every sequence of texts, taps, failures and restarts in
which what resumes the graph finds a question, a text is a message or an answer at once, and
every answer is taken by the call it was given to. -/
theorem texts_heard (sig : Signals) {s : Thread ρ} (h : ((thread sig).guard (questionWaits sig)).Reachable s)
    {e : ThreadEvent ρ} {s' : Thread ρ} (hs : (thread sig).step s e s') (hg : questionWaits sig s e) :
    Heard sig s e s' ∧ TakenByOwn s' := by
  have hinv := textInv_of_reachable h
  refine ⟨?_, (hinv.step hs hg).aligned.taken⟩
  cases hs with
  | text userText gap pre hi ht hp => exact heard_of_handleText hinv userText gap pre hg
  | _ => trivial

/-- The first question of a turn is answered. -/
theorem texts_heard_yes :
    let answered := askedThread.handleText plainSignals "да" 10 none
    Heard plainSignals askedThread (.text "да" 10 none) answered ∧ TakenByOwn answered := by
  intro answered
  let L : Lts (Thread Unit) (ThreadEvent Unit) := (thread plainSignals).guard (questionWaits plainSignals)
  let first := (Thread.empty deletionTurn twoTasks).handleText plainSignals "удали хлеб и паспорт" 0 none
  let second := first.chat "" twoDeletions deletionTurn false
  have h₀ : L.init (Thread.empty deletionTurn twoTasks) := ⟨_, _, rfl⟩
  have h₁ : L.step (Thread.empty deletionTurn twoTasks) (.text "удали хлеб и паспорт" 0 none) first :=
    ⟨.text _ 0 none rfl (by decide) (by simp), fun hl => absurd hl (by decide)⟩
  have h₂ : L.step first (.chat "" twoDeletions deletionTurn false) second :=
    ⟨.chat _ _ _ _ rfl rfl ⟨by decide, by decide⟩, trivial⟩
  have h₃ : L.step second .callTool askedThread := ⟨.callTool rfl rfl rfl, fun hl => absurd hl (by decide)⟩
  exact texts_heard plainSignals (((Lts.Reachable.step ⟨_, .init h₀⟩ h₁).step h₂).step h₃)
    (.text "да" 10 none rfl (by decide) (by simp)) fun _ _ => ⟨rfl, _, rfl⟩

/-- The model fails on the first text. The second one comes a minute later and resumes the
failed step. -/
theorem text_after_failure :
    ¬ ∀ (sig : Signals) (s s' : Thread Unit) (e : ThreadEvent Unit), (thread sig).Reachable s →
      (thread sig).step s e s' → Heard sig s e s' ∧ TakenByOwn s' := by
  intro h
  let asked := (Thread.empty deletionTurn twoTasks).handleText plainSignals "удали хлеб" 0 none
  let failed := asked.recover true
  have h₀ : (thread plainSignals).Reachable (Thread.empty deletionTurn twoTasks) := ⟨_, .init ⟨_, _, rfl⟩⟩
  have h₁ : (thread plainSignals).Reachable failed :=
    (h₀.step (.text "удали хлеб" 0 none rfl (by decide) (by simp))).step (.fails true rfl)
  have hs : (thread plainSignals).step failed (.text "как сварить борщ?" 60 none)
      (failed.handleText plainSignals "как сварить борщ?" 60 none) := .text _ 60 none rfl (by decide) (by simp)
  rcases (h plainSignals _ _ _ h₁ hs).1 with ⟨before, after, hm⟩ | ⟨question, hq, -⟩
  · have hsame : (failed.handleText plainSignals "как сварить борщ?" 60 none).messages = failed.messages := rfl
    rw [hsame] at hm
    have := congrArg List.length hm
    simp at this
  · simp [failed, Thread.recover, Thread.clearPending] at hq

end Sreda.React
