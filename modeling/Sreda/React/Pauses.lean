import Sreda.React.Texts

/-!
# Buttons and answers

A confirmation comes with two buttons. Their data carry the token of the pause: a hash of the
interrupt, of the question and of the key of what the question is about, as one execution of
the tools node puts all its questions under one interrupt. A tap resumes the graph only if its
token is the one of the live pause.

A pause is live for five minutes, by the creation time of the checkpoint. A checkpoint is
created when a step of the graph is completed. The question that the tools node puts after
the answer to another one is put in the same step, and the time for its answer began with the
first question.

The clock counts microseconds. A question is sent when the graph stops at it.

## What is proved

* `answers_reach_pauses`: what a tap resumes, that a question is answered once, and that an
  answer in time reaches its question exactly if the checkpoint is young enough as well; and
  when the calls take the answers to their own questions only.
* `second_question`: the answer to a second question, a minute and fifty seconds after it was
  sent, begins a new turn.
-/

namespace Sreda.React

open Sreda.Lib Sreda.Lib.Replay

universe u

variable {ρ : Type u}

/-! ### Buttons -/

/-- `_pause_token`; `sha1` is the digest in hexadecimal digits. -/
def pauseToken (sha1 : String → String) (id : String) (question : Question) : String :=
  let (q, key) := match question with
    | .confirm q key => (q, key)
    | .text _ => ("", "")
  if id = "" ∧ q = "" ∧ key = "" then ""
  else String.ofList ((sha1 (id ++ "\x00" ++ q ++ "\x00" ++ key)).toList.take 20)

/-- `_CONFIRM_ACTION`. -/
def confirmAction (action : String) : Option String :=
  if action = "yes" then some "да" else if action = "no" then some "нет" else none

/-- `confirm_callback_data`. -/
def confirmCallbackData (action pauseId : String) : String :=
  if pauseId = "" then "react:" ++ action else "react:" ++ action ++ ":" ++ pauseId

/-- `confirm_resume_text`. -/
def confirmResumeText (callbackData : String) : Option String :=
  match callbackData.toList.splitOn ':' with
  | head :: action :: _ => if head = "react".toList then confirmAction (String.ofList action) else none
  | _ => none

/-- `confirm_callback_id`. -/
def confirmCallbackId (callbackData : String) : String :=
  match callbackData.toList.splitOn ':' with
  | head :: _ :: part :: parts =>
    if head = "react".toList then String.ofList ([':'].intercalate (part :: parts)) else ""
  | _ => ""

/-! ### The thread and the clock -/

/-- What `handle_turn` is given. -/
structure PauseEnv where
  sig : Signals
  /-- The digest of `hashlib.sha1`. -/
  sha1 : String → String
  /-- `Interrupt.id` of the questions of a step of the graph. -/
  interruptId : ℕ → String

/-- A thread in time. -/
structure PauseState (ρ : Type u) where
  thread : Thread ρ
  /-- In microseconds, as all times are. -/
  now : ℕ
  /-- `snap.created_at`. -/
  createdAt : ℕ
  /-- The steps of the graph that were completed. -/
  step : ℕ
  /-- The questions that were sent. -/
  sent : ℕ
  /-- When the last of them was sent. -/
  sentAt : ℕ
  /-- The number of its question for each answer; kept for the statements only. -/
  answered : List ℕ

/-- `_PENDING_TTL_SECONDS` in microseconds. -/
def pendingTtl : ℕ := pendingTtlSeconds * 1000000

namespace PauseState

/-- `_interrupt_age_seconds`, a part of a second counted as a whole one. -/
def age (s : PauseState ρ) : ℕ := (s.now - s.createdAt + 999999) / 1000000

/-- `live_pause`. -/
def live (s : PauseState ρ) : Bool := s.thread.livePause s.age

/-- The token of `_pending`. -/
def token (env : PauseEnv) (s : PauseState ρ) : String :=
  (s.thread.shown.map (pauseToken env.sha1 (env.interruptId s.step))).getD ""

/-- The graph is resumed, and the question that waits is answered. -/
def resume (s : PauseState ρ) (value : String) : PauseState ρ :=
  { s with
    thread := s.thread.resume value
    answered := s.answered ++ if s.thread.shown.isSome then [s.sent] else [] }

/-- A step of the graph is completed, and a checkpoint is created. -/
def complete (s : PauseState ρ) (thread : Thread ρ) : PauseState ρ :=
  { s with thread := thread, createdAt := s.now, step := s.step + 1 }

/-- A fresh turn. Off the unified path the calls of a pause are not closed, and nothing is
executed beforehand. -/
def fresh (env : PauseEnv) (s : PauseState ρ) (userText : String) (unified : Bool) (pre : Option PreExecuted) :
    PauseState ρ :=
  s.complete <|
    if unified then s.thread.fresh (s.thread.redirectNew env.sig userText s.age) userText pre
    else { s.thread.fresh false userText none with messages := s.thread.messages ++ [.human userText] }

/-- `handle_turn` on a text; `unified` is `_unified_execute_for`. -/
def handleText (env : PauseEnv) (s : PauseState ρ) (userText : String) (unified : Bool) (pre : Option PreExecuted) :
    PauseState ρ :=
  if s.live && !(unified && shouldRedirectOnPause env.sig userText s.thread.isConfirm) then
    s.resume (resumeVal env.sig userText s.thread.isConfirm)
  else s.fresh env userText unified pre

/-- `handle_turn` on the button with these data (`resume_only`). -/
def handleTap (env : PauseEnv) (s : PauseState ρ) (callbackData : String) : PauseState ρ :=
  if s.live && s.thread.isConfirm && decide (confirmCallbackId callbackData = s.token env) then
    s.resume ((confirmResumeText callbackData).getD "")
  else s

/-- One call of `run_tools`. A question belongs to the step that is under way: no checkpoint is
created for it. -/
def callTool (s : PauseState ρ) : PauseState ρ :=
  let thread := s.thread.callTool
  match thread.node.phase with
  | .paused _ => { s with thread := thread, sent := s.sent + 1, sentAt := s.now }
  | .finished => s.complete thread
  | _ => { s with thread := thread }

end PauseState

/-- What happens to a thread in time. -/
inductive PauseEvent (ρ : Type u) where
  /-- So much time passes. -/
  | tick (time : ℕ)
  | text (userText : String) (unified : Bool) (pre : Option PreExecuted)
  | tap (callbackData : String)
  | chat (content : String) (toolCalls : List ToolCall) (turn : Turn ρ) (retry : Bool)
  | callTool
  | guard
  | stop
  | fails (transient : Bool)
  | outside (store : Database ρ)

/-- The steps are those of the thread (`ThreadStep`), with the clock. The process is not restarted. -/
inductive PauseStep (env : PauseEnv) : PauseState ρ → PauseEvent ρ → PauseState ρ → Prop where
  | tick {s} (time : ℕ) : PauseStep env s (.tick time) { s with now := s.now + time }
  | text {s} (userText : String) (unified : Bool) (pre : Option PreExecuted) (hi : s.thread.running = false)
      (ht : userText ≠ "") (hp : ∀ p, pre = some p → p.id ≠ "") :
      PauseStep env s (.text userText unified pre) (s.handleText env userText unified pre)
  | tap {s} (callbackData : String) (hi : s.thread.running = false) :
      PauseStep env s (.tap callbackData) (s.handleTap env callbackData)
  | chat {s} (content : String) (toolCalls : List ToolCall) (turn : Turn ρ) (retry : Bool)
      (hr : s.thread.running = true) (hn : s.thread.next = some .chat) (hids : ProperIds toolCalls) :
      PauseStep env s (.chat content toolCalls turn retry) (s.complete (s.thread.chat content toolCalls turn retry))
  | callTool {s} (hr : s.thread.running = true) (hn : s.thread.next = some .tools)
      (hp : s.thread.node.phase = .running) : PauseStep env s .callTool s.callTool
  | guard {s} (hr : s.thread.running = true) (hn : s.thread.next = some .guard) :
      PauseStep env s .guard (s.complete (s.thread.goOn (some .chat)))
  | stop {s} (hr : s.thread.running = true) (hn : s.thread.next = some .stop) :
      PauseStep env s .stop (s.complete s.thread.stop)
  | fails {s} (transient : Bool) (hr : s.thread.running = true) :
      PauseStep env s (.fails transient) { s with thread := s.thread.recover transient }
  | outside {s} (store : Database ρ) :
      PauseStep env s (.outside store)
        { s with thread := { s.thread with node := { s.thread.node with store := store } } }

/-- A durable thread in time, from its first text on. -/
def pauses (env : PauseEnv) : Lts (PauseState ρ) (PauseEvent ρ) where
  init s := ∃ turn store now, s = ⟨.empty turn store, now, now, 0, 0, now, []⟩
  step := PauseStep env

/-! ### The law -/

/-- The yes or no that a text or a button gives to the confirmation that waits. -/
def answerTo (env : PauseEnv) (s : PauseState ρ) : PauseEvent ρ → Option String
  | .text userText _ _ =>
    match env.sig.classify userText with
    | .affirm => some "да"
    | .negate => some "нет"
    | .redirect => none
  | .tap callbackData => if confirmCallbackId callbackData = s.token env then confirmResumeText callbackData else none
  | _ => none

/-- **Buttons and answers reach the right pause in time.** -/
structure PauseGuarantees (env : PauseEnv) (s : PauseState ρ) (e : PauseEvent ρ) (s' : PauseState ρ) : Prop where
  /-- A tap resumes the graph only if the live pause is a confirmation with the token of the button. -/
  tap : ∀ callbackData, e = .tap callbackData → s'.thread.running = true →
    s.live = true ∧ s.thread.isConfirm = true ∧ confirmCallbackId callbackData = s.token env
  /-- No question is answered twice. -/
  once : s'.answered.Nodup
  /-- A yes or no to the confirmation that waits is its answer, five minutes from its question on. -/
  inTime : ∀ value, s.thread.isConfirm = true → answerTo env s e = some value →
    s.now ≤ s.sentAt + pendingTtl → Delivered s.thread value s'.thread

/-- **The checkpoint is young enough**: an answer within five minutes of its question comes
within five minutes of the last completed step as well. -/
def checkpointFresh (env : PauseEnv) (s : PauseState ρ) (e : PauseEvent ρ) : Prop :=
  s.thread.isConfirm = true → (answerTo env s e).isSome → s.now ≤ s.sentAt + pendingTtl →
    s.now ≤ s.createdAt + pendingTtl

/-- What resumes the graph finds a question, and the questions that were put stay open until
the batch is done. -/
def answersKept (s : PauseState ρ) : PauseEvent ρ → Prop
  | .text _ _ _ => s.live = true → s.thread.shown.isSome
  | .callTool => questionsKept s.thread.turn s.thread.batch s.thread.node .call
  | _ => True

/-! ### What holds in every state -/

/-- A question waits at the tools node, and it has not been answered. -/
structure PauseInv (s : PauseState ρ) : Prop where
  waits : s.thread.running = false → ∀ question, s.thread.shown = some question →
    s.thread.next = some .tools ∧ s.thread.node.phase = .paused question
  older : ∀ n ∈ s.answered, n ≤ s.sent
  unanswered : s.thread.running = false → s.thread.shown.isSome → s.sent ∉ s.answered
  once : s.answered.Nodup

theorem Thread.resume_running (s : Thread ρ) (value : String) : (s.resume value).running = true := by
  unfold Thread.resume
  dsimp only
  split <;> rfl

/-- After a call the thread waits at a question of its own, or the graph is still under way. -/
theorem Thread.callTool_cases {s : Thread ρ} (hr : s.running = true) (hn : s.next = some .tools) :
    (∃ question, s.callTool.node.phase = .paused question ∧ s.callTool.shown = some question ∧
      s.callTool.next = some .tools) ∨
    ((∀ question, s.callTool.node.phase ≠ .paused question) ∧ s.callTool.running = true) := by
  have hst : s.takeStray.running = true ∧ s.takeStray.next = some .tools := by
    unfold Thread.takeStray
    split <;> exact ⟨hr, hn⟩
  unfold Thread.callTool
  generalize s.takeStray = s at hst
  obtain ⟨hr, hn⟩ := hst
  unfold Thread.settleCall
  dsimp only
  split
  · next question hq => exact .inl ⟨question, hq, rfl, hn⟩
  · next hq => exact .inr ⟨by simp [Thread.goOn, hq], rfl⟩
  · next hq _ => exact .inr ⟨hq, hr⟩

namespace PauseState

theorem callTool_thread (s : PauseState ρ) : s.callTool.thread = s.thread.callTool := by
  unfold callTool
  dsimp only
  split <;> rfl

theorem age_le_iff (s : PauseState ρ) : s.age ≤ pendingTtlSeconds ↔ s.now ≤ s.createdAt + pendingTtl := by
  unfold age pendingTtl
  generalize pendingTtlSeconds = ttl
  rw [← Nat.lt_succ_iff, Nat.div_lt_iff_lt_mul (by omega)]
  omega

theorem live_iff (s : PauseState ρ) :
    s.live = true ↔ s.thread.hasPause = true ∧ s.now ≤ s.createdAt + pendingTtl := by
  unfold live Thread.livePause
  rw [Bool.and_eq_true, decide_eq_true_eq]
  exact and_congr_right fun _ => s.age_le_iff

end PauseState

theorem Thread.shown_of_isConfirm {s : Thread ρ} (h : s.isConfirm = true) : ∃ question, s.shown = some question := by
  unfold Thread.isConfirm at h
  split at h
  · next q key hq => exact ⟨_, hq⟩
  · cases h

namespace PauseInv

variable {env : PauseEnv} {s : PauseState ρ}

/-- Nothing is sent or answered, and nothing waits. -/
theorem of_idle (h : PauseInv s) {s' : PauseState ρ} (hanswered : s'.answered = s.answered) (hsent : s'.sent = s.sent)
    (hidle : s'.thread.running = true ∨ s'.thread.shown = none) : PauseInv s' := by
  refine ⟨fun hi question hq => ?_, ?_, fun hi hq => ?_, ?_⟩
  · rcases hidle with hr | hnone
    · simp [hr] at hi
    · simp [hnone] at hq
  · rw [hanswered, hsent]
    exact h.older
  · rcases hidle with hr | hnone
    · simp [hr] at hi
    · simp [hnone] at hq
  · rw [hanswered]
    exact h.once

theorem resume (h : PauseInv s) (hi : s.thread.running = false) (value : String) : PauseInv (s.resume value) := by
  have hr : (s.resume value).thread.running = true := s.thread.resume_running value
  refine ⟨fun hi' => by simp [hr] at hi', ?_, fun hi' => by simp [hr] at hi', ?_⟩
  · intro n hn
    rcases List.mem_append.mp hn with hold | hnew
    · exact h.older n hold
    · split at hnew
      · exact (List.mem_singleton.mp hnew).le
      · cases hnew
  · show (s.answered ++ _).Nodup
    split
    · next hq =>
      refine h.once.append (List.nodup_singleton _) ?_
      rw [List.disjoint_singleton]
      exact h.unanswered hi hq
    · simpa using h.once

theorem callTool (h : PauseInv s) (hr : s.thread.running = true) (hn : s.thread.next = some .tools) :
    PauseInv s.callTool := by
  rcases Thread.callTool_cases hr hn with ⟨question, hphase, hshown, hnext⟩ | ⟨hphase, hrun⟩
  · have hnew : s.callTool = { s with thread := s.thread.callTool, sent := s.sent + 1, sentAt := s.now } := by
      unfold PauseState.callTool
      simp only [hphase]
    rw [hnew]
    refine ⟨fun _ q hq => ?_, fun n hn => ?_, fun _ _ hm => ?_, h.once⟩
    · obtain rfl : question = q := Option.some.inj (hshown.symm.trans hq)
      exact ⟨hnext, hphase⟩
    · have := h.older n hn
      dsimp only
      omega
    · have hle : s.sent + 1 ≤ s.sent := h.older _ hm
      omega
  · refine h.of_idle ?_ ?_ (.inl (by rw [PauseState.callTool_thread]; exact hrun)) <;>
    · unfold PauseState.callTool
      dsimp only
      split
      · next hq => exact absurd hq (hphase _)
      · rfl
      · rfl

theorem step (h : PauseInv s) {e : PauseEvent ρ} {s' : PauseState ρ} (hs : PauseStep env s e s') : PauseInv s' := by
  cases hs with
  | tick time => exact ⟨h.waits, h.older, h.unanswered, h.once⟩
  | text userText unified pre hi ht hp =>
    unfold PauseState.handleText
    split
    · exact h.resume hi _
    · refine h.of_idle rfl rfl (.inl ?_)
      unfold PauseState.fresh
      cases unified <;> rfl
  | tap callbackData hi =>
    unfold PauseState.handleTap
    split
    · exact h.resume hi _
    · exact h
  | chat content toolCalls turn retry hr hn hids => exact h.of_idle rfl rfl (.inr rfl)
  | callTool hr hn hp => exact h.callTool hr hn
  | guard hr hn => exact h.of_idle rfl rfl (.inr rfl)
  | stop hr hn => exact h.of_idle rfl rfl (.inr rfl)
  | fails transient hr =>
    refine h.of_idle rfl rfl (.inr ?_)
    unfold Thread.recover
    dsimp only
    split
    · rfl
    · split <;> rfl
  | outside store => exact ⟨h.waits, h.older, h.unanswered, h.once⟩

end PauseInv

theorem pauseInv_of_reachable {env : PauseEnv} {s : PauseState ρ} (h : (pauses env).Reachable s) : PauseInv s := by
  refine h.induct ?_ fun s e s' _ hinv hs => hinv.step hs
  rintro s ⟨turn, store, now, rfl⟩
  exact ⟨by simp [Thread.empty], by simp, by simp, by simp⟩

/-! ### Answers in time -/

theorem Delivered.length {s s' : Thread ρ} {value : String} (h : Delivered s value s') :
    s'.node.answers.length = s.node.answers.length + 1 := by
  obtain ⟨question, -, -, ha, -⟩ := h
  rw [ha, List.length_append, List.length_singleton]

section Answers

variable {env : PauseEnv} {s : PauseState ρ}

/-- Who resumes the graph at a question answers it. -/
theorem delivered_resume (hinv : PauseInv s) (hi : s.thread.running = false) (hshown : s.thread.shown.isSome)
    (value : String) : Delivered s.thread value (s.resume value).thread := by
  obtain ⟨question, hq⟩ := Option.isSome_iff_exists.mp hshown
  obtain ⟨hn, hphase⟩ := hinv.waits hi question hq
  have hresume : (s.resume value).thread = s.thread.resume value := rfl
  rw [hresume, TextInv.resume_eq hn hphase]
  exact ⟨question, hq, hphase, rfl, rfl⟩

theorem fresh_answers (env : PauseEnv) (s : PauseState ρ) (userText : String) (unified : Bool)
    (pre : Option PreExecuted) : (s.fresh env userText unified pre).thread.node.answers = [] := by
  unfold PauseState.fresh
  cases unified <;> rfl

/-- A yes or no in a text is no new request, and it is what the graph is resumed with. -/
theorem resumeVal_of_answerTo {userText : String} {unified : Bool} {pre : Option PreExecuted} {value : String}
    (h : answerTo env s (.text userText unified pre) = some value) :
    shouldRedirectOnPause env.sig userText true = false ∧ resumeVal env.sig userText true = value := by
  simp only [answerTo] at h
  cases hc : env.sig.classify userText <;> simp_all [shouldRedirectOnPause, resumeVal]

theorem text_delivered_iff (hinv : PauseInv s) (hi : s.thread.running = false) (hc : s.thread.isConfirm = true)
    {userText : String} {unified : Bool} {pre : Option PreExecuted} {value : String}
    (h : answerTo env s (.text userText unified pre) = some value) :
    Delivered s.thread value (s.handleText env userText unified pre).thread ↔ s.now ≤ s.createdAt + pendingTtl := by
  obtain ⟨hredirect, hvalue⟩ := resumeVal_of_answerTo h
  obtain ⟨question, hq⟩ := Thread.shown_of_isConfirm hc
  have hpause : s.thread.hasPause = true := by simp [Thread.hasPause, hq]
  unfold PauseState.handleText
  rw [hc, hredirect, hvalue, Bool.and_false, Bool.not_false, Bool.and_true]
  by_cases hlive : s.live = true
  · rw [if_pos hlive]
    exact iff_of_true (delivered_resume hinv hi (by simp [hq]) value) (s.live_iff.mp hlive).2
  · rw [if_neg hlive]
    refine iff_of_false (fun hd => ?_) fun hage => hlive (s.live_iff.mpr ⟨hpause, hage⟩)
    have hlen := hd.length
    rw [fresh_answers] at hlen
    simp at hlen

theorem tap_delivered_iff (hinv : PauseInv s) (hi : s.thread.running = false) (hc : s.thread.isConfirm = true)
    {callbackData value : String} (h : answerTo env s (.tap callbackData) = some value) :
    Delivered s.thread value (s.handleTap env callbackData).thread ↔ s.now ≤ s.createdAt + pendingTtl := by
  obtain ⟨question, hq⟩ := Thread.shown_of_isConfirm hc
  have hpause : s.thread.hasPause = true := by simp [Thread.hasPause, hq]
  obtain ⟨htoken, hvalue⟩ : confirmCallbackId callbackData = s.token env ∧
      confirmResumeText callbackData = some value := by
    simpa only [answerTo, Option.ite_none_right_eq_some] using h
  unfold PauseState.handleTap
  rw [hc, hvalue, decide_eq_true htoken, Bool.and_true, Bool.and_true]
  by_cases hlive : s.live = true
  · rw [if_pos hlive]
    exact iff_of_true (delivered_resume hinv hi (by simp [hq]) value) (s.live_iff.mp hlive).2
  · rw [if_neg hlive]
    refine iff_of_false (fun hd => ?_) fun hage => hlive (s.live_iff.mpr ⟨hpause, hage⟩)
    have hlen := hd.length
    omega

/-- An answer reaches its question exactly if the checkpoint is young enough. -/
theorem delivered_iff (hinv : PauseInv s) {e : PauseEvent ρ} {s' : PauseState ρ} (hs : PauseStep env s e s')
    (hc : s.thread.isConfirm = true) {value : String} (h : answerTo env s e = some value) :
    Delivered s.thread value s'.thread ↔ s.now ≤ s.createdAt + pendingTtl := by
  cases hs with
  | text userText unified pre hi ht hp => exact text_delivered_iff hinv hi hc h
  | tap callbackData hi => exact tap_delivered_iff hinv hi hc h
  | _ => cases h

theorem live_of_tap {callbackData : String} (hi : s.thread.running = false)
    (hr : (s.handleTap env callbackData).thread.running = true) :
    s.live = true ∧ s.thread.isConfirm = true ∧ confirmCallbackId callbackData = s.token env := by
  unfold PauseState.handleTap at hr
  split at hr
  · next hc =>
    simp only [Bool.and_eq_true, decide_eq_true_eq] at hc
    exact ⟨hc.1.1, hc.1.2, hc.2⟩
  · simp [hi] at hr

theorem guarantees_iff (hinv : PauseInv s) {e : PauseEvent ρ} {s' : PauseState ρ} (hs : PauseStep env s e s') :
    PauseGuarantees env s e s' ↔ checkpointFresh env s e := by
  constructor
  · intro h hc hanswer htime
    obtain ⟨value, hvalue⟩ := Option.isSome_iff_exists.mp hanswer
    exact (delivered_iff hinv hs hc hvalue).mp (h.inTime value hc hvalue htime)
  · intro h
    refine ⟨?_, (hinv.step hs).once, fun value hc hvalue htime => ?_⟩
    · rintro callbackData rfl hr
      cases hs with
      | tap callbackData hi => exact live_of_tap hi hr
    · exact (delivered_iff hinv hs hc hvalue).mpr (h hc (by simp [hvalue]) htime)

/-- In steps that find their question the answers stay aligned. -/
theorem textInv_step (hinv : PauseInv s) (h : TextInv s.thread) {e : PauseEvent ρ} {s' : PauseState ρ}
    (hs : PauseStep env s e s') (hg : answersKept s e) : TextInv s'.thread := by
  have hresume : ∀ value, s.thread.running = false → s.thread.shown.isSome → TextInv (s.resume value).thread := by
    intro value hi hshown
    obtain ⟨question, hq⟩ := Option.isSome_iff_exists.mp hshown
    obtain ⟨hn, hphase⟩ := hinv.waits hi question hq
    exact h.resume hn hphase value
  cases hs with
  | tick time => exact h
  | text userText unified pre hi ht hp =>
    unfold PauseState.handleText
    split
    · next hc =>
      rw [Bool.and_eq_true] at hc
      exact hresume _ hi (hg hc.1)
    · unfold PauseState.fresh
      cases unified with
      | true => exact .fresh _ _ userText pre
      | false => exact ⟨aligned_idle _, rfl, by simp [PauseState.complete, Thread.fresh]⟩
  | tap callbackData hi =>
    unfold PauseState.handleTap
    split
    · next hc =>
      simp only [Bool.and_eq_true] at hc
      obtain ⟨question, hq⟩ := Thread.shown_of_isConfirm hc.1.2
      exact hresume _ hi (by simp [hq])
    · exact h
  | chat content toolCalls turn retry hr hn hids => exact .chat content toolCalls turn retry
  | callTool hr hn hp =>
    rw [PauseState.callTool_thread]
    have hwaits : questionWaits env.sig s.thread .callTool := hg
    exact h.callTool hp hwaits
  | guard hr hn => exact h.goOn _ (by simp)
  | stop hr hn => exact h.stop
  | fails transient hr => exact h.recover transient
  | outside store => exact ⟨h.aligned.outside store, h.stray, h.shown⟩

end Answers

theorem pauseTextInv_of_reachable {env : PauseEnv} {s : PauseState ρ}
    (h : ((pauses env).guard answersKept).Reachable s) : TextInv s.thread := by
  refine h.induct ?_ fun s e s' hr hinv hs => textInv_step (pauseInv_of_reachable hr.of_guard) hinv hs.1 hs.2
  rintro s ⟨turn, store, now, rfl⟩
  exact .empty turn store

/-- **Buttons and answers reach the right pause in time**, over every sequence of questions,
texts and taps, exactly at the steps that find the checkpoint young enough; and in every run
in which the questions that were put stay open, each answer is taken by its own call. -/
theorem answers_reach_pauses (env : PauseEnv) {s : PauseState ρ} (h : (pauses env).Reachable s) {e : PauseEvent ρ}
    {s' : PauseState ρ} (hs : (pauses env).step s e s') :
    (PauseGuarantees env s e s' ↔ checkpointFresh env s e) ∧
      (((pauses env).guard answersKept).Reachable s → answersKept s e → TakenByOwn s'.thread) := by
  have hinv := pauseInv_of_reachable h
  refine ⟨guarantees_iff hinv hs, fun hr hg => ?_⟩
  exact (textInv_step hinv (pauseTextInv_of_reachable hr) hs hg).aligned.taken

/-! ### Two questions in one step -/

/-- The digest of the first question of two deletions, and plain readings. -/
def plainEnv : PauseEnv where
  sig := plainSignals
  sha1 text :=
    if text = "2\x00Я сейчас удалю задачу «хлеб». Нужно твоё подтверждение.\x00task:task_1:удаляю" then
      "e29e3ac50e5f2c0255e685a6d2bb4ba747b7c045"
    else ""
  interruptId n := toString n

def startedPause : PauseState Unit := ⟨.empty deletionTurn twoTasks, 0, 0, 0, 0, 0, []⟩

/-- After so many seconds. -/
def PauseState.later (s : PauseState Unit) (n : ℕ) : PauseState Unit := { s with now := s.now + n * 1000000 }

/-- The model calls for two deletions. -/
def calledPause : PauseState Unit :=
  let s := startedPause.handleText plainEnv "удали хлеб и паспорт" true none
  s.complete (s.thread.chat "" twoDeletions deletionTurn false)

/-- The first question is sent. -/
def askedPause : PauseState Unit := calledPause.callTool

example : askedPause.token plainEnv = "e29e3ac50e5f2c0255e6" := by decide +kernel

theorem askedPause_reachable : ((pauses plainEnv).guard answersKept).Reachable askedPause := by
  let L : Lts (PauseState Unit) (PauseEvent Unit) := (pauses plainEnv).guard answersKept
  let s := startedPause.handleText plainEnv "удали хлеб и паспорт" true none
  have h₀ : L.init startedPause := ⟨deletionTurn, twoTasks, 0, rfl⟩
  have h₁ : L.step startedPause (.text "удали хлеб и паспорт" true none) s :=
    ⟨.text _ true none rfl (by decide) (by simp), fun hl => absurd hl (by decide)⟩
  have h₂ : L.step s (.chat "" twoDeletions deletionTurn false) calledPause :=
    ⟨.chat _ _ _ _ rfl rfl ⟨by decide, by decide⟩, trivial⟩
  have h₃ : L.step calledPause .callTool askedPause := ⟨.callTool rfl rfl rfl, fun hl => absurd hl (by decide)⟩
  exact ((Lts.Reachable.step ⟨_, .init h₀⟩ h₁).step h₂).step h₃

/-- The button «Да» of the first question, ten seconds later. -/
theorem answers_reach_pauses_tap :
    let asked := askedPause.later 10
    let button := confirmCallbackData "yes" (askedPause.token plainEnv)
    PauseGuarantees plainEnv asked (.tap button) (asked.handleTap plainEnv button) ∧
      TakenByOwn (asked.handleTap plainEnv button).thread := by
  intro asked button
  have hasked : ((pauses plainEnv).guard answersKept).Reachable asked :=
    askedPause_reachable.step ⟨.tick (10 * 1000000), trivial⟩
  have hs : (pauses plainEnv).step asked (.tap button) (asked.handleTap plainEnv button) := .tap button rfl
  obtain ⟨hiff, htaken⟩ := answers_reach_pauses plainEnv hasked.of_guard hs
  exact ⟨hiff.mpr fun _ _ _ => by decide, htaken hasked trivial⟩

/-- The first question is answered after 200 seconds, and the second one is sent. -/
def askedAgain : PauseState Unit := ((askedPause.later 200).handleText plainEnv "да" true none).callTool.callTool

theorem askedAgain_reachable : (pauses plainEnv).Reachable askedAgain := by
  let L : Lts (PauseState Unit) (PauseEvent Unit) := pauses plainEnv
  let s := (askedPause.later 200).handleText plainEnv "да" true none
  have h₁ : L.step askedPause (.tick (200 * 1000000)) (askedPause.later 200) := .tick _
  have h₂ : L.step (askedPause.later 200) (.text "да" true none) s := .text _ true none rfl (by decide) (by simp)
  have h₃ : L.step s .callTool s.callTool := .callTool rfl rfl rfl
  have h₄ : L.step s.callTool .callTool askedAgain := .callTool rfl rfl rfl
  exact (((askedPause_reachable.of_guard.step h₁).step h₂).step h₃).step h₄

/-- The second question is answered 110 seconds after it was sent. The checkpoint is 310
seconds old: the yes begins a new turn. -/
theorem second_question :
    ¬ ∀ (env : PauseEnv) (s s' : PauseState Unit) (e : PauseEvent Unit), (pauses env).Reachable s →
      (pauses env).step s e s' → PauseGuarantees env s e s' := by
  intro h
  let asked := askedAgain.later 110
  have hasked : (pauses plainEnv).Reachable asked := askedAgain_reachable.step (.tick (110 * 1000000))
  have hs : (pauses plainEnv).step asked (.text "да" true none) (asked.handleText plainEnv "да" true none) :=
    .text _ true none rfl (by decide) (by simp)
  have hdelivered := (h plainEnv _ _ _ hasked hs).inTime "да" rfl rfl (by decide)
  have hlength := hdelivered.length
  exact absurd hlength (by decide)

end Sreda.React
