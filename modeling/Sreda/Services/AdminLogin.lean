import Mathlib.Algebra.Order.Ring.Int
import Sreda.Lib.Keyed
import Sreda.Lib.Trace
import Sreda.Lib.Transition

/-!
# The admin login

`services/admin_login.py`: a browser starts a challenge and holds a secret of which the table keeps the
hash; an account attaches itself to the challenge in Telegram and confirms it there; the browser claims it.
Each transition is one guarded `UPDATE` of the row of the challenge.

A step of the system is one statement: a start is the count of the rate limit and the insertion, a
confirmation is the update and, when that has changed nothing, the `SELECT` for the answer. The statements of
the calls come in any order, at times that do not decrease. The hash is a parameter.

## What is proved

* what has led to a row, for each status (`RowStory`, `loginInv_hist`);
* a call that fails changes no row (`failed_unchanged`);
* a claim returns an account at most once for each challenge; the caller has the secret of the challenge,
  the account is the first one that attached itself to it and has confirmed it afterwards, all before the
  challenge expired (`admin_login`).
-/

namespace Sreda.Services

open Sreda.Lib

/-! ### The table -/

/-- `ADMIN_CHALLENGE_STATUSES`. -/
inductive ChallengeStatus where
  | pending | confirmed | consumed
  deriving DecidableEq

/-- `AdminLoginChallenge`. -/
structure AdminLoginChallenge where
  challengeId : String
  browserBindHash : String
  humanCode : String
  status : ChallengeStatus
  buttonSendClaimedAt : Option ℤ
  tgId : Option String
  botKey : Option String
  chatId : Option String
  messageId : Option ℤ
  clientIp : Option String
  expiresAt : ℤ
  confirmedAt : Option ℤ
  consumedAt : Option ℤ
  createdAt : ℤ
  deriving DecidableEq

/-- The table `admin_login_challenges`. -/
abbrev Challenges := Keyed AdminLoginChallenge.challengeId

/-- A minute, in microseconds. -/
def minute : ℤ := 60000000

/-- `CHALLENGE_TTL_MINUTES`. -/
def challengeTtl : ℤ := 5 * minute

/-- `_RATE_MAX`. -/
def rateMax : ℕ := 8

/-- `_RATE_WINDOW_MINUTES`. -/
def rateWindow : ℤ := 10 * minute

/-! ### The calls -/

/-- `StartChallengeResult`. -/
structure StartChallengeResult where
  challengeId : String
  browserBindRaw : String
  humanCode : String
  deriving DecidableEq

/-- `start_challenge`, the rate limit: an address that is missing or empty has none. -/
def rateAdmits (C : Challenges) (clientIp : Option String) (now : ℤ) : Bool :=
  match clientIp with
  | none => true
  | some ip =>
    ip = "" || C.rows.countP (fun row => row.clientIp = some ip && decide (now - rateWindow ≤ row.createdAt)) < rateMax

section Calls

variable (hash : String → String) (C : Challenges)

/-- `start_challenge`, the row that it adds. -/
def newChallenge (clientIp : Option String) (now : ℤ) (result : StartChallengeResult) : AdminLoginChallenge where
  challengeId := result.challengeId
  browserBindHash := hash result.browserBindRaw
  humanCode := result.humanCode
  status := .pending
  buttonSendClaimedAt := none
  tgId := none
  botKey := none
  chatId := none
  messageId := none
  clientIp := clientIp
  expiresAt := now + challengeTtl
  confirmedAt := none
  consumedAt := none
  createdAt := now

/-- `attach_bot`. -/
def attachBot (challengeId tgId : String) (botKey chatId : Option String) (now : ℤ) :
    Challenges × Option AdminLoginChallenge :=
  C.updateReturning challengeId
    (fun row => row.status = .pending && row.buttonSendClaimedAt.isNone && decide (now < row.expiresAt))
    (fun row => { row with buttonSendClaimedAt := some now, tgId := some tgId, botKey := botKey, chatId := chatId })
    fun _ => rfl

/-- `record_confirm_message`. -/
def recordConfirmMessage (challengeId : String) (messageId : ℤ) : Challenges :=
  (C.updateReturning challengeId (fun row => row.status = .pending && row.messageId.isNone)
    (fun row => { row with messageId := some messageId }) fun _ => rfl).1

/-- `confirm`, the update. -/
def confirmUpdate (challengeId tgId : String) (now : ℤ) : Challenges × Option AdminLoginChallenge :=
  C.updateReturning challengeId
    (fun row => row.status = .pending && row.tgId = some tgId && decide (now < row.expiresAt))
    (fun row => { row with status := .confirmed, confirmedAt := some now }) fun _ => rfl

/-- What `confirm` returns when its update has changed nothing. -/
inductive Denial where
  | already | expiredOrDenied
  deriving DecidableEq

/-- `confirm`, after an update that has changed nothing. -/
def confirmDenial (challengeId tgId : String) : Denial :=
  match (C.get? challengeId).filter fun row => row.tgId = some tgId with
  | some row => if row.status = .pending then .expiredOrDenied else .already
  | none => .expiredOrDenied

/-- `get_status`; `unknown` is `none`. -/
def getStatus (challengeId browserBindRaw : String) : Option ChallengeStatus :=
  if challengeId = "" ∨ browserBindRaw = "" then none
  else ((C.get? challengeId).filter fun row => row.browserBindHash = hash browserBindRaw).map (·.status)

/-- The update of `claim`. -/
def claimUpdate (challengeId browserBindRaw : String) (now : ℤ) : Challenges × Option AdminLoginChallenge :=
  C.updateReturning challengeId
    (fun row => row.status = .confirmed && row.browserBindHash = hash browserBindRaw && decide (now < row.expiresAt))
    (fun row => { row with status := .consumed, consumedAt := some now }) fun _ => rfl

/-- `claim`. -/
def claim (challengeId browserBindRaw : String) (now : ℤ) : Challenges × Option String :=
  if browserBindRaw = "" then (C, none)
  else
    let (C', row) := claimUpdate hash C challengeId browserBindRaw now
    (C', row.bind fun row => row.tgId.filter fun tgId => tgId ≠ "")

/-! What the updates do. -/

theorem attachBot_cases (challengeId tgId : String) (botKey chatId : Option String) (now : ℤ) :
    (∃ row, C.get? challengeId = some row ∧ row.status = .pending ∧ row.buttonSendClaimedAt = none ∧
        now < row.expiresAt ∧ (attachBot C challengeId tgId botKey chatId now).2.isSome ∧
        ∀ k, (attachBot C challengeId tgId botKey chatId now).1.get? k =
          if k = challengeId then
            some { row with buttonSendClaimedAt := some now, tgId := some tgId, botKey := botKey, chatId := chatId }
          else C.get? k) ∨
      ((∀ row, C.get? challengeId = some row → row.status = .pending → row.buttonSendClaimedAt = none →
          row.expiresAt ≤ now) ∧ attachBot C challengeId tgId botKey chatId now = (C, none)) := by
  rcases C.updateReturning_cases challengeId
    (fun row => row.status = .pending && row.buttonSendClaimedAt.isNone && decide (now < row.expiresAt))
    (fun row => { row with buttonSendClaimedAt := some now, tgId := some tgId, botKey := botKey, chatId := chatId })
    fun _ => rfl with ⟨row, hrow, hguard, hsome, hset⟩ | ⟨hguard, hnone⟩
  · simp only [Bool.and_eq_true, decide_eq_true_eq, Option.isNone_iff_eq_none] at hguard
    exact .inl ⟨row, hrow, hguard.1.1, hguard.1.2, hguard.2, Option.isSome_of_eq_some hsome, hset⟩
  · refine .inr ⟨fun row hrow hstatus hclaimed => ?_, hnone⟩
    have hfalse := hguard row hrow
    simpa [hstatus, hclaimed] using hfalse

theorem recordConfirmMessage_cases (challengeId : String) (messageId : ℤ) :
    (∃ row, C.get? challengeId = some row ∧ ∀ k, (recordConfirmMessage C challengeId messageId).get? k =
        if k = challengeId then some { row with messageId := some messageId } else C.get? k) ∨
      recordConfirmMessage C challengeId messageId = C := by
  rcases C.updateReturning_cases challengeId (fun row => row.status = .pending && row.messageId.isNone)
    (fun row => { row with messageId := some messageId }) fun _ => rfl with ⟨row, hrow, -, -, hset⟩ | ⟨-, hnone⟩
  · exact .inl ⟨row, hrow, hset⟩
  · exact .inr (by rw [recordConfirmMessage, hnone])

theorem confirmUpdate_cases (challengeId tgId : String) (now : ℤ) :
    (∃ row, C.get? challengeId = some row ∧ row.status = .pending ∧ row.tgId = some tgId ∧ now < row.expiresAt ∧
        (confirmUpdate C challengeId tgId now).2.isSome ∧
        ∀ k, (confirmUpdate C challengeId tgId now).1.get? k =
          if k = challengeId then some { row with status := .confirmed, confirmedAt := some now } else C.get? k) ∨
      confirmUpdate C challengeId tgId now = (C, none) := by
  rcases C.updateReturning_cases challengeId
    (fun row => row.status = .pending && row.tgId = some tgId && decide (now < row.expiresAt))
    (fun row => { row with status := .confirmed, confirmedAt := some now })
    fun _ => rfl with ⟨row, hrow, hguard, hsome, hset⟩ | ⟨-, hnone⟩
  · simp only [Bool.and_eq_true, decide_eq_true_eq] at hguard
    exact .inl ⟨row, hrow, hguard.1.1, hguard.1.2, hguard.2, Option.isSome_of_eq_some hsome, hset⟩
  · exact .inr hnone

theorem claim_cases (challengeId browserBindRaw : String) (now : ℤ) :
    (∃ row, C.get? challengeId = some row ∧ row.status = .confirmed ∧ row.browserBindHash = hash browserBindRaw ∧
        now < row.expiresAt ∧
        (claim hash C challengeId browserBindRaw now).2 = row.tgId.filter (fun tgId => tgId ≠ "") ∧
        ∀ k, (claim hash C challengeId browserBindRaw now).1.get? k =
          if k = challengeId then some { row with status := .consumed, consumedAt := some now } else C.get? k) ∨
      claim hash C challengeId browserBindRaw now = (C, none) := by
  rw [claim]
  split
  · exact .inr rfl
  rcases C.updateReturning_cases challengeId
    (fun row => row.status = .confirmed && row.browserBindHash = hash browserBindRaw && decide (now < row.expiresAt))
    (fun row => { row with status := .consumed, consumedAt := some now })
    fun _ => rfl with ⟨row, hrow, hguard, hsome, hset⟩ | ⟨-, hnone⟩
  · simp only [Bool.and_eq_true, decide_eq_true_eq] at hguard
    refine .inl ⟨row, hrow, hguard.1.1, hguard.1.2, hguard.2, ?_, hset⟩
    simp only [claimUpdate, hsome, Option.bind_some]
  · exact .inr (by simp only [claimUpdate, hnone, Option.bind_none])

end Calls

/-! ### The system -/

/-- What happens. -/
inductive LoginEvent where
  /-- `start_challenge` counts the challenges of an address. -/
  | rateCheck (clientIp : Option String) (now : ℤ) (passed : Bool)
  /-- `start_challenge` inserts its row, unless the id is taken. -/
  | start (clientIp : Option String) (now : ℤ) (result : StartChallengeResult) (inserted : Bool)
  | attach (challengeId tgId : String) (botKey chatId : Option String) (now : ℤ) (row : Option AdminLoginChallenge)
  | record (challengeId : String) (messageId : ℤ)
  | confirm (challengeId tgId : String) (now : ℤ) (won : Bool)
  /-- `confirm` answers after an update that has changed nothing. -/
  | denial (challengeId tgId : String) (answer : Denial)
  | status (challengeId browserBindRaw : String) (answer : Option ChallengeStatus)
  | claim (challengeId browserBindRaw : String) (now : ℤ) (tgId : Option String)
  deriving DecidableEq

/-- The table and the calls under way. -/
structure LoginState where
  challenges : Challenges
  clock : ℤ
  /-- The starts that the rate limit has let through. -/
  starting : List (Option String × ℤ)
  /-- The confirmations that have changed nothing and have not answered. -/
  denied : List (String × String)

/-- The login. The webhook passes on the accounts of the allowlist, none of which is empty. -/
def adminLogin (hash : String → String) : Lts LoginState LoginEvent where
  init s := s.challenges.rows = [] ∧ s.starting = [] ∧ s.denied = []
  step s e t :=
    match e with
    | .rateCheck clientIp now passed =>
      s.clock ≤ now ∧ passed = rateAdmits s.challenges clientIp now ∧
        t = { s with clock := now, starting := if passed then (clientIp, now) :: s.starting else s.starting }
    | .start clientIp now result inserted =>
      (clientIp, now) ∈ s.starting ∧
        inserted = (s.challenges.insert? (newChallenge hash clientIp now result)).isSome ∧
        t = { s with
          challenges := (s.challenges.insert? (newChallenge hash clientIp now result)).getD s.challenges
          starting := s.starting.erase (clientIp, now) }
    | .attach challengeId tgId botKey chatId now row =>
      s.clock ≤ now ∧ tgId ≠ "" ∧ row = (attachBot s.challenges challengeId tgId botKey chatId now).2 ∧
        t = { s with clock := now, challenges := (attachBot s.challenges challengeId tgId botKey chatId now).1 }
    | .record challengeId messageId =>
      t = { s with challenges := recordConfirmMessage s.challenges challengeId messageId }
    | .confirm challengeId tgId now won =>
      s.clock ≤ now ∧ won = (confirmUpdate s.challenges challengeId tgId now).2.isSome ∧
        t = { s with
          clock := now
          challenges := (confirmUpdate s.challenges challengeId tgId now).1
          denied := if won then s.denied else (challengeId, tgId) :: s.denied }
    | .denial challengeId tgId answer =>
      (challengeId, tgId) ∈ s.denied ∧ answer = confirmDenial s.challenges challengeId tgId ∧
        t = { s with denied := s.denied.erase (challengeId, tgId) }
    | .status challengeId browserBindRaw answer => answer = getStatus hash s.challenges challengeId browserBindRaw ∧ t = s
    | .claim challengeId browserBindRaw now tgId =>
      s.clock ≤ now ∧ tgId = (claim hash s.challenges challengeId browserBindRaw now).2 ∧
        t = { s with clock := now, challenges := (claim hash s.challenges challengeId browserBindRaw now).1 }

namespace LoginEvent

/-- An account tries to attach itself to a challenge. -/
def Attaches (challengeId : String) : LoginEvent → Prop
  | attach cid .. => cid = challengeId
  | _ => False

/-- A claim returns an account for a challenge. -/
def Claims (challengeId : String) : LoginEvent → Prop
  | claim cid _ _ tgId => cid = challengeId ∧ tgId.isSome
  | _ => False

/-- The call has not done what it is for. -/
def failed : LoginEvent → Bool
  | rateCheck _ _ passed => !passed
  | start _ _ _ inserted => !inserted
  | attach _ _ _ _ _ row => row.isNone
  | record .. => false
  | confirm _ _ _ won => !won
  | denial .. => true
  | status _ _ answer => answer.isNone
  | claim _ _ _ tgId => tgId.isNone

/-- The secret that a call gives out or is called with. -/
def secret : LoginEvent → Option String
  | start _ _ result _ => some result.browserBindRaw
  | status _ raw _ | claim _ raw _ _ => some raw
  | _ => none

end LoginEvent

/-! ### What a claim rests on -/

/-- A challenge is started in `as`, and `since` is what comes after. -/
def StartedBefore (as since : List LoginEvent) (started : ℤ) (result : StartChallengeResult) : Prop :=
  ∃ before clientIp, as = before ++ .start clientIp started result true :: since

/-- An account attaches itself to a challenge in `as` before it expires, and nobody has tried to before;
`since` is what comes after. -/
def AttachedBefore (as since : List LoginEvent) (challengeId tgId : String) (expiresAt : ℤ) : Prop :=
  ∃ before botKey chatId now row, as = before ++ .attach challengeId tgId botKey chatId now (some row) :: since ∧
    (∀ e ∈ before, ¬ e.Attaches challengeId) ∧ now < expiresAt

/-- An account confirms a challenge in `as` before it expires. -/
def ConfirmedBefore (as : List LoginEvent) (challengeId tgId : String) (expiresAt : ℤ) : Prop :=
  ∃ now, .confirm challengeId tgId now true ∈ as ∧ now < expiresAt

/-- The events before a claim that returns an account: no such claim of the challenge, but its start,
where the secret was given out, the account's attachment, the first one, and the account's confirmation. -/
def Justified (before : List LoginEvent) : LoginEvent → Prop
  | .claim challengeId browserBindRaw now (some tgId) =>
    (∀ e ∈ before, ¬ e.Claims challengeId) ∧
      ∃ started result since rest, StartedBefore before since started result ∧
        result.challengeId = challengeId ∧ result.browserBindRaw = browserBindRaw ∧
        AttachedBefore since rest challengeId tgId (started + challengeTtl) ∧
        ConfirmedBefore rest challengeId tgId (started + challengeTtl) ∧ now < started + challengeTtl
  | _ => True

/-- No two secrets of the calls have one hash. -/
def NoCollision (hash : String → String) (as : List LoginEvent) : Prop :=
  ∀ x ∈ as.filterMap (·.secret), ∀ y ∈ as.filterMap (·.secret), hash x = hash y → x = y

/-- What the login guarantees of a run. -/
structure LoginGuarantees (hash : String → String) (as : List LoginEvent) (s : LoginState) : Prop where
  /-- Each claim that returns an account is justified by the calls before it. -/
  claims : Causal Justified as
  /-- A call that fails changes no row. -/
  failures : ∀ e t, (adminLogin hash).step s e t → e.failed = true → t.challenges = s.challenges

section Invariant

variable {hash : String → String} {as since rest : List LoginEvent} {s t : LoginState} {e : LoginEvent}
  {row row' : AdminLoginChallenge} {clock clock' : ℤ}

theorem StartedBefore.snoc {started : ℤ} {result : StartChallengeResult} (h : StartedBefore as since started result) :
    StartedBefore (as ++ [e]) (since ++ [e]) started result := by
  obtain ⟨before, clientIp, rfl⟩ := h
  exact ⟨before, clientIp, by simp⟩

theorem AttachedBefore.snoc {challengeId tgId : String} {expiresAt : ℤ}
    (h : AttachedBefore as since challengeId tgId expiresAt) :
    AttachedBefore (as ++ [e]) (since ++ [e]) challengeId tgId expiresAt := by
  obtain ⟨before, botKey, chatId, now, row, rfl, hfirst, hnow⟩ := h
  exact ⟨before, botKey, chatId, now, row, by simp, hfirst, hnow⟩

theorem ConfirmedBefore.snoc {challengeId tgId : String} {expiresAt : ℤ}
    (h : ConfirmedBefore as challengeId tgId expiresAt) : ConfirmedBefore (as ++ [e]) challengeId tgId expiresAt := by
  obtain ⟨now, hmem, hnow⟩ := h
  exact ⟨now, List.mem_append_left _ hmem, hnow⟩

/-- What has happened to a row since its challenge was started. -/
inductive Stage (since : List LoginEvent) (clock : ℤ) (row : AdminLoginChallenge) : Prop where
  /-- Nobody has attached; as long as the challenge lives, nobody has tried to. -/
  | fresh : row.status = .pending → row.buttonSendClaimedAt = none → row.tgId = none →
      ((∃ e ∈ since, e.Attaches row.challengeId) → row.expiresAt ≤ clock) → Stage since clock row
  /-- The first account has attached. -/
  | attached (tgId : String) (rest : List LoginEvent) : row.status = .pending → row.buttonSendClaimedAt.isSome →
      row.tgId = some tgId → tgId ≠ "" → AttachedBefore since rest row.challengeId tgId row.expiresAt →
      Stage since clock row
  /-- It has confirmed, too. -/
  | confirmed (tgId : String) (rest : List LoginEvent) : row.status ≠ .pending → row.tgId = some tgId → tgId ≠ "" →
      AttachedBefore since rest row.challengeId tgId row.expiresAt →
      ConfirmedBefore rest row.challengeId tgId row.expiresAt → Stage since clock row

/-- An event that leaves a row; an account that tries to attach itself to a fresh one is too late. -/
theorem Stage.snoc (h : Stage since clock row) (hclock : clock ≤ clock')
    (hlate : e.Attaches row.challengeId → row.status = .pending → row.buttonSendClaimedAt = none → row.expiresAt ≤ clock') :
    Stage (since ++ [e]) clock' row := by
  cases h with
  | fresh hstatus hclaimed htg hnone =>
    refine .fresh hstatus hclaimed htg ?_
    rintro ⟨x, hx, hattaches⟩
    rcases List.mem_append.mp hx with hx | hx
    · exact (hnone ⟨x, hx, hattaches⟩).trans hclock
    · obtain rfl := List.mem_singleton.mp hx
      exact hlate hattaches hstatus hclaimed
  | attached tgId rest hstatus hclaimed htg hne hattached =>
    exact .attached tgId _ hstatus hclaimed htg hne hattached.snoc
  | confirmed tgId rest hstatus htg hne hattached hconfirmed =>
    exact .confirmed tgId _ hstatus htg hne hattached.snoc hconfirmed.snoc

/-- What has led to a row: the start of its challenge, and its stage. -/
def RowStory (hash : String → String) (as : List LoginEvent) (clock : ℤ) (row : AdminLoginChallenge) : Prop :=
  ∃ started result since, StartedBefore as since started result ∧ row.challengeId = result.challengeId ∧
    row.browserBindHash = hash result.browserBindRaw ∧ row.expiresAt = started + challengeTtl ∧ Stage since clock row

/-- An event after which the row is at another stage. -/
theorem RowStory.next (h : RowStory hash as clock row) (hid : row'.challengeId = row.challengeId)
    (hhash : row'.browserBindHash = row.browserBindHash) (hexpires : row'.expiresAt = row.expiresAt)
    (hstage : ∀ since, Stage since clock row → Stage (since ++ [e]) clock' row') : RowStory hash (as ++ [e]) clock' row' := by
  obtain ⟨started, result, since, hstarted, hid', hhash', hexpires', hrow⟩ := h
  exact ⟨started, result, _, hstarted.snoc, hid.trans hid', hhash.trans hhash', hexpires.trans hexpires', hstage _ hrow⟩

/-- Each row has a story, and a challenge that was claimed is consumed. -/
structure LoginInv (hash : String → String) (as : List LoginEvent) (s : LoginState) : Prop where
  story : ∀ challengeId row, s.challenges.get? challengeId = some row → RowStory hash as s.clock row
  claimed : ∀ challengeId, (∃ e ∈ as, e.Claims challengeId) →
    ∃ row, s.challenges.get? challengeId = some row ∧ row.status = .consumed

theorem LoginInv.keep (h : LoginInv hash as s) (hsame : t.challenges = s.challenges) (hclock : s.clock ≤ t.clock)
    (hclaims : ∀ challengeId, ¬ e.Claims challengeId)
    (hlate : ∀ row, e.Attaches row.challengeId → s.challenges.get? row.challengeId = some row → row.status = .pending →
      row.buttonSendClaimedAt = none → row.expiresAt ≤ t.clock) : LoginInv hash (as ++ [e]) t := by
  refine ⟨fun challengeId row hrow => ?_, ?_⟩
  · rw [hsame] at hrow
    obtain rfl := (Keyed.get?_eq_some.mp hrow).2
    exact (h.story _ row hrow).next rfl rfl rfl fun since hstage =>
      hstage.snoc hclock fun hattaches => hlate row hattaches hrow
  · rintro challengeId ⟨x, hx, hclaim⟩
    rw [hsame]
    rcases List.mem_append.mp hx with hx | hx
    · exact h.claimed challengeId ⟨x, hx, hclaim⟩
    · obtain rfl := List.mem_singleton.mp hx
      exact absurd hclaim (hclaims challengeId)

/-- A step that changes the row of one challenge. -/
theorem LoginInv.change (h : LoginInv hash as s) {challengeId : String} (hclock : s.clock ≤ t.clock)
    (hrow : s.challenges.get? challengeId = some row)
    (hset : ∀ k, t.challenges.get? k = if k = challengeId then some row' else s.challenges.get? k)
    (hstory : RowStory hash as s.clock row → RowStory hash (as ++ [e]) t.clock row')
    (hconsumed : row.status = .consumed → row'.status = .consumed)
    (hattaches : ∀ k, e.Attaches k → k = challengeId)
    (hclaims : ∀ k, e.Claims k → k = challengeId ∧ row'.status = .consumed) : LoginInv hash (as ++ [e]) t := by
  refine ⟨fun k other hother => ?_, ?_⟩
  · rw [hset] at hother
    split at hother
    · rw [← Option.some.inj hother]
      exact hstory (h.story _ row hrow)
    next hk =>
      obtain rfl := (Keyed.get?_eq_some.mp hother).2
      exact (h.story _ other hother).next rfl rfl rfl fun since hstage =>
        hstage.snoc hclock fun hattach => absurd (hattaches _ hattach) hk
  · rintro k ⟨x, hx, hclaim⟩
    rw [hset]
    rcases List.mem_append.mp hx with hx | hx
    · obtain ⟨other, hother, hstatus⟩ := h.claimed k ⟨x, hx, hclaim⟩
      split
      next hk =>
        rw [hk, hrow] at hother
        exact ⟨row', rfl, hconsumed (by rw [Option.some.inj hother, hstatus])⟩
      · exact ⟨other, hother, hstatus⟩
    · obtain rfl := List.mem_singleton.mp hx
      obtain ⟨rfl, hstatus⟩ := hclaims k hclaim
      exact ⟨row', by simp, hstatus⟩

theorem LoginInv.start (h : LoginInv hash as s) {C' : Challenges} {clientIp : Option String} {now : ℤ}
    {result : StartChallengeResult} (hinsert : s.challenges.insert? (newChallenge hash clientIp now result) = some C')
    (ht : t.challenges = C') (hclock : t.clock = s.clock) : LoginInv hash (as ++ [.start clientIp now result true]) t := by
  refine ⟨fun challengeId row hrow => ?_, ?_⟩
  · rw [ht] at hrow
    rw [hclock]
    by_cases hid : challengeId = result.challengeId
    · have hnew : C'.get? challengeId = some (newChallenge hash clientIp now result) :=
        Keyed.get?_eq_some.mpr ⟨by simp [Keyed.rows_insert? hinsert], hid.symm⟩
      obtain rfl := Option.some.inj (hnew.symm.trans hrow)
      exact ⟨now, result, [], ⟨as, clientIp, rfl⟩, rfl, rfl, rfl, .fresh rfl rfl rfl (by simp)⟩
    · rw [Keyed.get?_insert?_ne hinsert hid] at hrow
      exact (h.story _ row hrow).next rfl rfl rfl fun since hstage => hstage.snoc (Int.le_refl _) fun hf => hf.elim
  · rintro challengeId ⟨x, hx, hclaim⟩
    rcases List.mem_append.mp hx with hx | hx
    · obtain ⟨row, hrow, hstatus⟩ := h.claimed challengeId ⟨x, hx, hclaim⟩
      exact ⟨row, by rw [ht, Keyed.get?_insert? hinsert hrow], hstatus⟩
    · obtain rfl := List.mem_singleton.mp hx
      exact hclaim.elim

/-- **One statement** keeps the stories of the rows. -/
theorem loginInv_step (h : LoginInv hash as s) (hs : (adminLogin hash).step s e t) : LoginInv hash (as ++ [e]) t := by
  cases e with
  | rateCheck clientIp now passed =>
    obtain ⟨hclock, -, rfl⟩ := hs
    exact h.keep rfl hclock (fun _ hf => hf.elim) fun _ hf => hf.elim
  | start clientIp now result inserted =>
    obtain ⟨-, rfl, rfl⟩ := hs
    cases hinsert : s.challenges.insert? (newChallenge hash clientIp now result) with
    | none => exact h.keep rfl (Int.le_refl _) (fun _ hf => hf.elim) fun _ hf => hf.elim
    | some C' => exact h.start hinsert rfl rfl
  | attach challengeId tgId botKey chatId now row =>
    obtain ⟨hclock, htg, rfl, rfl⟩ := hs
    rcases attachBot_cases s.challenges challengeId tgId botKey chatId now with
      ⟨row, hrow, hstatus, hclaimed, hnow, hsome, hset⟩ | ⟨hlate, hsame⟩
    · refine h.change hclock hrow hset (fun hstory => hstory.next rfl rfl rfl fun since hstage => ?_)
        (fun hconsumed => hconsumed) (fun _ => Eq.symm) fun _ hf => hf.elim
      -- nobody has tried before, for the challenge is alive
      obtain ⟨out, hout⟩ := Option.isSome_iff_exists.mp hsome
      obtain rfl := (Keyed.get?_eq_some.mp hrow).2
      refine .attached tgId [] hstatus rfl rfl htg ⟨since, botKey, chatId, now, out, by rw [hout], ?_, hnow⟩
      cases hstage with
      | fresh _ _ _ hnone =>
        intro x hx hattaches
        have hexpired := hnone ⟨x, hx, hattaches⟩
        omega
      | attached _ _ _ hsent => simp [hclaimed] at hsent
      | confirmed _ _ hne => exact absurd hstatus hne
    · refine h.keep (by rw [hsame]) hclock (fun _ hf => hf.elim) fun row hattaches hrow hstatus hclaimed => ?_
      obtain rfl : challengeId = row.challengeId := hattaches
      exact hlate row hrow hstatus hclaimed
  | record challengeId messageId =>
    obtain rfl := hs
    rcases recordConfirmMessage_cases s.challenges challengeId messageId with ⟨row, hrow, hset⟩ | hsame
    · refine h.change (Int.le_refl _) hrow hset (fun hstory => hstory.next rfl rfl rfl fun since hstage => ?_)
        (fun hconsumed => hconsumed) (fun _ hf => hf.elim) fun _ hf => hf.elim
      cases hstage.snoc (e := .record challengeId messageId) (Int.le_refl _) fun hf => hf.elim with
      | fresh hstatus hclaimed htg hnone => exact .fresh hstatus hclaimed htg hnone
      | attached tgId rest hstatus hclaimed htg hne hattached => exact .attached tgId rest hstatus hclaimed htg hne hattached
      | confirmed tgId rest hstatus htg hne hattached hconfirmed =>
        exact .confirmed tgId rest hstatus htg hne hattached hconfirmed
    · exact h.keep hsame (Int.le_refl _) (fun _ hf => hf.elim) fun _ hf => hf.elim
  | confirm challengeId tgId now won =>
    obtain ⟨hclock, rfl, rfl⟩ := hs
    rcases confirmUpdate_cases s.challenges challengeId tgId now with ⟨row, hrow, hstatus, htg, hnow, hsome, hset⟩ | hsame
    · refine h.change hclock hrow hset (fun hstory => hstory.next rfl rfl rfl fun since hstage => ?_)
        (fun hconsumed => absurd (hstatus.symm.trans hconsumed) (by decide)) (fun _ hf => hf.elim) fun _ hf => hf.elim
      obtain rfl := (Keyed.get?_eq_some.mp hrow).2
      cases hstage with
      | fresh _ _ hnone => simp [hnone] at htg
      | attached tgId' rest _ _ htg' hne hattached =>
        obtain rfl : tgId' = tgId := Option.some.inj (htg'.symm.trans htg)
        exact .confirmed tgId' _ (by simp) htg' hne hattached.snoc ⟨now, by simp [hsome], hnow⟩
      | confirmed _ _ hne => exact absurd hstatus hne
    · exact h.keep (by rw [hsame]) hclock (fun _ hf => hf.elim) fun _ hf => hf.elim
  | denial challengeId tgId answer =>
    obtain ⟨-, -, rfl⟩ := hs
    exact h.keep rfl (Int.le_refl _) (fun _ hf => hf.elim) fun _ hf => hf.elim
  | status challengeId browserBindRaw answer =>
    obtain ⟨-, rfl⟩ := hs
    exact h.keep rfl (Int.le_refl _) (fun _ hf => hf.elim) fun _ hf => hf.elim
  | claim challengeId browserBindRaw now tgId =>
    obtain ⟨hclock, rfl, rfl⟩ := hs
    rcases claim_cases hash s.challenges challengeId browserBindRaw now with ⟨row, hrow, hstatus, -, -, -, hset⟩ | hsame
    · refine h.change hclock hrow hset (fun hstory => hstory.next rfl rfl rfl fun since hstage => ?_)
        (fun _ => rfl) (fun _ hf => hf.elim) fun _ hclaims => ⟨hclaims.1.symm, rfl⟩
      cases hstage.snoc (e := .claim challengeId browserBindRaw now _) hclock fun hf => hf.elim with
      | fresh hpending => exact absurd (hstatus.symm.trans hpending) (by decide)
      | attached _ _ hpending => exact absurd (hstatus.symm.trans hpending) (by decide)
      | confirmed tgId rest _ htg hne hattached hconfirmed =>
        exact .confirmed tgId rest (by simp) htg hne hattached hconfirmed
    · refine h.keep (by rw [hsame]) hclock (fun _ hclaims => ?_) fun _ hf => hf.elim
      have hsome := hclaims.2
      rw [hsame] at hsome
      cases hsome

theorem loginInv_hist (h : (adminLogin hash).Hist as s) : LoginInv hash as s := by
  refine h.induct (P := LoginInv hash) ?_ fun _ _ _ _ _ hinv hs => loginInv_step hinv hs
  rintro s ⟨hrows, -⟩
  refine ⟨fun challengeId row hrow => ?_, fun challengeId hclaimed => ?_⟩
  · have hmem := (Keyed.get?_eq_some.mp hrow).1
    rw [hrows] at hmem
    cases hmem
  · obtain ⟨x, hx, -⟩ := hclaimed
    cases hx

theorem RowStory.confirmed (h : RowStory hash as clock row) (hstatus : row.status = .confirmed) :
    ∃ tgId, row.tgId = some tgId ∧ tgId ≠ "" ∧
      ∃ started result since rest, StartedBefore as since started result ∧ row.challengeId = result.challengeId ∧
        row.browserBindHash = hash result.browserBindRaw ∧ row.expiresAt = started + challengeTtl ∧
        AttachedBefore since rest row.challengeId tgId row.expiresAt ∧
        ConfirmedBefore rest row.challengeId tgId row.expiresAt := by
  obtain ⟨started, result, since, hstarted, hid, hhash, hexpires, hstage⟩ := h
  cases hstage with
  | fresh hpending => exact absurd (hstatus.symm.trans hpending) (by decide)
  | attached _ _ hpending => exact absurd (hstatus.symm.trans hpending) (by decide)
  | confirmed tgId rest _ htg hne hattached hconfirmed =>
    exact ⟨tgId, htg, hne, started, result, since, rest, hstarted, hid, hhash, hexpires, hattached, hconfirmed⟩

/-- **A call that fails changes no row.** -/
theorem failed_unchanged (h : LoginInv hash as s) (hs : (adminLogin hash).step s e t) (hfailed : e.failed = true) :
    t.challenges = s.challenges := by
  cases e with
  | rateCheck clientIp now passed =>
    obtain ⟨-, -, rfl⟩ := hs
    rfl
  | start clientIp now result inserted =>
    obtain ⟨-, rfl, rfl⟩ := hs
    cases hinsert : s.challenges.insert? (newChallenge hash clientIp now result) with
    | none => rfl
    | some C' => simp [LoginEvent.failed, hinsert] at hfailed
  | attach challengeId tgId botKey chatId now row =>
    obtain ⟨-, -, rfl, rfl⟩ := hs
    rcases attachBot_cases s.challenges challengeId tgId botKey chatId now with ⟨_, _, _, _, _, hsome, _⟩ | ⟨-, hsame⟩
    · obtain ⟨row, hrow⟩ := Option.isSome_iff_exists.mp hsome
      simp [LoginEvent.failed, hrow] at hfailed
    · rw [hsame]
  | record challengeId messageId => cases hfailed
  | confirm challengeId tgId now won =>
    obtain ⟨-, rfl, rfl⟩ := hs
    rcases confirmUpdate_cases s.challenges challengeId tgId now with ⟨_, _, _, _, _, hsome, _⟩ | hsame
    · simp [LoginEvent.failed, hsome] at hfailed
    · rw [hsame]
  | denial challengeId tgId answer =>
    obtain ⟨-, -, rfl⟩ := hs
    rfl
  | status challengeId browserBindRaw answer =>
    obtain ⟨-, rfl⟩ := hs
    rfl
  | claim challengeId browserBindRaw now tgId =>
    obtain ⟨-, rfl, rfl⟩ := hs
    rcases claim_cases hash s.challenges challengeId browserBindRaw now with
      ⟨row, hrow, hstatus, -, -, hout, -⟩ | hsame
    · -- a row that is consumed has an account to return
      obtain ⟨tgId, htg, hne, -⟩ := (h.story _ row hrow).confirmed hstatus
      simp [LoginEvent.failed, hout, htg, hne] at hfailed
    · rw [hsame]

/-- **A claim that returns an account** is justified. -/
theorem claim_justified (h : LoginInv hash as s) (hs : (adminLogin hash).step s e t)
    (hinj : NoCollision hash (as ++ [e])) : Justified as e := by
  cases e with
  | claim challengeId browserBindRaw now tgId =>
    obtain ⟨-, rfl, -⟩ := hs
    rcases claim_cases hash s.challenges challengeId browserBindRaw now with
      ⟨row, hrow, hstatus, hhash, hnow, hout, -⟩ | hsame
    · obtain ⟨tgId, htg, hne, started, result, since, rest, hstarted, hid, hhash', hexpires, hattached, hconfirmed⟩ :=
        (h.story _ row hrow).confirmed hstatus
      have hsome : (claim hash s.challenges challengeId browserBindRaw now).2 = some tgId := by
        simp [hout, htg, hne]
      obtain rfl := (Keyed.get?_eq_some.mp hrow).2
      have hraw : result.browserBindRaw = browserBindRaw := by
        refine hinj _ ?_ _ ?_ (hhash'.symm.trans hhash)
        · obtain ⟨before, clientIp, rfl⟩ := hstarted
          simp [LoginEvent.secret]
        · simp [LoginEvent.secret]
      rw [hexpires] at hattached hconfirmed hnow
      rw [hsome]
      refine ⟨fun x hx hclaim => ?_, started, result, since, rest, hstarted, hid.symm, hraw, hattached, hconfirmed, hnow⟩
      -- a challenge that was claimed is not confirmed any more
      obtain ⟨other, hother, hconsumed⟩ := h.claimed _ ⟨x, hx, hclaim⟩
      rw [hrow] at hother
      rw [← Option.some.inj hother, hstatus] at hconsumed
      cases hconsumed
    · rw [hsame]
      trivial
  | _ => trivial

theorem NoCollision.before (h : NoCollision hash (as ++ [e])) : NoCollision hash as := by
  have hmem : ∀ x ∈ as.filterMap (·.secret), x ∈ (as ++ [e]).filterMap (·.secret) := by
    intro x hx
    rw [List.filterMap_append]
    exact List.mem_append_left _ hx
  exact fun x hx y hy => h x (hmem x hx) y (hmem y hy)

theorem claims_justified (h : (adminLogin hash).Hist as s) (hinj : NoCollision hash as) : Causal Justified as := by
  refine h.induct (P := fun as _ => NoCollision hash as → Causal Justified as) (fun _ _ _ => .nil) ?_ hinj
  intro as s e t has ih hs hinj
  exact (ih hinj.before).snoc (claim_justified (loginInv_hist has) hs hinj)

end Invariant

/-- **The admin login**: a claim returns an account for a challenge at most once, to the holder of its
secret; the account is the first that attached itself to the challenge, it has confirmed it afterwards, and
all that happened before the challenge expired. A call that fails changes no row. -/
theorem admin_login (hash : String → String) (as : List LoginEvent) (s : LoginState)
    (h : (adminLogin hash).Hist as s) (hinj : NoCollision hash as) : LoginGuarantees hash as s :=
  ⟨claims_justified h hinj, fun _ _ hs hfailed => failed_unchanged (loginInv_hist h) hs hfailed⟩

/-! ### A login -/

/-- A secret, as `secrets.token_urlsafe` gives it out. -/
def bindSecret : String := "q8Zt3mW0xkR5vY7bN1cJ4hLpS9dF2gAeTuKiXoVjQwE"

/-- SHA-256 of the secret. -/
def sha256OfSecret (raw : String) : String :=
  if raw = bindSecret then "ac8d87d9ddaf511b5e208cd5eb202320cd7488499051106a2bc55ae5706a5e77" else raw

def loginStart : StartChallengeResult := ⟨"c1", bindSecret, "K7QM"⟩

/-- An account attaches itself to a challenge, confirms it and the browser claims it. -/
def loginEvents : List LoginEvent :=
  [.rateCheck (some "10.0.0.1") 0 true, .start (some "10.0.0.1") 0 loginStart true,
    .attach "c1" "42" (some "sreda") (some "42") minute
      (some { newChallenge sha256OfSecret (some "10.0.0.1") 0 loginStart with
        buttonSendClaimedAt := some minute, tgId := some "42", botKey := some "sreda", chatId := some "42" }),
    .record "c1" 7, .confirm "c1" "42" (2 * minute) true, .claim "c1" bindSecret (3 * minute) (some "42")]

theorem loginEvents_run : ∃ s, (adminLogin sha256OfSecret).Hist loginEvents s := by
  have h₀ : (adminLogin sha256OfSecret).Hist [] ⟨.empty, 0, [], []⟩ := .init ⟨rfl, rfl, rfl⟩
  have h₁ := h₀.snoc (a := LoginEvent.rateCheck (some "10.0.0.1") 0 true) ⟨by decide, by decide +kernel, rfl⟩
  have h₂ := h₁.snoc (a := LoginEvent.start (some "10.0.0.1") 0 loginStart true) ⟨by simp, by decide +kernel, rfl⟩
  have h₃ := h₂.snoc (a := LoginEvent.attach "c1" "42" (some "sreda") (some "42") minute
      (some { newChallenge sha256OfSecret (some "10.0.0.1") 0 loginStart with
        buttonSendClaimedAt := some minute, tgId := some "42", botKey := some "sreda", chatId := some "42" }))
    ⟨by decide, by decide, by decide +kernel, rfl⟩
  have h₄ := h₃.snoc (a := LoginEvent.record "c1" 7) rfl
  have h₅ := h₄.snoc (a := LoginEvent.confirm "c1" "42" (2 * minute) true) ⟨by decide, by decide +kernel, rfl⟩
  exact ⟨_, h₅.snoc ⟨by decide, by decide +kernel, rfl⟩⟩

theorem admin_login_claimed : ∃ s, LoginGuarantees sha256OfSecret loginEvents s := by
  obtain ⟨s, hs⟩ := loginEvents_run
  refine ⟨s, admin_login sha256OfSecret loginEvents s hs fun x hx y hy _ => ?_⟩
  simp only [loginEvents, loginStart, LoginEvent.secret, List.filterMap_cons, List.filterMap_nil, List.mem_cons,
    List.not_mem_nil, or_false, or_self] at hx hy
  rw [hx, hy]

end Sreda.Services
