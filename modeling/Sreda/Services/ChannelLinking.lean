import Mathlib.Algebra.Order.Ring.Int
import Mathlib.Logic.Function.Basic
import Sreda.Lib.Keyed
import Sreda.Lib.PyText
import Sreda.Lib.Transition

/-!
# Linking of channels

`services/channel_linking.py`, `consume_link`: a token is burned, its source user gets an account of the other
channel. Calls run at the same time, each in a transaction of its own: a statement sees what is committed, the row
locks of `UPDATE` and of `FOR UPDATE` are kept to the end, and what a call has written is seen by nobody before its
commit. The steps of a call are its statements, with what the code decides between them.

`users.tg_account_hash` is unique, and a listener of `db/models/core.py` fills it in. `users.max_account_id` is not.
The status of a tenant is in another table: any answer. The digests of tokens and accounts are any functions. The
row that goes to the audit log is left out.

## What is proved

* what a step does (`linkStep_move`), and what holds of locks and of burned tokens (`LinkInv`);
* a token leads to one success at most, a call that fails changes nothing, and no two users come to share an
  account as long as two calls for one MAX account do not both pass the search for a collision
  (`consume_link`); when they do, they share it (`max_shared`).
-/

namespace Sreda.Services

open Sreda.Lib

/-! ### The tables -/

/-- `User`: what a link reads and writes. -/
structure LinkedUser where
  id : String
  tenantId : String
  telegramAccountId : Option String
  tgAccountHash : Option String
  maxAccountId : Option String
  maxChatId : Option String
  deriving DecidableEq

/-- `ChannelLinkToken`. -/
structure ChannelLinkToken where
  tokenHash : String
  tenantId : String
  sourceChannel : String
  targetChannel : String
  sourceUserId : Option String
  expiresAt : ℤ
  usedAt : Option ℤ
  deriving DecidableEq

/-- The errors of a `ConsumeOutcome`. -/
inductive LinkError where
  | notFoundOrExpired | missingChatId | sourceUserNotFound | alreadyLinkedOtherAccount
  | accountAlreadyRegisteredSeparately | accountBelongsToOtherFamilyMember | tenantDeleted
  deriving DecidableEq

/-- `ConsumeOutcome`. -/
structure ConsumeOutcome where
  success : Bool
  error : Option LinkError := none
  tenantId : Option String := none
  sourceChannel : Option String := none
  targetChannel : Option String := none
  idempotent : Bool := false
  deriving DecidableEq

/-- What a call raises. -/
inductive LinkException where
  | valueError | multipleResultsFound | integrityError
  /-- The connection is lost, or another failure of the database. -/
  | databaseError
  deriving DecidableEq

/-- The arguments of `consume_link`. -/
structure LinkArgs where
  rawToken : String
  targetChannel : String
  targetAccountId : String
  targetChatId : Option String
  deriving DecidableEq

/-- What a call is about to write into its source user. -/
inductive UserWrite where
  | nothing
  | chat (chatId : String)
  | max (account chatId : String)
  | telegram (account : String)
  deriving DecidableEq

/-- Where a call stands. From `burned` to `flushed` its transaction has written. -/
inductive LinkPhase where
  | idle
  | started (now : ℤ)
  | checked (now : ℤ)
  | burned (now : ℤ) (token : ChannelLinkToken)
  | locked (now : ℤ) (token : ChannelLinkToken) (user : LinkedUser)
  | cleared (now : ℤ) (token : ChannelLinkToken) (user : LinkedUser) (write : UserWrite)
  | flushed (now : ℤ) (token : ChannelLinkToken) (user : LinkedUser) (write : UserWrite)
  | done (outcome : Except LinkException ConsumeOutcome)

namespace LinkPhase

/-- The row that the `UPDATE` has locked, as it was. -/
def token? : LinkPhase → Option ChannelLinkToken
  | burned _ token | locked _ token _ | cleared _ token _ _ | flushed _ token _ _ => some token
  | _ => none

/-- The row that `FOR UPDATE` has locked. -/
def user? : LinkPhase → Option LinkedUser
  | locked _ _ user | cleared _ _ user _ | flushed _ _ user _ => some user
  | _ => none

/-- The locks. -/
def tokenKey? (p : LinkPhase) : Option String := p.token?.map (·.tokenHash)

def userKey? (p : LinkPhase) : Option String := p.user?.map (·.id)

/-- The MAX account that a call is about to write: it has found no collision. -/
def pendingMax : LinkPhase → Option String
  | cleared _ _ _ (.max account _) | flushed _ _ _ (.max account _) => some account
  | _ => none

/-- The call is over, with success. -/
def Succeeded : LinkPhase → Prop
  | done (.ok outcome) => outcome.success = true
  | _ => False

/-- No statement of the call has written. -/
def Quiet : LinkPhase → Prop
  | idle | started _ | checked _ => True
  | done (.ok outcome) => outcome.success = false
  | done (.error _) => True
  | _ => False

def failed (error : LinkError) : LinkPhase := done (.ok { success := false, error })

/-- The call runs. -/
def Running : LinkPhase → Prop
  | idle | done _ => False
  | _ => True

end LinkPhase

/-- What is committed, and where the calls stand. -/
structure LinkState where
  users : Keyed LinkedUser.id
  tokens : Keyed ChannelLinkToken.tokenHash
  phase : ℕ → LinkPhase

/-- A call goes on, and commits nothing. -/
def LinkState.set (s : LinkState) (i : ℕ) (p : LinkPhase) : LinkState := { s with phase := Function.update s.phase i p }

/-! ### The call -/

/-- `TOKEN_PATTERN.fullmatch`. -/
def validTokenFormat (rawToken : String) : Bool :=
  32 ≤ rawToken.toList.length && rawToken.toList.length ≤ 128 &&
    rawToken.toList.all fun c =>
      ('A' ≤ c && c ≤ 'Z') || ('a' ≤ c && c ≤ 'z') || ('0' ≤ c && c ≤ '9') || c = '_' || c = '-'

/-- An account of white space, which the listener does not hash. -/
def BlankAccount (account : String) : Prop := PyText.strip account.toList = []

instance (account : String) : Decidable (BlankAccount account) := inferInstanceAs (Decidable (_ = _))

/-- The `WHERE` of the `UPDATE`. -/
def burnable (args : LinkArgs) (now : ℤ) (token : ChannelLinkToken) : Bool :=
  token.usedAt.isNone && now < token.expiresAt && token.targetChannel = args.targetChannel && token.sourceUserId.isSome

/-- `not target_chat_id`, for MAX. -/
def missingChat (args : LinkArgs) : Bool := args.targetChannel = "max" && (args.targetChatId.filter (· ≠ "")).isNone

section Call

variable (hashToken hashTgAccount : String → String)

/-- `_user_telegram_account_id_set`. -/
def accountHash : Option String → Option String
  | none => none
  | some account => if BlankAccount account then none else some (hashTgAccount account)

/-- The columns that a call writes. -/
def UserWrite.apply (write : UserWrite) (user : LinkedUser) : LinkedUser :=
  match write with
  | .nothing => user
  | .chat chatId => { user with maxChatId := some chatId }
  | .max account chatId => { user with maxAccountId := some account, maxChatId := some chatId }
  | .telegram account =>
    { user with telegramAccountId := some account, tgAccountHash := accountHash hashTgAccount (some account) }

/-- The entry of the unique index that a call writes. -/
def UserWrite.newHash : UserWrite → Option String
  | .telegram account => accountHash hashTgAccount (some account)
  | _ => none

/-- The same, of a call that has flushed. -/
def LinkPhase.flushedHash : LinkPhase → Option String
  | .flushed _ _ _ write => write.newHash hashTgAccount
  | _ => none

/-- The search for another user with the account, `scalar_one_or_none`, and what comes of it. -/
def searchOther (users : Keyed LinkedUser.id) (collision : LinkedUser → Bool) (now : ℤ) (token : ChannelLinkToken)
    (user : LinkedUser) (write : UserWrite) : LinkPhase :=
  match users.rows.filter fun other => other.id ≠ user.id && collision other with
  | [] => .cleared now token user write
  | [other] =>
    if other.tenantId ≠ user.tenantId then
      .done (.ok { success := false, error := some .accountAlreadyRegisteredSeparately, tenantId := some user.tenantId })
    else .failed .accountBelongsToOtherFamilyMember
  | _ => .done (.error .multipleResultsFound)

/-- After the lock of the source user: an account it has, or the search for a collision. -/
def collide (args : LinkArgs) (users : Keyed LinkedUser.id) (now : ℤ) (token : ChannelLinkToken) (user : LinkedUser) : LinkPhase :=
  let existing := if args.targetChannel = "max" then user.maxAccountId else user.telegramAccountId
  match existing.filter (· ≠ "") with
  | some account =>
    if account = args.targetAccountId then
      match args.targetChatId.filter (· ≠ "") with
      | some chatId =>
        if args.targetChannel = "max" ∧ user.maxChatId ≠ some chatId then .cleared now token user (.chat chatId)
        else .cleared now token user .nothing
      | none => .cleared now token user .nothing
    else .failed .alreadyLinkedOtherAccount
  | none =>
    if args.targetChannel = "max" then
      searchOther users (fun other => other.maxAccountId = some args.targetAccountId) now token user
        (.max args.targetAccountId (args.targetChatId.getD "None"))
    else if args.targetChannel = "telegram" then
      searchOther users (fun other => other.tgAccountHash = some (hashTgAccount args.targetAccountId)) now token user
        (.telegram args.targetAccountId)
    else .failed .notFoundOrExpired

/-- What a call that has committed returns. -/
def linkedOutcome (token : ChannelLinkToken) (user : LinkedUser) (write : UserWrite) : ConsumeOutcome where
  success := true
  tenantId := some user.tenantId
  sourceChannel := some token.sourceChannel
  targetChannel := some token.targetChannel
  idempotent := match write with
    | .nothing | .chat _ => true
    | _ => false

theorem UserWrite.apply_id (write : UserWrite) (user : LinkedUser) : (write.apply hashTgAccount user).id = user.id := by
  cases write <;> rfl

/-- `used_at=now`. -/
def ChannelLinkToken.burn (now : ℤ) (token : ChannelLinkToken) : ChannelLinkToken := { token with usedAt := some now }

theorem ChannelLinkToken.burn_hash (now : ℤ) (token : ChannelLinkToken) : (token.burn now).tokenHash = token.tokenHash := rfl

/-- `session.commit()`: what the call has written is there for all. -/
def LinkState.commit (s : LinkState) (i : ℕ) (now : ℤ) (token : ChannelLinkToken) (user : LinkedUser) (write : UserWrite) :
    LinkState where
  users := s.users.update (·.id = user.id) (write.apply hashTgAccount) (write.apply_id hashTgAccount)
  tokens := s.tokens.update (·.tokenHash = token.tokenHash) (ChannelLinkToken.burn now) (ChannelLinkToken.burn_hash now)
  phase := Function.update s.phase i (.done (.ok (linkedOutcome token user write)))

/-- What a call does next. -/
inductive LinkEvent where
  | begin (now : ℤ) | preRead (active : Bool) | burn | lockUser | collide | flush | commit | abort
  deriving DecidableEq

variable (args : ℕ → LinkArgs)

/-- A step of call `i`; a statement that waits for a lock of another call makes none. -/
def linkStep (s : LinkState) : ℕ × LinkEvent → LinkState → Prop
  | (i, .begin now), t =>
    s.phase i = .idle ∧
      t = s.set i (if validTokenFormat (args i).rawToken then .started now else .done (.error .valueError))
  | (i, .preRead active), t =>
    ∃ now, s.phase i = .started now ∧
      t = s.set i (if (s.tokens.get? (hashToken (args i).rawToken)).isSome ∧ active = false then .failed .tenantDeleted
        else .checked now)
  | (i, .burn), t =>
    ∃ now, s.phase i = .checked now ∧
      match (s.tokens.get? (hashToken (args i).rawToken)).filter (burnable (args i) now) with
      | none => t = s.set i (.failed .notFoundOrExpired)
      | some token =>
        (∀ j, j ≠ i → (s.phase j).tokenKey? ≠ some token.tokenHash) ∧ t = s.set i (.burned now token)
  | (i, .lockUser), t =>
    ∃ now token, s.phase i = .burned now token ∧
      if missingChat (args i) then t = s.set i (.failed .missingChatId)
      else
        match token.sourceUserId.bind s.users.get? with
        | none => t = s.set i (.failed .sourceUserNotFound)
        | some user =>
          (∀ j, j ≠ i → (s.phase j).userKey? ≠ some user.id) ∧ t = s.set i (.locked now token user)
  | (i, .collide), t =>
    ∃ now token user, s.phase i = .locked now token user ∧
      t = s.set i (Services.collide hashTgAccount (args i) s.users now token user)
  | (i, .flush), t =>
    ∃ now token user write, s.phase i = .cleared now token user write ∧
      -- the unique index: an entry that is committed is refused, one that is not is waited for
      if (s.users.rows.filter fun other => other.id ≠ user.id && decide (∃ hash ∈ write.newHash hashTgAccount,
          other.tgAccountHash = some hash)) ≠ [] then t = s.set i (.done (.error .integrityError))
      else (∀ j hash, j ≠ i → write.newHash hashTgAccount = some hash → (s.phase j).flushedHash hashTgAccount ≠ some hash) ∧
        t = s.set i (.flushed now token user write)
  | (i, .commit), t =>
    ∃ now token user write, s.phase i = .flushed now token user write ∧ t = s.commit hashTgAccount i now token user write
  | (i, .abort), t => (s.phase i).Running ∧ t = s.set i (.done (.error .databaseError))

/-- The index, and what the listener has filled in. -/
structure HashKept (users : Keyed LinkedUser.id) : Prop where
  filled : ∀ user ∈ users.rows, user.tgAccountHash = accountHash hashTgAccount user.telegramAccountId
  unique : ∀ user ∈ users.rows, ∀ other ∈ users.rows, ∀ hash, user.tgAccountHash = some hash →
    other.tgAccountHash = some hash → user.id = other.id

/-- Calls of `consume_link`, with the arguments `args i` each, in any order of their statements. -/
def linking : Lts LinkState (ℕ × LinkEvent) where
  init s := (∀ i, s.phase i = .idle) ∧ HashKept hashTgAccount s.users
  step := linkStep hashToken hashTgAccount args

/-- A call searches for a collision only when no other call has passed the search for its MAX account and is still open,
and a Telegram account is not blank. -/
def SearchesAlone (s : LinkState) : ℕ × LinkEvent → Prop
  | (i, .collide) =>
    ((args i).targetChannel = "max" → ∀ j, j ≠ i → (s.phase j).pendingMax ≠ some (args i).targetAccountId) ∧
      ((args i).targetChannel = "telegram" → ¬ BlankAccount (args i).targetAccountId)
  | _ => True

end Call

/-! ### What a step does -/

variable {event : LinkEvent} {p : LinkPhase} {other : LinkedUser}

section Moves

variable {hashToken hashTgAccount : String → String} {args : ℕ → LinkArgs} {s t : LinkState} {i : ℕ}

/-- What a call is about to write, and into which row. -/
def LinkPhase.write? : LinkPhase → Option (LinkedUser × UserWrite)
  | cleared _ _ user write | flushed _ _ user write => some (user, write)
  | _ => none

/-- The steps, by what becomes of the locks and the tables. -/
inductive LinkMove (hashToken hashTgAccount : String → String) (args : ℕ → LinkArgs) (s : LinkState) :
    ℕ × LinkEvent → LinkState → Prop where
  | quiet {i : ℕ} {event : LinkEvent} {p : LinkPhase} : p.Quiet → LinkMove hashToken hashTgAccount args s (i, event) (s.set i p)
  | burned {i : ℕ} {now : ℤ} {token : ChannelLinkToken} :
    s.tokens.get? (hashToken (args i).rawToken) = some token → token.usedAt = none →
    (∀ j, j ≠ i → (s.phase j).tokenKey? ≠ some token.tokenHash) →
    LinkMove hashToken hashTgAccount args s (i, .burn) (s.set i (.burned now token))
  | locked {i : ℕ} {now : ℤ} {token : ChannelLinkToken} {user : LinkedUser} : s.phase i = .burned now token →
    s.users.get? user.id = some user → (∀ j, j ≠ i → (s.phase j).userKey? ≠ some user.id) →
    LinkMove hashToken hashTgAccount args s (i, .lockUser) (s.set i (.locked now token user))
  | cleared {i : ℕ} {now : ℤ} {token : ChannelLinkToken} {user : LinkedUser} {write : UserWrite} :
    s.phase i = .locked now token user →
    (∀ account chatId, write = .max account chatId → (args i).targetChannel = "max" ∧ account = (args i).targetAccountId ∧
      ∀ other ∈ s.users.rows, other.id ≠ user.id → other.maxAccountId ≠ some account) →
    (∀ account, write = .telegram account → (args i).targetChannel = "telegram" ∧ account = (args i).targetAccountId) →
    LinkMove hashToken hashTgAccount args s (i, .collide) (s.set i (.cleared now token user write))
  | flushed {i : ℕ} {now : ℤ} {token : ChannelLinkToken} {user : LinkedUser} {write : UserWrite} :
    s.phase i = .cleared now token user write →
    (∀ hash, write.newHash hashTgAccount = some hash →
      (∀ other ∈ s.users.rows, other.id ≠ user.id → other.tgAccountHash ≠ some hash) ∧
        ∀ j, j ≠ i → (s.phase j).flushedHash hashTgAccount ≠ some hash) →
    LinkMove hashToken hashTgAccount args s (i, .flush) (s.set i (.flushed now token user write))
  | committed {i : ℕ} {now : ℤ} {token : ChannelLinkToken} {user : LinkedUser} {write : UserWrite} :
    s.phase i = .flushed now token user write →
    LinkMove hashToken hashTgAccount args s (i, .commit) (s.commit hashTgAccount i now token user write)

theorem burnable_unused {args : LinkArgs} {now : ℤ} {token : ChannelLinkToken} (h : burnable args now token = true) :
    token.usedAt = none := by
  simp only [burnable, Bool.and_eq_true, Option.isNone_iff_eq_none] at h
  exact h.1.1.1

theorem searchOther_cases (users : Keyed LinkedUser.id) (collision : LinkedUser → Bool) (now : ℤ) (token : ChannelLinkToken)
    (user : LinkedUser) (write : UserWrite) :
    (searchOther users collision now token user write).Quiet ∨
      searchOther users collision now token user write = .cleared now token user write ∧
        ∀ other ∈ users.rows, other.id ≠ user.id → collision other = false := by
  unfold searchOther
  split
  next hnone =>
    refine .inr ⟨rfl, fun other hother hid => ?_⟩
    simpa [hid] using List.filter_eq_nil_iff.mp hnone other hother
  · split <;> exact .inl rfl
  · exact .inl trivial

/-- After the lock of the source user: the call ends, or it is clear what it writes. -/
theorem collide_cases (hashTgAccount : String → String) (args : LinkArgs) (users : Keyed LinkedUser.id) (now : ℤ)
    (token : ChannelLinkToken) (user : LinkedUser) :
    (collide hashTgAccount args users now token user).Quiet ∨
      ∃ write, collide hashTgAccount args users now token user = .cleared now token user write ∧
        (∀ account chatId, write = .max account chatId → args.targetChannel = "max" ∧ account = args.targetAccountId ∧
          ∀ other ∈ users.rows, other.id ≠ user.id → other.maxAccountId ≠ some account) ∧
        ∀ account, write = .telegram account → args.targetChannel = "telegram" ∧ account = args.targetAccountId := by
  unfold collide
  dsimp only
  split
  · split
    · split
      · split <;> exact .inr ⟨_, rfl, fun _ _ h => (by cases h), fun _ h => (by cases h)⟩
      · exact .inr ⟨_, rfl, fun _ _ h => (by cases h), fun _ h => (by cases h)⟩
    · exact .inl rfl
  · split
    next hmax =>
      rcases searchOther_cases users (fun other => other.maxAccountId = some args.targetAccountId) now token user
        (.max args.targetAccountId (args.targetChatId.getD "None")) with hquiet | ⟨hclear, hnobody⟩
      · exact .inl hquiet
      · refine .inr ⟨_, hclear, ?_, fun _ h => (by cases h)⟩
        rintro _ _ ⟨⟩
        exact ⟨hmax, rfl, fun other hother hid => of_decide_eq_false (hnobody other hother hid)⟩
    next hmax =>
      split
      next htelegram =>
        rcases searchOther_cases users (fun other => other.tgAccountHash = some (hashTgAccount args.targetAccountId)) now token
          user (.telegram args.targetAccountId) with hquiet | ⟨hclear, -⟩
        · exact .inl hquiet
        · refine .inr ⟨_, hclear, fun _ _ h => (by cases h), ?_⟩
          rintro _ ⟨⟩
          exact ⟨htelegram, rfl⟩
      · exact .inl rfl

/-- **What a step does**; a call that is over makes none. -/
theorem linkStep_move (h : linkStep hashToken hashTgAccount args s (i, event) t) :
    LinkMove hashToken hashTgAccount args s (i, event) t ∧ ∀ outcome, s.phase i ≠ .done outcome := by
  cases event with
  | begin now =>
    obtain ⟨hphase, rfl⟩ := h
    refine ⟨.quiet ?_, fun _ hdone => by rw [hphase] at hdone; cases hdone⟩
    split <;> trivial
  | preRead active =>
    obtain ⟨now, hphase, rfl⟩ := h
    refine ⟨.quiet ?_, fun _ hdone => by rw [hphase] at hdone; cases hdone⟩
    split
    · exact rfl
    · trivial
  | burn =>
    obtain ⟨now, hphase, h⟩ := h
    refine ⟨?_, fun _ hdone => by rw [hphase] at hdone; cases hdone⟩
    split at h
    · rw [h]
      exact .quiet rfl
    next token htoken =>
      obtain ⟨hget, hburnable⟩ := Option.filter_eq_some_iff.mp htoken
      obtain ⟨halone, rfl⟩ := h
      exact .burned hget (burnable_unused hburnable) halone
  | lockUser =>
    obtain ⟨now, token, hphase, h⟩ := h
    refine ⟨?_, fun _ hdone => by rw [hphase] at hdone; cases hdone⟩
    split at h
    · rw [h]
      exact .quiet rfl
    split at h
    · rw [h]
      exact .quiet rfl
    next user huser =>
      obtain ⟨halone, rfl⟩ := h
      obtain ⟨id, -, hget⟩ := Option.bind_eq_some_iff.mp huser
      refine .locked hphase ?_ halone
      rw [(Keyed.get?_eq_some.mp hget).2, hget]
  | collide =>
    obtain ⟨now, token, user, hphase, rfl⟩ := h
    refine ⟨?_, fun _ hdone => by rw [hphase] at hdone; cases hdone⟩
    rcases collide_cases hashTgAccount (args i) s.users now token user with hquiet | ⟨write, heq, hmax, htelegram⟩
    · exact .quiet hquiet
    · rw [heq]
      exact .cleared hphase hmax htelegram
  | flush =>
    obtain ⟨now, token, user, write, hphase, h⟩ := h
    refine ⟨?_, fun _ hdone => by rw [hphase] at hdone; cases hdone⟩
    split at h
    · rw [h]
      exact .quiet trivial
    next hnone =>
      obtain ⟨halone, rfl⟩ := h
      refine .flushed hphase fun hash hhash => ⟨fun other hother hid heq => ?_, fun j hj => halone j hash hj hhash⟩
      have hfound := List.filter_eq_nil_iff.mp (not_not.mp hnone) other hother
      simp [hid, hhash, heq] at hfound
  | commit =>
    obtain ⟨now, token, user, write, hphase, rfl⟩ := h
    exact ⟨.committed hphase, fun _ hdone => by rw [hphase] at hdone; cases hdone⟩
  | abort =>
    obtain ⟨hrunning, rfl⟩ := h
    refine ⟨.quiet trivial, fun _ hdone => ?_⟩
    rw [hdone] at hrunning
    exact hrunning

/-! ### Locks and tokens -/

/-- No two calls have the same of something. -/
def Alone {β : Type*} (phase : ℕ → LinkPhase) (has : LinkPhase → Option β) : Prop :=
  ∀ i j, j ≠ i → ∀ key, has (phase i) = some key → has (phase j) ≠ some key

theorem Alone.update {β : Type*} {phase : ℕ → LinkPhase} {has : LinkPhase → Option β} (h : Alone phase has)
    (hp : ∀ key, has p = some key → ∀ j, j ≠ i → has (phase j) ≠ some key) : Alone (Function.update phase i p) has := by
  intro j k hne key hj hk
  rw [Function.update_apply] at hj hk
  by_cases hji : j = i
  · rw [if_pos hji] at hj
    rw [if_neg (hji ▸ hne)] at hk
    exact hp key hj k (hji ▸ hne) hk
  · rw [if_neg hji] at hj
    by_cases hki : k = i
    · rw [if_pos hki] at hk
      exact hp key hk j hji hj
    · rw [if_neg hki] at hk
      exact h j k hne key hj hk

/-- What holds whatever the order of the steps. -/
structure LinkInv (hashToken : String → String) (args : ℕ → LinkArgs) (s : LinkState) : Prop where
  /-- A token that a call has burned is not used yet, for the others. -/
  tokenHeld : ∀ i token, (s.phase i).token? = some token →
    s.tokens.get? (hashToken (args i).rawToken) = some token ∧ token.usedAt = none
  tokenAlone : Alone s.phase LinkPhase.tokenKey?
  /-- A source user is as the call has read it. -/
  userHeld : ∀ i user, (s.phase i).user? = some user → s.users.get? user.id = some user
  userAlone : Alone s.phase LinkPhase.userKey?
  /-- The token of a success is used, and it is nobody else's. -/
  spent : ∀ i, (s.phase i).Succeeded → ∃ token, s.tokens.get? (hashToken (args i).rawToken) = some token ∧ token.usedAt ≠ none
  once : ∀ i j, j ≠ i → (s.phase i).Succeeded → (s.phase j).Succeeded →
    hashToken (args j).rawToken ≠ hashToken (args i).rawToken

theorem LinkPhase.Quiet.token? (h : p.Quiet) : p.token? = none := by cases p <;> first | rfl | exact absurd h id

theorem LinkPhase.Quiet.user? (h : p.Quiet) : p.user? = none := by cases p <;> first | rfl | exact absurd h id

theorem LinkPhase.Quiet.write? (h : p.Quiet) : p.write? = none := by cases p <;> first | rfl | exact absurd h id

theorem LinkPhase.Quiet.not_succeeded (h : p.Quiet) : ¬ p.Succeeded := by
  cases p with
  | done outcome =>
    cases outcome with
    | ok outcome => exact fun hs => Bool.false_ne_true (h.symm.trans hs)
    | error e => exact id
  | _ => exact id

theorem phase_set (s : LinkState) (i j : ℕ) (p : LinkPhase) : (s.set i p).phase j = if j = i then p else s.phase j := by
  simp [LinkState.set, Function.update_apply]

/-- What is kept when a call goes on, with the rows that it has locked. -/
theorem LinkInv.set (h : LinkInv hashToken args s) (hsucceeded : ¬ p.Succeeded)
    (htoken : ∀ token, p.token? = some token →
      (s.tokens.get? (hashToken (args i).rawToken) = some token ∧ token.usedAt = none) ∧
        ∀ j, j ≠ i → (s.phase j).tokenKey? ≠ some token.tokenHash)
    (huser : ∀ user, p.user? = some user → s.users.get? user.id = some user ∧
      ∀ j, j ≠ i → (s.phase j).userKey? ≠ some user.id) :
    LinkInv hashToken args (s.set i p) where
  tokenHeld j token hj := by
    rw [phase_set] at hj
    split at hj
    next heq => exact heq ▸ (htoken token hj).1
    · exact h.tokenHeld j token hj
  tokenAlone := by
    refine h.tokenAlone.update fun key hkey => ?_
    obtain ⟨token, ht, rfl⟩ := Option.map_eq_some_iff.mp hkey
    exact (htoken token ht).2
  userHeld j user hj := by
    rw [phase_set] at hj
    split at hj
    · exact (huser user hj).1
    · exact h.userHeld j user hj
  userAlone := by
    refine h.userAlone.update fun key hkey => ?_
    obtain ⟨user, hu, rfl⟩ := Option.map_eq_some_iff.mp hkey
    exact (huser user hu).2
  spent j hj := by
    rw [phase_set] at hj
    split at hj
    · exact absurd hj hsucceeded
    · exact h.spent j hj
  once j k hne hj hk := by
    rw [phase_set] at hj hk
    split at hj
    · exact absurd hj hsucceeded
    split at hk
    · exact absurd hk hsucceeded
    exact h.once j k hne hj hk

theorem LinkInv.go (h : LinkInv hashToken args s) (hsucceeded : ¬ p.Succeeded)
    (htoken : p.token? = (s.phase i).token?) (huser : p.user? = (s.phase i).user?) : LinkInv hashToken args (s.set i p) := by
  refine h.set hsucceeded (fun token ht => ?_) fun user hu => ?_
  · rw [htoken] at ht
    exact ⟨h.tokenHeld i token ht, fun j hj => h.tokenAlone i j hj _ (by rw [LinkPhase.tokenKey?, ht]; rfl)⟩
  · rw [huser] at hu
    exact ⟨h.userHeld i user hu, fun j hj => h.userAlone i j hj _ (by rw [LinkPhase.userKey?, hu]; rfl)⟩

theorem phase_commit (s : LinkState) (i j : ℕ) (now : ℤ) (token : ChannelLinkToken) (user : LinkedUser) (write : UserWrite) :
    (s.commit hashTgAccount i now token user write).phase j =
      if j = i then .done (.ok (linkedOutcome token user write)) else s.phase j := by
  simp [LinkState.commit, Function.update_apply]

section Commit

variable {now : ℤ} {token : ChannelLinkToken} {user : LinkedUser} {write : UserWrite}

/-- The users after a commit: the source user as it is written, and the others. -/
theorem mem_users_commit (h : LinkInv hashToken args s) (hphase : s.phase i = .flushed now token user write) {row : LinkedUser} :
    row ∈ (s.commit hashTgAccount i now token user write).users.rows ↔
      row = write.apply hashTgAccount user ∨ row ∈ s.users.rows ∧ row.id ≠ user.id :=
  Keyed.mem_update_row (write.apply_id hashTgAccount) (h.userHeld i user (by rw [hphase]; rfl))

/-- **A commit**: the locks have kept the rows as they were read. -/
theorem LinkInv.commit (h : LinkInv hashToken args s) (hphase : s.phase i = .flushed now token user write) :
    LinkInv hashToken args (s.commit hashTgAccount i now token user write) := by
  have htoken : (s.phase i).token? = some token := by rw [hphase]; rfl
  have huser : (s.phase i).user? = some user := by rw [hphase]; rfl
  have hget : ∀ hash, (s.commit hashTgAccount i now token user write).tokens.get? hash =
      (s.tokens.get? hash).map fun row => if decide (row.tokenHash = token.tokenHash) = true then row.burn now else row :=
    fun hash => Keyed.get?_update (ChannelLinkToken.burn_hash now)
  have hother : ∀ j, j ≠ i → (s.commit hashTgAccount i now token user write).phase j = s.phase j :=
    fun j hj => by rw [phase_commit, if_neg hj]
  have hdone : (s.commit hashTgAccount i now token user write).phase i = .done (.ok (linkedOutcome token user write)) := by
    rw [phase_commit, if_pos rfl]
  constructor
  · intro j row hj
    by_cases hji : j = i
    · subst hji
      rw [hdone] at hj
      cases hj
    · rw [hother j hji] at hj
      obtain ⟨hrow, hunused⟩ := h.tokenHeld j row hj
      have hne : row.tokenHash ≠ token.tokenHash := by
        have hkey := h.tokenAlone i j hji token.tokenHash (by rw [LinkPhase.tokenKey?, htoken]; rfl)
        simpa [LinkPhase.tokenKey?, hj] using hkey
      exact ⟨by rw [hget, hrow]; simp [hne], hunused⟩
  · exact h.tokenAlone.update fun _ hkey => by cases hkey
  · intro j row hj
    by_cases hji : j = i
    · subst hji
      rw [hdone] at hj
      cases hj
    · rw [hother j hji] at hj
      have hne : row.id ≠ user.id := by
        have hkey := h.userAlone i j hji user.id (by rw [LinkPhase.userKey?, huser]; rfl)
        simpa [LinkPhase.userKey?, hj] using hkey
      refine Keyed.get?_eq_some.mpr ⟨(mem_users_commit h hphase).mpr (.inr ⟨?_, hne⟩), rfl⟩
      exact (Keyed.get?_eq_some.mp (h.userHeld j row hj)).1
  · exact h.userAlone.update fun _ hkey => by cases hkey
  · intro j hj
    by_cases hji : j = i
    · subst hji
      exact ⟨token.burn now, by rw [hget, (h.tokenHeld j token htoken).1]; simp, by simp [ChannelLinkToken.burn]⟩
    · rw [hother j hji] at hj
      obtain ⟨row, hrow, hused⟩ := h.spent j hj
      refine ⟨_, by rw [hget, hrow]; rfl, ?_⟩
      dsimp only
      split
      · simp [ChannelLinkToken.burn]
      · exact hused
  · -- the token of an earlier success is used, the one of this call was not
    have hfresh : ∀ j, j ≠ i → (s.phase j).Succeeded → hashToken (args j).rawToken ≠ hashToken (args i).rawToken := by
      intro j _ hj heq
      obtain ⟨row, hrow, hused⟩ := h.spent j hj
      obtain ⟨hheld, hunused⟩ := h.tokenHeld i token htoken
      rw [heq, hheld] at hrow
      exact hused (Option.some.inj hrow ▸ hunused)
    intro j k hne hj hk
    by_cases hji : j = i
    · subst hji
      rw [hother k hne] at hk
      exact hfresh k hne hk
    · rw [hother j hji] at hj
      by_cases hki : k = i
      · subst hki
        exact (hfresh j hji hj).symm
      · rw [hother k hki] at hk
        exact h.once j k hne hj hk

end Commit

theorem LinkInv.step {e : ℕ × LinkEvent} (h : LinkInv hashToken args s) (hmove : LinkMove hashToken hashTgAccount args s e t) :
    LinkInv hashToken args t := by
  cases hmove with
  | quiet hquiet =>
    exact h.set hquiet.not_succeeded (fun _ ht => by rw [hquiet.token?] at ht; cases ht)
      fun _ hu => by rw [hquiet.user?] at hu; cases hu
  | burned hget hunused halone =>
    refine h.set id (fun _ ht => ?_) fun _ hu => by cases hu
    cases ht
    exact ⟨⟨hget, hunused⟩, halone⟩
  | @locked i now token user hphase hget halone =>
    have htoken : (s.phase i).token? = some token := by rw [hphase]; rfl
    refine h.set id (fun _ ht => ?_) fun _ hu => ?_
    · cases ht
      exact ⟨h.tokenHeld i token htoken, fun j hj => h.tokenAlone i j hj _ (by rw [LinkPhase.tokenKey?, htoken]; rfl)⟩
    · cases hu
      exact ⟨hget, halone⟩
  | cleared hphase => exact h.go id (by rw [hphase]; rfl) (by rw [hphase]; rfl)
  | flushed hphase => exact h.go id (by rw [hphase]; rfl) (by rw [hphase]; rfl)
  | committed hphase => exact h.commit hphase

theorem LinkInv.init (h : ∀ i, s.phase i = .idle) : LinkInv hashToken args s := by
  constructor
  · intro i _ hi
    rw [h i] at hi
    cases hi
  · intro i _ _ _ hi
    rw [h i] at hi
    cases hi
  · intro i _ hi
    rw [h i] at hi
    cases hi
  · intro i _ _ _ hi
    rw [h i] at hi
    cases hi
  · intro i hi
    rw [h i] at hi
    exact absurd hi id
  · intro i _ _ hi
    rw [h i] at hi
    exact absurd hi id

/-! ### Accounts -/

/-- Two users share an account, and they did at the start. -/
def SharedBefore (account? : LinkedUser → Option String) (users₀ : Keyed LinkedUser.id) (user other : LinkedUser) : Prop :=
  ∀ account, account? user = some account → account? other = some account →
    ∃ user₀ ∈ users₀.rows, ∃ other₀ ∈ users₀.rows, user₀.id = user.id ∧ other₀.id = other.id ∧
      account? user₀ = some account ∧ account? other₀ = some account

/-- What holds as long as the calls search alone. -/
structure AccountInv (hashTgAccount : String → String) (users₀ : Keyed LinkedUser.id) (s : LinkState) : Prop where
  maxFree : ∀ i user account chatId, (s.phase i).write? = some (user, .max account chatId) →
    ∀ other ∈ s.users.rows, other.id ≠ user.id → other.maxAccountId ≠ some account
  maxAlone : Alone s.phase LinkPhase.pendingMax
  hashes : HashKept hashTgAccount s.users
  named : ∀ i user account, (s.phase i).write? = some (user, .telegram account) → ¬ BlankAccount account
  hashFree : ∀ i user hash, (s.phase i).user? = some user → (s.phase i).flushedHash hashTgAccount = some hash →
    ∀ other ∈ s.users.rows, other.id ≠ user.id → other.tgAccountHash ≠ some hash
  hashAlone : Alone s.phase (LinkPhase.flushedHash hashTgAccount)
  maxShared : ∀ user ∈ s.users.rows, ∀ other ∈ s.users.rows, user.id ≠ other.id →
    SharedBefore LinkedUser.maxAccountId users₀ user other
  /-- No call writes a blank account. -/
  blank : ∀ user ∈ s.users.rows, ∀ account, user.telegramAccountId = some account → BlankAccount account →
    ∃ user₀ ∈ users₀.rows, user₀.id = user.id ∧ user₀.telegramAccountId = some account

theorem LinkPhase.pendingMax_iff {account : String} :
    p.pendingMax = some account ↔ ∃ user chatId, p.write? = some (user, .max account chatId) := by
  cases p with
  | cleared now token user write => cases write <;> simp [pendingMax, write?]
  | flushed now token user write => cases write <;> simp [pendingMax, write?]
  | _ => simp [pendingMax, write?]

theorem LinkPhase.flushedHash_none (h : p.write? = none) : p.flushedHash hashTgAccount = none := by
  cases p <;> first | rfl | cases h

variable {users₀ : Keyed LinkedUser.id}

theorem AccountInv.set (h : AccountInv hashTgAccount users₀ s)
    (hmax : ∀ user account chatId, p.write? = some (user, .max account chatId) →
      (∀ other ∈ s.users.rows, other.id ≠ user.id → other.maxAccountId ≠ some account) ∧
        ∀ j, j ≠ i → (s.phase j).pendingMax ≠ some account)
    (hnamed : ∀ user account, p.write? = some (user, .telegram account) → ¬ BlankAccount account)
    (hhash : ∀ user hash, p.user? = some user → p.flushedHash hashTgAccount = some hash →
      (∀ other ∈ s.users.rows, other.id ≠ user.id → other.tgAccountHash ≠ some hash) ∧
        ∀ j, j ≠ i → (s.phase j).flushedHash hashTgAccount ≠ some hash)
    (huser : ∀ hash, p.flushedHash hashTgAccount = some hash → ∃ user, p.user? = some user) :
    AccountInv hashTgAccount users₀ (s.set i p) where
  maxFree j user account chatId hj := by
    rw [phase_set] at hj
    split at hj
    · exact (hmax user account chatId hj).1
    · exact h.maxFree j user account chatId hj
  maxAlone := by
    refine h.maxAlone.update fun account hp => ?_
    obtain ⟨user, chatId, hwrite⟩ := LinkPhase.pendingMax_iff.mp hp
    exact (hmax user account chatId hwrite).2
  hashes := h.hashes
  named j user account hj := by
    rw [phase_set] at hj
    split at hj
    · exact hnamed user account hj
    · exact h.named j user account hj
  hashFree j user hash hu hj := by
    rw [phase_set] at hu hj
    by_cases hji : j = i
    · rw [if_pos hji] at hu hj
      exact (hhash user hash hu hj).1
    · rw [if_neg hji] at hu hj
      exact h.hashFree j user hash hu hj
  hashAlone := by
    refine h.hashAlone.update fun hash hp => ?_
    obtain ⟨user, hu⟩ := huser hash hp
    exact (hhash user hash hu hp).2
  maxShared := h.maxShared
  blank := h.blank

theorem AccountInv.set_of_none (h : AccountInv hashTgAccount users₀ s) (hwrite : p.write? = none) :
    AccountInv hashTgAccount users₀ (s.set i p) := by
  have hhash : p.flushedHash hashTgAccount = none := LinkPhase.flushedHash_none hwrite
  refine h.set ?_ ?_ ?_ ?_
  · intro _ _ _ hw
    rw [hwrite] at hw
    cases hw
  · intro _ _ hw
    rw [hwrite] at hw
    cases hw
  · intro _ _ _ hw
    rw [hhash] at hw
    cases hw
  · intro _ hw
    rw [hhash] at hw
    cases hw

theorem AccountInv.init (hphase : ∀ i, s.phase i = .idle) (hkept : HashKept hashTgAccount s.users) :
    AccountInv hashTgAccount s.users s := by
  constructor
  · intro i _ _ _ hi
    rw [hphase i] at hi
    cases hi
  · intro i _ _ _ hi
    rw [hphase i] at hi
    cases hi
  · exact hkept
  · intro i _ _ hi
    rw [hphase i] at hi
    cases hi
  · intro i _ _ hi
    rw [hphase i] at hi
    cases hi
  · intro i _ _ _ hi
    rw [hphase i] at hi
    cases hi
  · intro user huser other hother _ account hu ho
    exact ⟨user, huser, other, hother, rfl, rfl, hu, ho⟩
  · intro user huser account hu _
    exact ⟨user, huser, rfl, hu⟩

section Commit

variable {now : ℤ} {token : ChannelLinkToken} {user : LinkedUser} {write : UserWrite}

/-- A write fills in the hash, as the listener does. -/
theorem UserWrite.apply_hash (h : user.tgAccountHash = accountHash hashTgAccount user.telegramAccountId) :
    (write.apply hashTgAccount user).tgAccountHash = accountHash hashTgAccount (write.apply hashTgAccount user).telegramAccountId := by
  cases write with
  | telegram account => rfl
  | _ => exact h

/-- The hash after a write is the new one, or the one of before. -/
theorem UserWrite.apply_hash_cases (hashTgAccount : String → String) (write : UserWrite) (user : LinkedUser) :
    (write.apply hashTgAccount user).tgAccountHash = write.newHash hashTgAccount ∨
      (write.apply hashTgAccount user).tgAccountHash = user.tgAccountHash := by
  cases write with
  | telegram account => exact .inl rfl
  | _ => exact .inr rfl

theorem UserWrite.apply_max_cases (hashTgAccount : String → String) (write : UserWrite) (user : LinkedUser) :
    (∃ account chatId, write = .max account chatId ∧ (write.apply hashTgAccount user).maxAccountId = some account) ∨
      (write.apply hashTgAccount user).maxAccountId = user.maxAccountId := by
  cases write with
  | max account chatId => exact .inl ⟨account, chatId, rfl, rfl⟩
  | _ => exact .inr rfl

theorem UserWrite.apply_telegram_cases (hashTgAccount : String → String) (write : UserWrite) (user : LinkedUser) :
    (∃ account, write = .telegram account ∧ (write.apply hashTgAccount user).telegramAccountId = some account) ∨
      (write.apply hashTgAccount user).telegramAccountId = user.telegramAccountId := by
  cases write with
  | telegram account => exact .inl ⟨account, rfl, rfl⟩
  | _ => exact .inr rfl

/-- After a commit, the source user shares a hash with nobody. -/
theorem AccountInv.hash_alone_of_flushed (h : AccountInv hashTgAccount users₀ s) (hlink : LinkInv hashToken args s)
    (hphase : s.phase i = .flushed now token user write) (hother : other ∈ s.users.rows)
    (hid : other.id ≠ user.id) {hash : String} (hhash : (write.apply hashTgAccount user).tgAccountHash = some hash) :
    other.tgAccountHash ≠ some hash := by
  have huser : user ∈ s.users.rows := (Keyed.get?_eq_some.mp (hlink.userHeld i user (by rw [hphase]; rfl))).1
  rcases write.apply_hash_cases hashTgAccount user with hnew | hold
  · rw [hnew] at hhash
    exact h.hashFree i user hash (by rw [hphase]; rfl) (by rw [hphase]; exact hhash) other hother hid
  · rw [hold] at hhash
    exact fun ho => hid (h.hashes.unique other hother user huser hash ho hhash)

/-- After a commit, the source user shares a MAX account with those only that it shared one with before. -/
theorem AccountInv.max_shared_of_flushed (h : AccountInv hashTgAccount users₀ s)
    (hphase : s.phase i = .flushed now token user write) (hother : other ∈ s.users.rows)
    (hid : other.id ≠ user.id) {account : String} (hu : (write.apply hashTgAccount user).maxAccountId = some account)
    (ho : other.maxAccountId = some account) : user.maxAccountId = some account := by
  rcases write.apply_max_cases hashTgAccount user with ⟨written, chatId, rfl, hnew⟩ | hold
  · obtain rfl : written = account := Option.some.inj (hnew.symm.trans hu)
    exact absurd ho (h.maxFree i user written chatId (by rw [hphase]; rfl) other hother hid)
  · exact hold.symm.trans hu

/-- **A commit** shares no account: what the call has searched for is still not there. -/
theorem AccountInv.commit (h : AccountInv hashTgAccount users₀ s) (hlink : LinkInv hashToken args s)
    (hphase : s.phase i = .flushed now token user write) :
    AccountInv hashTgAccount users₀ (s.commit hashTgAccount i now token user write) := by
  have huserget : s.users.get? user.id = some user := hlink.userHeld i user (by rw [hphase]; rfl)
  have huser : user ∈ s.users.rows := (Keyed.get?_eq_some.mp huserget).1
  have hid : (write.apply hashTgAccount user).id = user.id := write.apply_id hashTgAccount user
  -- the calls that are left are other ones, with other source users
  have hwrites : ∀ j {row w}, ((s.commit hashTgAccount i now token user write).phase j).write? = some (row, w) →
      j ≠ i ∧ (s.phase j).write? = some (row, w) := by
    intro j row w hj
    rw [phase_commit] at hj
    split at hj
    · cases hj
    next hji => exact ⟨hji, hj⟩
  constructor
  · intro j row account chatId hj other hother hne
    obtain ⟨hji, hw⟩ := hwrites j hj
    rcases (mem_users_commit hlink hphase).mp hother with rfl | ⟨hother, -⟩
    · rcases write.apply_max_cases hashTgAccount user with ⟨written, chatId', rfl, hnew⟩ | hold
      · intro heq
        obtain rfl : written = account := Option.some.inj (hnew.symm.trans heq)
        refine h.maxAlone i j hji written (by rw [hphase]; rfl) ?_
        exact LinkPhase.pendingMax_iff.mpr ⟨row, chatId, hw⟩
      · rw [hold]
        exact h.maxFree j row account chatId hw user huser (hid ▸ hne)
    · exact h.maxFree j row account chatId hw other hother hne
  · exact h.maxAlone.update fun _ hkey => by cases hkey
  · constructor
    · intro row hrow
      rcases (mem_users_commit hlink hphase).mp hrow with rfl | ⟨hrow, -⟩
      · exact UserWrite.apply_hash (h.hashes.filled user huser)
      · exact h.hashes.filled row hrow
    · intro row hrow other hother hash hr ho
      rcases (mem_users_commit hlink hphase).mp hrow with rfl | ⟨hrow, hrid⟩ <;>
        rcases (mem_users_commit hlink hphase).mp hother with rfl | ⟨hother, hoid⟩
      · rfl
      · exact absurd ho (h.hash_alone_of_flushed hlink hphase hother hoid hr)
      · exact absurd hr (h.hash_alone_of_flushed hlink hphase hrow hrid ho)
      · exact h.hashes.unique row hrow other hother hash hr ho
  · intro j row account hj
    exact h.named j row account (hwrites j hj).2
  · intro j row hash hu hj other hother hne
    rw [phase_commit] at hu hj
    split at hj
    · cases hj
    next hji =>
      rw [if_neg hji] at hu
      rcases (mem_users_commit hlink hphase).mp hother with rfl | ⟨hother, -⟩
      · rcases write.apply_hash_cases hashTgAccount user with hnew | hold
        · rw [hnew]
          exact fun heq => h.hashAlone i j hji hash (by rw [hphase]; exact heq) hj
        · rw [hold]
          exact h.hashFree j row hash hu hj user huser (hid ▸ hne)
      · exact h.hashFree j row hash hu hj other hother hne
  · exact h.hashAlone.update fun _ hkey => by cases hkey
  · intro row hrow other hother hne account hr ho
    rcases (mem_users_commit hlink hphase).mp hrow with rfl | ⟨hrow, hrid⟩ <;>
      rcases (mem_users_commit hlink hphase).mp hother with rfl | ⟨hother, hoid⟩
    · exact absurd rfl hne
    · have hu := h.max_shared_of_flushed hphase hother hoid hr ho
      rw [hid] at hne ⊢
      exact h.maxShared user huser other hother hne account hu ho
    · have hu := h.max_shared_of_flushed hphase hrow hrid ho hr
      rw [hid] at hne ⊢
      exact h.maxShared row hrow user huser hne account hr hu
    · exact h.maxShared row hrow other hother hne account hr ho
  · intro row hrow account hr hblank
    rcases (mem_users_commit hlink hphase).mp hrow with rfl | ⟨hrow, -⟩
    · rcases write.apply_telegram_cases hashTgAccount user with ⟨written, rfl, hnew⟩ | hold
      · obtain rfl : written = account := Option.some.inj (hnew.symm.trans hr)
        exact absurd hblank (h.named i user written (by rw [hphase]; rfl))
      · rw [hid]
        exact h.blank user huser account (hold.symm.trans hr) hblank
    · exact h.blank row hrow account hr hblank

end Commit

/-- **A step** of a call that searches alone. -/
theorem AccountInv.step (h : AccountInv hashTgAccount users₀ s) (hlink : LinkInv hashToken args s)
    (hmove : LinkMove hashToken hashTgAccount args s (i, event) t) (halone : SearchesAlone args s (i, event)) :
    AccountInv hashTgAccount users₀ t := by
  cases hmove with
  | quiet hquiet => exact h.set_of_none hquiet.write?
  | burned => exact h.set_of_none rfl
  | locked => exact h.set_of_none rfl
  | cleared hphase hmax htelegram =>
    refine h.set ?_ ?_ ?_ ?_
    · rintro _ account chatId ⟨⟩
      obtain ⟨hchannel, rfl, hnobody⟩ := hmax account chatId rfl
      exact ⟨hnobody, halone.1 hchannel⟩
    · rintro _ account ⟨⟩
      obtain ⟨hchannel, rfl⟩ := htelegram account rfl
      exact halone.2 hchannel
    · intro _ _ _ hhash
      cases hhash
    · intro _ hhash
      cases hhash
  | @flushed _ now token user write hphase hhashes =>
    have hwrite : (s.phase i).write? = some (user, write) := by rw [hphase]; rfl
    refine h.set ?_ ?_ ?_ ?_
    · rintro _ account chatId ⟨⟩
      refine ⟨h.maxFree i user account chatId hwrite, fun j hj => h.maxAlone i j hj account ?_⟩
      exact LinkPhase.pendingMax_iff.mpr ⟨user, chatId, hwrite⟩
    · rintro _ account ⟨⟩
      exact h.named i user account hwrite
    · rintro _ hash ⟨⟩ hhash
      exact hhashes hash hhash
    · intro _ _
      exact ⟨user, rfl⟩
  | committed hphase => exact h.commit hlink hphase

/-- No two users have a Telegram account that they did not share at the start. -/
theorem AccountInv.telegramShared (h : AccountInv hashTgAccount users₀ s) {user : LinkedUser} (huser : user ∈ s.users.rows)
    (hother : other ∈ s.users.rows) (hne : user.id ≠ other.id) : SharedBefore LinkedUser.telegramAccountId users₀ user other := by
  intro account hu ho
  by_cases hblank : BlankAccount account
  · obtain ⟨user₀, huser₀, hid, hacc⟩ := h.blank user huser account hu hblank
    obtain ⟨other₀, hother₀, hid', hacc'⟩ := h.blank other hother account ho hblank
    exact ⟨user₀, huser₀, other₀, hother₀, hid, hid', hacc, hacc'⟩
  · have hhash : ∀ row ∈ s.users.rows, row.telegramAccountId = some account → row.tgAccountHash = some (hashTgAccount account) := by
      intro row hrow hr
      rw [h.hashes.filled row hrow, hr, accountHash, if_neg hblank]
    exact absurd (h.hashes.unique user huser other hother _ (hhash user huser hu) (hhash other hother ho)) hne

/-! ### Runs -/

theorem linkStep_other (h : linkStep hashToken hashTgAccount args s (i, event) t) {j : ℕ} (hj : j ≠ i) :
    t.phase j = s.phase j := by
  cases (linkStep_move h).1 with
  | committed hphase => rw [phase_commit, if_neg hj]
  | _ => rw [phase_set, if_neg hj]

theorem done_final {as : List (ℕ × LinkEvent)} (hr : (linking hashToken hashTgAccount args).Run s as t)
    {outcome : Except LinkException ConsumeOutcome} (h : s.phase i = .done outcome) : t.phase i = .done outcome := by
  refine hr.keeps (P := fun s => s.phase i = .done outcome) ?_ h
  rintro u ⟨j, event⟩ v hu hstep
  by_cases hij : i = j
  · subst hij
    exact absurd hu ((linkStep_move hstep).2 outcome)
  · rw [linkStep_other hstep hij, hu]

/-- A step writes when its call succeeds, and else nothing. -/
theorem linkStep_tables (h : linkStep hashToken hashTgAccount args s (i, event) t) :
    (∃ outcome : ConsumeOutcome, outcome.success = true ∧ t.phase i = .done (.ok outcome)) ∨
      t.users = s.users ∧ t.tokens = s.tokens := by
  cases (linkStep_move h).1 with
  | @committed _ now token user write hphase =>
    exact .inl ⟨linkedOutcome token user write, rfl, by rw [phase_commit, if_pos rfl]⟩
  | _ => exact .inr ⟨rfl, rfl⟩

theorem linkInv_of_reachable (h : (linking hashToken hashTgAccount args).Reachable s) : LinkInv hashToken args s :=
  h.induct (fun _ hinit => .init hinit.1) fun _ _ _ _ hinv hstep => hinv.step (linkStep_move hstep).1

theorem accountInv_of_run (hinit : (linking hashToken hashTgAccount args).init s) {as : List (ℕ × LinkEvent)}
    (hr : ((linking hashToken hashTgAccount args).guard (SearchesAlone args)).Run s as t) :
    AccountInv hashTgAccount s.users t := by
  have hboth : LinkInv hashToken args t ∧ AccountInv hashTgAccount s.users t := by
    refine hr.keeps (P := fun t => LinkInv hashToken args t ∧ AccountInv hashTgAccount s.users t) ?_
      ⟨.init hinit.1, .init hinit.1 hinit.2⟩
    rintro u ⟨j, event⟩ v ⟨hlink, haccount⟩ ⟨hstep, halone⟩
    have hmove := (linkStep_move hstep).1
    exact ⟨hlink.step hmove, haccount.step hlink hmove halone⟩
  exact hboth.2

/-- **Calls of `consume_link`**: a token leads to one success at most; a call that does not succeed in the end changes
no row of the two tables; and no two users come to share an account as long as the calls search alone. -/
theorem consume_link (hashToken hashTgAccount : String → String) (args : ℕ → LinkArgs) :
    (∀ s, (linking hashToken hashTgAccount args).Reachable s → ∀ i j, j ≠ i → (s.phase i).Succeeded → (s.phase j).Succeeded →
      hashToken (args j).rawToken ≠ hashToken (args i).rawToken) ∧
    (∀ u i event v as t, (linking hashToken hashTgAccount args).Reachable u →
      (linking hashToken hashTgAccount args).step u (i, event) v → (linking hashToken hashTgAccount args).Run v as t →
      ¬ (t.phase i).Succeeded → v.users = u.users ∧ v.tokens = u.tokens) ∧
    ∀ s as t, (linking hashToken hashTgAccount args).init s →
      ((linking hashToken hashTgAccount args).guard (SearchesAlone args)).Run s as t →
      ∀ user ∈ t.users.rows, ∀ other ∈ t.users.rows, user.id ≠ other.id →
        SharedBefore LinkedUser.maxAccountId s.users user other ∧ SharedBefore LinkedUser.telegramAccountId s.users user other := by
  refine ⟨fun s hs i j hne hi hj => (linkInv_of_reachable hs).once i j hne hi hj, ?_, ?_⟩
  · intro u i event v as t _ hstep hr hfailed
    rcases linkStep_tables hstep with ⟨outcome, hsuccess, hdone⟩ | hsame
    · refine absurd ?_ hfailed
      rw [done_final hr hdone]
      exact hsuccess
    · exact hsame
  · intro s as t hinit hr user huser other hother hne
    have h := accountInv_of_run hinit hr
    exact ⟨h.maxShared user huser other hother hne, h.telegramShared huser hother hne⟩

/-! ### Calls that search at the same time -/

theorem set_set (s : LinkState) (i : ℕ) (p q : LinkPhase) : (s.set i p).set i q = s.set i q := by
  simp [LinkState.set]

/-- A call whose token and source user are free comes to its search. -/
theorem run_collide {now : ℤ} {token : ChannelLinkToken} {user : LinkedUser} (hidle : s.phase i = .idle)
    (hformat : validTokenFormat (args i).rawToken = true)
    (htoken : s.tokens.get? (hashToken (args i).rawToken) = some token) (hburnable : burnable (args i) now token = true)
    (hchat : missingChat (args i) = false) (huser : token.sourceUserId.bind s.users.get? = some user)
    (hfree : ∀ j, j ≠ i → (s.phase j).tokenKey? ≠ some token.tokenHash ∧ (s.phase j).userKey? ≠ some user.id) :
    (linking hashToken hashTgAccount args).Run s
      [(i, .begin now), (i, .preRead true), (i, .burn), (i, .lockUser), (i, .collide)]
      (s.set i (collide hashTgAccount (args i) s.users now token user)) := by
  have hself : ∀ p, (s.set i p).phase i = p := fun p => by rw [phase_set, if_pos rfl]
  have hother : ∀ p j, j ≠ i → (s.set i p).phase j = s.phase j := fun p j hj => by rw [phase_set, if_neg hj]
  have hbegin : linkStep hashToken hashTgAccount args s (i, .begin now) (s.set i (.started now)) :=
    ⟨hidle, by rw [if_pos hformat]⟩
  have hread : linkStep hashToken hashTgAccount args (s.set i (.started now)) (i, .preRead true) (s.set i (.checked now)) :=
    ⟨now, hself _, by rw [set_set, if_neg (by simp)]⟩
  have hburn : linkStep hashToken hashTgAccount args (s.set i (.checked now)) (i, .burn) (s.set i (.burned now token)) := by
    refine ⟨now, hself _, ?_⟩
    have hfilter : ((s.set i (.checked now)).tokens.get? (hashToken (args i).rawToken)).filter (burnable (args i) now) = some token :=
      Option.filter_eq_some_iff.mpr ⟨htoken, hburnable⟩
    rw [hfilter]
    exact ⟨fun j hj => by rw [hother _ j hj]; exact (hfree j hj).1, (set_set s i _ _).symm⟩
  have hlock : linkStep hashToken hashTgAccount args (s.set i (.burned now token)) (i, .lockUser) (s.set i (.locked now token user)) := by
    refine ⟨now, token, hself _, ?_⟩
    rw [if_neg (by simp [hchat])]
    have hbind : token.sourceUserId.bind (s.set i (.burned now token)).users.get? = some user := huser
    rw [hbind]
    exact ⟨fun j hj => by rw [hother _ j hj]; exact (hfree j hj).2, (set_set s i _ _).symm⟩
  have hcollide : linkStep hashToken hashTgAccount args (s.set i (.locked now token user)) (i, .collide)
      (s.set i (collide hashTgAccount (args i) s.users now token user)) :=
    ⟨now, token, user, hself _, (set_set s i _ _).symm⟩
  exact ((((Lts.Run.single hbegin).snoc hread).snoc hburn).snoc hlock).snoc hcollide

/-- A call that writes no entry of the unique index commits. -/
theorem run_commit {now : ℤ} {token : ChannelLinkToken} {user : LinkedUser} {write : UserWrite}
    (hphase : s.phase i = .cleared now token user write) (hnone : write.newHash hashTgAccount = none) :
    (linking hashToken hashTgAccount args).Run s [(i, .flush), (i, .commit)]
      (s.commit hashTgAccount i now token user write) := by
  have hflush : linkStep hashToken hashTgAccount args s (i, .flush) (s.set i (.flushed now token user write)) := by
    refine ⟨now, token, user, write, hphase, ?_⟩
    rw [hnone, if_neg (by simp)]
    exact ⟨fun _ _ _ h => (by cases h), rfl⟩
  have hcommit : linkStep hashToken hashTgAccount args (s.set i (.flushed now token user write)) (i, .commit)
      (s.commit hashTgAccount i now token user write) := by
    refine ⟨now, token, user, write, by rw [phase_set, if_pos rfl], ?_⟩
    simp [LinkState.commit, LinkState.set]
  exact (Lts.Run.single hflush).snoc hcommit

end Moves

/-- Two users of two tenants, with a token each. -/
def raceUser (id tenantId : String) : LinkedUser where
  id
  tenantId
  telegramAccountId := none
  tgAccountHash := none
  maxAccountId := none
  maxChatId := none

def raceToken (tokenHash tenantId sourceUserId : String) : ChannelLinkToken where
  tokenHash
  tenantId
  sourceChannel := "telegram"
  targetChannel := "max"
  sourceUserId := some sourceUserId
  expiresAt := 900
  usedAt := none

def raceTokenA : ChannelLinkToken := raceToken "AAAAAAAAAAAAAAAAAAAAAAAAAAAAAAAA" "t1" "u1"

def raceTokenB : ChannelLinkToken := raceToken "BBBBBBBBBBBBBBBBBBBBBBBBBBBBBBBB" "t2" "u2"

def raceStart : LinkState where
  users := ⟨[raceUser "u1" "t1", raceUser "u2" "t2"], by decide⟩
  tokens := ⟨[raceTokenA, raceTokenB], by decide⟩
  phase _ := .idle

/-- One MAX account opens both links. -/
def raceArgs (i : ℕ) : LinkArgs where
  rawToken := if i = 0 then raceTokenA.tokenHash else raceTokenB.tokenHash
  targetChannel := "max"
  targetAccountId := "m"
  targetChatId := some "c"

/-- Both calls search before one of them commits: the two users share the MAX account. -/
theorem max_shared :
    ¬ ∀ (hashToken hashTgAccount : String → String) (args : ℕ → LinkArgs) (s : LinkState) (as : List (ℕ × LinkEvent))
      (t : LinkState), (linking hashToken hashTgAccount args).init s → (linking hashToken hashTgAccount args).Run s as t →
      ∀ user ∈ t.users.rows, ∀ other ∈ t.users.rows, user.id ≠ other.id →
        SharedBefore LinkedUser.maxAccountId s.users user other := by
  intro hall
  have hinit : (linking id id raceArgs).init raceStart := by
    have hnone : ∀ user ∈ raceStart.users.rows, user.tgAccountHash = none := by decide
    refine ⟨fun _ => rfl, by decide, fun user huser _ _ hash hhash => ?_⟩
    rw [hnone user huser] at hhash
    cases hhash
  let first : LinkState := raceStart.set 0 (.cleared 0 raceTokenA (raceUser "u1" "t1") (.max "m" "c"))
  let second : LinkState := first.set 1 (.cleared 0 raceTokenB (raceUser "u2" "t2") (.max "m" "c"))
  let third : LinkState := second.commit id 0 0 raceTokenA (raceUser "u1" "t1") (.max "m" "c")
  let last : LinkState := third.commit id 1 0 raceTokenB (raceUser "u2" "t2") (.max "m" "c")
  have hfirst : (linking id id raceArgs).Run raceStart
      [(0, .begin 0), (0, .preRead true), (0, .burn), (0, .lockUser), (0, .collide)] first := by
    refine run_collide rfl ?_ (show _ = some raceTokenA from rfl) ?_ ?_ (show _ = some (raceUser "u1" "t1") from rfl)
      fun _ _ => ⟨by rintro ⟨⟩, by rintro ⟨⟩⟩ <;> decide
  have hsecond : (linking id id raceArgs).Run first
      [(1, .begin 0), (1, .preRead true), (1, .burn), (1, .lockUser), (1, .collide)] second := by
    have hfree : ∀ j, j ≠ 1 → (first.phase j).tokenKey? ≠ some raceTokenB.tokenHash ∧ (first.phase j).userKey? ≠ some "u2" := by
      intro j _
      rw [phase_set]
      split
      · decide
      · exact ⟨by rintro ⟨⟩, by rintro ⟨⟩⟩
    refine run_collide rfl ?_ (show _ = some raceTokenB from rfl) ?_ ?_ (show _ = some (raceUser "u2" "t2") from rfl) hfree <;>
      decide
  have hthird : (linking id id raceArgs).Run second _ third := run_commit rfl rfl
  have hlast : (linking id id raceArgs).Run third _ last := run_commit rfl rfl
  have hshared := hall id id raceArgs raceStart _ last hinit (((hfirst.trans hsecond).trans hthird).trans hlast)
    { raceUser "u1" "t1" with maxAccountId := some "m", maxChatId := some "c" } (by decide)
    { raceUser "u2" "t2" with maxAccountId := some "m", maxChatId := some "c" } (by decide) (by decide) "m" rfl rfl
  obtain ⟨user₀, huser₀, _, _, _, _, hmax, _⟩ := hshared
  have hnone : ∀ user ∈ raceStart.users.rows, user.maxAccountId = none := by decide
  rw [hnone user₀ huser₀] at hmax
  cases hmax

end Sreda.Services
