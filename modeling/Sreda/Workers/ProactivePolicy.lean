import Sreda.Lib.PyText
import Sreda.Lib.Throttle
import Sreda.Workers.DeliveryPolicy
import Sreda.Workers.OutboxDelivery

/-!
# The throttle of the proactive policy

`decide_proactive` for one user and one skill, and the run in which each decision is carried
out: a row is written for it, what is sent is delivered at once and what is deferred is
delivered at its defer time.

Rows hold the dict that `payload_json` encodes. The embedding client and the cosine similarity are
parameters, and so is `int` of a text.

The throttle goes by the creation times of the rows. A deferred message has its row created
before the window that it waits for is over, so the message after it is deferred to the same
time, or sent too soon after. `SettledRun` is the condition on a run under which this does not
happen; it is exact.
-/

namespace Sreda.Workers

open Sreda.Planner Sreda.Lib Sreda.Lib.Throttle

/-- The columns of `OutboxMessage` that the policy reads and writes. -/
structure ProactiveRow where
  userId : Option String
  featureKey : Option String
  isInteractive : Bool
  status : OutboxStatus
  createdAt : ℤ
  scheduledAt : Option ℤ
  dropReason : Option String
  payload : Dict

/-- `ProactiveDecision`, with its kind and its reason. -/
inductive PolicyDecision where
  | send (reason : String)
  | defer (deferUntilUtc : ℤ) (reason : String)
  | drop (dropReason reason : String)
  deriving DecidableEq

/-- A proactive reply that a handler wants to send, with the payload that it adds. -/
structure ProactiveMessage where
  decidedAt : ℤ
  text : String
  extraPayload : Dict

/-- The user and the skill, and what the policy is given besides the rows. -/
structure PolicyEnv (V : Type) where
  userId : String
  featureKey : String
  profile : Option Dict
  /-- `embed_document`, when there is a client; it may raise. -/
  embedDocument : Option (String → Option V)
  cosineSimilarity : V → V → ℚ
  parseInt : String → Option ℤ

/-- `timedelta(minutes=1)`. -/
def minuteLength : ℤ := 60000000

/-- `DUPLICATE_COSINE_THRESHOLD`. -/
def duplicateCosineThreshold : ℚ := 1

/-- The row is a proactive one for the user and the skill. -/
def ProactiveRow.IsFor (userId featureKey : String) (row : ProactiveRow) : Prop :=
  row.userId = some userId ∧ row.featureKey = some featureKey ∧ row.isInteractive = false

instance (userId featureKey : String) (row : ProactiveRow) : Decidable (row.IsFor userId featureKey) :=
  inferInstanceAs (Decidable (_ ∧ _ ∧ _))

/-- `_recent_proactive_outbox`. -/
def recentProactiveOutbox (outbox : List ProactiveRow) (userId featureKey : String) (since : ℤ) :
    List ProactiveRow :=
  (outbox.filter fun row => row.IsFor userId featureKey ∧ row.createdAt ≥ since).insertionSort
    fun a b => b.createdAt ≤ a.createdAt

/-- `text.strip()`. -/
def stripText (text : String) : String := String.ofList (PyText.strip text.toList)

/-- `_decode_outbox_text`. -/
def decodeOutboxText (row : ProactiveRow) : String :=
  match row.payload.lookup "text" with
  | some (.str text) => stripText text
  | _ => ""

/-- `_throttle_defer_until`. -/
def throttleDeferUntil (recent : List ProactiveRow) (nowUtc throttleMinutes : ℤ) : Option ℤ :=
  let window := throttleMinutes * minuteLength
  let cutoff := nowUtc - window
  let touching := recent.filter fun row => (row.status = .sent ∨ row.status = .pending) ∧ row.createdAt ≥ cutoff
  (touching.map ProactiveRow.createdAt).min?.map (· + window)

variable {message : ProactiveMessage} {messages : List ProactiveMessage}

section Policy

variable {V : Type} (env : PolicyEnv V)

/-- `_is_duplicate`. -/
def isDuplicate (newText : String) (recent : List ProactiveRow) : Bool :=
  let newTextNorm := stripText newText
  if newTextNorm = "" then
    false
  else
    let recentTexts := (recent.map decodeOutboxText).filter (· ≠ "")
    if recentTexts.any (· == newTextNorm) then
      true
    else
      match env.embedDocument with
      | none => false
      | some embed =>
        match embed newTextNorm with
        | none => false
        | some newVec =>
          recentTexts.any fun text =>
            match embed text with
            | none => false
            | some vec => duplicateCosineThreshold ≤ env.cosineSimilarity newVec vec

/-- `int((profile or {}).get("proactive_throttle_minutes", 0) or 0)`, when it does not raise. -/
def throttleMinutes : Option ℤ :=
  intOf env.parseInt (orElse ((env.profile.getD []).lookup "proactive_throttle_minutes") (.int 0))

/-- The rows of the last `DUPLICATE_LOOKBACK_HOURS`. -/
def recentRows (outbox : List ProactiveRow) (nowUtc : ℤ) : List ProactiveRow :=
  recentProactiveOutbox outbox env.userId env.featureKey (nowUtc - 24 * hourLength)

/-- `decide_proactive`, when it does not raise. -/
def decideProactive (outbox : List ProactiveRow) (replyText : String) (nowUtc : ℤ) : Option PolicyDecision :=
  if env.userId = "" then
    some (.send "no_user")
  else
    let recent := recentRows env outbox nowUtc
    if isDuplicate env replyText recent then
      some (.drop "duplicate" "similar message sent in last 24h")
    else
      match throttleMinutes env with
      | none => none
      | some minutes =>
        if minutes > 0 then
          match throttleDeferUntil recent nowUtc minutes with
          | some deferUntil => some (.defer deferUntil "throttle")
          | none => some (.send "default")
        else
          some (.send "default")

/-! ## Carrying the decisions out -/

/-- `_write_outbox_with_decision`, for one routing. Of the payload the text is read again, and
the extra payload may put another one in its place. -/
def writeOutboxWithDecision (message : ProactiveMessage) (decision : PolicyDecision) : ProactiveRow where
  userId := some env.userId
  featureKey := some env.featureKey
  isInteractive := false
  status := match decision with
    | .drop _ _ => .dropped
    | _ => .pending
  createdAt := message.decidedAt
  scheduledAt := match decision with
    | .defer deferUntil _ => some deferUntil
    | _ => none
  dropReason := match decision with
    | .drop dropReason _ => some dropReason
    | _ => none
  payload := message.extraPayload ++ [("text", .str message.text)]

/-- The rows that are due are delivered: at once without a schedule, else at its time. -/
def deliverDue (now : ℤ) (outbox : List ProactiveRow) : List ProactiveRow :=
  outbox.map fun row =>
    if row.status = .pending ∧ ∀ t ∈ row.scheduledAt, t ≤ now then { row with status := .sent } else row

/-- One message: what is due is delivered, then it is decided and its row is written. A call
that raises writes none. -/
def carryOut (outbox : List ProactiveRow) (message : ProactiveMessage) : List ProactiveRow :=
  let outbox := deliverDue message.decidedAt outbox
  match decideProactive env outbox message.text message.decidedAt with
  | some decision => outbox ++ [writeOutboxWithDecision env message decision]
  | none => outbox

/-- The messages one after the other. -/
def carryOutAll (outbox : List ProactiveRow) (messages : List ProactiveMessage) : List ProactiveRow :=
  messages.foldl (carryOut env) outbox

/-- When the message of a row is or will be delivered. -/
def ProactiveRow.deliveredAt (row : ProactiveRow) : Option ℤ :=
  if row.status = .sent ∨ row.status = .pending then some (row.scheduledAt.getD row.createdAt) else none

/-- **The rate limit**: the messages of two rows are delivered a window apart, and none is
deferred to a time before its decision. -/
def RateLimited (window : ℤ) (outbox : List ProactiveRow) : Prop :=
  (∀ a ∈ outbox, ∀ b ∈ outbox, a.IsFor env.userId env.featureKey → b.IsFor env.userId env.featureKey →
      a.createdAt < b.createdAt → ∀ d ∈ a.deliveredAt, ∀ d' ∈ b.deliveredAt, d + window ≤ d' ∨ d' + window ≤ d) ∧
    ∀ row ∈ outbox, row.IsFor env.userId env.featureKey → ∀ t ∈ row.scheduledAt, row.createdAt ≤ t

/-- The deliveries of the rows for the user and the skill, as the log of a throttle. -/
def logOf (outbox : List ProactiveRow) : List Entry :=
  (outbox.filter fun row => row.IsFor env.userId env.featureKey ∧ (row.status = .sent ∨ row.status = .pending)).map
    fun row => ⟨row.createdAt, row.scheduledAt.getD row.createdAt⟩

/-- **The condition on a run**: whenever a message is decided that is no duplicate, every
delivery for the user and the skill that is not a window old was made without a wait and lies in the look-back. -/
def SettledRun (window : ℤ) : List ProactiveRow → List ProactiveMessage → Prop
  | _, [] => True
  | outbox, message :: messages =>
    (isDuplicate env message.text (recentRows env (deliverDue message.decidedAt outbox) message.decidedAt) = false →
        Settled window (24 * hourLength) (logOf env outbox) message.decidedAt) ∧
      SettledRun window (carryOut env outbox message) messages

/-! ## The log of the rows -/

variable {env} {outbox : List ProactiveRow} {window : ℤ}

theorem logOf_append (outbox' : List ProactiveRow) : logOf env (outbox ++ outbox') = logOf env outbox ++ logOf env outbox' := by
  simp only [logOf, List.filter_append, List.map_append]

theorem mem_logOf {e : Entry} :
    e ∈ logOf env outbox ↔ ∃ row ∈ outbox, row.IsFor env.userId env.featureKey ∧
      ∃ d ∈ row.deliveredAt, e = ⟨row.createdAt, d⟩ := by
  simp only [logOf, List.mem_map, List.mem_filter, decide_eq_true_eq]
  constructor
  · rintro ⟨row, ⟨hrow, hfor, hstatus⟩, rfl⟩
    exact ⟨row, hrow, hfor, _, by rw [ProactiveRow.deliveredAt, if_pos hstatus]; rfl, rfl⟩
  · rintro ⟨row, hrow, hfor, d, hd, rfl⟩
    rw [ProactiveRow.deliveredAt] at hd
    split at hd
    · rename_i hstatus
      obtain rfl := Option.mem_some_iff.1 hd
      exact ⟨row, ⟨hrow, hfor, hstatus⟩, rfl⟩
    · cases hd

/-- To deliver what is due leaves the log as it is. -/
theorem logOf_deliverDue (now : ℤ) (outbox : List ProactiveRow) : logOf env (deliverDue now outbox) = logOf env outbox := by
  induction outbox with
  | nil => rfl
  | cons row outbox ih =>
    have hhead : logOf env (deliverDue now [row]) = logOf env [row] := by
      simp only [deliverDue, List.map_cons, List.map_nil]
      split
      · rename_i hdue
        simp [logOf, ProactiveRow.IsFor, hdue.1, List.filter_cons, apply_ite (List.map _)]
      · rfl
    calc logOf env (deliverDue now (row :: outbox))
        = logOf env (deliverDue now [row] ++ deliverDue now outbox) := rfl
      _ = logOf env ([row] ++ outbox) := by rw [logOf_append, hhead, ih, ← logOf_append]

/-- The least element depends on membership only. -/
theorem min?_congr {l l' : List ℤ} (h : ∀ x, x ∈ l ↔ x ∈ l') : l.min? = l'.min? := by
  refine Option.ext fun x => ?_
  rw [List.min?_eq_some_iff, List.min?_eq_some_iff, h]
  simp only [h]

/-- The defer time, or else the present one, is the release of the throttle. -/
theorem throttleDeferUntil_eq (env : PolicyEnv V) (outbox : List ProactiveRow) (nowUtc minutes : ℤ) :
    (throttleDeferUntil (recentRows env outbox nowUtc) nowUtc minutes).getD nowUtc =
      releaseAt (minutes * minuteLength) (24 * hourLength) (logOf env outbox) nowUtc := by
  have hmem : ∀ t, t ∈ ((recentRows env outbox nowUtc).filter fun row => (row.status = .sent ∨ row.status = .pending) ∧
        row.createdAt ≥ nowUtc - minutes * minuteLength).map ProactiveRow.createdAt ↔
      t ∈ ((logOf env outbox).filter fun e => Touches (minutes * minuteLength) (24 * hourLength) nowUtc e).map
        Entry.decided := by
    intro t
    simp only [recentRows, recentProactiveOutbox, logOf, List.mem_map, List.mem_filter, List.mem_insertionSort,
      decide_eq_true_eq]
    constructor
    · rintro ⟨row, ⟨⟨hrow, hfor, hsince⟩, hstatus, hcutoff⟩, rfl⟩
      exact ⟨_, ⟨⟨row, ⟨hrow, hfor, hstatus⟩, rfl⟩, hsince, hcutoff⟩, rfl⟩
    · rintro ⟨_, ⟨⟨row, ⟨hrow, hfor, hstatus⟩, rfl⟩, hsince, hcutoff⟩, rfl⟩
      exact ⟨row, ⟨⟨hrow, hfor, hsince⟩, hstatus, hcutoff⟩, rfl⟩
  simp only [throttleDeferUntil, releaseAt, min?_congr hmem]
  generalize List.min? (_ : List ℤ) = oldest
  cases oldest <;> rfl

/-- A row of this environment is in the log when it is not dropped. -/
theorem logOf_written (message : ProactiveMessage) (decision : PolicyDecision) :
    logOf env [writeOutboxWithDecision env message decision] =
      match decision with
      | .send _ => [⟨message.decidedAt, message.decidedAt⟩]
      | .defer deferUntil _ => [⟨message.decidedAt, deferUntil⟩]
      | .drop _ _ => [] := by
  cases decision <;> simp [logOf, writeOutboxWithDecision, ProactiveRow.IsFor]

section Run

variable {minutes : ℤ} (huser : env.userId ≠ "") (hminutes : throttleMinutes env = some minutes) (hpos : 0 < minutes)

include huser hminutes hpos

/-- **What one message adds to the log**: nothing when it is a duplicate, else its release. -/
theorem logOf_carryOut (outbox : List ProactiveRow) (message : ProactiveMessage) :
    logOf env (carryOut env outbox message) =
      if isDuplicate env message.text (recentRows env (deliverDue message.decidedAt outbox) message.decidedAt) then
        logOf env outbox
      else
        logOf env outbox ++ [⟨message.decidedAt,
          releaseAt (minutes * minuteLength) (24 * hourLength) (logOf env outbox) message.decidedAt⟩] := by
  have hrelease := throttleDeferUntil_eq env (deliverDue message.decidedAt outbox) message.decidedAt minutes
  rw [logOf_deliverDue] at hrelease
  simp only [carryOut, decideProactive, huser, if_false, hminutes, gt_iff_lt, hpos, if_true]
  split
  · rename_i decision hdecision
    rw [logOf_append, logOf_deliverDue, logOf_written]
    split at hdecision
    · rename_i hdup
      obtain rfl := Option.some_inj.1 hdecision
      rw [if_pos hdup, List.append_nil]
    · rename_i hdup
      rw [if_neg hdup, ← hrelease]
      split at hdecision
      · rename_i deferUntil hdefer
        obtain rfl := Option.some_inj.1 hdecision
        rw [hdefer]
        rfl
      · rename_i hdefer
        obtain rfl := Option.some_inj.1 hdecision
        rw [hdefer]
        rfl
  · rename_i hdecision
    split at hdecision
    · cases hdecision
    · split at hdecision <;> cases hdecision

/-- A row for the user and the skill was in the outbox, or was written for the message. -/
theorem mem_carryOut {row : ProactiveRow} (hrow : row ∈ carryOut env outbox message) :
    (∃ old ∈ outbox, row.IsFor env.userId env.featureKey = old.IsFor env.userId env.featureKey ∧
        row.createdAt = old.createdAt ∧ row.scheduledAt = old.scheduledAt) ∨
      row.createdAt = message.decidedAt ∧ ∀ t ∈ row.scheduledAt, row.createdAt ≤ t := by
  have hold : ∀ row ∈ deliverDue message.decidedAt outbox, ∃ old ∈ outbox,
      row.IsFor env.userId env.featureKey = old.IsFor env.userId env.featureKey ∧
        row.createdAt = old.createdAt ∧ row.scheduledAt = old.scheduledAt := by
    intro row hrow
    obtain ⟨old, hold, rfl⟩ := List.mem_map.1 hrow
    exact ⟨old, hold, by split <;> exact ⟨rfl, rfl, rfl⟩⟩
  have hrelease := throttleDeferUntil_eq env (deliverDue message.decidedAt outbox) message.decidedAt minutes
  simp only [carryOut, decideProactive, huser, if_false, hminutes, gt_iff_lt, hpos, if_true] at hrow
  split at hrow
  · rename_i decision hdecision
    rcases List.mem_append.1 hrow with hrow | hrow
    · exact .inl (hold row hrow)
    · obtain rfl := List.mem_singleton.1 hrow
      refine .inr ⟨rfl, ?_⟩
      intro t ht
      split at hdecision
      · obtain rfl := Option.some_inj.1 hdecision
        cases ht
      · split at hdecision
        · rename_i deferUntil hdefer
          obtain rfl := Option.some_inj.1 hdecision
          obtain rfl := Option.mem_some_iff.1 ht
          rw [hdefer, Option.getD_some] at hrelease
          exact (le_releaseAt _ _).trans_eq hrelease.symm
        · obtain rfl := Option.some_inj.1 hdecision
          cases ht
  · exact .inl (hold row hrow)

theorem logOf_subset_carryOut (message : ProactiveMessage) : logOf env outbox ⊆ logOf env (carryOut env outbox message) := by
  rw [logOf_carryOut huser hminutes hpos]
  split
  · exact List.Subset.refl _
  · exact List.subset_append_left _ _

theorem logOf_subset_carryOutAll (outbox : List ProactiveRow) (messages : List ProactiveMessage) :
    logOf env outbox ⊆ logOf env (carryOutAll env outbox messages) := by
  induction messages generalizing outbox with
  | nil => exact List.Subset.refl _
  | cons message messages ih => exact List.Subset.trans (logOf_subset_carryOut huser hminutes hpos message) (ih _)

theorem decided_lt_carryOut (hbefore : ∀ m ∈ message :: messages, ∀ e ∈ logOf env outbox, e.decided < m.decidedAt)
    (hincreasing : (message :: messages).Pairwise fun a b => a.decidedAt < b.decidedAt) :
    ∀ m ∈ messages, ∀ e ∈ logOf env (carryOut env outbox message), e.decided < m.decidedAt := by
  intro m hm e he
  rw [logOf_carryOut huser hminutes hpos] at he
  split at he
  · exact hbefore m (List.mem_cons_of_mem _ hm) e he
  · rcases List.mem_append.1 he with he | he
    · exact hbefore m (List.mem_cons_of_mem _ hm) e he
    · obtain rfl := List.mem_singleton.1 he
      exact (List.pairwise_cons.1 hincreasing).1 m hm

/-- A message that meets the condition keeps the log regular. -/
theorem Regular.carryOut (h : Regular (minutes * minuteLength) (24 * hourLength) (logOf env outbox))
    (hbefore : ∀ e ∈ logOf env outbox, e.decided < message.decidedAt)
    (hsettled : isDuplicate env message.text
        (recentRows env (deliverDue message.decidedAt outbox) message.decidedAt) = false →
      Settled (minutes * minuteLength) (24 * hourLength) (logOf env outbox) message.decidedAt) :
    Regular (minutes * minuteLength) (24 * hourLength) (logOf env (carryOut env outbox message)) := by
  rw [logOf_carryOut huser hminutes hpos]
  split
  · exact h
  · rename_i hdup
    exact h.push hbefore (hsettled (by simpa using hdup))

/-- A run that meets the condition keeps the log regular. -/
theorem SettledRun.regular (h : Regular (minutes * minuteLength) (24 * hourLength) (logOf env outbox))
    (hbefore : ∀ m ∈ messages, ∀ e ∈ logOf env outbox, e.decided < m.decidedAt)
    (hincreasing : messages.Pairwise fun a b => a.decidedAt < b.decidedAt)
    (hsettled : SettledRun env (minutes * minuteLength) outbox messages) :
    Regular (minutes * minuteLength) (24 * hourLength) (logOf env (carryOutAll env outbox messages)) := by
  induction messages generalizing outbox with
  | nil => exact h
  | cons message messages ih =>
    have hstep := Regular.carryOut huser hminutes hpos h (hbefore message List.mem_cons_self) hsettled.1
    exact ih hstep (decided_lt_carryOut huser hminutes hpos hbefore hincreasing) (List.pairwise_cons.1 hincreasing).2
      hsettled.2

/-- In a run that keeps the deliveries apart, every message meets the condition. -/
theorem settledRun_of_spaced (h : Regular (minutes * minuteLength) (24 * hourLength) (logOf env outbox))
    (hbefore : ∀ m ∈ messages, ∀ e ∈ logOf env outbox, e.decided < m.decidedAt)
    (hincreasing : messages.Pairwise fun a b => a.decidedAt < b.decidedAt)
    (hspaced : Spaced (minutes * minuteLength) (logOf env (carryOutAll env outbox messages))) :
    SettledRun env (minutes * minuteLength) outbox messages := by
  induction messages generalizing outbox with
  | nil => trivial
  | cons message messages ih =>
    have hhead := hbefore message List.mem_cons_self
    have hsettled : isDuplicate env message.text
          (recentRows env (deliverDue message.decidedAt outbox) message.decidedAt) = false →
        Settled (minutes * minuteLength) (24 * hourLength) (logOf env outbox) message.decidedAt := by
      intro hdup
      by_contra hnot
      obtain ⟨r, hr, hclose⟩ := h.exists_not_apart (by simp only [minuteLength]; omega) hhead hnot
      have hlog := logOf_carryOut huser hminutes hpos outbox message
      rw [if_neg (by simp [hdup])] at hlog
      have hrest := logOf_subset_carryOutAll huser hminutes hpos (carryOut env outbox message) messages
      rw [hlog] at hrest
      exact hclose (hspaced r (hrest (List.mem_append_left _ hr)) _
        (hrest (List.mem_append_right _ List.mem_cons_self)) (hhead r hr))
    have hstep := Regular.carryOut huser hminutes hpos h hhead hsettled
    exact ⟨hsettled, ih hstep (decided_lt_carryOut huser hminutes hpos hbefore hincreasing)
      (List.pairwise_cons.1 hincreasing).2 hspaced⟩

/-- No row is deferred to a time before its decision. -/
theorem le_scheduledAt_carryOutAll
    (h : ∀ row ∈ outbox, row.IsFor env.userId env.featureKey → ∀ t ∈ row.scheduledAt, row.createdAt ≤ t) :
    ∀ row ∈ carryOutAll env outbox messages, row.IsFor env.userId env.featureKey →
      ∀ t ∈ row.scheduledAt, row.createdAt ≤ t := by
  induction messages generalizing outbox with
  | nil => exact h
  | cons message messages ih =>
    refine ih fun row hrow hfor t ht => ?_
    rcases mem_carryOut huser hminutes hpos hrow with ⟨old, hold, hfor', hcreated, hscheduled⟩ | ⟨-, hle⟩
    · rw [hcreated]
      exact h old hold (hfor' ▸ hfor) t (hscheduled ▸ ht)
    · exact hle t ht

end Run

theorem rateLimited_iff :
    RateLimited env window outbox ↔ Spaced window (logOf env outbox) ∧
      ∀ row ∈ outbox, row.IsFor env.userId env.featureKey → ∀ t ∈ row.scheduledAt, row.createdAt ≤ t := by
  refine and_congr_left fun _ => ?_
  constructor
  · intro h a ha b hb hlt
    obtain ⟨row, hrow, hfor, d, hd, rfl⟩ := mem_logOf.1 ha
    obtain ⟨row', hrow', hfor', d', hd', rfl⟩ := mem_logOf.1 hb
    exact h row hrow row' hrow' hfor hfor' hlt d hd d' hd'
  · intro h a ha b hb hfor hfor' hlt d hd d' hd'
    exact h ⟨_, d⟩ (mem_logOf.2 ⟨a, ha, hfor, d, hd, rfl⟩) ⟨_, d'⟩ (mem_logOf.2 ⟨b, hb, hfor', d', hd', rfl⟩) hlt

end Policy

/-- **The rate is limited exactly in the runs whose steps meet the condition.** -/
theorem rateLimited_carryOutAll_iff {V : Type} (env : PolicyEnv V) (outbox : List ProactiveRow)
    (messages : List ProactiveMessage) (minutes : ℤ) (huser : env.userId ≠ "")
    (hminutes : throttleMinutes env = some minutes) (hpos : 0 < minutes)
    (hothers : ∀ row ∈ outbox, ¬ row.IsFor env.userId env.featureKey)
    (hincreasing : messages.Pairwise fun a b => a.decidedAt < b.decidedAt) :
    RateLimited env (minutes * minuteLength) (carryOutAll env outbox messages) ↔
      SettledRun env (minutes * minuteLength) outbox messages := by
  have hempty : logOf env outbox = [] := by
    rw [List.eq_nil_iff_forall_not_mem]
    intro e he
    obtain ⟨row, hrow, hfor, -⟩ := mem_logOf.1 he
    exact hothers row hrow hfor
  have hregular : Regular (minutes * minuteLength) (24 * hourLength) (logOf env outbox) := hempty ▸ Regular.nil
  have hbefore : ∀ m ∈ messages, ∀ e ∈ logOf env outbox, e.decided < m.decidedAt := by
    rw [hempty]
    exact fun _ _ _ h => absurd h List.not_mem_nil
  rw [rateLimited_iff]
  constructor
  · rintro ⟨hspaced, -⟩
    exact settledRun_of_spaced huser hminutes hpos hregular hbefore hincreasing hspaced
  · intro hsettled
    exact ⟨(SettledRun.regular huser hminutes hpos hregular hbefore hincreasing hsettled).spaced,
      le_scheduledAt_carryOutAll huser hminutes hpos fun row hrow hfor => absurd hfor (hothers row hrow)⟩

/-- A user with a throttle of half an hour, and no client for embeddings. -/
def halfHourEnv : PolicyEnv Unit where
  userId := "u1"
  featureKey := "skill_a"
  profile := some [("proactive_throttle_minutes", .int 30)]
  embedDocument := none
  cosineSimilarity _ _ := 0
  parseInt _ := none

/-- Three messages, five minutes apart. -/
def burst : List ProactiveMessage :=
  [⟨0, "a", []⟩, ⟨300000000, "b", []⟩, ⟨600000000, "c", []⟩]

/-- The rows of the burst: the first message is sent, the others are deferred to one time. -/
def burstRows : List ProactiveRow :=
  [⟨some "u1", some "skill_a", false, .sent, 0, none, none, [("text", .str "a")]⟩,
    ⟨some "u1", some "skill_a", false, .pending, 300000000, some 1800000000, none, [("text", .str "b")]⟩,
    ⟨some "u1", some "skill_a", false, .pending, 600000000, some 1800000000, none, [("text", .str "c")]⟩]

theorem carryOutAll_burst : carryOutAll halfHourEnv [] burst = burstRows := rfl

/-- The second and the third message of a burst come at one time. -/
theorem not_rateLimited_burst :
    burst.Pairwise (fun a b => a.decidedAt < b.decidedAt) ∧ throttleMinutes halfHourEnv = some 30 ∧
      ¬ RateLimited halfHourEnv (30 * minuteLength) (carryOutAll halfHourEnv [] burst) := by
  refine ⟨by simp [burst], rfl, fun h => ?_⟩
  rw [carryOutAll_burst] at h
  have hlate := h.1 burstRows[1] (by simp [burstRows]) burstRows[2] (by simp [burstRows]) ⟨rfl, rfl, rfl⟩
    ⟨rfl, rfl, rfl⟩ (by decide) 1800000000 rfl 1800000000 rfl
  simp [minuteLength] at hlate

/-- The first two messages of the burst meet the condition. -/
theorem rateLimited_two_messages :
    RateLimited halfHourEnv (30 * minuteLength) (carryOutAll halfHourEnv [] (burst.take 2)) ↔
      SettledRun halfHourEnv (30 * minuteLength) [] (burst.take 2) :=
  rateLimited_carryOutAll_iff halfHourEnv [] (burst.take 2) 30 (by decide) rfl (by decide)
    (fun _ h => absurd h List.not_mem_nil) (by simp [burst])

end Sreda.Workers
