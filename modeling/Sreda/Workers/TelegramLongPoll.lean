import Sreda.Workers.TelegramQueueing

/-!
# The long poller

`workers/telegram_long_poll.py`, `run_forever`, one process for each bot: it asks for the updates from
the saved offset on, hands one after the other to `handle_telegram_update`, and saves the offset after
each. Whatever raises, and a crash, takes the poller back to the saved offset.

The numbers of the updates of a bot are a parameter. `getUpdates` answers with the first of them from
the offset on, in their order. `fates` is not stored: it is what `handle_telegram_update` has last
decided about an update.

## What is proved

An update below the saved offset was dropped, ignored or processed inline, or it has a job of its own,
in every run in which an update that goes to the queue gets there: nothing fails between its two
transactions, the second is not lost, and the tables of inbound messages and of jobs agree on it
(`no_update_lost`). A crash between the transactions loses the update: the next delivery is taken for
a duplicate, and the offset passes it.
-/

namespace Sreda.Workers

open Sreda.Lib

/-! ### The poller -/

/-- An update with an integer id; others are skipped. -/
structure PolledUpdate where
  number : ℕ
  update : TelegramUpdate
  updateId_eq : update.updateId = .int number

/-- Where a poller is. -/
inductive PollPhase where
  /-- In a batch, before the next update; after the last one a new batch is fetched. -/
  | batch (rest : List PolledUpdate)
  /-- In `handle_telegram_update`, between the two transactions. -/
  | persisted (current : PolledUpdate) (inv : Invocation) (rest : List PolledUpdate)
  /-- `handle_telegram_update` has returned, and the offset is not saved yet. -/
  | handled (current : PolledUpdate) (rest : List PolledUpdate)

/-- The poller of a bot. -/
structure Poller where
  /-- `PollerOffset.last_update_id + 1`; `self.offset` is the same. -/
  offset : ℕ := 0
  phase : PollPhase := .batch []

/-- The tables, and the pollers of the bots. -/
structure PollState where
  ingest : IngestState
  pollers : String → Poller
  fates : String → ℕ → Option Fate

namespace PollState

/-- Nothing has been fetched. -/
def empty : PollState := ⟨.empty, fun _ => {}, fun _ _ => none⟩

variable (s : PollState) (botKey : String)

/-- The poller of a bot gets to another point. -/
def put (p : Poller) : PollState := { s with pollers := Function.update s.pollers botKey p }

@[simp] theorem put_self {p : Poller} : (s.put botKey p).pollers botKey = p := Function.update_self ..

theorem put_of_ne {bot : String} (h : bot ≠ botKey) {p : Poller} : (s.put botKey p).pollers bot = s.pollers bot :=
  Function.update_of_ne h ..

/-- The poller goes on. -/
def move (phase : PollPhase) : PollState := s.put botKey { s.pollers botKey with phase }

/-- A decision is taken. -/
def judge (number : ℕ) (fate : Fate) : PollState :=
  { s with fates := fun bot n => if bot = botKey ∧ n = number then some fate else s.fates bot n }

theorem fates_judge {number : ℕ} {fate : Fate} : (s.judge botKey number fate).fates botKey number = some fate :=
  if_pos ⟨rfl, rfl⟩

theorem fates_judge_of_ne {bot : String} {number n : ℕ} {fate : Fate} (h : bot ≠ botKey ∨ n ≠ number) :
    (s.judge botKey number fate).fates bot n = s.fates bot n :=
  if_neg fun ⟨hbot, hn⟩ => h.elim (fun hne => hne hbot) fun hne => hne hn

/-- The update is there already. -/
def isDuplicate (update : TelegramUpdate) : Bool :=
  (update.updateId.extract.bind (findDuplicateInbound s.ingest.inbound "telegram" botKey)).isSome

/-- `handle_telegram_update` up to the queue. -/
def persist (current : PolledUpdate) (rest : List PolledUpdate) (env : IngressEnv) (inboundId : String) : Option PollState :=
  (s.ingest.persist botKey current.update env inboundId).map fun ingest =>
    if s.isDuplicate botKey current.update then s.move botKey (.handled current rest)
    else if env.fate current.update = .queue then
      ({ s with ingest }.judge botKey current.number .queue).move botKey
        (.persisted current ⟨botKey, current.update, inboundId, env.tenantId⟩ rest)
    else ({ s with ingest }.judge botKey current.number (env.fate current.update)).move botKey (.handled current rest)

/-- `_save_offset`. -/
def saveOffset (current : PolledUpdate) (rest : List PolledUpdate) : PollState :=
  s.put botKey ⟨current.number + 1, .batch rest⟩

/-- The poller begins anew. A call between its two transactions is gone. -/
def restart : PollState :=
  match (s.pollers botKey).phase with
  | .persisted _ inv _ => { s with ingest := s.ingest.abandon inv }.move botKey (.batch [])
  | _ => s.move botKey (.batch [])

end PollState

/-- A step. -/
inductive PollEvent where
  | fetch (botKey : String) (updates : List PolledUpdate)
  | drop (botKey : String) (env : IngressEnv)
  | persist (botKey : String) (env : IngressEnv) (inboundId : String)
  | enqueue (botKey jobId : String) (now : ℤ) (fault : EnqueueFault)
  | save (botKey : String)
  /-- A crash, or something raises. -/
  | restart (botKey : String)
  /-- A statement of a worker. -/
  | work (now : ℤ) (call : Call)

/-- `getUpdates` answers with the first updates from the offset on. -/
def Answers (stream : ℕ → Prop) (offset : ℕ) (updates : List PolledUpdate) : Prop :=
  (updates.map (·.number)).Pairwise (· < ·) ∧ (∀ update ∈ updates, offset ≤ update.number) ∧
    ∀ n, stream n → offset ≤ n → n ∈ updates.map (·.number) ∨ ∀ update ∈ updates, update.number < n

/-- The pollers of all bots, with the workers at work. -/
def polling (dumps : Invocation → String) (stream : String → ℕ → Prop) : Lts PollState PollEvent where
  init s := s = .empty
  step s event t :=
    match event with
    | .fetch botKey updates =>
      (s.pollers botKey).phase = .batch [] ∧ Answers (stream botKey) (s.pollers botKey).offset updates ∧
        t = s.move botKey (.batch updates)
    | .drop botKey env =>
      ∃ current rest, (s.pollers botKey).phase = .batch (current :: rest) ∧ env.fate current.update = .dropped ∧
        t = (s.judge botKey current.number .dropped).move botKey (.handled current rest)
    | .persist botKey env inboundId =>
      ∃ current rest, (s.pollers botKey).phase = .batch (current :: rest) ∧ env.fate current.update ≠ .dropped ∧
        s.persist botKey current rest env inboundId = some t
    | .enqueue botKey jobId now fault =>
      ∃ current inv rest, (s.pollers botKey).phase = .persisted current inv rest ∧
        (∀ job ∈ s.ingest.jobs.rows, job.id ≠ jobId) ∧
        t = { s with ingest := s.ingest.enqueue dumps inv jobId now fault }.move botKey (.handled current rest)
    | .save botKey =>
      ∃ current rest, (s.pollers botKey).phase = .handled current rest ∧ t = s.saveOffset botKey current rest
    | .restart botKey => t = s.restart botKey
    | .work now call => call.byWorker = true ∧ t = { s with ingest := { s.ingest with jobs := (exec s.ingest.jobs now call).1 } }

/-! ### The promise and its condition -/

/-- The update has a job. -/
def HasJob (s : PollState) (botKey : String) (number : ℕ) : Prop :=
  ∃ ack ∈ s.ingest.acks, ack.inv.botKey = botKey ∧ ack.inv.update.updateId = .int number ∧
    ∃ job ∈ s.ingest.jobs.rows, job.id = ack.jobId ∧ job.dedupKey = ack.inv.jobKey

/-- No update is lost: below the saved offset each was dropped, ignored or processed inline, or has a job,
which it shares with no other. -/
structure NoneLost (stream : String → ℕ → Prop) (s : PollState) : Prop where
  settled : ∀ botKey n, stream botKey n → n < (s.pollers botKey).offset →
    ∃ fate, s.fates botKey n = some fate ∧ (fate = .queue → HasJob s botKey n)
  own : OwnJobs s.ingest

/-- The condition: an update that goes to the queue gets there. Nothing fails between its two
transactions, the second is not lost, and the tables agree on it. -/
def PollEvent.GetsThere (s : PollState) : PollEvent → Prop
  | .enqueue botKey _ _ fault =>
    fault ≠ .lost ∧ ∀ current inv rest, (s.pollers botKey).phase = .persisted current inv rest → KeysAgree s.ingest inv
  | .restart botKey => ∀ current inv rest, (s.pollers botKey).phase ≠ .persisted current inv rest
  | _ => True

/-! ### One poller -/

namespace PollPhase

/-- The numbers of the updates that are not handled yet. -/
def todo : PollPhase → List ℕ
  | .batch rest | .handled _ rest => rest.map (·.number)
  | .persisted current _ rest => current.number :: rest.map (·.number)

/-- The numbers of the updates from the last one on whose offset is not saved. -/
def unsaved : PollPhase → List ℕ
  | .batch rest => rest.map (·.number)
  | .persisted current _ rest | .handled current rest => current.number :: rest.map (·.number)

theorem todo_subset {phase : PollPhase} : phase.todo ⊆ phase.unsaved := by
  cases phase with
  | batch | persisted => exact List.Subset.refl _
  | handled => exact List.subset_cons_self _ _

end PollPhase

/-- How far a poller is: every update is settled, or comes in this batch, or after it. -/
structure PollerInv (stream settled : ℕ → Prop) (p : Poller) : Prop where
  sorted : p.phase.unsaved.Pairwise (· < ·)
  above : ∀ m ∈ p.phase.unsaved, p.offset ≤ m
  progress : ∀ n, stream n → settled n ∨ n ∈ p.phase.todo ∨ p.offset ≤ n ∧ ∀ m ∈ p.phase.unsaved, m < n

namespace PollerInv

variable {stream settled settled' : ℕ → Prop} {p : Poller} {current : PolledUpdate} {rest : List PolledUpdate}

theorem settled_of_lt (h : PollerInv stream settled p) {n : ℕ} (hn : stream n) (hlt : n < p.offset) : settled n := by
  rcases h.progress n hn with hsettled | htodo | ⟨hle, -⟩
  · exact hsettled
  · have hle := h.above n (PollPhase.todo_subset htodo)
    omega
  · omega

theorem mono (h : PollerInv stream settled p) (hle : ∀ n, settled n → settled' n) : PollerInv stream settled' p :=
  ⟨h.sorted, h.above, fun n hn => (h.progress n hn).imp_left (hle n)⟩

theorem fetch (h : PollerInv stream settled p) {updates : List PolledUpdate} (hphase : p.phase = .batch [])
    (hanswers : Answers stream p.offset updates) : PollerInv stream settled { p with phase := .batch updates } := by
  obtain ⟨hsorted, habove, hfirst⟩ := hanswers
  refine ⟨hsorted, List.forall_mem_map.mpr habove, fun n hn => ?_⟩
  rcases h.progress n hn with hsettled | htodo | ⟨hle, -⟩
  · exact .inl hsettled
  · rw [hphase] at htodo
    cases htodo
  · exact .inr ((hfirst n hn hle).imp_right fun hlast => ⟨hle, List.forall_mem_map.mpr hlast⟩)

theorem restart (h : PollerInv stream settled p) : PollerInv stream settled { p with phase := .batch [] } := by
  refine ⟨.nil, by simp [PollPhase.unsaved], fun n hn => ?_⟩
  rcases h.progress n hn with hsettled | htodo | ⟨hle, -⟩
  · exact .inl hsettled
  · exact .inr (.inr ⟨h.above n (PollPhase.todo_subset htodo), by simp [PollPhase.unsaved]⟩)
  · exact .inr (.inr ⟨hle, by simp [PollPhase.unsaved]⟩)

theorem persisted (h : PollerInv stream settled p) (hphase : p.phase = .batch (current :: rest)) (inv : Invocation)
    (hkeep : ∀ n, n ≠ current.number → settled n → settled' n) :
    PollerInv stream settled' { p with phase := .persisted current inv rest } := by
  obtain ⟨hsorted, habove, hprogress⟩ := h
  rw [hphase] at hsorted habove hprogress
  refine ⟨hsorted, habove, fun n hn => ?_⟩
  by_cases hcurrent : n = current.number
  · exact .inr (.inl (hcurrent ▸ List.mem_cons_self))
  · exact (hprogress n hn).imp_left (hkeep n hcurrent)

theorem handled (h : PollerInv stream settled p) (htodo : p.phase.todo = current.number :: rest.map (·.number))
    (hunsaved : p.phase.unsaved = current.number :: rest.map (·.number))
    (hkeep : ∀ n, n ≠ current.number → settled n → settled' n) (hcurrent : settled' current.number) :
    PollerInv stream settled' { p with phase := .handled current rest } := by
  obtain ⟨hsorted, habove, hprogress⟩ := h
  rw [hunsaved] at hsorted habove hprogress
  refine ⟨hsorted, habove, fun n hn => ?_⟩
  by_cases heq : n = current.number
  · exact .inl (heq ▸ hcurrent)
  · rcases hprogress n hn with hsettled | hmem | hlast
    · exact .inl (hkeep n heq hsettled)
    · rw [htodo] at hmem
      exact .inr (.inl ((List.mem_cons.mp hmem).resolve_left heq))
    · exact .inr (.inr hlast)

theorem saved (h : PollerInv stream settled p) (hphase : p.phase = .handled current rest) :
    PollerInv stream settled ⟨current.number + 1, .batch rest⟩ := by
  obtain ⟨hsorted, habove, hprogress⟩ := h
  rw [hphase] at hsorted habove hprogress
  obtain ⟨hfirst, hrest⟩ := List.pairwise_cons.mp hsorted
  refine ⟨hrest, fun m hm => hfirst m hm, fun n hn => ?_⟩
  rcases hprogress n hn with hsettled | hmem | ⟨-, hlast⟩
  · exact .inl hsettled
  · exact .inr (.inl hmem)
  · exact .inr (.inr ⟨hlast _ List.mem_cons_self, fun m hm => hlast m (List.mem_cons_of_mem _ hm)⟩)

end PollerInv

/-! ### The invariant -/

variable {dumps : Invocation → String} {s t : PollState} {botKey : String}

/-- The queue has acknowledged the update. -/
def Queued (s : PollState) (botKey : String) (number : ℕ) : Prop :=
  ∃ ack ∈ s.ingest.acks, ack.inv.botKey = botKey ∧ ack.inv.update.updateId = .int number

/-- The update has been decided about, and is queued where it goes to the queue. -/
def Settled (s : PollState) (botKey : String) (number : ℕ) : Prop :=
  ∃ fate, s.fates botKey number = some fate ∧ (fate = .queue → Queued s botKey number)

/-- The update is between the two transactions. -/
def Busy (s : PollState) (botKey : String) (number : ℕ) : Prop :=
  ∃ current inv rest, (s.pollers botKey).phase = .persisted current inv rest ∧ current.number = number

/-- What holds of one bot. -/
structure BotInv (stream : ℕ → Prop) (s : PollState) (botKey : String) : Prop where
  flight : ∀ current inv rest, (s.pollers botKey).phase = .persisted current inv rest →
    inv ∈ s.ingest.inFlight ∧ inv.botKey = botKey ∧ inv.update = current.update ∧
      s.fates botKey current.number = some .queue
  /-- What is persisted is settled, or on its way. -/
  row : ∀ n : ℕ, ∀ row ∈ s.ingest.inbound.rows.rows, row.entry = some ("telegram", botKey, toString (n : ℤ)) →
    Settled s botKey n ∨ Busy s botKey n
  poller : PollerInv stream (Settled s botKey) (s.pollers botKey)

/-- What holds of the pollers and the tables. -/
structure PollInv (stream : String → ℕ → Prop) (s : PollState) : Prop where
  ingest : IngestInv s.ingest
  bot : ∀ botKey, BotInv (stream botKey) s botKey

theorem PollInv.noneLost {stream : String → ℕ → Prop} (h : PollInv stream s) : NoneLost stream s := by
  refine ⟨fun botKey n hn hlt => ?_, h.ingest.ownJobs⟩
  obtain ⟨fate, hfate, hqueued⟩ := (h.bot botKey).poller.settled_of_lt hn hlt
  refine ⟨fate, hfate, fun hqueue => ?_⟩
  obtain ⟨ack, hack, hbot, hnumber⟩ := hqueued hqueue
  exact ⟨ack, hack, hbot, hnumber, h.ingest.acked ack hack⟩

theorem Settled.of {n : ℕ} (h : Settled s botKey n) (hfate : t.fates botKey n = s.fates botKey n)
    (hacks : ∀ ack ∈ s.ingest.acks, ack ∈ t.ingest.acks) : Settled t botKey n := by
  obtain ⟨fate, hs, hqueued⟩ := h
  refine ⟨fate, hfate.trans hs, fun hqueue => ?_⟩
  obtain ⟨ack, hack, hspec⟩ := hqueued hqueue
  exact ⟨ack, hacks ack hack, hspec⟩

/-- What a step of one poller leaves to the others. -/
structure Others (s t : PollState) (botKey : String) : Prop where
  pollers : ∀ bot ≠ botKey, t.pollers bot = s.pollers bot
  fates : ∀ bot ≠ botKey, t.fates bot = s.fates bot
  acks : ∀ ack ∈ s.ingest.acks, ack ∈ t.ingest.acks
  inFlight : ∀ inv ∈ s.ingest.inFlight, inv.botKey ≠ botKey → inv ∈ t.ingest.inFlight
  rows : ∀ row ∈ t.ingest.inbound.rows.rows, ∀ bot ≠ botKey, ∀ key, row.entry = some ("telegram", bot, key) →
    row ∈ s.ingest.inbound.rows.rows

theorem BotInv.other {stream : ℕ → Prop} {bot : String} (h : BotInv stream s bot) (ho : Others s t botKey)
    (hne : bot ≠ botKey) : BotInv stream t bot := by
  have hsettled : ∀ n, Settled s bot n → Settled t bot n := fun n hs => hs.of (by rw [ho.fates bot hne]) ho.acks
  refine ⟨fun current inv rest hphase => ?_, fun n row hrow hentry => ?_, ?_⟩
  · rw [ho.pollers bot hne] at hphase
    obtain ⟨hflight, hbot, hupdate, hfate⟩ := h.flight current inv rest hphase
    exact ⟨ho.inFlight inv hflight (hbot ▸ hne), hbot, hupdate, by rw [ho.fates bot hne, hfate]⟩
  · refine (h.row n row (ho.rows row hrow bot hne _ hentry) hentry).imp (hsettled n) ?_
    rintro ⟨current, inv, rest, hphase, hnumber⟩
    exact ⟨current, inv, rest, by rw [ho.pollers bot hne, hphase], hnumber⟩
  · rw [ho.pollers bot hne]
    exact h.poller.mono hsettled

/-- A step of one poller keeps the invariant when it keeps what holds of its bot. -/
theorem PollInv.advance {stream : String → ℕ → Prop} (h : PollInv stream s) (ho : Others s t botKey)
    (hingest : IngestInv t.ingest) (hbot : BotInv (stream botKey) t botKey) : PollInv stream t := by
  refine ⟨hingest, fun bot => ?_⟩
  by_cases hne : bot = botKey
  · exact hne ▸ hbot
  · exact (h.bot bot).other ho hne

/-! ### Steps of a poller -/

/-- The poller has persisted nothing that is on its way. -/
def Free (s : PollState) (botKey : String) : Prop :=
  ∀ current inv rest, (s.pollers botKey).phase ≠ .persisted current inv rest

theorem Free.not_busy (h : Free s botKey) {n : ℕ} : ¬ Busy s botKey n :=
  fun ⟨current, inv, rest, hphase, _⟩ => h current inv rest hphase

theorem others_put {p : Poller} : Others s (s.put botKey p) botKey :=
  ⟨fun _ hne => s.put_of_ne botKey hne, fun _ _ => rfl, fun _ hack => hack, fun _ hinv _ => hinv,
    fun _ hrow _ _ _ _ => hrow⟩

theorem BotInv.go {stream : ℕ → Prop} (h : BotInv stream s botKey) (hfree : Free s botKey) {p : Poller}
    (hp : ∀ current inv rest, p.phase ≠ .persisted current inv rest) (hpoller : PollerInv stream (Settled s botKey) p) :
    BotInv stream (s.put botKey p) botKey := by
  refine ⟨fun current inv rest hphase => ?_, fun n row hrow hentry => ?_, ?_⟩
  · rw [PollState.put_self] at hphase
    exact absurd hphase (hp current inv rest)
  · exact .inl ((h.row n row hrow hentry).resolve_right hfree.not_busy)
  · rw [PollState.put_self]
    exact hpoller

theorem PollInv.go {stream : String → ℕ → Prop} (h : PollInv stream s) (hfree : Free s botKey) {p : Poller}
    (hp : ∀ current inv rest, p.phase ≠ .persisted current inv rest)
    (hpoller : PollerInv (stream botKey) (Settled s botKey) p) :
    PollInv stream (s.put botKey p) :=
  h.advance others_put h.ingest ((h.bot botKey).go hfree hp hpoller)

/-- `str` of an integer tells the numbers apart. -/
theorem toString_inj {m n : ℕ} (h : toString (m : ℤ) = toString (n : ℤ)) : m = n := by
  have hdigits : Nat.toDigits 10 m = Nat.toDigits 10 n := by
    have hlist := congrArg String.toList (show toString m = toString n from h)
    simpa [Nat.toString_eq_ofList_toDigits] using hlist
  rw [← Nat.ofDigitChars_ten_toDigits (n := m), hdigits, Nat.ofDigitChars_ten_toDigits]

section Judge

variable {stream : String → ℕ → Prop} {ingest : IngestState} {number : ℕ} {fate : Fate}

/-- A decision about an update, which is perhaps persisted. -/
theorem others_judge (hacks : ingest.acks = s.ingest.acks) (hflight : ∀ inv ∈ s.ingest.inFlight, inv ∈ ingest.inFlight)
    (hrows : ∀ row ∈ ingest.inbound.rows.rows, row ∈ s.ingest.inbound.rows.rows ∨
      row.entry = some ("telegram", botKey, toString (number : ℤ))) :
    Others s ({ s with ingest }.judge botKey number fate) botKey := by
  refine ⟨fun _ _ => rfl, fun bot hne => funext fun n => ?_, fun ack hack => ?_, fun inv hinv _ => hflight inv hinv, ?_⟩
  · exact PollState.fates_judge_of_ne _ _ (.inl hne)
  · show ack ∈ ingest.acks
    rwa [hacks]
  · intro row hrow bot hne key hentry
    refine (hrows row hrow).resolve_right fun heq => hne ?_
    rw [hentry] at heq
    exact (Prod.mk.inj (Prod.mk.inj (Option.some.inj heq)).2).1

/-- The decision leaves the other updates settled. -/
theorem settled_judge (hacks : ingest.acks = s.ingest.acks) {n : ℕ} (hne : n ≠ number) (hs : Settled s botKey n) :
    Settled ({ s with ingest }.judge botKey number fate) botKey n := by
  refine hs.of (PollState.fates_judge_of_ne _ _ (.inr hne)) fun ack hack => ?_
  show ack ∈ ingest.acks
  rwa [hacks]

/-- What was persisted before the decision is settled after it. -/
theorem row_judge (h : PollInv stream s) (hfree : Free s botKey) (hacks : ingest.acks = s.ingest.acks)
    (hrows : ∀ row ∈ ingest.inbound.rows.rows, row ∈ s.ingest.inbound.rows.rows ∨
      row.entry = some ("telegram", botKey, toString (number : ℤ))) {n : ℕ} (hne : n ≠ number) {row : InboundMessage}
    (hrow : row ∈ ingest.inbound.rows.rows) (hentry : row.entry = some ("telegram", botKey, toString (n : ℤ))) :
    Settled ({ s with ingest }.judge botKey number fate) botKey n := by
  have hold : row ∈ s.ingest.inbound.rows.rows := by
    refine (hrows row hrow).resolve_right fun heq => hne ?_
    rw [hentry] at heq
    exact toString_inj (Prod.mk.inj (Prod.mk.inj (Option.some.inj heq)).2).2
  exact settled_judge hacks hne (((h.bot botKey).row n row hold hentry).resolve_right hfree.not_busy)

/-- The update is not for the queue: it is settled. -/
theorem PollInv.judge (h : PollInv stream s) (number : ℕ) (fate : Fate) (hfree : Free s botKey) (hingest : IngestInv ingest)
    (hacks : ingest.acks = s.ingest.acks) (hflight : ∀ inv ∈ s.ingest.inFlight, inv ∈ ingest.inFlight)
    (hrows : ∀ row ∈ ingest.inbound.rows.rows, row ∈ s.ingest.inbound.rows.rows ∨
      row.entry = some ("telegram", botKey, toString (number : ℤ))) (hfate : fate ≠ .queue) :
    PollInv stream ({ s with ingest }.judge botKey number fate) ∧
      Settled ({ s with ingest }.judge botKey number fate) botKey number := by
  have hnow : Settled ({ s with ingest }.judge botKey number fate) botKey number :=
    ⟨fate, PollState.fates_judge _ _, fun hqueue => absurd hqueue hfate⟩
  refine ⟨h.advance (others_judge hacks hflight hrows) hingest ⟨?_, ?_, ?_⟩, hnow⟩
  · exact fun current inv rest hphase => absurd hphase (hfree current inv rest)
  · intro n row hrow hentry
    by_cases hn : n = number
    · exact .inl (hn ▸ hnow)
    · exact .inl (row_judge h hfree hacks hrows hn hrow hentry)
  · refine (h.bot botKey).poller.mono fun n hs => ?_
    by_cases hn : n = number
    · exact hn ▸ hnow
    · exact settled_judge hacks hn hs

end Judge

theorem PollInv.toQueue {stream : String → ℕ → Prop} (h : PollInv stream s) {current : PolledUpdate}
    {rest : List PolledUpdate} (hphase : (s.pollers botKey).phase = .batch (current :: rest)) {ingest : IngestState}
    {inv : Invocation} (hingest : IngestInv ingest) (hacks : ingest.acks = s.ingest.acks)
    (hflight : ingest.inFlight = inv :: s.ingest.inFlight) (hbot : inv.botKey = botKey) (hupdate : inv.update = current.update)
    (hrows : ∀ row ∈ ingest.inbound.rows.rows, row ∈ s.ingest.inbound.rows.rows ∨
      row.entry = some ("telegram", botKey, toString (current.number : ℤ))) :
    PollInv stream (({ s with ingest }.judge botKey current.number .queue).move botKey (.persisted current inv rest)) := by
  have hfree : Free s botKey := fun _ _ _ hpersisted => by
    rw [hphase] at hpersisted
    cases hpersisted
  have hothers : Others s ({ s with ingest }.judge botKey current.number .queue) botKey :=
    others_judge hacks (fun inv' hinv' => hflight ▸ List.mem_cons_of_mem _ hinv') hrows
  have hmoved : (({ s with ingest }.judge botKey current.number .queue).move botKey
      (.persisted current inv rest)).pollers botKey = { s.pollers botKey with phase := .persisted current inv rest } :=
    PollState.put_self ..
  refine h.advance ⟨?_, hothers.fates, hothers.acks, hothers.inFlight, hothers.rows⟩ hingest ⟨?_, ?_, ?_⟩
  · exact fun bot hne => (PollState.put_of_ne _ _ hne).trans (hothers.pollers bot hne)
  · intro current' inv' rest' hphase'
    rw [hmoved] at hphase'
    cases hphase'
    exact ⟨show inv ∈ ingest.inFlight from hflight ▸ List.mem_cons_self, hbot, hupdate, PollState.fates_judge _ _⟩
  · intro n row hrow hentry
    by_cases hn : n = current.number
    · exact .inr ⟨current, inv, rest, by rw [hmoved], hn.symm⟩
    · exact .inl (row_judge h hfree hacks hrows hn hrow hentry)
  · rw [hmoved]
    exact (h.bot botKey).poller.persisted hphase inv fun n hne hs => settled_judge hacks hne hs

theorem PolledUpdate.extract (current : PolledUpdate) :
    current.update.updateId.extract = some (toString (current.number : ℤ)) := by
  rw [current.updateId_eq]
  rfl

theorem free_of_batch {rest : List PolledUpdate} (h : (s.pollers botKey).phase = .batch rest) : Free s botKey :=
  fun _ _ _ hphase => by
    rw [h] at hphase
    cases hphase

theorem free_of_handled {current : PolledUpdate} {rest : List PolledUpdate}
    (h : (s.pollers botKey).phase = .handled current rest) : Free s botKey :=
  fun _ _ _ hphase => by
    rw [h] at hphase
    cases hphase

variable {env : IngressEnv} {inboundId : String}

section Poller

variable {stream : String → ℕ → Prop} {current : PolledUpdate} {rest : List PolledUpdate}

/-- The handler returns, and the update is settled. -/
theorem PollInv.handled (h : PollInv stream s) (hphase : (s.pollers botKey).phase = .batch (current :: rest))
    (hsettled : Settled s botKey current.number) : PollInv stream (s.move botKey (.handled current rest)) := by
  refine h.go (free_of_batch hphase) (fun _ _ _ => by simp) ?_
  apply (h.bot botKey).poller.handled
  · rw [hphase]; rfl
  · rw [hphase]; rfl
  · exact fun n _ hs => hs
  · exact hsettled

/-- A redelivery is settled: what is persisted is settled, or on its way, and this poller is free. -/
theorem PollInv.settled_of_duplicate (h : PollInv stream s) (hphase : (s.pollers botKey).phase = .batch (current :: rest))
    (hdup : s.isDuplicate botKey current.update = true) : Settled s botKey current.number := by
  rw [PollState.isDuplicate, current.extract, Option.bind_some] at hdup
  obtain ⟨row, hfind⟩ := Option.isSome_iff_exists.mp hdup
  obtain ⟨hrow, hentry⟩ := findDuplicateInbound_eq_some hfind
  exact ((h.bot botKey).row _ row hrow hentry).resolve_right (free_of_batch hphase).not_busy

/-- What is no duplicate is persisted: one row more, and no other had its entry. -/
theorem persisted_of_new {ingest : IngestState} (hdup : s.isDuplicate botKey current.update = false)
    (hpersist : s.ingest.persist botKey current.update env inboundId = some ingest) :
    (∀ row ∈ ingest.inbound.rows.rows, row ∈ s.ingest.inbound.rows.rows ∨
        row.entry = some ("telegram", botKey, toString (current.number : ℤ))) ∧
      (∀ row ∈ s.ingest.inbound.rows.rows, row ∈ ingest.inbound.rows.rows ∧
        row.entry ≠ some ("telegram", botKey, toString (current.number : ℤ))) ∧
      ingest.acks = s.ingest.acks ∧
      ingest.inFlight = if env.fate current.update = .queue
        then ⟨botKey, current.update, inboundId, env.tenantId⟩ :: s.ingest.inFlight else s.ingest.inFlight := by
  have hrow : (inboundRow inboundId (some env.tenantId) botKey current.update).entry =
      some ("telegram", botKey, toString (current.number : ℤ)) := by
    rw [entry_inboundRow, current.extract]
    rfl
  rw [PollState.isDuplicate, current.extract, Option.bind_some, Option.isSome_eq_false_iff, Option.isNone_iff_eq_none,
    findDuplicateInbound_eq_none] at hdup
  rcases persist_cases hpersist with ⟨-, row, hmem, -, hentry⟩ | ⟨hnew, -, hacks, hflight⟩
  · exact absurd (hentry.trans hrow) (hdup row hmem)
  · obtain ⟨hrows, -, -⟩ := persisted_spec hnew
    refine ⟨fun row hmem => ?_, fun row hmem => ⟨by rw [hrows]; exact List.mem_append_left _ hmem, hdup row hmem⟩, hacks, hflight⟩
    rw [hrows] at hmem
    rcases List.mem_append.mp hmem with hold | hlast
    · exact .inl hold
    · obtain rfl := List.mem_singleton.mp hlast
      exact .inr hrow

theorem PollInv.persist (h : PollInv stream s) (hphase : (s.pollers botKey).phase = .batch (current :: rest))
    (ht : s.persist botKey current rest env inboundId = some t) : PollInv stream t := by
  obtain ⟨ingest, hpersist, rfl⟩ := Option.map_eq_some_iff.mp ht
  have hingest := h.ingest.persist hpersist
  split
  next hdup => exact h.handled hphase (h.settled_of_duplicate hphase hdup)
  next hdup =>
    obtain ⟨hrows, -, hacks, hflight⟩ := persisted_of_new (Bool.not_eq_true _ ▸ hdup) hpersist
    split
    next hqueue =>
      rw [if_pos hqueue] at hflight
      exact h.toQueue hphase hingest hacks hflight rfl rfl hrows
    next hother =>
      rw [if_neg hother] at hflight
      obtain ⟨hinv, hsettled⟩ := h.judge current.number _ (free_of_batch hphase) hingest hacks (fun inv hinv => hflight ▸ hinv) hrows hother
      exact hinv.handled hphase hsettled

theorem PollInv.drop (h : PollInv stream s) (hphase : (s.pollers botKey).phase = .batch (current :: rest)) :
    PollInv stream ((s.judge botKey current.number .dropped).move botKey (.handled current rest)) := by
  obtain ⟨hinv, hsettled⟩ := h.judge current.number .dropped (free_of_batch hphase) h.ingest rfl
    (fun _ hinv => hinv) (fun _ hrow => .inl hrow) (by decide)
  exact hinv.handled hphase hsettled

theorem PollInv.enqueue (h : PollInv stream s) {inv : Invocation} {jobId : String} {now : ℤ} {fault : EnqueueFault}
    (hphase : (s.pollers botKey).phase = .persisted current inv rest)
    (hfresh : ∀ job ∈ s.ingest.jobs.rows, job.id ≠ jobId) (hfault : fault ≠ .lost) (hagree : KeysAgree s.ingest inv) :
    PollInv stream ({ s with ingest := s.ingest.enqueue dumps inv jobId now fault }.move botKey (.handled current rest)) := by
  obtain ⟨hflight, hbot, hupdate, hfate⟩ := (h.bot botKey).flight current inv rest hphase
  obtain ⟨-, jobs, -, -, -, -, heq⟩ := enqueueUpdate_new dumps now
    ((h.ingest.keysAgree_iff hflight).mp hagree) hfresh hfault
  have hacks : (s.ingest.enqueue dumps inv jobId now fault).acks = ⟨inv, jobId⟩ :: s.ingest.acks := by
    unfold IngestState.enqueue
    rw [heq]
    rfl
  have hmoved : ({ s with ingest := s.ingest.enqueue dumps inv jobId now fault }.move botKey
      (.handled current rest)).pollers botKey = { s.pollers botKey with phase := .handled current rest } :=
    PollState.put_self ..
  have hmem : ∀ ack ∈ s.ingest.acks, ack ∈ (s.ingest.enqueue dumps inv jobId now fault).acks :=
    fun ack hack => hacks ▸ List.mem_cons_of_mem _ hack
  have hsettled : ∀ n, Settled s botKey n → Settled ({ s with ingest := s.ingest.enqueue dumps inv jobId now fault }.move
      botKey (.handled current rest)) botKey n := fun n hs => hs.of rfl hmem
  have hnow : Settled ({ s with ingest := s.ingest.enqueue dumps inv jobId now fault }.move botKey
      (.handled current rest)) botKey current.number := by
    refine ⟨.queue, hfate, fun _ => ⟨⟨inv, jobId⟩, ?_, hbot, ?_⟩⟩
    · exact hacks ▸ List.mem_cons_self
    · rw [hupdate, current.updateId_eq]
  refine h.advance ⟨fun bot hne => PollState.put_of_ne _ _ hne, fun _ _ => rfl, hmem, fun inv' hinv' hne => ?_,
    fun row hrow _ _ _ _ => hrow⟩ ((h.ingest.enqueue hflight hfresh).1 hagree) ⟨?_, ?_, ?_⟩
  · refine (List.mem_erase_of_ne ?_).mpr hinv'
    rintro rfl
    exact hne hbot
  · intro current' inv' rest' hphase'
    rw [hmoved] at hphase'
    cases hphase'
  · intro n row hrow hentry
    rcases (h.bot botKey).row n row hrow hentry with hs | ⟨current', inv', rest', hphase', rfl⟩
    · exact .inl (hsettled n hs)
    · rw [hphase] at hphase'
      cases hphase'
      exact .inl hnow
  · rw [hmoved]
    apply (h.bot botKey).poller.handled
    · rw [hphase]; rfl
    · rw [hphase]; rfl
    · exact fun n _ hs => hsettled n hs
    · exact hnow

end Poller

/-! ### Every run -/

theorem restart_of_free (h : Free s botKey) : s.restart botKey = s.move botKey (.batch []) := by
  unfold PollState.restart
  split
  next hphase => exact absurd hphase (h _ _ _)
  · rfl

/-- **One step** keeps the invariant when an update that goes to the queue gets there. -/
theorem poll_step {stream : String → ℕ → Prop} {event : PollEvent} (h : PollInv stream s)
    (hs : (polling dumps stream).step s event t) (hthere : event.GetsThere s) : PollInv stream t := by
  cases event with
  | fetch botKey updates =>
    obtain ⟨hphase, hanswers, rfl⟩ := hs
    exact h.go (free_of_batch hphase) (fun _ _ _ => by simp) ((h.bot botKey).poller.fetch hphase hanswers)
  | drop botKey env =>
    obtain ⟨current, rest, hphase, -, rfl⟩ := hs
    exact h.drop hphase
  | persist botKey env inboundId =>
    obtain ⟨current, rest, hphase, -, ht⟩ := hs
    exact h.persist hphase ht
  | enqueue botKey jobId now fault =>
    obtain ⟨current, inv, rest, hphase, hfresh, rfl⟩ := hs
    exact h.enqueue hphase hfresh hthere.1 (hthere.2 current inv rest hphase)
  | save botKey =>
    obtain ⟨current, rest, hphase, rfl⟩ := hs
    exact h.go (free_of_handled hphase) (fun _ _ _ => by simp) ((h.bot botKey).poller.saved hphase)
  | restart botKey =>
    obtain rfl : t = _ := hs
    rw [restart_of_free hthere]
    exact h.go hthere (fun _ _ _ => by simp) (h.bot botKey).poller.restart
  | work now call =>
    obtain ⟨hcall, rfl⟩ := hs
    exact ⟨h.ingest.work hcall, fun botKey => ⟨(h.bot botKey).flight, (h.bot botKey).row, (h.bot botKey).poller⟩⟩

theorem pollInv_empty {stream : String → ℕ → Prop} : PollInv stream .empty := by
  refine ⟨ingestInv_empty, fun botKey => ⟨fun _ _ _ hphase => ?_, fun _ row hrow => ?_, .nil, ?_, fun n _ => ?_⟩⟩
  · cases hphase
  · cases hrow
  · rintro m ⟨⟩
  · exact .inr (.inr ⟨Nat.zero_le n, by rintro m ⟨⟩⟩)

theorem pollInv {stream : String → ℕ → Prop}
    (h : ((polling dumps stream).guard fun s event => event.GetsThere s).Reachable s) : PollInv stream s := by
  refine Lts.Reachable.induct (P := PollInv stream) ?_ ?_ h
  · rintro _ rfl
    exact pollInv_empty
  · exact fun s event t _ hinv hs => poll_step hinv hs.1 hs.2

/-- **No update is lost** in any run in which every update that goes to the queue gets there. -/
theorem no_update_lost (dumps : Invocation → String) (stream : String → ℕ → Prop) (s : PollState)
    (h : ((polling dumps stream).guard fun s event => event.GetsThere s).Reachable s) : NoneLost stream s :=
  (pollInv h).noneLost

/-! ### A crash between the transactions -/

/-- The update is persisted, and no call brings it to the queue. -/
structure Gone (s : PollState) (botKey : String) (number : ℕ) : Prop where
  row : ∃ row ∈ s.ingest.inbound.rows.rows, row.entry = some ("telegram", botKey, toString (number : ℤ))
  acks : ∀ ack ∈ s.ingest.acks, ack.inv.entry ≠ some ("telegram", botKey, toString (number : ℤ))
  inFlight : ∀ inv ∈ s.ingest.inFlight, inv.entry ≠ some ("telegram", botKey, toString (number : ℤ))
  /-- The calls between their transactions are on their way. -/
  flight : ∀ bot current inv rest, (s.pollers bot).phase = .persisted current inv rest →
    inv ∈ s.ingest.inFlight ∧ inv.botKey = bot

namespace Gone

variable {bot : String} {number : ℕ}

theorem not_hasJob (h : Gone s botKey number) : ¬ HasJob s botKey number := by
  rintro ⟨ack, hack, hbot, hnumber, -⟩
  refine h.acks ack hack ?_
  rw [Invocation.entry, hbot, hnumber]
  rfl

/-- A poller that gets out of `handle_telegram_update` leaves the others as they are. -/
theorem put (h : Gone s botKey number) {p : Poller} (hp : ∀ current inv rest, p.phase ≠ .persisted current inv rest) :
    Gone (s.put bot p) botKey number := by
  refine ⟨h.row, h.acks, h.inFlight, fun bot' current inv rest hphase => ?_⟩
  by_cases hbot : bot' = bot
  · subst hbot
    rw [PollState.put_self] at hphase
    exact absurd hphase (hp current inv rest)
  · rw [PollState.put_of_ne _ _ hbot] at hphase
    exact h.flight bot' current inv rest hphase

/-- The call of a poller has ended, or never comes to the second transaction. -/
theorem end_call (h : Gone s botKey number) {ingest : IngestState} {inv : Invocation} (hinbound : ingest.inbound = s.ingest.inbound)
    (hacks : ∀ ack ∈ ingest.acks, ack ∈ s.ingest.acks ∨ ack.inv = inv) (hflight : ingest.inFlight = s.ingest.inFlight.erase inv)
    (hinv : inv ∈ s.ingest.inFlight) (hbot : inv.botKey = bot) {p : Poller}
    (hp : ∀ current inv rest, p.phase ≠ .persisted current inv rest) :
    Gone ({ s with ingest }.put bot p) botKey number := by
  refine ⟨hinbound ▸ h.row, fun ack hack => ?_, fun inv' hinv' => ?_, fun bot' current inv' rest hphase => ?_⟩
  · rcases hacks ack hack with hold | hnew
    · exact h.acks ack hold
    · exact hnew ▸ h.inFlight inv hinv
  · exact h.inFlight inv' (List.mem_of_mem_erase (hflight ▸ hinv'))
  · by_cases hsame : bot' = bot
    · subst hsame
      rw [PollState.put_self] at hphase
      exact absurd hphase (hp current inv' rest)
    · rw [PollState.put_of_ne _ _ hsame] at hphase
      obtain ⟨hmem, hbot'⟩ := h.flight bot' current inv' rest hphase
      refine ⟨?_, hbot'⟩
      show inv' ∈ ingest.inFlight
      rw [hflight]
      refine (List.mem_erase_of_ne ?_).mpr hmem
      rintro rfl
      exact hsame (hbot'.symm.trans hbot)

theorem persist (h : Gone s botKey number) {current : PolledUpdate} {rest : List PolledUpdate}
    (ht : s.persist bot current rest env inboundId = some t) : Gone t botKey number := by
  obtain ⟨ingest, hpersist, rfl⟩ := Option.map_eq_some_iff.mp ht
  split
  · exact h.put fun _ _ _ => by simp
  next hdup =>
    obtain ⟨-, hkeep, hacks, hflight⟩ := persisted_of_new (Bool.not_eq_true _ ▸ hdup) hpersist
    obtain ⟨row, hrow, hentry⟩ := h.row
    split
    next hqueue =>
      rw [if_pos hqueue] at hflight
      refine ⟨⟨row, (hkeep row hrow).1, hentry⟩, fun ack hack => h.acks ack (hacks ▸ hack), fun inv hinv => ?_, ?_⟩
      · rcases List.mem_cons.mp (hflight ▸ hinv) with rfl | hold
        · -- the entry of the new call was free
          intro heq
          rw [Invocation.entry, current.extract] at heq
          exact (hkeep row hrow).2 (hentry.trans heq.symm)
        · exact h.inFlight inv hold
      · intro bot' current' inv' rest' hphase
        show inv' ∈ ingest.inFlight ∧ _
        rw [hflight]
        by_cases hsame : bot' = bot
        · subst hsame
          rw [PollState.move, PollState.put_self] at hphase
          cases hphase
          exact ⟨List.mem_cons_self, rfl⟩
        · rw [PollState.move, PollState.put_of_ne _ _ hsame] at hphase
          obtain ⟨hmem, hbot'⟩ := h.flight bot' current' inv' rest' hphase
          exact ⟨List.mem_cons_of_mem _ hmem, hbot'⟩
    next hother =>
      rw [if_neg hother] at hflight
      have hjudged : Gone ({ s with ingest }.judge bot current.number (env.fate current.update)) botKey number := by
        refine ⟨⟨row, (hkeep row hrow).1, hentry⟩, fun ack hack => h.acks ack (hacks ▸ hack),
          fun inv hinv => h.inFlight inv (hflight ▸ hinv), fun bot' current' inv' rest' hphase => ?_⟩
        show inv' ∈ ingest.inFlight ∧ _
        rw [hflight]
        exact h.flight bot' current' inv' rest' hphase
      exact hjudged.put fun _ _ _ => by simp

theorem restart (h : Gone s botKey number) : Gone (s.restart bot) botKey number := by
  unfold PollState.restart
  split
  next current inv rest hphase =>
    obtain ⟨hmem, hbot⟩ := h.flight bot current inv rest hphase
    refine h.end_call ?_ ?_ ?_ hmem hbot ?_
    · rfl
    · exact fun _ hack => .inl hack
    · rfl
    · simp
  · exact h.put fun _ _ _ => by simp

theorem enqueue (h : Gone s botKey number) {current : PolledUpdate} {inv : Invocation} {rest : List PolledUpdate}
    {jobId : String} {now : ℤ} {fault : EnqueueFault} (hphase : (s.pollers bot).phase = .persisted current inv rest) :
    Gone ({ s with ingest := s.ingest.enqueue dumps inv jobId now fault }.move bot (.handled current rest)) botKey number := by
  obtain ⟨hmem, hbot⟩ := h.flight bot current inv rest hphase
  refine h.end_call ?_ (fun ack hack => ?_) ?_ hmem hbot ?_
  · rfl
  · rcases List.mem_append.mp hack with hnew | hold
    · obtain ⟨jobId', -, rfl⟩ := Option.map_eq_some_iff.mp (Option.mem_toList.mp hnew)
      exact .inr rfl
    · exact .inl hold
  · rfl
  · simp

theorem step {stream : String → ℕ → Prop} {event : PollEvent} (h : Gone s botKey number)
    (hs : (polling dumps stream).step s event t) : Gone t botKey number := by
  cases event with
  | fetch bot updates =>
    obtain ⟨-, -, rfl⟩ := hs
    exact h.put fun _ _ _ => by simp
  | drop bot env =>
    obtain ⟨current, rest, -, -, rfl⟩ := hs
    have hjudged : Gone (s.judge bot current.number .dropped) botKey number := ⟨h.row, h.acks, h.inFlight, h.flight⟩
    exact hjudged.put fun _ _ _ => by simp
  | persist bot env inboundId =>
    obtain ⟨current, rest, -, -, ht⟩ := hs
    exact h.persist ht
  | enqueue bot jobId now fault =>
    obtain ⟨current, inv, rest, hphase, -, rfl⟩ := hs
    exact h.enqueue hphase
  | save bot =>
    obtain ⟨current, rest, -, rfl⟩ := hs
    exact h.put fun _ _ _ => by simp
  | restart bot =>
    obtain rfl : t = _ := hs
    exact h.restart
  | work now call =>
    obtain ⟨-, rfl⟩ := hs
    exact ⟨h.row, h.acks, h.inFlight, h.flight⟩

end Gone

/-- **A crash between the transactions** loses the update: it never gets a job, however often it is
delivered again. -/
theorem crash_loses (dumps : Invocation → String) (stream : String → ℕ → Prop) (s t : PollState) (botKey : String)
    (current : PolledUpdate) (inv : Invocation) (rest : List PolledUpdate) (events : List PollEvent)
    (h : ((polling dumps stream).guard fun s event => event.GetsThere s).Reachable s)
    (hphase : (s.pollers botKey).phase = .persisted current inv rest)
    (hrun : (polling dumps stream).Run (s.restart botKey) events t) : ¬ HasJob t botKey current.number := by
  have hinv := pollInv h
  obtain ⟨hflight, hbot, hupdate, -⟩ := (hinv.bot botKey).flight current inv rest hphase
  have hentry : inv.entry = some ("telegram", botKey, toString (current.number : ℤ)) := by
    rw [Invocation.entry, hupdate, current.extract, hbot]
    rfl
  have hsome : inv.entry.isSome := by rw [hentry]; rfl
  have hrestart : s.restart botKey = { s with ingest := s.ingest.abandon inv }.move botKey (.batch []) := by
    unfold PollState.restart
    rw [hphase]
  have hgone : Gone (s.restart botKey) botKey current.number := by
    rw [hrestart]
    refine ⟨?_, fun ack hack => ?_, fun inv' hinv' heq => ?_, fun bot current' inv' rest' hphase' => ?_⟩
    · obtain ⟨row, hrow, -, hrowEntry⟩ := hinv.ingest.row inv (List.mem_append_left _ hflight)
      exact ⟨row, hrow, hrowEntry.trans hentry⟩
    · exact hentry ▸ hinv.ingest.entry_ne hflight hack hsome
    · -- the call was the only one with the entry
      have hmem : inv' ∈ s.ingest.inFlight := List.mem_of_mem_erase hinv'
      obtain rfl := hinv.ingest.eq_of_entry (List.mem_append_left _ hflight) (List.mem_append_left _ hmem) hsome
        (heq.trans hentry.symm)
      have hnodup : s.ingest.inFlight.Nodup := (List.nodup_append.mp (List.Nodup.of_map _ hinv.ingest.once)).1
      exact hnodup.not_mem_erase hinv'
    · by_cases hsame : bot = botKey
      · subst hsame
        rw [PollState.move, PollState.put_self] at hphase'
        cases hphase'
      · rw [PollState.move, PollState.put_of_ne _ _ hsame] at hphase'
        obtain ⟨hmem, hbot', -, -⟩ := (hinv.bot bot).flight current' inv' rest' hphase'
        refine ⟨(List.mem_erase_of_ne ?_).mpr hmem, hbot'⟩
        rintro rfl
        exact hsame (hbot'.symm.trans hbot)
  exact (Lts.Run.keeps (P := fun s => Gone s botKey current.number) (fun _ _ _ hg hs => hg.step hs) hrun hgone).not_hasJob

/-! ### A lost update -/

/-- The first bot has one update. -/
def oneUpdate (botKey : String) (n : ℕ) : Prop := botKey = "sreda" ∧ n = 42

def polledFortyTwo : PolledUpdate := ⟨42, fortyTwo, rfl⟩

theorem answers_fortyTwo {offset : ℕ} (h : offset ≤ 42) : Answers (oneUpdate "sreda") offset [polledFortyTwo] := by
  refine ⟨by simp, ?_, ?_⟩
  · intro update hupdate
    obtain rfl := List.mem_singleton.mp hupdate
    exact h
  · rintro n ⟨-, rfl⟩ -
    exact .inl List.mem_cons_self

/-- The update has been persisted. -/
def between : PollState :=
  ((PollState.empty.move "sreda" (.batch [polledFortyTwo])).persist "sreda" polledFortyTwo [] routed "in_1").getD .empty

/-- It gets to the queue. -/
def queuedOnce : PollState :=
  { between with ingest := between.ingest.enqueue noDumps firstCall "job_1" 0 .none }.move "sreda" (.handled polledFortyTwo [])

/-- The poller has crashed instead, and the update is delivered again. -/
def deliveredAgain : PollState := (between.restart "sreda").move "sreda" (.batch [polledFortyTwo])

/-- It is taken for a duplicate. -/
def ignoredAgain : PollState := (deliveredAgain.persist "sreda" polledFortyTwo [] routed "in_2").getD .empty

theorem between_reachable :
    ((polling noDumps oneUpdate).guard fun s event => event.GetsThere s).Reachable between := by
  have hinit : (polling noDumps oneUpdate).init .empty := rfl
  have hfetched : ((polling noDumps oneUpdate).guard fun s event => event.GetsThere s).Reachable
      (PollState.empty.move "sreda" (.batch [polledFortyTwo])) :=
    (Lts.Hist.init (L := (polling noDumps oneUpdate).guard _) hinit).reachable.step (a := .fetch "sreda" [polledFortyTwo])
      ⟨⟨rfl, answers_fortyTwo (Nat.zero_le _), rfl⟩, trivial⟩
  exact hfetched.step (a := .persist "sreda" routed "in_1") ⟨⟨polledFortyTwo, [], rfl, by decide, rfl⟩, trivial⟩

theorem queuedOnce_reachable :
    ((polling noDumps oneUpdate).guard fun s event => event.GetsThere s).Reachable queuedOnce := by
  refine between_reachable.step (a := .enqueue "sreda" "job_1" 0 .none)
    ⟨⟨polledFortyTwo, firstCall, [], rfl, ?_, rfl⟩, by decide, ?_⟩
  · rintro job ⟨⟩
  · rintro current inv rest - ack ⟨⟩

/-- The offset is past the update, which has a job. -/
theorem no_update_lost_queuedOnce : NoneLost oneUpdate (queuedOnce.saveOffset "sreda" polledFortyTwo []) :=
  no_update_lost noDumps oneUpdate _
    (queuedOnce_reachable.step (a := .save "sreda") ⟨⟨polledFortyTwo, [], rfl, rfl⟩, trivial⟩)

theorem redelivered_run : (polling noDumps oneUpdate).Run (between.restart "sreda")
    [.fetch "sreda" [polledFortyTwo], .persist "sreda" routed "in_2", .save "sreda"]
    (ignoredAgain.saveOffset "sreda" polledFortyTwo []) := by
  have hfetch : (polling noDumps oneUpdate).step (between.restart "sreda") (.fetch "sreda" [polledFortyTwo]) deliveredAgain :=
    ⟨rfl, answers_fortyTwo (Nat.zero_le _), rfl⟩
  have hpersist : (polling noDumps oneUpdate).step deliveredAgain (.persist "sreda" routed "in_2") ignoredAgain :=
    ⟨polledFortyTwo, [], rfl, by decide, rfl⟩
  have hsave : (polling noDumps oneUpdate).step ignoredAgain (.save "sreda")
      (ignoredAgain.saveOffset "sreda" polledFortyTwo []) := ⟨polledFortyTwo, [], rfl, rfl⟩
  exact (((Lts.Run.nil _).snoc hfetch).snoc hpersist).snoc hsave

/-- **A lost update**: the crash comes between the transactions, and the offset passes the update. -/
theorem update_lost : ¬ ∀ dumps stream s, (polling dumps stream).Reachable s → NoneLost stream s := by
  intro h
  have hcrash : (polling noDumps oneUpdate).step between (.restart "sreda") (between.restart "sreda") := rfl
  have hlost := h noDumps oneUpdate _ ((between_reachable.of_guard.step hcrash).run redelivered_run)
  obtain ⟨fate, hfate, hjob⟩ := hlost.settled "sreda" 42 ⟨rfl, rfl⟩ (by decide)
  obtain rfl : fate = .queue := (Option.some.inj hfate).symm
  exact crash_loses noDumps oneUpdate between _ "sreda" polledFortyTwo firstCall [] _ between_reachable rfl
    redelivered_run (hjob rfl)

end Sreda.Workers
