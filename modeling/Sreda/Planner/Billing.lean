import Sreda.Lib.Transition
import Sreda.Planner.StepLedger

/-!
# The reservation ledger of LLM calls

`planner/billing.py`: the table `planner_llm_reservations` with one row per LLM call, and the
five helpers that write it. A row is reserved before the call and settled after it: charged,
released, expired or of unknown outcome.

The four helpers that settle a row take its lock, so each is one step. `reserve` is two: it
looks for the row, and inserts one if there is none; other calls may come between. A helper
that raises has changed nothing. The times are instants, in microseconds: `expire` brings the
stored time and the clock to the same zone before it compares them.

## What is proved

* what a settling helper does (`settle_cases`);
* a settled row never changes again (`settled_kept`), over every interleaving of calls
  (`settled_run`);
* the guarantees of the ledger (`ledger_guarantees`).
-/

namespace Sreda.Planner

open Sreda.Lib

/-! ### The table -/

/-- `ck_planner_llm_reservations_state`. -/
inductive ReservationState where
  | reserved | charged | released | expired | unknownProviderOutcome
  deriving DecidableEq

/-- `PlannerLlmReservation`. -/
structure Reservation where
  id : String
  llmCallId : String
  executionId : Option String
  tenantId : String
  featureKey : Option String
  model : Option String
  state : ReservationState
  reservedTokens : ℤ
  actualTokens : Option ℤ
  createdAt : ℤ
  updatedAt : ℤ
  expiresAt : Option ℤ
  deriving DecidableEq

/-- The table, unique in `llm_call_id`. -/
abbrev Reservations := Keyed Reservation.llmCallId

/-- What the helpers raise, with what their messages name. -/
inductive BillingError where
  /-- `reserved_tokens must be > 0`. -/
  | reservedTokens (got : ℤ)
  /-- `actual_tokens must be >= 0`. -/
  | actualTokens (got : ℤ)
  /-- `IntegrityError` of the insertion, when no row has the key. -/
  | integrityError
  /-- `No PlannerLlmReservation found`. -/
  | lookupError (llmCallId : String)
  /-- `Double-charge detected`. -/
  | doubleCharge (llmCallId : String) (stored : Option ℤ) (new : ℤ)
  /-- `Only 'reserved' rows can be …`: the state that was asked for and that of the row. -/
  | notReserved (wanted state : ReservationState) (llmCallId : String)
  /-- `TTL has not lapsed`. -/
  | ttlNotLapsed (llmCallId : String) (expiresAt : Option ℤ) (now : ℤ)
  deriving DecidableEq

/-! ### `reserve` -/

/-- The arguments of `reserve`. -/
structure ReserveCall where
  llmCallId : String
  executionId : Option String
  tenantId : String
  featureKey : Option String
  model : Option String
  reservedTokens : ℤ
  now : ℤ
  ttlSeconds : Option ℤ
  deriving DecidableEq

/-- The row that `reserve` inserts; `id` is the new `uuid4`. -/
def ReserveCall.newRow (c : ReserveCall) (id : String) : Reservation where
  id := id
  llmCallId := c.llmCallId
  executionId := c.executionId
  tenantId := c.tenantId
  featureKey := c.featureKey
  model := c.model
  state := .reserved
  reservedTokens := c.reservedTokens
  actualTokens := none
  createdAt := c.now
  updatedAt := c.now
  expiresAt := c.ttlSeconds.map fun ttl => c.now + seconds ttl

/-- The first part of `reserve`: the existing row, if there is one. -/
def reserveSelect (t : Reservations) (c : ReserveCall) : Except BillingError (Option Reservation) :=
  if c.reservedTokens ≤ 0 then .error (.reservedTokens c.reservedTokens)
  else .ok (t.get? c.llmCallId)

/-- The second part of `reserve`: the insertion, and on a conflict the row that was there
first. `refused` says that another constraint of the table fails: the primary key, or the
foreign key of the execution. -/
def reserveInsert (t : Reservations) (c : ReserveCall) (id : String) (refused : Bool) :
    Reservations × Except BillingError Reservation :=
  match if refused then none else t.insert? (c.newRow id) with
  | some t' => (t', .ok (c.newRow id))
  | none =>
    match t.get? c.llmCallId with
    | some winner => (t, .ok winner)
    | none => (t, .error .integrityError)

/-- `reserve`, when no other call comes between. -/
def reserve (t : Reservations) (c : ReserveCall) (id : String) (refused : Bool) :
    Reservations × Except BillingError Reservation :=
  match reserveSelect t c with
  | .error e => (t, .error e)
  | .ok (some existing) => (t, .ok existing)
  | .ok none => reserveInsert t c id refused

/-! ### The helpers that settle a row -/

/-- A row that gets a terminal state. -/
def Reservation.settle (row : Reservation) (state : ReservationState) (actualTokens : Option ℤ) (now : ℤ) :
    Reservation :=
  { row with state := state, actualTokens := actualTokens, updatedAt := now }

theorem Reservation.llmCallId_settle (row : Reservation) (state : ReservationState) (actualTokens : Option ℤ)
    (now : ℤ) :
    (row.settle state actualTokens now).llmCallId = row.llmCallId := rfl

/-- The row under a key gets a terminal state. -/
def settleRow (t : Reservations) (llmCallId : String) (target : ReservationState) (actual : Reservation → Option ℤ)
    (now : ℤ) : Reservations :=
  t.update (fun r => r.llmCallId = llmCallId) (fun r => r.settle target (actual r) now)
    fun r => r.llmCallId_settle _ _ _

theorem get?_settleRow (t : Reservations) (llmCallId : String) (target : ReservationState)
    (actual : Reservation → Option ℤ) (now : ℤ) (k : String) :
    (settleRow t llmCallId target actual now).get? k =
      (t.get? k).map fun r => if r.llmCallId = llmCallId then r.settle target (actual r) now else r := by
  rw [settleRow, Keyed.get?_update fun r => r.llmCallId_settle _ _ _]
  simp

/-- The common body: under the lock of the row, a row in the target state is returned as it is
unless `again` objects, and a reserved row that `allowed` lets pass is settled. -/
def settle (t : Reservations) (llmCallId : String) (target : ReservationState) (now : ℤ)
    (actual : Reservation → Option ℤ) (again allowed : Reservation → Except BillingError Unit) :
    Reservations × Except BillingError Reservation :=
  match t.get? llmCallId with
  | none => (t, .error (.lookupError llmCallId))
  | some row =>
    if row.state = target then (t, (again row).map fun _ => row)
    else if row.state ≠ .reserved then (t, .error (.notReserved target row.state llmCallId))
    else
      match allowed row with
      | .error e => (t, .error e)
      | .ok () =>
        (settleRow t llmCallId target actual now, .ok (row.settle target (actual row) now))

/-- `charge`. -/
def charge (t : Reservations) (llmCallId : String) (actualTokens now : ℤ) :
    Reservations × Except BillingError Reservation :=
  if actualTokens < 0 then (t, .error (.actualTokens actualTokens))
  else
    settle t llmCallId .charged now (fun _ => some actualTokens)
      (fun row => if row.actualTokens = some actualTokens then .ok ()
        else .error (.doubleCharge llmCallId row.actualTokens actualTokens))
      fun _ => .ok ()

/-- `release`. -/
def release (t : Reservations) (llmCallId : String) (now : ℤ) : Reservations × Except BillingError Reservation :=
  settle t llmCallId .released now (·.actualTokens) (fun _ => .ok ()) fun _ => .ok ()

/-- `mark_unknown_provider_outcome`: the reserved maximum is charged. -/
def markUnknownProviderOutcome (t : Reservations) (llmCallId : String) (now : ℤ) :
    Reservations × Except BillingError Reservation :=
  settle t llmCallId .unknownProviderOutcome now (fun row => some row.reservedTokens) (fun _ => .ok ()) fun _ => .ok ()

/-- `expire`. -/
def expire (t : Reservations) (llmCallId : String) (now : ℤ) : Reservations × Except BillingError Reservation :=
  settle t llmCallId .expired now (·.actualTokens) (fun _ => .ok ()) fun row =>
    if row.expiresAt.any (· < now) then .ok () else .error (.ttlNotLapsed llmCallId row.expiresAt now)

/-! ### Any number of callers -/

/-- A step of a caller. -/
inductive BillingCall where
  | reserveSelect (c : ReserveCall)
  | reserveInsert (c : ReserveCall) (id : String) (refused : Bool)
  | charge (llmCallId : String) (actualTokens now : ℤ)
  | release (llmCallId : String) (now : ℤ)
  | markUnknown (llmCallId : String) (now : ℤ)
  | expire (llmCallId : String) (now : ℤ)
  deriving DecidableEq

/-- What a step does and gives back; nothing is given back while `reserve` goes on. -/
def execBilling (t : Reservations) : BillingCall → Reservations × Except BillingError (Option Reservation)
  | .reserveSelect c => (t, reserveSelect t c)
  | .reserveInsert c id refused => ((reserveInsert t c id refused).1, (reserveInsert t c id refused).2.map some)
  | .charge llmCallId actualTokens now => ((charge t llmCallId actualTokens now).1, (charge t llmCallId actualTokens now).2.map some)
  | .release llmCallId now => ((release t llmCallId now).1, (release t llmCallId now).2.map some)
  | .markUnknown llmCallId now =>
    ((markUnknownProviderOutcome t llmCallId now).1, (markUnknownProviderOutcome t llmCallId now).2.map some)
  | .expire llmCallId now => ((expire t llmCallId now).1, (expire t llmCallId now).2.map some)

/-- The table, and the calls of `reserve` that saw no row and are about to insert one. -/
structure Billing where
  table : Reservations
  inserting : List ReserveCall

/-- A step and what it gave back. -/
structure BillingEvent where
  call : BillingCall
  result : Except BillingError (Option Reservation)

/-- The calls of `reserve` under way after a step. -/
def insertingAfter (inserting : List ReserveCall) : BillingEvent → List ReserveCall
  | ⟨.reserveSelect c, .ok none⟩ => c :: inserting
  | ⟨.reserveInsert c _ _, _⟩ => inserting.erase c
  | _ => inserting

/-- A caller inserts what it has not found. -/
def BillingCall.ready (s : Billing) : BillingCall → Prop
  | .reserveInsert c _ _ => c ∈ s.inserting
  | _ => True

/-- The ledger, from an empty table. -/
def billing : Lts Billing BillingEvent where
  init s := s.table = .empty ∧ s.inserting = []
  step s e t :=
    e.call.ready s ∧ execBilling s.table e.call = (t.table, e.result) ∧ t.inserting = insertingAfter s.inserting e

/-! ### What a step does -/

/-- A settling helper leaves the table alone, or settles a reserved row and returns it. -/
theorem settle_cases (t : Reservations) (llmCallId : String) (target : ReservationState) (now : ℤ)
    (actual : Reservation → Option ℤ) (again allowed : Reservation → Except BillingError Unit) :
    (settle t llmCallId target now actual again allowed).1 = t ∨
      ∃ row, t.get? llmCallId = some row ∧ row.state = .reserved ∧ allowed row = .ok () ∧
        settle t llmCallId target now actual again allowed =
          (settleRow t llmCallId target actual now, .ok (row.settle target (actual row) now)) := by
  unfold settle
  cases hget : t.get? llmCallId with
  | none => exact .inl rfl
  | some row =>
    by_cases hstate : row.state = target
    · exact .inl (by simp [hstate])
    · by_cases hres : row.state = .reserved
      · have htarget : ¬ ReservationState.reserved = target := hres ▸ hstate
        cases hallowed : allowed row with
        | error e => exact .inl (by simp [hres, htarget, hallowed])
        | ok _ => exact .inr ⟨row, rfl, hres, hallowed, by simp [hres, htarget, hallowed]⟩
      · exact .inl (by simp [hstate, hres])

/-- The row that a step may settle, and the state that it gets. -/
def BillingCall.target? : BillingCall → Option (String × ReservationState)
  | .charge llmCallId _ _ => some (llmCallId, .charged)
  | .release llmCallId _ => some (llmCallId, .released)
  | .markUnknown llmCallId _ => some (llmCallId, .unknownProviderOutcome)
  | .expire llmCallId _ => some (llmCallId, .expired)
  | _ => none

theorem BillingCall.target_ne_reserved {c : BillingCall} {llmCallId : String} {target : ReservationState}
    (h : c.target? = some (llmCallId, target)) : target ≠ .reserved := by
  cases c <;> simp only [target?, Option.some.injEq, Prod.mk.injEq, reduceCtorEq] at h <;> rw [← h.2] <;> decide

/-- What a step can do to the table: nothing, insert a reserved row under a new key, or settle
a reserved row. -/
inductive Did (t : Reservations) (c : BillingCall) :
    Reservations → Except BillingError (Option Reservation) → Prop where
  | nothing (result : Except BillingError (Option Reservation)) : Did t c t result
  | inserted (call : ReserveCall) (id : String) (refused : Bool) (hc : c = .reserveInsert call id refused)
      {t' : Reservations} (h : t.insert? (call.newRow id) = some t') : Did t c t' (.ok (some (call.newRow id)))
  | settled {llmCallId : String} {target : ReservationState} (hc : c.target? = some (llmCallId, target))
      (actual : Reservation → Option ℤ) (now : ℤ) {row : Reservation} (hrow : t.get? llmCallId = some row)
      (hres : row.state = .reserved) (hexpire : ∀ now, c = .expire llmCallId now → row.expiresAt.any (· < now) = true)
      {t' : Reservations} (h : t' = settleRow t llmCallId target actual now) :
      Did t c t' (.ok (some (row.settle target (actual row) now)))

theorem did_settle {t : Reservations} {c : BillingCall} {llmCallId : String} {target : ReservationState}
    (hc : c.target? = some (llmCallId, target)) (now : ℤ) (actual : Reservation → Option ℤ)
    (again allowed : Reservation → Except BillingError Unit)
    (hexpire : ∀ row now, allowed row = .ok () → c = .expire llmCallId now → row.expiresAt.any (· < now) = true) :
    Did t c (settle t llmCallId target now actual again allowed).1
      ((settle t llmCallId target now actual again allowed).2.map some) := by
  rcases settle_cases t llmCallId target now actual again allowed with h | ⟨row, hrow, hres, hallowed, h⟩
  · rw [h]
    exact .nothing _
  · rw [h]
    exact .settled hc actual now hrow hres (fun now' => hexpire row now' hallowed) rfl

/-- **What a step does.** -/
theorem execBilling_did (t : Reservations) (c : BillingCall) : Did t c (execBilling t c).1 (execBilling t c).2 := by
  cases c with
  | reserveSelect call => exact .nothing _
  | reserveInsert call id refused =>
    simp only [execBilling, reserveInsert]
    split
    · next t' h =>
      cases refused with
      | true => simp at h
      | false => exact .inserted call id false rfl (by simpa using h)
    · split <;> exact .nothing _
  | charge llmCallId actualTokens now =>
    simp only [execBilling, charge]
    split
    · exact .nothing _
    · exact did_settle rfl _ _ _ _ fun _ _ _ h => by cases h
  | release llmCallId now => exact did_settle rfl _ _ _ _ fun _ _ _ h => by cases h
  | markUnknown llmCallId now => exact did_settle rfl _ _ _ _ fun _ _ _ h => by cases h
  | expire llmCallId now =>
    refine did_settle rfl _ _ _ _ fun row now' hallowed h => ?_
    cases h
    by_contra hn
    simp [hn] at hallowed

/-- **A settled row is not changed by any step.** -/
theorem settled_kept {t : Reservations} {k : String} {row : Reservation} (h : t.get? k = some row)
    (hs : row.state ≠ .reserved) (c : BillingCall) : (execBilling t c).1.get? k = some row := by
  have hdid := execBilling_did t c
  generalize execBilling t c = out at hdid
  obtain ⟨t', result⟩ := out
  cases hdid with
  | nothing => exact h
  | inserted call id refused hc h' => exact Keyed.get?_insert? h' h
  | @settled llmCallId target hc actual now row' hrow hres hexpire _ h' =>
    rw [h', get?_settleRow, h, Option.map_some]
    by_cases hk : row.llmCallId = llmCallId
    · -- the row that is settled is reserved, so it is another one
      have hkey : row.llmCallId = k := (Keyed.get?_eq_some.mp h).2
      rw [← hkey, hk, hrow, Option.some.injEq] at h
      exact absurd (h ▸ hres) hs
    · simp [hk]

/-- **A settled row is never changed again.** -/
theorem settled_run {s t : Billing} {as : List BillingEvent} (hr : billing.Run s as t) {k : String} {row : Reservation}
    (h : s.table.get? k = some row) (hs : row.state ≠ .reserved) : t.table.get? k = some row := by
  refine hr.keeps (P := fun s => s.table.get? k = some row) (fun u e v hu hstep => ?_) h
  obtain ⟨-, hexec, -⟩ := hstep
  have := settled_kept hu hs e.call
  rwa [hexec] at this

/-! ### The guarantees -/

/-- A reserved row has no token count yet. -/
def Unbilled (t : Reservations) : Prop := ∀ k row, t.get? k = some row → row.state = .reserved → row.actualTokens = none

theorem unbilled_step {t : Reservations} (h : Unbilled t) (c : BillingCall) : Unbilled (execBilling t c).1 := by
  intro k row hrow hres
  have hdid := execBilling_did t c
  generalize execBilling t c = out at hdid hrow
  obtain ⟨t', result⟩ := out
  cases hdid with
  | nothing => exact h k row hrow hres
  | inserted call id refused hc h' =>
    obtain ⟨hmem, rfl⟩ := Keyed.get?_eq_some.mp hrow
    rw [Keyed.rows_insert? h'] at hmem
    rcases List.mem_append.mp hmem with hmem | hmem
    · exact h _ row (Keyed.get?_key hmem) hres
    · rw [List.mem_singleton.mp hmem]
      rfl
  | settled hc actual now hrow' hres' hexpire h' =>
    rw [h', get?_settleRow] at hrow
    obtain ⟨row₀, hrow₀, rfl⟩ := Option.map_eq_some_iff.mp hrow
    split at hres
    · exact absurd hres (BillingCall.target_ne_reserved hc)
    · next hk =>
      rw [if_neg hk]
      exact h k row₀ hrow₀ hres

theorem unbilled_of_reachable {s : Billing} (h : billing.Reachable s) : Unbilled s.table := by
  refine h.induct (P := fun s => Unbilled s.table) ?_ ?_
  · rintro s ⟨hs, -⟩ k row hrow
    rw [hs] at hrow
    simp [Keyed.get?, Keyed.empty] at hrow
  · rintro s e t - hu ⟨-, hexec, -⟩
    have := unbilled_step hu e.call
    rwa [hexec] at this

/-- The step brings the row into a terminal state in which it was not before. -/
def Settles (s t : Billing) (k : String) : Prop :=
  ∃ row, t.table.get? k = some row ∧ row.state ≠ .reserved ∧ (s.table.get? k).map (·.state) ≠ some row.state

/-- **The guarantees of the ledger**, over every interleaving of calls: a call that is settled
is never settled again; a token count that is set stays, with the whole row; a reservation of a
known call returns its row and changes nothing; what expires was reserved with a time to live
that has passed; and a step that raises changes nothing. -/
theorem ledger_guarantees {s t : Billing} {e : BillingEvent} (h : billing.Reachable s) (hs : billing.step s e t) :
    (∀ k, Settles s t k → ∀ as u e' v, billing.Run t as u → billing.step u e' v → ¬ Settles u v k) ∧
      (∀ k row n, t.table.get? k = some row → row.actualTokens = some n →
        ∀ as u, billing.Run t as u → u.table.get? k = some row) ∧
      (∀ c id refused row, (e.call = .reserveSelect c ∨ e.call = .reserveInsert c id refused) →
        s.table.get? c.llmCallId = some row →
          t.table = s.table ∧ (e.result = .ok (some row) ∨ (c.reservedTokens ≤ 0 ∧ e.call = .reserveSelect c))) ∧
      (∀ k now, e.call = .expire k now → Settles s t k →
        ∃ row, s.table.get? k = some row ∧ row.state = .reserved ∧ ∃ expiresAt, row.expiresAt = some expiresAt ∧
          expiresAt < now) ∧
      (∀ err, e.result = .error err → t.table = s.table) := by
  have hunbilled := unbilled_of_reachable (h.step hs)
  obtain ⟨hready, hexec, -⟩ := hs
  have htable : t.table = (execBilling s.table e.call).1 := by rw [hexec]
  have hresult : e.result = (execBilling s.table e.call).2 := by rw [hexec]
  have hdid := execBilling_did s.table e.call
  rw [hexec] at hdid
  refine ⟨?_, ?_, ?_, ?_, ?_⟩
  · rintro k ⟨row, hrow, hstate, -⟩ as u e' v hr ⟨-, hexec', -⟩ ⟨row', hrow', -, hne⟩
    have hu := settled_run hr hrow hstate
    have hv := settled_kept hu hstate e'.call
    rw [hexec', hrow', Option.some.injEq] at hv
    rw [hu, hv] at hne
    exact hne rfl
  · intro k row n hrow hn as u hr
    refine settled_run hr hrow fun hres => ?_
    rw [hunbilled k row hrow hres] at hn
    cases hn
  · rintro c id refused row (hc | hc) hrow
    · rw [htable, hresult, hc]
      refine ⟨rfl, ?_⟩
      by_cases htokens : c.reservedTokens ≤ 0
      · exact .inr ⟨htokens, rfl⟩
      · exact .inl (by simp [execBilling, reserveSelect, htokens, hrow])
    · have hinsert : (if refused then none else s.table.insert? (c.newRow id)) = none := by
        cases refused with
        | true => rfl
        | false =>
          obtain ⟨hmem, hkey⟩ := Keyed.get?_eq_some.mp hrow
          simpa using Keyed.insert?_eq_none.mpr ⟨row, hmem, hkey⟩
      rw [htable, hresult, hc]
      exact ⟨by simp [execBilling, reserveInsert, hinsert, hrow], .inl (by
        simp [execBilling, reserveInsert, hinsert, hrow, Except.map])⟩
  · rintro k now hc ⟨row', hrow', hstate', hne⟩
    rw [hc] at hdid
    generalize t.table = t' at hdid hrow'
    generalize e.result = result at hdid
    cases hdid with
    | nothing => exact absurd (by rw [hrow', Option.map_some]) hne
    | inserted call id refused hcall => cases hcall
    | settled htarget actual now' hrow hres hexpire _ =>
      simp only [BillingCall.target?, Option.some.injEq, Prod.mk.injEq] at htarget
      obtain ⟨rfl, rfl⟩ := htarget
      obtain ⟨expiresAt, hsome, hlt⟩ := Option.any_eq_true _ _ |>.mp (hexpire now rfl)
      exact ⟨_, hrow, hres, expiresAt, hsome, by simpa using hlt⟩
  · intro err herr
    rw [herr] at hdid
    generalize t.table = t' at hdid ⊢
    cases hdid with
    | nothing => rfl

/-! A call that is reserved and charged. -/

def composerCall : ReserveCall := ⟨"e1:composer:0:m", some "e1", "t1", none, some "m", 100, 0, some 60⟩

/-- The ledger after the reservation, and after the charge. -/
def composerReserved : Billing := ⟨(execBilling .empty (.reserveInsert composerCall "r1" false)).1, []⟩
def composerCharged : Billing := ⟨(execBilling composerReserved.table (.charge "e1:composer:0:m" 40 5)).1, []⟩

theorem composerReserved_reachable : billing.Reachable composerReserved := by
  have h₀ : billing.init ⟨.empty, []⟩ := ⟨rfl, rfl⟩
  have s₁ : billing.step ⟨.empty, []⟩ ⟨.reserveSelect composerCall, .ok none⟩ ⟨.empty, [composerCall]⟩ :=
    ⟨trivial, rfl, rfl⟩
  have s₂ : billing.step ⟨.empty, [composerCall]⟩ ⟨.reserveInsert composerCall "r1" false, .ok (some (composerCall.newRow "r1"))⟩
      composerReserved := ⟨by simp [BillingCall.ready], rfl, by simp [insertingAfter, composerReserved]⟩
  exact ⟨_, ((Lts.Hist.init h₀).snoc s₁).snoc s₂⟩

theorem ledger_guarantees_composerCharged : Settles composerReserved composerCharged "e1:composer:0:m" ∧
    ∀ as u e v, billing.Run composerCharged as u → billing.step u e v → ¬ Settles u v "e1:composer:0:m" := by
  have hstep : billing.step composerReserved
      ⟨.charge "e1:composer:0:m" 40 5, (execBilling composerReserved.table (.charge "e1:composer:0:m" 40 5)).2⟩
      composerCharged := ⟨trivial, rfl, rfl⟩
  have hsettles : Settles composerReserved composerCharged "e1:composer:0:m" :=
    ⟨(composerCall.newRow "r1").settle .charged (some 40) 5, by decide, by decide, by decide⟩
  exact ⟨hsettles, (ledger_guarantees composerReserved_reachable hstep).1 _ hsettles⟩

end Sreda.Planner
