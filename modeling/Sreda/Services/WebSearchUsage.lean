import Mathlib
import Sreda.Lib.Keyed
import Sreda.Lib.Transition
import Sreda.Workers.Instants

/-!
# The quota of the web search

`services/web_search_usage.py`: one counter for each (tenant, user, month), and two caps, one on the
counter of a user and one on the sum of a month. `try_consume_tavily` reserves a call in one serializable
transaction, `release_tavily` takes it back when Tavily did not answer; `web_search` makes the two calls
around its request, and each of them looks up the month by itself.

A call of the system that is granted is a reservation until it is released; it may also be kept. The caps
of a user come with each call.

## What is proved

* what a granted call and a release make of the counters (`consumeTxn_cases`, `count_releaseTavily`);
* the caps hold in every run (`caps`);
* in every run in which each release falls in the month of its reservation, a reservation with its
  release is as if it had not been (`tavily_quota`); over the turn of a month it is not (`month_turns`).
-/

namespace Sreda.Services

open Sreda.Lib

/-! ### The table -/

/-- The unique index of `web_search_usage`. -/
structure SearchKey where
  tenantId : String
  userId : String
  yearMonth : String
  deriving DecidableEq

/-- `WebSearchUsage`. -/
structure WebSearchUsage where
  key : SearchKey
  tavilyCalls : ℕ
  fallbackCalls : ℕ
  updatedAt : ℤ
  deriving DecidableEq

/-- The table `web_search_usage`. -/
abbrev SearchUsage := Keyed WebSearchUsage.key

/-- `GLOBAL_LIMIT`. -/
def globalLimit : ℕ := 950

/-- `_current_year_month`. -/
def currentYearMonth (now : ℤ) : String :=
  let (year, month, _) := Workers.civil (now / 1000000 / 86400)
  Workers.padded 4 year ++ "-" ++ Workers.padded 2 month

/-- `year_month or _current_year_month()`. -/
def monthOf (yearMonth : Option String) (now : ℤ) : String :=
  match yearMonth with
  | none => currentYearMonth now
  | some month => if month = "" then currentYearMonth now else month

/-- What a row adds to the sum of a month. -/
def callsIn (month : String) (row : WebSearchUsage) : Option ℕ :=
  if row.key.yearMonth = month then some row.tavilyCalls else none

/-- `SUM(tavily_calls)` of a month. -/
def tavilyTotal (U : SearchUsage) (month : String) : ℕ := (U.rows.filterMap (callsIn month)).sum

/-- The counter under a key: a row that is missing counts nothing. -/
def tavilyCount (U : SearchUsage) (key : SearchKey) : ℕ := ((U.get? key).map (·.tavilyCalls)).getD 0

/-! ### The service -/

/-- `QuotaDecision`. -/
inductive QuotaDecision where
  | allow | userExhausted | globalExhausted
  deriving DecidableEq

/-- What `try_consume_tavily` raises. -/
inductive ConsumeError where
  /-- `RuntimeError` after the last attempt. -/
  | serializationFailures
  /-- Any other `DBAPIError`. -/
  | database
  deriving DecidableEq

/-- What becomes of an attempt of the transaction. -/
inductive Attempt where
  | commits | serializationFailure | databaseError
  deriving DecidableEq

variable (U : SearchUsage)

/-- One more call in a row. -/
def WebSearchUsage.used (row : WebSearchUsage) (now : ℤ) : WebSearchUsage :=
  { row with tavilyCalls := row.tavilyCalls + 1, updatedAt := now }

@[simp] theorem WebSearchUsage.key_used (row : WebSearchUsage) (now : ℤ) : (row.used now).key = row.key := rfl

/-- One call less, and no less than none. -/
def WebSearchUsage.unused (row : WebSearchUsage) (now : ℤ) : WebSearchUsage :=
  { row with tavilyCalls := row.tavilyCalls - 1, updatedAt := now }

@[simp] theorem WebSearchUsage.key_unused (row : WebSearchUsage) (now : ℤ) : (row.unused now).key = row.key := rfl

/-- `_upsert_one`: nothing when no row is returned. -/
def upsertOne (key : SearchKey) (perUserCap : Option ℤ) (now : ℤ) : Option SearchUsage :=
  if perUserCap.all (1 ≤ ·) then
    match U.get? key with
    | none => U.insert? ⟨key, 1, 0, now⟩
    | some row =>
      -- ON CONFLICT DO UPDATE … WHERE
      if perUserCap.all ((row.tavilyCalls : ℤ) + 1 ≤ ·) then some (U.update (·.key = key) (·.used now) (·.key_used now))
      else none
  else none

/-- The transaction of `try_consume_tavily`. -/
def consumeTxn (key : SearchKey) (perUserCap : Option ℤ) (globalCap : ℤ) (now : ℤ) : SearchUsage × QuotaDecision :=
  if globalCap ≤ tavilyTotal U key.yearMonth then (U, .globalExhausted)
  else
    match upsertOne U key perUserCap now with
    | some U' => (U', .allow)
    | none => (U, .userExhausted)

/-- The attempts that are left. -/
def consumeAttempts (txn : SearchUsage × QuotaDecision) (attempt : ℕ → Attempt) :
    ℕ → Except ConsumeError (SearchUsage × QuotaDecision)
  | 0 => .error .serializationFailures
  | left + 1 =>
    match attempt left with
    | .commits => .ok txn
    | .serializationFailure => consumeAttempts txn attempt left
    | .databaseError => .error .database

/-- `try_consume_tavily`. A transaction that raises is rolled back. -/
def tryConsumeTavily (tenantId userId : String) (perUserCap : Option ℤ) (globalCap : ℤ) (yearMonth : Option String)
    (now : ℤ) (attempt : ℕ → Attempt) : Except ConsumeError (SearchUsage × QuotaDecision) :=
  if tenantId = "" ∨ userId = "" then .ok (U, .userExhausted)
  else consumeAttempts (consumeTxn U ⟨tenantId, userId, monthOf yearMonth now⟩ perUserCap globalCap now) attempt 3

/-- `release_tavily`. -/
def releaseTavily (tenantId userId : String) (yearMonth : Option String) (now : ℤ) : SearchUsage :=
  if tenantId = "" ∨ userId = "" then U
  else U.update (·.key = ⟨tenantId, userId, monthOf yearMonth now⟩) (·.unused now) (·.key_unused now)

/-- What a search answers. -/
inductive SearchAnswer where
  | results | freeQuotaExhausted | unavailable | ddgFallback
  deriving DecidableEq

/-- `web_search` after `try_consume_tavily`: the answer, and whether `release_tavily` is called. Tavily has
an answer or not. -/
def webSearch (isFree : Bool) (decision : Except ConsumeError QuotaDecision) (tavily : Bool) : SearchAnswer × Bool :=
  match decision with
  | .error _ | .ok .globalExhausted => (if isFree then .unavailable else .ddgFallback, false)
  | .ok .userExhausted => (.freeQuotaExhausted, false)
  | .ok .allow => if tavily then (.results, false) else (.unavailable, true)

/-- A search releases what it has reserved, and nothing else. -/
theorem webSearch_releases {isFree tavily : Bool} {decision : Except ConsumeError QuotaDecision} :
    (webSearch isFree decision tavily).2 = true ↔ decision = .ok .allow ∧ tavily = false := by
  unfold webSearch
  split
  case h_4 => cases tavily <;> simp
  all_goals simp

/-! ### The counters -/

variable {now : ℤ} {tenantId userId : String} {perUserCap : Option ℤ} {yearMonth : Option String}
variable {as : List SearchEvent} {r : Reservation}

section Counters

variable {U} {key : SearchKey} {set : WebSearchUsage → WebSearchUsage} {row : WebSearchUsage}

theorem tavilyCount_of_get? (h : U.get? key = some row) : tavilyCount U key = row.tavilyCalls := by
  simp [tavilyCount, h]

theorem tavilyCount_of_none (h : U.get? key = none) : tavilyCount U key = 0 := by simp [tavilyCount, h]

theorem tavilyTotal_split (h : U.get? key = some row) (month : String) :
    tavilyTotal U month = (callsIn month row).getD 0 + tavilyTotal (U.delete fun r => r.key = key) month := by
  have hperm := ((Keyed.rows_perm h).filterMap (callsIn month)).sum_eq
  rw [tavilyTotal, ← hperm]
  cases hcalls : callsIn month row <;> simp [tavilyTotal, hcalls]

theorem tavilyTotal_update {hset : ∀ row, (set row).key = row.key} (h : U.get? key = some row) (month : String) :
    tavilyTotal (U.update (fun r => r.key = key) set hset) month =
      (callsIn month (set row)).getD 0 + tavilyTotal (U.delete fun r => r.key = key) month := by
  have hperm : ((U.update (fun r => r.key = key) set hset).rows.filterMap (callsIn month)).Perm _ :=
    Keyed.filterMap_update_perm (callsIn month) h
  rw [tavilyTotal, hperm.sum_eq]
  cases hcalls : callsIn month (set row) <;> simp [tavilyTotal]

theorem tavilyCount_update {hset : ∀ row, (set row).key = row.key} (h : U.get? key = some row) (k : SearchKey) :
    tavilyCount (U.update (fun r => r.key = key) set hset) k =
      if k = key then (set row).tavilyCalls else tavilyCount U k := by
  rw [tavilyCount, Keyed.get?_update hset]
  by_cases hk : k = key
  · subst hk
    have hrow : row.key = k := (Keyed.get?_eq_some.mp h).2
    simp [h, hrow]
  · rw [if_neg hk]
    cases hget : U.get? k with
    | none => simp [tavilyCount, hget]
    | some other =>
      have hother : other.key = k := (Keyed.get?_eq_some.mp hget).2
      simp [tavilyCount, hget, hother, hk]

/-- One more call under a key, and nothing else. -/
structure Counted (U U' : SearchUsage) (key : SearchKey) : Prop where
  count : ∀ k, tavilyCount U' k = tavilyCount U k + if k = key then 1 else 0
  total : ∀ month, tavilyTotal U' month = tavilyTotal U month + if month = key.yearMonth then 1 else 0

theorem Counted.insert {U' : SearchUsage} (hnone : U.get? key = none)
    (h : U.insert? ⟨key, 1, 0, now⟩ = some U') : Counted U U' key := by
  have hrow : U'.get? key = some ⟨key, 1, 0, now⟩ :=
    Keyed.get?_eq_some.mpr ⟨by simp [Keyed.rows_insert? h], rfl⟩
  refine ⟨fun k => ?_, fun month => ?_⟩
  · by_cases hk : k = key
    · subst hk
      rw [tavilyCount_of_get? hrow, tavilyCount_of_none hnone, if_pos rfl]
    · rw [if_neg hk, tavilyCount, Keyed.get?_insert?_ne h hk]
      rfl
  · rw [tavilyTotal, Keyed.rows_insert? h, List.filterMap_append, List.sum_append]
    by_cases hmonth : month = key.yearMonth
    · simp [tavilyTotal, callsIn, hmonth]
    · simp [tavilyTotal, callsIn, hmonth, Ne.symm hmonth]

theorem Counted.update (now : ℤ) (h : U.get? key = some row) :
    Counted U (U.update (fun r => r.key = key) (·.used now) (·.key_used now)) key := by
  have hkey : row.key = key := (Keyed.get?_eq_some.mp h).2
  refine ⟨fun k => ?_, fun month => ?_⟩
  · rw [tavilyCount_update h]
    by_cases hk : k = key
    · rw [if_pos hk, if_pos hk, hk, tavilyCount_of_get? h]
      rfl
    · rw [if_neg hk, if_neg hk, Nat.add_zero]
  · rw [tavilyTotal_update h, tavilyTotal_split h]
    by_cases hmonth : month = key.yearMonth
    · simp only [callsIn, WebSearchUsage.used, hkey, hmonth, if_true, Option.getD_some]
      omega
    · simp [callsIn, WebSearchUsage.used, hkey, hmonth, Ne.symm hmonth]

/-- The cap of a user admits one call more than `n`. -/
def CapAdmits (perUserCap : Option ℤ) (n : ℕ) : Prop := ∀ cap, perUserCap = some cap → (n : ℤ) + 1 ≤ cap

/-- **The upsert** counts a call exactly when the cap admits it. -/
theorem upsertOne_cases (U : SearchUsage) (key : SearchKey) (perUserCap : Option ℤ) (now : ℤ) :
    (CapAdmits perUserCap (tavilyCount U key) ∧ ∃ U', upsertOne U key perUserCap now = some U' ∧ Counted U U' key) ∨
      (¬ CapAdmits perUserCap (tavilyCount U key) ∧ upsertOne U key perUserCap now = none) := by
  unfold upsertOne
  cases hget : U.get? key with
  | none =>
    rw [tavilyCount_of_none hget]
    cases hinsert : U.insert? ⟨key, 1, 0, now⟩ with
    | none =>
      obtain ⟨other, hother, hkey⟩ := Keyed.insert?_eq_none.mp hinsert
      exact absurd hkey (Keyed.get?_eq_none.mp hget other hother)
    | some U' =>
      cases perUserCap with
      | none => exact .inl ⟨by simp [CapAdmits], U', by simp, .insert hget hinsert⟩
      | some cap =>
        by_cases hcap : 1 ≤ cap
        · exact .inl ⟨by simpa [CapAdmits] using hcap, U', by simp [hcap], .insert hget hinsert⟩
        · exact .inr ⟨by simpa [CapAdmits] using hcap, by simp [hcap]⟩
  | some row =>
    rw [tavilyCount_of_get? hget]
    cases perUserCap with
    | none => exact .inl ⟨by simp [CapAdmits], _, by simp, .update now hget⟩
    | some cap =>
      by_cases hcap : (row.tavilyCalls : ℤ) + 1 ≤ cap
      · have hone : (some cap).all (fun cap : ℤ => 1 ≤ cap) = true := decide_eq_true (by omega)
        have hall : (some cap).all (fun cap : ℤ => (row.tavilyCalls : ℤ) + 1 ≤ cap) = true := decide_eq_true hcap
        exact .inl ⟨fun _ hcap' => Option.some.inj hcap' ▸ hcap, _, by simp only [hone, hall, if_true], .update now hget⟩
      · have hall : (some cap).all (fun cap : ℤ => (row.tavilyCalls : ℤ) + 1 ≤ cap) = false := decide_eq_false hcap
        refine .inr ⟨fun h => hcap (h cap rfl), ?_⟩
        simp only [hall, Bool.false_eq_true, if_false, ite_self]

/-- The transaction may count a call: both caps admit it. -/
def Admissible (U : SearchUsage) (key : SearchKey) (perUserCap : Option ℤ) (globalCap : ℤ) : Prop :=
  (tavilyTotal U key.yearMonth : ℤ) < globalCap ∧ CapAdmits perUserCap (tavilyCount U key)

/-- **The transaction** counts a call when both caps admit it, and else leaves the table. -/
theorem consumeTxn_cases (U : SearchUsage) (key : SearchKey) (perUserCap : Option ℤ) (globalCap now : ℤ) :
    (Admissible U key perUserCap globalCap ∧
        ∃ U', consumeTxn U key perUserCap globalCap now = (U', .allow) ∧ Counted U U' key) ∨
      (¬ Admissible U key perUserCap globalCap ∧
        ∃ decision, decision ≠ .allow ∧ consumeTxn U key perUserCap globalCap now = (U, decision)) := by
  unfold consumeTxn Admissible
  by_cases hglobal : globalCap ≤ tavilyTotal U key.yearMonth
  · exact .inr ⟨fun h => absurd h.1 (Int.not_lt.mpr hglobal), .globalExhausted, by decide, if_pos hglobal⟩
  · rw [if_neg hglobal]
    rcases upsertOne_cases U key perUserCap now with ⟨hcap, U', hsome, hcounted⟩ | ⟨hcap, hnone⟩
    · exact .inl ⟨⟨Int.not_le.mp hglobal, hcap⟩, U', by rw [hsome], hcounted⟩
    · exact .inr ⟨fun h => hcap h.2, .userExhausted, by decide, by rw [hnone]⟩

/-- What a release makes of the counters. -/
structure Released (U U' : SearchUsage) (key : SearchKey) : Prop where
  count : ∀ k, tavilyCount U' k = tavilyCount U k - if k = key then 1 else 0
  total : ∀ month, tavilyTotal U' month + (if month = key.yearMonth ∧ 0 < tavilyCount U key then 1 else 0) =
    tavilyTotal U month

theorem released (yearMonth : Option String) (now : ℤ) (htenant : tenantId ≠ "") (huser : userId ≠ "") :
    Released U (releaseTavily U tenantId userId yearMonth now) ⟨tenantId, userId, monthOf yearMonth now⟩ := by
  rw [releaseTavily, if_neg (by simp [htenant, huser])]
  cases hget : U.get? ⟨tenantId, userId, monthOf yearMonth now⟩ with
  | none =>
    have hrows : (U.update (fun r => r.key = ⟨tenantId, userId, monthOf yearMonth now⟩) (·.unused now)
        (·.key_unused now)).rows = U.rows := by
      rw [Keyed.rows_update]
      refine (List.map_congr_left (g := id) fun r hr => ?_).trans (List.map_id _)
      simp [Keyed.get?_eq_none.mp hget r hr]
    refine ⟨fun k => ?_, fun month => ?_⟩
    · rw [tavilyCount, Keyed.get?, hrows, ← Keyed.get?, ← tavilyCount]
      by_cases hk : k = ⟨tenantId, userId, monthOf yearMonth now⟩
      · rw [hk, tavilyCount_of_none hget, Nat.zero_sub]
      · rw [if_neg hk, Nat.sub_zero]
    · rw [tavilyCount_of_none hget, if_neg (by simp), Nat.add_zero, tavilyTotal, hrows, tavilyTotal]
  | some row =>
    have hkey := (Keyed.get?_eq_some.mp hget).2
    refine ⟨fun k => ?_, fun month => ?_⟩
    · rw [tavilyCount_update hget]
      by_cases hk : k = ⟨tenantId, userId, monthOf yearMonth now⟩
      · rw [if_pos hk, if_pos hk, hk, tavilyCount_of_get? hget]
        rfl
      · rw [if_neg hk, if_neg hk, Nat.sub_zero]
    · rw [tavilyTotal_update hget, tavilyTotal_split hget, tavilyCount_of_get? hget]
      by_cases hmonth : month = monthOf yearMonth now
      · simp only [callsIn, WebSearchUsage.unused, hkey, hmonth, if_true, Option.getD_some, true_and]
        split <;> omega
      · simp [callsIn, WebSearchUsage.unused, hkey, hmonth, Ne.symm hmonth]

end Counters

/-! ### Runs -/

/-- A call that was granted and is not released. -/
structure Reservation where
  call : ℕ
  key : SearchKey
  deriving DecidableEq

/-- The table, and the reservations that may still be released. -/
structure SearchState where
  usage : SearchUsage
  reserved : List Reservation

/-- A call of the service, with what `try_consume_tavily` returned. -/
inductive SearchEvent where
  | consume (call : ℕ) (tenantId userId : String) (perUserCap : Option ℤ) (yearMonth : Option String) (now : ℤ)
      (result : Except ConsumeError QuotaDecision)
  | release (call : ℕ) (yearMonth : Option String) (now : ℤ)

/-- The state after `try_consume_tavily` has returned. -/
def SearchState.consumed (s : SearchState) (reservation : Reservation) :
    Except ConsumeError (SearchUsage × QuotaDecision) → SearchState
  | .ok (usage, .allow) => ⟨usage, reservation :: s.reserved⟩
  | .ok (usage, _) => { s with usage := usage }
  | .error _ => s

/-- The calls of any users at any times. A reservation is released under its number, and at most once. -/
def tavily (globalCap : ℕ) : Lts SearchState SearchEvent where
  init s := (∀ row ∈ s.usage.rows, row.tavilyCalls = 0) ∧ s.reserved = []
  step s e t :=
    match e with
    | .consume call tenantId userId perUserCap yearMonth now result =>
      (∀ r ∈ s.reserved, r.call ≠ call) ∧ ∃ attempt answer,
        tryConsumeTavily s.usage tenantId userId perUserCap globalCap yearMonth now attempt = answer ∧
          answer.map (·.2) = result ∧ t = s.consumed ⟨call, tenantId, userId, monthOf yearMonth now⟩ answer
    | .release call yearMonth now =>
      ∃ r ∈ s.reserved, r.call = call ∧
        t = ⟨releaseTavily s.usage r.key.tenantId r.key.userId yearMonth now, s.reserved.erase r⟩

namespace SearchEvent

/-- A call of `try_consume_tavily` that did not return `ALLOW`. -/
def refused : SearchEvent → Bool
  | .consume _ _ _ _ _ _ (.ok .allow) => false
  | .consume .. => true
  | .release .. => false

/-- The event reserves a call under the key. -/
def Reserves (call : ℕ) (key : SearchKey) : SearchEvent → Prop
  | .consume c tenantId userId _ yearMonth now result =>
    c = call ∧ ⟨tenantId, userId, monthOf yearMonth now⟩ = key ∧ result = .ok .allow
  | .release .. => False

/-- The event releases the call. -/
def Releases (call : ℕ) : SearchEvent → Prop
  | .consume .. => False
  | .release c _ _ => c = call

/-- The calls under the key come with this cap or a smaller one. -/
def CappedBy (key : SearchKey) (cap : ℤ) : SearchEvent → Prop
  | .consume _ tenantId userId perUserCap yearMonth now _ =>
    ⟨tenantId, userId, monthOf yearMonth now⟩ = key → ∃ c, perUserCap = some c ∧ c ≤ cap
  | .release .. => True

/-- The condition: a release falls in the month of its reservation. -/
def SameMonth (s : SearchState) : SearchEvent → Prop
  | .consume .. => True
  | .release call yearMonth now => ∀ r ∈ s.reserved, r.call = call → monthOf yearMonth now = r.key.yearMonth

end SearchEvent

/-- The caps of a run. -/
structure CapsHold (globalCap : ℕ) (as : List SearchEvent) (s : SearchState) : Prop where
  global : ∀ month, tavilyTotal s.usage month ≤ globalCap
  user : ∀ (key : SearchKey) (cap : ℤ), 0 ≤ cap → (∀ e ∈ as, e.CappedBy key cap) → (tavilyCount s.usage key : ℤ) ≤ cap

/-- A reservation with its release is as if it had not been: the run without the two leads to the same
counters. The calls that were refused between them have changed nothing, and are left out, too. -/
def PairsCancel (globalCap : ℕ) (s₀ : SearchState) (as : List SearchEvent) (s : SearchState) : Prop :=
  ∀ pre e mid e' call key, as = pre ++ e :: (mid ++ [e']) → e.Reserves call key → e'.Releases call →
    (∀ x ∈ mid, ¬ x.Releases call) →
      ∃ s', (tavily globalCap).Run s₀ (pre ++ mid.filter fun x => !x.refused) s' ∧
        ∀ k, tavilyCount s.usage k = tavilyCount s'.usage k

/-- What the quota was to guarantee after a run. -/
structure SearchGuarantees (globalCap : ℕ) (s₀ : SearchState) (as : List SearchEvent) (s : SearchState) : Prop where
  caps : CapsHold globalCap as s
  refused : ∀ e t, (tavily globalCap).step s e t → e.refused = true → t = s
  pairs : PairsCancel globalCap s₀ as s

/-! ### Steps -/

variable {globalCap : ℕ} {s t u u' : SearchState} {call : ℕ} {key : SearchKey}

theorem consumeAttempts_cases (txn : SearchUsage × QuotaDecision) (attempt : ℕ → Attempt) (left : ℕ) :
    consumeAttempts txn attempt left = .ok txn ∨ ∃ e, consumeAttempts txn attempt left = .error e := by
  induction left with
  | zero => exact .inr ⟨_, rfl⟩
  | succ left ih =>
    rw [consumeAttempts]
    cases attempt left with
    | commits => exact .inl rfl
    | serializationFailure => exact ih
    | databaseError => exact .inr ⟨_, rfl⟩

/-- **A call** is refused and changes nothing, or is counted under its key and becomes a reservation. -/
theorem consume_step {result : Except ConsumeError QuotaDecision}
    (hs : (tavily globalCap).step s (.consume call tenantId userId perUserCap yearMonth now result) t) :
    (result ≠ .ok .allow ∧ t = s) ∨
      (result = .ok .allow ∧ tenantId ≠ "" ∧ userId ≠ "" ∧
        Admissible s.usage ⟨tenantId, userId, monthOf yearMonth now⟩ perUserCap globalCap ∧
        Counted s.usage t.usage ⟨tenantId, userId, monthOf yearMonth now⟩ ∧
        t.reserved = ⟨call, tenantId, userId, monthOf yearMonth now⟩ :: s.reserved) := by
  obtain ⟨-, attempt, answer, hanswer, hresult, ht⟩ := hs
  unfold tryConsumeTavily at hanswer
  split at hanswer
  next =>
    subst hanswer hresult ht
    exact .inl ⟨by simp [Except.map], rfl⟩
  next hnamed =>
    rw [not_or] at hnamed
    rcases consumeAttempts_cases (consumeTxn s.usage ⟨tenantId, userId, monthOf yearMonth now⟩ perUserCap globalCap now)
      attempt 3 with htxn | ⟨e, he⟩
    · rw [htxn] at hanswer
      rcases consumeTxn_cases s.usage ⟨tenantId, userId, monthOf yearMonth now⟩ perUserCap globalCap now with
        ⟨hadmissible, U', hallow, hcounted⟩ | ⟨-, decision, hdecision, hrefused⟩
      · rw [hallow] at hanswer
        subst hanswer hresult ht
        exact .inr ⟨rfl, hnamed.1, hnamed.2, hadmissible, hcounted, rfl⟩
      · rw [hrefused] at hanswer
        subst hanswer hresult ht
        refine .inl ⟨by simpa [Except.map] using hdecision, ?_⟩
        cases decision with
        | allow => exact absurd rfl hdecision
        | userExhausted | globalExhausted => rfl
    · rw [he] at hanswer
      subst hanswer hresult ht
      exact .inl ⟨by simp [Except.map], rfl⟩

theorem exists_consume_step (call : ℕ)
    (hfresh : ∀ r ∈ s.reserved, r.call ≠ call) (htenant : tenantId ≠ "") (huser : userId ≠ "")
    (h : Admissible s.usage ⟨tenantId, userId, monthOf yearMonth now⟩ perUserCap globalCap) :
    ∃ t, (tavily globalCap).step s (.consume call tenantId userId perUserCap yearMonth now (.ok .allow)) t := by
  rcases consumeTxn_cases s.usage ⟨tenantId, userId, monthOf yearMonth now⟩ perUserCap globalCap now with
    ⟨-, U', hallow, -⟩ | ⟨hn, -⟩
  · refine ⟨_, hfresh, fun _ => .commits, .ok (U', .allow), ?_, rfl, rfl⟩
    rw [tryConsumeTavily, if_neg (by simp [htenant, huser]), hallow]
    rfl
  · exact absurd h hn

theorem refused_unchanged (e : SearchEvent) (hs : (tavily globalCap).step s e t) (h : e.refused = true) : t = s := by
  cases e with
  | release => cases h
  | consume call tenantId userId perUserCap yearMonth now result =>
    rcases consume_step hs with ⟨-, rfl⟩ | ⟨rfl, -⟩
    · rfl
    · cases h

/-- A release takes from its own counter at most. -/
theorem releaseTavily_le (U : SearchUsage) (tenantId userId : String) (yearMonth : Option String) (now : ℤ) :
    (∀ k, tavilyCount (releaseTavily U tenantId userId yearMonth now) k ≤ tavilyCount U k) ∧
      ∀ month, tavilyTotal (releaseTavily U tenantId userId yearMonth now) month ≤ tavilyTotal U month := by
  by_cases hnamed : tenantId = "" ∨ userId = ""
  · rw [releaseTavily, if_pos hnamed]
    exact ⟨fun _ => le_rfl, fun _ => le_rfl⟩
  · rw [not_or] at hnamed
    have h := released (U := U) yearMonth now hnamed.1 hnamed.2
    refine ⟨fun k => ?_, fun month => ?_⟩
    · rw [h.count]
      exact Nat.sub_le _ _
    · rw [← h.total month]
      exact Nat.le_add_right _ _

/-! ### The caps -/

theorem tavilyTotal_eq_zero {U : SearchUsage} (h : ∀ row ∈ U.rows, row.tavilyCalls = 0) (month : String) :
    tavilyTotal U month = 0 := by
  refine List.sum_eq_zero fun n hn => ?_
  obtain ⟨row, hrow, hcalls⟩ := List.mem_filterMap.mp hn
  unfold callsIn at hcalls
  split at hcalls
  · rw [← Option.some.inj hcalls, h row hrow]
  · cases hcalls

theorem tavilyCount_eq_zero {U : SearchUsage} (h : ∀ row ∈ U.rows, row.tavilyCalls = 0) (k : SearchKey) :
    tavilyCount U k = 0 := by
  cases hget : U.get? k with
  | none => exact tavilyCount_of_none hget
  | some row => rw [tavilyCount_of_get? hget, h row (Keyed.get?_eq_some.mp hget).1]

/-- **The caps**, after any calls. -/
theorem caps (h : (tavily globalCap).Hist as s) : CapsHold globalCap as s := by
  refine Lts.Hist.induct (P := CapsHold globalCap) ?_ ?_ h
  · rintro s ⟨hzero, -⟩
    exact ⟨fun month => by simp [tavilyTotal_eq_zero hzero], fun key cap hcap _ => by simpa [tavilyCount_eq_zero hzero] using hcap⟩
  intro as s e t _ hcaps hs
  have hbefore : ∀ key cap, (∀ e' ∈ as ++ [e], e'.CappedBy key cap) → ∀ e' ∈ as, e'.CappedBy key cap :=
    fun key cap hall e' he' => hall e' (List.mem_append_left _ he')
  cases e with
  | release call yearMonth now =>
    obtain ⟨r, -, -, rfl⟩ := hs
    obtain ⟨hcount, htotal⟩ := releaseTavily_le s.usage r.key.tenantId r.key.userId yearMonth now
    refine ⟨fun month => (htotal month).trans (hcaps.global month), fun key cap hcap hall => ?_⟩
    have hold := hcaps.user key cap hcap (hbefore key cap hall)
    have hle := hcount key
    simp only
    omega
  | consume call tenantId userId perUserCap yearMonth now result =>
    rcases consume_step hs with ⟨-, rfl⟩ | ⟨-, -, -, hadmissible, hcounted, -⟩
    · exact ⟨hcaps.global, fun key cap hcap hall => hcaps.user key cap hcap (hbefore key cap hall)⟩
    · refine ⟨fun month => ?_, fun key cap hcap hall => ?_⟩
      · have hroom := hadmissible.1
        have hold := hcaps.global month
        rw [hcounted.total]
        split
        next heq =>
          subst heq
          omega
        next => omega
      · rw [hcounted.count]
        split
        next heq =>
          obtain ⟨c, hc, hle⟩ := hall (.consume call tenantId userId perUserCap yearMonth now result) (by simp) heq.symm
          have hroom := hadmissible.2 c hc
          rw [heq]
          omega
        next => exact hcaps.user key cap hcap (hbefore key cap hall)

/-! ### Reservations -/

/-- Each reservation is counted under its key. -/
structure SearchInv (s : SearchState) : Prop where
  nodup : (s.reserved.map (·.call)).Nodup
  counted : ∀ k, s.reserved.countP (·.key = k) ≤ tavilyCount s.usage k
  named : ∀ r ∈ s.reserved, r.key.tenantId ≠ "" ∧ r.key.userId ≠ ""

theorem SearchInv.pos (h : SearchInv s) (hr : r ∈ s.reserved) : 0 < tavilyCount s.usage r.key :=
  (List.countP_pos_iff.mpr ⟨r, hr, by simp⟩).trans_le (h.counted r.key)

/-- In its own month a release takes one call off its counter. -/
theorem SearchInv.released (h : SearchInv s) (hr : r ∈ s.reserved)
    (hmonth : monthOf yearMonth now = r.key.yearMonth) :
    Released s.usage (releaseTavily s.usage r.key.tenantId r.key.userId yearMonth now) r.key := by
  have hkey : (⟨r.key.tenantId, r.key.userId, monthOf yearMonth now⟩ : SearchKey) = r.key := by rw [hmonth]
  have hreleased := Services.released (U := s.usage) yearMonth now (h.named r hr).1 (h.named r hr).2
  rwa [hkey] at hreleased

theorem searchInv_step (h : SearchInv s) {e : SearchEvent} (hs : (tavily globalCap).step s e t) (hmonth : e.SameMonth s) :
    SearchInv t := by
  cases e with
  | consume call tenantId userId perUserCap yearMonth now result =>
    have hfresh := hs.1
    rcases consume_step hs with ⟨-, rfl⟩ | ⟨-, htenant, huser, -, hcounted, hreserved⟩
    · exact h
    · refine ⟨?_, fun k => ?_, ?_⟩
      · rw [hreserved, List.map_cons, List.nodup_cons]
        refine ⟨fun hin => ?_, h.nodup⟩
        obtain ⟨r, hr, hcall⟩ := List.mem_map.mp hin
        exact hfresh r hr hcall
      · have hold := h.counted k
        rw [hreserved, List.countP_cons, hcounted.count]
        simp only [decide_eq_true_eq, eq_comm (a := k)]
        omega
      · rw [hreserved]
        rintro r (_ | ⟨_, hr⟩)
        · exact ⟨htenant, huser⟩
        · exact h.named r hr
  | release call yearMonth now =>
    obtain ⟨r, hr, hcall, rfl⟩ := hs
    have hreleased := h.released hr (hmonth r hr hcall)
    refine ⟨h.nodup.sublist (List.erase_sublist.map _), fun k => ?_, fun r' hr' => h.named r' (List.mem_of_mem_erase hr')⟩
    have hold := h.counted k
    have hperm := (List.perm_cons_erase hr).countP_eq (·.key = k)
    rw [List.countP_cons] at hperm
    simp only [hreleased.count]
    by_cases hk : k = r.key
    · simp only [hk, decide_true, if_true] at hperm hold ⊢
      omega
    · simp only [hk, Ne.symm hk, decide_false, if_false, Bool.false_eq_true] at hperm ⊢
      omega

theorem searchInv_run (h : ((tavily globalCap).guard fun s e => e.SameMonth s).Run s as t)
    (hinv : SearchInv s) : SearchInv t := by
  refine h.keeps (P := SearchInv) ?_ hinv
  rintro s e t hinv ⟨hs, hmonth⟩
  exact searchInv_step hinv hs hmonth

/-! ### A pair -/

/-- `u` is `u'` with the reservation of a call. -/
structure With (call : ℕ) (key : SearchKey) (u u' : SearchState) : Prop where
  counted : Counted u'.usage u.usage key
  reserved : u.reserved.Perm (⟨call, key⟩ :: u'.reserved)

theorem With.mem (h : With call key u u') (hr : r ∈ u'.reserved) : r ∈ u.reserved :=
  h.reserved.mem_iff.mpr (List.mem_cons_of_mem _ hr)

/-- What is admissible with the reservation is admissible without it. -/
theorem With.admissible (h : With call key u u') {k : SearchKey}
    (hadmissible : Admissible u.usage k perUserCap globalCap) : Admissible u'.usage k perUserCap globalCap := by
  refine ⟨?_, fun cap hcap => ?_⟩
  · have htotal := h.counted.total k.yearMonth
    have hroom := hadmissible.1
    omega
  · have hcount := h.counted.count k
    have hroom := hadmissible.2 cap hcap
    omega

/-- **One step** between the two is made without the reservation, too; a call that is refused is left out. -/
theorem With.step {v : SearchState} {e : SearchEvent} (h : With call key u u') (hinv : SearchInv u) (hinv' : SearchInv u')
    (hs : (tavily globalCap).step u e v) (hmonth : e.SameMonth u) (hother : ¬ e.Releases call) :
    ∃ v', (((tavily globalCap).guard fun s e => e.SameMonth s).Run u' (if e.refused then [] else [e]) v') ∧
      With call key v v' := by
  cases e with
  | consume c tenantId userId perUserCap yearMonth now result =>
    have hfresh := hs.1
    rcases consume_step hs with ⟨hresult, rfl⟩ | ⟨rfl, htenant, huser, hadmissible, hcounted, hreserved⟩
    · refine ⟨u', ?_, h⟩
      have hrefused : (SearchEvent.consume c tenantId userId perUserCap yearMonth now result).refused = true := by
        unfold SearchEvent.refused
        split
        next heq => cases heq; exact absurd rfl hresult
        next => rfl
        next heq => cases heq
      rw [hrefused]
      exact .nil u'
    · obtain ⟨v', hv'⟩ := exists_consume_step c (fun r hr => hfresh r (h.mem hr)) htenant huser
        (h.admissible hadmissible)
      refine ⟨v', .single ⟨hv', trivial⟩, ?_⟩
      rcases consume_step hv' with ⟨hn, -⟩ | ⟨-, -, -, -, hcounted', hreserved'⟩
      · exact absurd rfl hn
      · refine ⟨⟨fun k => ?_, fun month => ?_⟩, ?_⟩
        · have hu := h.counted.count k
          rw [hcounted.count, hcounted'.count]
          omega
        · have hu := h.counted.total month
          rw [hcounted.total, hcounted'.total]
          omega
        · rw [hreserved, hreserved']
          exact (h.reserved.cons _).trans (.swap _ _ _)
  | release c yearMonth now =>
    obtain ⟨r, hr, hcall, rfl⟩ := hs
    have hne : r ≠ ⟨call, key⟩ := fun heq => hother (by rw [heq] at hcall; exact hcall.symm)
    have hr' : r ∈ u'.reserved := (List.mem_cons.mp (h.reserved.mem_iff.mp hr)).resolve_left hne
    have hsame := hmonth r hr hcall
    refine ⟨_, .single ⟨⟨r, hr', hcall, rfl⟩, fun r' hr'' hcall' => hmonth r' (h.mem hr'') hcall'⟩, ?_⟩
    have hreleased := hinv.released hr hsame
    have hreleased' := hinv'.released hr' hsame
    have hpos := hinv.pos hr
    have hpos' := hinv'.pos hr'
    refine ⟨⟨fun k => ?_, fun month => ?_⟩, ?_⟩
    · have hu := h.counted.count k
      simp only [hreleased.count, hreleased'.count]
      by_cases hk : k = r.key
      · subst hk
        simp only [if_true]
        omega
      · simp only [hk, if_false]
        omega
    · have hu := h.counted.total month
      have ht := hreleased.total month
      have ht' := hreleased'.total month
      simp only [hpos, hpos', and_true] at ht ht'
      simp only
      omega
    · have herase := h.reserved.erase r
      rwa [List.erase_cons_tail (by simpa using Ne.symm hne)] at herase

theorem With.run {v : SearchState} {mid : List SearchEvent} (h : With call key u u') (hinv : SearchInv u)
    (hinv' : SearchInv u') (hrun : ((tavily globalCap).guard fun s e => e.SameMonth s).Run u mid v)
    (hother : ∀ e ∈ mid, ¬ e.Releases call) :
    ∃ v', ((tavily globalCap).guard fun s e => e.SameMonth s).Run u' (mid.filter fun e => !e.refused) v' ∧
      With call key v v' ∧ SearchInv v := by
  induction hrun with
  | nil => exact ⟨u', .nil u', h, hinv⟩
  | @snoc w v mid e _ hs ih =>
    obtain ⟨w', hw', hwith, hinvw⟩ := ih fun x hx => hother x (List.mem_append_left _ hx)
    obtain ⟨v', hv', hwith'⟩ := hwith.step hinvw (searchInv_run hw' hinv') hs.1 hs.2 (hother e (by simp))
    refine ⟨v', ?_, hwith', searchInv_step hinvw hs.1 hs.2⟩
    rw [List.filter_append]
    refine hw'.trans ?_
    cases hrefused : e.refused with
    | true => simpa [hrefused] using hv'
    | false => simpa [hrefused] using hv'

theorem searchInv_init (h : (tavily globalCap).init s) : SearchInv s := by
  obtain ⟨-, hnone⟩ := h
  constructor <;> simp [hnone]

/-- **A reservation with its release is as if it had not been.** -/
theorem pairsCancel {s₀ : SearchState} (h₀ : (tavily globalCap).init s₀)
    (h : ((tavily globalCap).guard fun s e => e.SameMonth s).Run s₀ as s) : PairsCancel globalCap s₀ as s := by
  rintro pre e mid e' call key rfl he he' hother
  obtain ⟨u, hu, hrest⟩ := h.split
  rw [← List.singleton_append] at hrest
  obtain ⟨u₁, hone, hrest⟩ := hrest.split
  obtain ⟨v, hmid, hlast⟩ := hrest.last
  have hinv : SearchInv u := searchInv_run hu (searchInv_init h₀)
  have hinv₁ : SearchInv u₁ := searchInv_run hone hinv
  -- the reservation is all that the first step adds
  have hwith : With call key u₁ u := by
    cases e with
    | release => exact he.elim
    | consume c tenantId userId perUserCap yearMonth now result =>
      obtain ⟨rfl, rfl, rfl⟩ := he
      rcases consume_step (Lts.Run.single_iff.mp hone).1 with ⟨hn, -⟩ | ⟨-, -, -, -, hcounted, hreserved⟩
      · exact absurd rfl hn
      · exact ⟨hcounted, hreserved ▸ .refl _⟩
  obtain ⟨v', hv', hwithv, hinvv⟩ := hwith.run hinv₁ hinv hmid hother
  refine ⟨v', (hu.trans hv').of_guard, fun k => ?_⟩
  -- and the release takes it back
  cases e' with
  | consume => exact he'.elim
  | release c yearMonth now =>
    obtain rfl : c = call := he'
    obtain ⟨⟨r, hr, hcall, rfl⟩, hmonth⟩ := hlast
    have hown : (⟨c, key⟩ : Reservation) ∈ v.reserved := hwithv.reserved.mem_iff.mpr List.mem_cons_self
    obtain rfl : r = ⟨c, key⟩ := List.inj_on_of_nodup_map hinvv.nodup hr hown hcall
    have hreleased := hinvv.released hr (hmonth _ hr rfl)
    have hcount := hwithv.counted.count k
    simp only [hreleased.count, hcount]
    omega

/-- **The quota of the web search**: in every run in which each release falls in the month of its
reservation, the caps hold, a call that is refused changes nothing, and a reservation with its release is
as if it had not been. -/
theorem tavily_quota (globalCap : ℕ) (s₀ : SearchState) (as : List SearchEvent) (s : SearchState)
    (h₀ : (tavily globalCap).init s₀) (h : ((tavily globalCap).guard fun s e => e.SameMonth s).Run s₀ as s) :
    SearchGuarantees globalCap s₀ as s :=
  ⟨caps ⟨s₀, h₀, h.of_guard⟩, fun e _ hs => refused_unchanged e hs, pairsCancel h₀ h⟩

/-! ### The turn of a month -/

/-- The last second of January 1970. -/
def january : ℤ := 2678399000000

/-- The next second. -/
def february : ℤ := 2678400000000

def nothingUsed : SearchState := ⟨.empty, []⟩

/-- A search of a user on the free plan is granted in January. -/
def searchBegins (call : ℕ) : SearchEvent := .consume call "tenant_1" "user_1" (some 5) none january (.ok .allow)

/-- The counter of January stands at one. -/
def oneReserved : SearchState where
  usage := (consumeTxn .empty ⟨"tenant_1", "user_1", "1970-01"⟩ (some 5) globalLimit january).1
  reserved := [⟨0, "tenant_1", "user_1", "1970-01"⟩]

theorem january_month : monthOf none january = "1970-01" := by decide +kernel

theorem searchBegins_step : (tavily globalLimit).step nothingUsed (searchBegins 0) oneReserved := by
  refine ⟨by simp [nothingUsed], fun _ => .commits,
    .ok (consumeTxn .empty ⟨"tenant_1", "user_1", "1970-01"⟩ (some 5) globalLimit january), ?_, rfl, ?_⟩
  · rw [tryConsumeTavily, if_neg (by decide), january_month]
    rfl
  · rw [january_month]
    rfl

/-- The release finds the month that it looks for, or none. -/
theorem searchFails_step (now : ℤ) : (tavily globalLimit).step oneReserved (.release 0 none now)
    ⟨releaseTavily oneReserved.usage "tenant_1" "user_1" none now, []⟩ :=
  ⟨⟨0, "tenant_1", "user_1", "1970-01"⟩, List.mem_cons_self, rfl, rfl⟩

/-- A search that fails in January. -/
theorem tavily_quota_january : SearchGuarantees globalLimit nothingUsed [searchBegins 0, .release 0 none january]
    ⟨releaseTavily oneReserved.usage "tenant_1" "user_1" none january, []⟩ := by
  have hfirst : ((tavily globalLimit).guard fun s e => e.SameMonth s).Run nothingUsed [searchBegins 0] oneReserved :=
    .single ⟨searchBegins_step, trivial⟩
  have hsame : SearchEvent.SameMonth oneReserved (.release 0 none january) := by
    rintro r (_ | ⟨_, ⟨⟩⟩) -
    exact january_month
  exact tavily_quota globalLimit _ _ _ ⟨fun row hrow => absurd hrow List.not_mem_nil, rfl⟩
    (hfirst.snoc ⟨searchFails_step january, hsame⟩)

/-- **A month turns** between a reservation and its release: the reservation stays. -/
theorem month_turns : ¬ ∀ globalCap s₀ as s, (tavily globalCap).init s₀ → (tavily globalCap).Run s₀ as s →
    SearchGuarantees globalCap s₀ as s := by
  intro h
  have hrun : (tavily globalLimit).Run nothingUsed [searchBegins 0, .release 0 none february]
      ⟨releaseTavily oneReserved.usage "tenant_1" "user_1" none february, []⟩ :=
    ((Lts.Run.nil _).snoc searchBegins_step).snoc (searchFails_step february)
  have hpairs := (h globalLimit _ _ _ ⟨fun row hrow => absurd hrow List.not_mem_nil, rfl⟩ hrun).pairs
  obtain ⟨s', hs', hcount⟩ := hpairs [] (searchBegins 0) [] _ 0 ⟨"tenant_1", "user_1", "1970-01"⟩ rfl
    ⟨rfl, by rw [january_month], rfl⟩ rfl (by simp)
  obtain rfl := Lts.Run.nil_iff.mp hs'
  exact absurd (hcount ⟨"tenant_1", "user_1", "1970-01"⟩) (by decide +kernel)

end Sreda.Services
