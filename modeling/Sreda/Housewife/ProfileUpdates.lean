import Mathlib.Logic.Function.Basic
import Sreda.Housewife.Onboarding

/-!
# Concurrent updates of a user's parameters

The row of `tenant_user_skill_configs` of one user and one skill, and the transactions that change its document
`skill_params_json`: the calls of the onboarding, `record_pb_tour_progress`, `save_pb_tour_display_name`
(`services/housewife_onboarding.py`) and `set_persona_preset` (`services/housewife_persona.py`).

Each reads the document, merges its part and writes the whole of it back (`upsert_skill_config`). Statements are atomic and
read what is committed. The session keeps the row that a first `SELECT` has loaded: a later one asks again only for a row
that was not there. Nothing is locked before the flush, whose `UPDATE` holds the row until the end of the transaction; an
`INSERT` fails if the row is there. A transaction may fail at any point; the check of `save_pb_tour_display_name` against the
display name, which is in another table, is one of these.

## What is proved

* if every flush finds the row as its transaction first read it, the row is what the committed transactions make of it one
  after the other (`undisturbed_runs`). `lost_update` are two transactions that overlap.
-/

namespace Sreda.Housewife

open Sreda.Lib

/-! ### The document -/

/-- `welcome_v2_progress`. -/
structure TourProgress where
  startedAt : Option ℤ
  lastBranch : Option String
  lastAt : Option ℤ
  completedAt : Option ℤ
  deriving DecidableEq

/-- The document, by its keys. -/
structure SkillParams where
  onboarding : Option OnboardingState
  welcomeV2Progress : Option TourProgress
  welcomeV2NameWaiting : Option Bool
  welcomeV2NameCapturedAt : Option ℤ
  personaPreset : Option String
  personaSelectedAt : Option ℤ
  personaSource : Option String
  deriving DecidableEq

/-- `{}`. -/
def SkillParams.empty : SkillParams := ⟨none, none, none, none, none, none, none⟩

/-- The document that an operation decodes: of no row, the empty one. -/
def decodeSkillParams (row : Option SkillParams) : SkillParams := row.getD .empty

/-- `record_pb_tour_progress`, on the document. -/
def recordPbTourProgress (branch : String) (now : ℤ) (params : SkillParams) : SkillParams :=
  let progress := params.welcomeV2Progress.getD ⟨none, none, none, none⟩
  { params with
    welcomeV2Progress := some {
      startedAt := progress.startedAt.or (some now), lastBranch := some branch, lastAt := some now,
      completedAt := if branch = "done" then some now else progress.completedAt }
    welcomeV2NameWaiting := some (branch = "done") }

/-- `save_pb_tour_display_name`, on the document. -/
def savePbTourDisplayName (now : ℤ) (params : SkillParams) : SkillParams :=
  { params with welcomeV2NameWaiting := some false, welcomeV2NameCapturedAt := some now }

/-- `set_persona_preset`, on the document; the instant is written in seconds. -/
def setPersonaPreset (preset source : String) (now : ℤ) (params : SkillParams) : SkillParams :=
  { params with personaPreset := some preset, personaSelectedAt := some (now / 1_000_000), personaSource := some source }

/-- `VALID_PERSONA_PRESETS`. -/
def validPersonaPresets : List String := ["warm_practical", "tender_care"]

/-- `UPDATE_SOURCES`. -/
def updateSources : List String := ["user_command", "agent_tool_direct", "agent_tool_confirmed", "system"]

/-! ### The operations -/

/-- An operation with its arguments. -/
inductive ProfileOp where
  | onboarding (call : TopicConfig.Call)
  | recordPbTourProgress (branch : String)
  | savePbTourDisplayName (rawName : String)
  | setPersonaPreset (preset source : String)
  deriving DecidableEq, Repr

/-- A transaction: an operation at an instant. -/
structure ProfileTx where
  op : ProfileOp
  now : ℤ

/-- What an operation does next, once it has read the document. -/
inductive Plan where
  /-- A `ValueError`. -/
  | refused
  /-- It returns. -/
  | nothing
  /-- `_persist` of a record of the onboarding. -/
  | persist (state : OnboardingState)
  /-- `upsert_skill_config` of a document. -/
  | upsert (params : SkillParams)

namespace ProfileTx

variable (cfg : TopicConfig) (tx : ProfileTx)

/-- The plan, given the document. -/
def plan (params : SkillParams) : Plan :=
  match tx.op with
  | .onboarding call =>
    match cfg.write tx.now (cfg.getRawState params.onboarding) call with
    | .error _ => .refused
    | .ok none => .nothing
    | .ok (some state) => .persist state
  | .recordPbTourProgress branch => .upsert (Housewife.recordPbTourProgress branch tx.now params)
  | .savePbTourDisplayName rawName =>
    if PyText.strip rawName.toList = [] then .refused else .upsert (Housewife.savePbTourDisplayName tx.now params)
  | .setPersonaPreset preset source =>
    if preset ∉ validPersonaPresets ∨ source ∉ updateSources then .refused
    else .upsert (Housewife.setPersonaPreset preset source tx.now params)

/-- `_persist`: the record in the document that is there. -/
def persisted (state : OnboardingState) (row : Option SkillParams) : SkillParams :=
  { decodeSkillParams row with onboarding := some state }

/-- The row after the operation, when nothing else happens. -/
def run (row : Option SkillParams) : Option SkillParams :=
  match tx.plan cfg (decodeSkillParams row) with
  | .refused | .nothing => row
  | .persist state => some (persisted state row)
  | .upsert params => some params

end ProfileTx

/-! ### The transactions -/

/-- Where a transaction is. `first` is what its first `SELECT` found, `loaded` is the row as its session has loaded it. -/
inductive Stage where
  | begun
  /-- At the `SELECT` of `_persist`. -/
  | merging (first : Option SkillParams) (state : OnboardingState)
  /-- At the `SELECT` of `upsert_skill_config`. -/
  | upserting (first loaded : Option SkillParams) (params : SkillParams)
  /-- At the flush. -/
  | flushing (first loaded : Option SkillParams) (params : SkillParams)
  | flushed
  | committed
  | rolledBack
  deriving DecidableEq

/-- The committed row, the transaction that has written it with what it has written, and the transactions. -/
structure ProfileDb (ι : Type) where
  row : Option SkillParams
  lock : Option (ι × SkillParams)
  stage : ι → Stage

/-- A statement of a transaction. -/
inductive Statement (ι : Type) where
  | select (t : ι)
  | flush (t : ι)
  | commit (t : ι)
  | rollback (t : ι)
  deriving DecidableEq

namespace ProfileDb

variable {ι : Type} [DecidableEq ι] (cfg : TopicConfig) (txs : ι → ProfileTx)

/-- The transaction goes on to a stage. -/
def setStage (db : ProfileDb ι) (t : ι) (stage : Stage) : ProfileDb ι := { db with stage := Function.update db.stage t stage }

/-- A `SELECT` of the row. -/
def select (db : ProfileDb ι) (t : ι) : Option (ProfileDb ι) :=
  match db.stage t with
  | .begun =>
    match (txs t).plan cfg (decodeSkillParams db.row) with
    | .refused => some (db.setStage t .rolledBack)
    | .nothing => some (db.setStage t .committed)
    | .persist state => some (db.setStage t (.merging db.row state))
    | .upsert params => some (db.setStage t (.upserting db.row db.row params))
  | .merging first state =>
    some (db.setStage t (.upserting first (first.or db.row) (ProfileTx.persisted state (first.or db.row))))
  | .upserting first loaded params => some (db.setStage t (.flushing first (loaded.or db.row) params))
  | .flushing .. | .flushed | .committed | .rolledBack => none

/-- The flush of a session: an `UPDATE` of a row that it has loaded, whose document is set if it has changed, or else an
`INSERT`. It waits for the transaction that has written the row. -/
def flush (db : ProfileDb ι) (t : ι) : Option (ProfileDb ι) :=
  match db.lock, db.stage t with
  | none, .flushing _ loaded params =>
    match loaded, db.row with
    | some old, some document => some { db.setStage t .flushed with lock := some (t, if params = old then document else params) }
    | none, none => some { db.setStage t .flushed with lock := some (t, params) }
    | some _, none | none, some _ => some (db.setStage t .rolledBack)
  | _, _ => none

/-- `COMMIT`, after a flush. -/
def commit (db : ProfileDb ι) (t : ι) : Option (ProfileDb ι) :=
  match db.lock with
  | some (holder, document) => if holder = t then some { db.setStage t .committed with row := some document, lock := none } else none
  | none => none

/-- `ROLLBACK` of a transaction that is not over. -/
def rollback (db : ProfileDb ι) (t : ι) : Option (ProfileDb ι) :=
  match db.stage t with
  | .committed | .rolledBack => none
  | _ => some { db.setStage t .rolledBack with lock := db.lock.filter (·.1 ≠ t) }

/-- A statement. -/
def exec (db : ProfileDb ι) : Statement ι → Option (ProfileDb ι)
  | .select t => db.select cfg txs t
  | .flush t => db.flush t
  | .commit t => db.commit t
  | .rollback t => db.rollback t

/-- The statements of the transactions, in any order. -/
def updates (row₀ : Option SkillParams) : Lts (ProfileDb ι) (Statement ι) where
  init db := db.row = row₀ ∧ db.lock = none ∧ ∀ t, db.stage t = .begun
  step db statement db' := db.exec cfg txs statement = some db'

/-- **The condition**: a flush finds the row as its transaction first read it. -/
def Undisturbed (db : ProfileDb ι) : Statement ι → Prop
  | .flush t => ∀ first loaded params, db.stage t = .flushing first loaded params → db.row = first
  | .select _ | .commit _ | .rollback _ => True

/-! ### The invariant -/

variable {row loaded first : Option SkillParams} {stage : Stage} {db' : ProfileDb ι} {params : SkillParams}

section Invariant

variable {cfg txs}

/-- What the values of a transaction are, at each stage. -/
def StageInv (cfg : TopicConfig) (tx : ProfileTx) (row : Option SkillParams) : Stage → Prop
  | .merging first state => tx.plan cfg (decodeSkillParams first) = .persist state ∧ (first ≠ none → row ≠ none)
  | .upserting first loaded params | .flushing first loaded params =>
    (loaded = first → tx.run cfg first = some params) ∧ (first ≠ none → loaded = first) ∧ (loaded ≠ none → row ≠ none)
  | .begun | .flushed | .committed | .rolledBack => True

/-- **The invariant**: the row is what the transactions of `order` make of the first one, and these are the committed ones;
what is written and not yet committed comes next. -/
structure Inv (cfg : TopicConfig) (txs : ι → ProfileTx) (row₀ : Option SkillParams) (db : ProfileDb ι) (order : List ι) : Prop where
  stages : ∀ t, StageInv cfg (txs t) db.row (db.stage t)
  holder : ∀ t, db.stage t = .flushed ↔ ∃ document, db.lock = some (t, document)
  written : ∀ t document, db.lock = some (t, document) → (txs t).run cfg db.row = some document
  nodup : order.Nodup
  mem : ∀ t, t ∈ order ↔ db.stage t = .committed
  row : db.row = order.foldl (fun row t => (txs t).run cfg row) row₀

variable {row₀ : Option SkillParams} {db : ProfileDb ι} {order : List ι} {t : ι}

theorem StageInv.mono {tx : ProfileTx} {row' : Option SkillParams} (h : StageInv cfg tx row stage)
    (hrow : row ≠ none → row' ≠ none) : StageInv cfg tx row' stage := by
  cases stage with
  | merging first state => exact ⟨h.1, fun hfirst => hrow (h.2 hfirst)⟩
  | upserting first loaded params | flushing first loaded params => exact ⟨h.1, h.2.1, fun hloaded => hrow (h.2.2 hloaded)⟩
  | begun | flushed | committed | rolledBack => trivial

/-- A `SELECT` of a session finds what it has loaded, or asks for the row. -/
theorem or_ne_none (h : loaded ≠ none → row ≠ none) : loaded.or row ≠ none → row ≠ none := by
  cases loaded with
  | none => exact id
  | some _ => exact fun _ => h (Option.some_ne_none _)

/-- What holds at the new stage of a transaction, and at the stages of the others, holds at all stages. -/
theorem forall_setStage {P : ι → Stage → Prop} (hself : P t stage) (hothers : ∀ t', t' ≠ t → P t' (db.stage t')) :
    ∀ t', P t' ((db.setStage t stage).stage t') :=
  (Function.forall_update_iff db.stage P).mpr ⟨hself, hothers⟩

/-- A transaction that goes on and neither writes nor commits. -/
theorem Inv.setStage (h : Inv cfg txs row₀ db order) (hstage : StageInv cfg (txs t) db.row stage)
    (hnew : stage ≠ .flushed ∧ stage ≠ .committed) (hold : db.stage t ≠ .flushed ∧ db.stage t ≠ .committed) :
    Inv cfg txs row₀ (db.setStage t stage) order where
  stages := forall_setStage (P := fun t' stage => StageInv cfg (txs t') db.row stage) hstage fun t' _ => h.stages t'
  holder := forall_setStage (P := fun t' stage => stage = .flushed ↔ ∃ document, db.lock = some (t', document))
    (iff_of_false hnew.1 fun hlock => hold.1 ((h.holder t).mpr hlock)) fun t' _ => h.holder t'
  written := h.written
  nodup := h.nodup
  mem := forall_setStage (P := fun t' stage => t' ∈ order ↔ stage = .committed)
    (iff_of_false (fun hmem => hold.2 ((h.mem t).mp hmem)) hnew.2) fun t' _ => h.mem t'
  row := h.row

omit [DecidableEq ι] in
theorem inv_init (hrow : db.row = row₀) (hlock : db.lock = none) (hstage : ∀ t, db.stage t = .begun) : Inv cfg txs row₀ db [] where
  stages t := by rw [hstage t]; trivial
  holder t := by simp [hstage t, hlock]
  written t document h := by rw [hlock] at h; cases h
  nodup := .nil
  mem t := by simp [hstage t]
  row := hrow

/-- A transaction that is over is one more of the committed ones. -/
theorem Inv.commit {lock : Option (ι × SkillParams)} (h : Inv cfg txs row₀ db order)
    (hstage : db.stage t ≠ .committed) (hrow : (txs t).run cfg db.row = row) (hsome : db.row ≠ none → row ≠ none)
    (hholder : ∀ t', t' ≠ t → (db.stage t' = .flushed ↔ ∃ document, lock = some (t', document)))
    (hself : ∀ document, lock ≠ some (t, document))
    (hwritten : ∀ t' document, lock = some (t', document) → (txs t').run cfg row = some document) :
    Inv cfg txs row₀ { db.setStage t .committed with row, lock } (order ++ [t]) where
  stages := forall_setStage (P := fun t' stage => StageInv cfg (txs t') row stage) trivial fun t' _ => (h.stages t').mono hsome
  holder := forall_setStage (P := fun t' stage => stage = .flushed ↔ ∃ document, lock = some (t', document))
    (iff_of_false nofun fun ⟨document, hlock⟩ => hself document hlock) hholder
  written := hwritten
  nodup := by
    rw [List.nodup_append_comm, List.singleton_append, List.nodup_cons]
    exact ⟨fun hmem => hstage ((h.mem t).mp hmem), h.nodup⟩
  mem := by
    refine forall_setStage (P := fun t' stage => t' ∈ order ++ [t] ↔ stage = .committed) (by simp) fun t' ht => ?_
    rw [List.mem_append, List.mem_singleton, or_iff_left ht]
    exact h.mem t'
  row := by rw [List.foldl_append, List.foldl_cons, List.foldl_nil, ← h.row, hrow]

/-! ### The statements -/

theorem Inv.select (h : Inv cfg txs row₀ db order) (hstep : db.select cfg txs t = some db') :
    ∃ order', Inv cfg txs row₀ db' order' := by
  have hstage := h.stages t
  unfold ProfileDb.select at hstep
  cases hat : db.stage t with
  | begun =>
    have hold : db.stage t ≠ .flushed ∧ db.stage t ≠ .committed := by rw [hat]; exact ⟨nofun, nofun⟩
    have hrun : (txs t).run cfg db.row =
        match (txs t).plan cfg (decodeSkillParams db.row) with
        | .refused | .nothing => db.row
        | .persist state => some (ProfileTx.persisted state db.row)
        | .upsert params => some params := rfl
    simp only [hat] at hstep
    cases hplan : (txs t).plan cfg (decodeSkillParams db.row) with
    | refused =>
      rw [hplan] at hstep
      cases hstep
      exact ⟨order, h.setStage trivial ⟨nofun, nofun⟩ hold⟩
    | nothing =>
      rw [hplan] at hstep hrun
      cases hstep
      refine ⟨order ++ [t], h.commit hold.2 hrun id (fun t' _ => h.holder t') (fun document hlock => ?_) h.written⟩
      exact hold.1 ((h.holder t).mpr ⟨document, hlock⟩)
    | persist state =>
      rw [hplan] at hstep
      cases hstep
      exact ⟨order, h.setStage ⟨hplan, id⟩ ⟨nofun, nofun⟩ hold⟩
    | upsert params =>
      rw [hplan] at hstep hrun
      cases hstep
      exact ⟨order, h.setStage ⟨fun _ => hrun, fun _ => rfl, id⟩ ⟨nofun, nofun⟩ hold⟩
  | merging first state =>
    rw [hat] at hstage
    simp only [hat] at hstep
    cases hstep
    refine ⟨order, h.setStage ⟨fun hloaded => ?_, fun hfirst => ?_, or_ne_none hstage.2⟩ ⟨nofun, nofun⟩
      (by rw [hat]; exact ⟨nofun, nofun⟩)⟩
    · rw [hloaded, ProfileTx.run, hstage.1]
    · obtain ⟨document, rfl⟩ := Option.ne_none_iff_exists'.mp hfirst
      rfl
  | upserting first loaded params =>
    rw [hat] at hstage
    simp only [hat] at hstep
    cases hstep
    refine ⟨order, h.setStage ⟨fun hloaded => hstage.1 ?_, fun hfirst => ?_, or_ne_none hstage.2.2⟩ ⟨nofun, nofun⟩
      (by rw [hat]; exact ⟨nofun, nofun⟩)⟩
    · by_cases hfirst : first = none
      · rw [hfirst] at hloaded ⊢
        exact (Option.or_eq_none_iff.mp hloaded).1
      · exact hstage.2.1 hfirst
    · obtain ⟨document, rfl⟩ := Option.ne_none_iff_exists'.mp hfirst
      rw [hstage.2.1 hfirst]
      rfl
  | flushing first loaded params | flushed | committed | rolledBack => simp [hat] at hstep

omit [DecidableEq ι] in
/-- What a flush writes comes next, if the row is as it was first read. -/
theorem Inv.written_of_undisturbed (h : Inv cfg txs row₀ db order)
    (hat : db.stage t = .flushing first loaded params) (hfirst : db.row = first) :
    loaded = db.row ∧ (txs t).run cfg db.row = some params := by
  have hstage := h.stages t
  rw [hat] at hstage
  obtain ⟨hrun, hloaded, hrow⟩ := hstage
  have hsame : loaded = first := by
    by_cases hnone : first = none
    · by_contra hne
      exact hrow (fun hl => hne (hl.trans hnone.symm)) (hfirst.trans hnone)
    · exact hloaded hnone
  exact ⟨hsame.trans hfirst.symm, hfirst ▸ hrun hsame⟩

theorem Inv.hold (h : Inv cfg txs row₀ db order) (hlock : db.lock = none)
    (hat : db.stage t = .flushing first loaded params) (hrun : (txs t).run cfg db.row = some params) :
    Inv cfg txs row₀ { db.setStage t .flushed with lock := some (t, params) } order where
  stages := forall_setStage (P := fun t' stage => StageInv cfg (txs t') db.row stage) trivial fun t' _ => h.stages t'
  holder := by
    refine forall_setStage (P := fun t' stage => stage = .flushed ↔ ∃ document, some (t, params) = some (t', document)) (by simp)
      fun t' ht => ?_
    rw [h.holder t', hlock]
    exact iff_of_false (fun ⟨_, hnone⟩ => by cases hnone) fun ⟨_, hsome⟩ => ht (Prod.mk.inj (Option.some.inj hsome)).1.symm
  written t' document hwritten := by
    obtain ⟨rfl, rfl⟩ := Prod.mk.inj (Option.some.inj hwritten)
    exact hrun
  nodup := h.nodup
  mem := by
    refine forall_setStage (P := fun t' stage => t' ∈ order ↔ stage = .committed) ?_ fun t' _ => h.mem t'
    rw [h.mem t, hat]
    exact iff_of_false (fun heq => by cases heq) fun heq => by cases heq
  row := h.row

omit cfg txs in
/-- A flush of a session that has loaded the row as it is. -/
theorem flush_of_loaded (hlock : db.lock = none) (hat : db.stage t = .flushing first db.row params) :
    db.flush t = some { db.setStage t .flushed with lock := some (t, params) } := by
  simp only [ProfileDb.flush, hlock, hat]
  cases hrow : db.row with
  | none => rfl
  | some document =>
    by_cases heq : params = document
    · simp [heq]
    · simp [heq]

theorem Inv.flush (h : Inv cfg txs row₀ db order) (hstep : db.flush t = some db')
    (hundisturbed : db.Undisturbed (.flush t)) : Inv cfg txs row₀ db' order := by
  cases hlock : db.lock with
  | some _ => simp [ProfileDb.flush, hlock] at hstep
  | none =>
    cases hat : db.stage t with
    | flushing first loaded params =>
      obtain ⟨hloaded, hrun⟩ := h.written_of_undisturbed hat (hundisturbed first loaded params hat)
      rw [flush_of_loaded hlock (hloaded ▸ hat)] at hstep
      cases hstep
      exact h.hold hlock hat hrun
    | begun | merging _ _ | upserting _ _ _ | flushed | committed | rolledBack => simp [ProfileDb.flush, hlock, hat] at hstep

theorem Inv.commitStep (h : Inv cfg txs row₀ db order) (hstep : db.commit t = some db') :
    ∃ order', Inv cfg txs row₀ db' order' := by
  unfold ProfileDb.commit at hstep
  cases hlock : db.lock with
  | none => simp [hlock] at hstep
  | some entry =>
    obtain ⟨holder, document⟩ := entry
    simp only [hlock] at hstep
    split at hstep
    next hholder =>
      subst hholder
      cases hstep
      have hstage : db.stage holder = .flushed := (h.holder holder).mpr ⟨document, hlock⟩
      refine ⟨order ++ [holder], h.commit (by rw [hstage]; nofun) (h.written holder document hlock) (fun _ => Option.some_ne_none _)
        (fun t' ht => ?_) (fun _ hnone => by cases hnone) fun _ _ hnone => by cases hnone⟩
      rw [h.holder t', hlock]
      exact iff_of_false (fun ⟨_, hsome⟩ => ht (Prod.mk.inj (Option.some.inj hsome)).1.symm) fun ⟨_, hnone⟩ => by cases hnone
    · cases hstep

theorem Inv.rollback (h : Inv cfg txs row₀ db order) (hstep : db.rollback t = some db') :
    Inv cfg txs row₀ db' order := by
  have hlocked : ∀ t' document, db.lock.filter (·.1 ≠ t) = some (t', document) ↔ t' ≠ t ∧ db.lock = some (t', document) := by
    intro t' document
    rw [Option.filter_eq_some_iff]
    simp [and_comm]
  have hdb : db.stage t ≠ .committed ∧ db' = { db.setStage t .rolledBack with lock := db.lock.filter (·.1 ≠ t) } := by
    unfold ProfileDb.rollback at hstep
    split at hstep
    · cases hstep
    · cases hstep
    next hcommitted _ => exact ⟨hcommitted, (Option.some.inj hstep).symm⟩
  obtain ⟨hcommitted, rfl⟩ := hdb
  exact {
    stages := forall_setStage (P := fun t' stage => StageInv cfg (txs t') db.row stage) trivial fun t' _ => h.stages t'
    holder := forall_setStage (P := fun t' stage => stage = .flushed ↔ ∃ document, db.lock.filter (·.1 ≠ t) = some (t', document))
      (iff_of_false nofun fun ⟨document, hlock⟩ => ((hlocked t document).mp hlock).1 rfl)
      fun t' ht => (h.holder t').trans (exists_congr fun document => by rw [hlocked, and_iff_right ht])
    written := fun t' document hwritten => h.written t' document ((hlocked t' document).mp hwritten).2
    nodup := h.nodup
    mem := forall_setStage (P := fun t' stage => t' ∈ order ↔ stage = .committed)
      (iff_of_false (fun hmem => hcommitted ((h.mem t).mp hmem)) nofun) fun t' _ => h.mem t'
    row := h.row }

end Invariant

/-! ### Runs -/

/-- **Undisturbed transactions**: if every flush finds the row as its transaction first read it, then the row is what the
committed transactions, each once, make of the first row one after the other. -/
theorem undisturbed_runs (cfg : TopicConfig) (txs : ι → ProfileTx) (row₀ : Option SkillParams) {db : ProfileDb ι}
    (h : ((updates cfg txs row₀).guard Undisturbed).Reachable db) :
    ∃ order : List ι, order.Nodup ∧ (∀ t, t ∈ order ↔ db.stage t = .committed) ∧
      db.row = order.foldl (fun row t => (txs t).run cfg row) row₀ := by
  have hinv : ∃ order, Inv cfg txs row₀ db order := by
    refine h.induct (P := fun db => ∃ order, Inv cfg txs row₀ db order)
      (fun _ (hinit : _ ∧ _) => ⟨[], inv_init hinit.1 hinit.2.1 hinit.2.2⟩) ?_
    rintro db statement db' - ⟨order, horder⟩ ⟨hstep, hundisturbed⟩
    cases statement with
    | select t => exact horder.select hstep
    | flush t => exact ⟨order, horder.flush hstep hundisturbed⟩
    | commit t => exact horder.commitStep hstep
    | rollback t => exact ⟨order, horder.rollback hstep⟩
  obtain ⟨order, horder⟩ := hinv
  exact ⟨order, horder.nodup, horder.mem, horder.row⟩

/-- Transactions that have not begun, on an empty document. -/
def begun : ProfileDb Bool := ⟨some .empty, none, fun _ => .begun⟩

/-- A choice of the persona and a step of the tour. -/
def personaAndTour : Bool → ProfileTx
  | false => ⟨.setPersonaPreset "tender_care" "user_command", 5_000_000⟩
  | true => ⟨.recordPbTourProgress "intro", 6_000_000⟩

theorem undisturbed_runs_persona :
    ∃ db, [.select false, .select false, .flush false, .commit false].foldlM (exec .current personaAndTour) begun = some db ∧
      ∃ order : List Bool, order.Nodup ∧ (∀ t, t ∈ order ↔ db.stage t = .committed) ∧
        db.row = order.foldl (fun row t => (personaAndTour t).run .current row) (some .empty) := by
  have hstep : ∀ {db db' : ProfileDb Bool} (statement : Statement Bool),
      ((updates .current personaAndTour (some .empty)).guard Undisturbed).Reachable db →
      db.exec .current personaAndTour statement = some db' → db.Undisturbed statement →
      ((updates .current personaAndTour (some .empty)).guard Undisturbed).Reachable db' :=
    fun _ h hexec hundisturbed => h.step ⟨hexec, hundisturbed⟩
  have h₀ := hstep (.select false) ⟨[], begun, ⟨rfl, rfl, fun _ => rfl⟩, .nil _⟩ rfl trivial
  have h₁ := hstep (.select false) h₀ rfl trivial
  have h₂ := hstep (.flush false) h₁ rfl fun first loaded params hat => by cases hat; rfl
  have h₃ := hstep (.commit false) h₂ rfl trivial
  exact ⟨_, rfl, undisturbed_runs .current personaAndTour (some .empty) h₃⟩

/-- **A lost update**: both read, then both write. The choice of the persona is lost. -/
theorem lost_update :
    ∃ db, (updates .current personaAndTour (some .empty)).Hist
        [.select false, .select true, .select false, .flush false, .commit false, .select true, .flush true, .commit true] db ∧
      db.stage false = .committed ∧ db.stage true = .committed ∧
      db.row ≠ (personaAndTour true).run .current ((personaAndTour false).run .current (some .empty)) ∧
      db.row ≠ (personaAndTour false).run .current ((personaAndTour true).run .current (some .empty)) := by
  have hrun : ∃ db, [Statement.select false, .select true, .select false, .flush false, .commit false, .select true, .flush true,
      .commit true].foldlM (exec .current personaAndTour) begun = some db ∧ db.stage false = .committed ∧
      db.stage true = .committed ∧ db.row = (personaAndTour true).run .current (some .empty) := ⟨_, rfl, rfl, rfl, rfl⟩
  obtain ⟨db, hfold, hfalse, htrue, hrow⟩ := hrun
  refine ⟨db, ⟨begun, ⟨rfl, rfl, fun _ => rfl⟩, .of_foldlM (fun _ _ _ _ h => h) hfold⟩, hfalse, htrue, ?_, ?_⟩
  · rw [hrow]
    decide
  · rw [hrow]
    decide

end ProfileDb

end Sreda.Housewife
