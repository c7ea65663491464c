import Sreda.Workers.ProducerRuns

/-!
# Ticks of the kickoff and of the Aha worker

One process at one time: a tick scans and then takes the rows that it has found one by one, each in a transaction of its own.
The database returns the rows of a scan in the order of the table.

## What is proved

* when every delivery succeeds, the ticks come to one that sends nothing, and then no kickoff is due if and only if every
  row that was due is among the first `limit * 5` rows of the scan; no tenant of the age window is without a sentinel if and
  only if each that was is among the first `limit` rows of the scan (`producer_ticks`). `starved_rows` has one row too many
  for either worker.
-/

namespace Sreda.Workers

open Sreda.Lib Sreda.Housewife

/-! ### A tick -/

/-- The tables, the number of the next transaction, and what the tick has sent. -/
structure ProducerTick where
  db : ProducerDb
  nextTx : ℕ
  sent : ℕ

namespace ProducerTick

variable (cfg : TopicConfig) (env : ProducerJob → ProducerEnv) (limit : ℕ) (current : ℤ)

/-- A found row; a transaction that enqueues something counts. -/
def runJob (t : ProducerTick) (job : ProducerJob) : ProducerTick :=
  match t.db.runTx cfg (env job) t.nextTx current job with
  | none => { t with nextTx := t.nextTx + 1 }
  | some db => ⟨db, t.nextTx + 1, if t.db.outbox.length < db.outbox.length then t.sent + 1 else t.sent⟩

/-- `process_pending` of the kickoff. -/
def kickoff (t : ProducerTick) : ProducerTick :=
  ((kickoffScan t.db t.db.configs.rows limit current).map fun key => ProducerJob.kickoff key.1 key.2).foldl
    (runJob cfg env current) { t with sent := 0 }

/-- `process_pending` of the Aha worker. -/
def aha (t : ProducerTick) : ProducerTick :=
  ((ahaScan t.db.tenants.rows limit current).map ProducerJob.aha).foldl (runJob cfg env current) { t with sent := 0 }

end ProducerTick

namespace ProducerDb

variable (db : ProducerDb)

/-- The rows of the scan of the kickoff. -/
def liveConfigs : List SkillConfig := db.configs.rows.filter fun config => db.Live config.tenantId

/-- The tenants of the scan of the Aha worker. -/
def inAge (current : ℤ) : List ProducerTenant := db.tenants.rows.filter (·.InAge current)

/-- Each user whose kickoff is due can be written to. -/
def Delivers (env : ProducerJob → ProducerEnv) (current : ℤ) : Prop :=
  ∀ config ∈ db.liveConfigs, config.Due current →
    ((env (.kickoff config.tenantId config.userId)).fire config.tenantId config.userId).isSome

end ProducerDb

/-! ### The kickoff -/

section Kickoff

/-- Of the rows with a property the first one loses it. -/
theorem filter_map_first {α κ : Type} [DecidableEq κ] {key : α → κ} {p : α → Bool} {set : α → α} {x : α} (hset : ∀ y, p (set y) = false)
    {l rest : List α} (hnodup : (l.map key).Nodup) (h : l.filter p = x :: rest) :
    (l.map fun y => if key y = key x then set y else y).filter p = rest := by
  induction l with
  | nil => cases h
  | cons y l ih =>
    rw [List.map_cons, List.nodup_cons] at hnodup
    obtain ⟨hfresh, hnodup⟩ := hnodup
    rw [List.map_cons]
    by_cases hp : p y = true
    · rw [List.filter_cons_of_pos hp] at h
      obtain ⟨rfl, rfl⟩ := List.cons.inj h
      have hother : (l.map fun z => if key z = key y then set z else z) = l.map id := by
        refine List.map_congr_left fun z hz => if_neg fun heq => hfresh ?_
        rw [← heq]
        exact List.mem_map_of_mem hz
      rw [if_pos rfl, List.filter_cons_of_neg (by rw [hset]; exact Bool.false_ne_true), hother, List.map_id]
    · rw [List.filter_cons_of_neg hp] at h
      have hx : x ∈ l := List.mem_of_mem_filter (h ▸ List.mem_cons_self)
      have hne : key y ≠ key x := fun heq => hfresh (heq ▸ List.mem_map_of_mem hx)
      rw [if_neg hne, List.filter_cons_of_neg hp, ih hnodup h]

theorem fire_ne_nil {env : ProducerEnv} {tenantId userId : String} {messages : List ProducedMessage}
    (h : env.fire tenantId userId = some messages) : messages ≠ [] := by
  unfold ProducerEnv.fire at h
  split at h
  · cases h
  · split at h
    · cases h
    · next hsome =>
      obtain ⟨workspaceId, -, rfl⟩ := Option.map_eq_some_iff.mp h
      intro hnil
      rw [List.map_eq_nil_iff] at hnil
      exact hsome (by rw [hnil]; rfl)

variable (cfg : TopicConfig) {env : ProducerJob → ProducerEnv} (limit : ℕ) {current : ℤ}

/-- **A due kickoff is started**, and its messages are enqueued. -/
theorem runTx_kickoff {db : ProducerDb} {fireEnv : ProducerEnv} {config : SkillConfig} {messages : List ProducedMessage} (tx : ℕ)
    (hmem : config ∈ db.configs.rows) (hdue : config.Due current)
    (hfire : fireEnv.fire config.tenantId config.userId = some messages) :
    ∃ state : OnboardingState, state.status = .inProgress ∧
      db.runTx cfg fireEnv tx current (.kickoff config.tenantId config.userId) =
        some ((db.setOnboarding config.tenantId config.userId state).enqueue tx (db.Deleted config.tenantId) messages) := by
  obtain ⟨stored, hstored, hstatus, -⟩ := hdue
  have hget : db.configs.get? (config.tenantId, config.userId) = some config := Keyed.get?_key hmem
  have hraw : cfg.getRawState (db.onboarding config.tenantId config.userId) = cfg.mergeWithDefaults stored := by
    rw [ProducerDb.onboarding, hget, Option.bind_some, Option.mem_def.mp hstored]
    rfl
  obtain ⟨state, hstart, hnew⟩ : ∃ state, cfg.start current (cfg.mergeWithDefaults stored) = some state ∧
      state.status = .inProgress := by
    unfold TopicConfig.start
    rw [show (cfg.mergeWithDefaults stored).status = .notStarted from hstatus]
    exact ⟨_, rfl, rfl⟩
  refine ⟨state, hnew, ?_⟩
  simp only [ProducerDb.runTx, ProducerDb.start, hfire, ProducerDb.select, hraw, hstart, hget, ProducerDb.apply,
    Option.isSome_some, if_true, Option.map_some]

/-- The rows that a kickoff scan may still find. -/
def waiting (db : ProducerDb) (limit : ℕ) (current : ℤ) : List SkillConfig :=
  (db.liveConfigs.take (limit * 5)).filter (·.Due current)

/-- The due rows that it does not reach. -/
def unreached (db : ProducerDb) (limit : ℕ) (current : ℤ) : List SkillConfig :=
  (db.liveConfigs.drop (limit * 5)).filter (·.Due current)

theorem kickoffScan_eq (db : ProducerDb) :
    kickoffScan db db.configs.rows limit current = ((waiting db limit current).take limit).map (·.key) := rfl

theorem liveConfigs_setOnboarding (db : ProducerDb) (config : SkillConfig) (state : OnboardingState) :
    (db.setOnboarding config.tenantId config.userId state).liveConfigs =
      db.liveConfigs.map fun row => if row.key = config.key then { row with onboarding := some state } else row := by
  let set (row : SkillConfig) : SkillConfig := if row.key = config.key then { row with onboarding := some state } else row
  have hlive : (fun row => decide (db.Live (set row).tenantId)) = fun row : SkillConfig => decide (db.Live row.tenantId) := by
    funext row
    have htenant : (set row).tenantId = row.tenantId := by
      simp only [set]
      split <;> rfl
    rw [htenant]
  have hrows : (db.setOnboarding config.tenantId config.userId state).configs.rows = db.configs.rows.map set :=
    List.map_congr_left fun row _ => by simp [set, SkillConfig.key]
  calc (db.setOnboarding config.tenantId config.userId state).liveConfigs
      = (db.configs.rows.map set).filter fun row => db.Live row.tenantId := by
        rw [← hrows]
        rfl
    _ = (db.configs.rows.filter fun row => db.Live (set row).tenantId).map set := List.filter_map
    _ = db.liveConfigs.map set := by
        rw [hlive]
        rfl

theorem liveConfigs_nodup (db : ProducerDb) : (db.liveConfigs.map (·.key)).Nodup :=
  db.configs.nodup.sublist (List.filter_sublist.map _)

/-- **A found row** is fired, and is then not due any more. -/
theorem runJob_kickoff {t : ProducerTick} {config : SkillConfig} {rest : List SkillConfig} (hdelivers : t.db.Delivers env current)
    (hwaiting : waiting t.db limit current = config :: rest) :
    ∃ t', t.runJob cfg env current (.kickoff config.tenantId config.userId) = t' ∧ t'.sent = t.sent + 1 ∧
      waiting t'.db limit current = rest ∧ unreached t'.db limit current = unreached t.db limit current ∧
      t'.db.Delivers env current := by
  have hfound : config ∈ waiting t.db limit current := hwaiting ▸ List.mem_cons_self
  obtain ⟨htake, hdue⟩ := List.mem_filter.mp hfound
  have hlive : config ∈ t.db.liveConfigs := List.mem_of_mem_take htake
  have hmem : config ∈ t.db.configs.rows := List.mem_of_mem_filter hlive
  obtain ⟨messages, hfire⟩ := Option.isSome_iff_exists.mp (hdelivers config hlive (of_decide_eq_true hdue))
  obtain ⟨state, hstate, htx⟩ := runTx_kickoff cfg t.nextTx hmem (of_decide_eq_true hdue) hfire
  let set (row : SkillConfig) : SkillConfig := { row with onboarding := some state }
  have hset : ∀ row, decide ((set row).Due current) = false := by
    intro row
    refine decide_eq_false ?_
    rintro ⟨stored, hstored, hstatus, -⟩
    obtain rfl := Option.some.inj hstored
    rw [hstate] at hstatus
    cases hstatus
  let db : ProducerDb :=
    (t.db.setOnboarding config.tenantId config.userId state).enqueue t.nextTx (t.db.Deleted config.tenantId) messages
  have hconfigs : db.liveConfigs = t.db.liveConfigs.map fun row => if row.key = config.key then set row else row :=
    liveConfigs_setOnboarding t.db config state
  have hnodup := liveConfigs_nodup t.db
  have hsent : t.db.outbox.length < db.outbox.length := by
    have hpos := List.length_pos_of_ne_nil (fire_ne_nil hfire)
    simp only [db, ProducerDb.enqueue, ProducerDb.setOnboarding, List.length_append, List.length_map]
    omega
  refine ⟨⟨db, t.nextTx + 1, t.sent + 1⟩, ?_, rfl, ?_, ?_, ?_⟩
  · rw [ProducerTick.runJob, htx]
    exact congrArg _ (if_pos hsent)
  · rw [waiting, hconfigs, ← List.map_take]
    exact filter_map_first hset (hnodup.sublist ((List.take_sublist _ _).map _)) hwaiting
  · -- the row is before the cut
    have hother : (t.db.liveConfigs.drop (limit * 5)).map (fun row => if row.key = config.key then set row else row) =
        (t.db.liveConfigs.drop (limit * 5)).map id := by
      refine List.map_congr_left fun row hrow => if_neg fun heq => ?_
      rw [← List.take_append_drop (limit * 5) t.db.liveConfigs, List.map_append] at hnodup
      exact List.disjoint_of_nodup_append hnodup (List.mem_map_of_mem htake) (heq ▸ List.mem_map_of_mem hrow)
    rw [unreached, hconfigs, ← List.map_drop, hother, List.map_id, unreached]
  · intro row hrow hdue'
    rw [hconfigs] at hrow
    obtain ⟨old, hold, rfl⟩ := List.mem_map.mp hrow
    split at hdue'
    · exact absurd hdue' (of_decide_eq_false (hset old))
    · next hne =>
      rw [if_neg hne]
      exact hdelivers old hold hdue'

/-- **The found rows**, one by one. -/
theorem foldl_kickoff {found rest : List SkillConfig} {t : ProducerTick} (hdelivers : t.db.Delivers env current)
    (hwaiting : waiting t.db limit current = found ++ rest) :
    ∃ t', ((found.map (·.key)).map fun key => ProducerJob.kickoff key.1 key.2).foldl (ProducerTick.runJob cfg env current) t = t' ∧
      t'.sent = t.sent + found.length ∧ waiting t'.db limit current = rest ∧
      unreached t'.db limit current = unreached t.db limit current ∧ t'.db.Delivers env current := by
  induction found generalizing t with
  | nil => exact ⟨t, rfl, rfl, hwaiting, rfl, hdelivers⟩
  | cons config found ih =>
    obtain ⟨t₁, hjob, hsent₁, hwaiting₁, hunreached₁, hdelivers₁⟩ := runJob_kickoff cfg limit hdelivers hwaiting
    obtain ⟨t₂, hjobs, hsent₂, hwaiting₂, hunreached₂, hdelivers₂⟩ := ih hdelivers₁ hwaiting₁
    refine ⟨t₂, ?_, ?_, hwaiting₂, hunreached₂.trans hunreached₁, hdelivers₂⟩
    · rw [← hjobs, ← hjob]
      rfl
    · rw [hsent₂, hsent₁, List.length_cons]
      omega

/-- **A tick of the kickoff** starts the first `limit` that wait. -/
theorem kickoff_spec {t : ProducerTick} (hdelivers : t.db.Delivers env current) :
    (t.kickoff cfg env limit current).sent = min limit (waiting t.db limit current).length ∧
    waiting (t.kickoff cfg env limit current).db limit current = (waiting t.db limit current).drop limit ∧
    unreached (t.kickoff cfg env limit current).db limit current = unreached t.db limit current ∧
    (t.kickoff cfg env limit current).db.Delivers env current := by
  obtain ⟨t', htick, hsent, hrest⟩ := foldl_kickoff cfg limit (t := { t with sent := 0 }) hdelivers
    (List.take_append_drop limit (waiting t.db limit current)).symm
  rw [← kickoffScan_eq] at htick
  rw [ProducerTick.kickoff, htick, hsent, List.length_take]
  exact ⟨Nat.zero_add _, hrest⟩

/-- **The ticks of the kickoff**. -/
theorem kickoff_iterate {t : ProducerTick} (hdelivers : t.db.Delivers env current) (n : ℕ) :
    waiting ((ProducerTick.kickoff cfg env limit current)^[n] t).db limit current =
      (waiting t.db limit current).drop (n * limit) ∧
    unreached ((ProducerTick.kickoff cfg env limit current)^[n] t).db limit current = unreached t.db limit current ∧
    ((ProducerTick.kickoff cfg env limit current)^[n] t).db.Delivers env current := by
  induction n with
  | zero => exact ⟨by rw [Nat.zero_mul]; rfl, rfl, hdelivers⟩
  | succ n ih =>
    obtain ⟨hwaiting, hunreached, hdelivers'⟩ := ih
    obtain ⟨-, hwaiting', hunreached', hdelivers''⟩ := kickoff_spec cfg limit hdelivers'
    rw [Function.iterate_succ_apply']
    refine ⟨?_, hunreached'.trans hunreached, hdelivers''⟩
    rw [hwaiting', hwaiting, List.drop_drop, Nat.succ_mul]

/-- No kickoff is due iff none waits and none is out of reach. -/
theorem not_due_iff (db : ProducerDb) :
    (∀ config ∈ db.liveConfigs, ¬ config.Due current) ↔ waiting db limit current = [] ∧ unreached db limit current = [] := by
  rw [waiting, unreached, ← List.append_eq_nil_iff, ← List.filter_append, List.take_append_drop, List.filter_eq_nil_iff]
  simp only [decide_eq_true_eq]

theorem unreached_eq_nil_iff (db : ProducerDb) :
    unreached db limit current = [] ↔
      ∀ config ∈ db.liveConfigs, config.Due current → config ∈ db.liveConfigs.take (limit * 5) := by
  rw [unreached, List.filter_eq_nil_iff]
  simp only [decide_eq_true_eq]
  constructor
  · intro hnone config hmem hdue
    rw [← List.take_append_drop (limit * 5) db.liveConfigs] at hmem
    exact (List.mem_append.mp hmem).resolve_right fun hdrop => hnone config hdrop hdue
  · intro hreach config hdrop hdue
    have htake := hreach config (List.mem_of_mem_drop hdrop) hdue
    have hnodup := liveConfigs_nodup db
    rw [← List.take_append_drop (limit * 5) db.liveConfigs, List.map_append] at hnodup
    exact List.disjoint_of_nodup_append hnodup (List.mem_map_of_mem htake) (List.mem_map_of_mem hdrop)

/-- A tick that sends nothing leaves none that waits. -/
theorem waiting_eq_nil {t : ProducerTick} (hdelivers : t.db.Delivers env current) (hsent : (t.kickoff cfg env limit current).sent = 0) :
    waiting (t.kickoff cfg env limit current).db limit current = [] := by
  obtain ⟨hcount, hwaiting, -⟩ := kickoff_spec cfg limit hdelivers
  rw [hwaiting, List.drop_eq_nil_iff]
  rcases Nat.min_eq_zero_iff.mp (hcount.symm.trans hsent) with hlimit | hlength
  · rw [waiting, hlimit, Nat.zero_mul, List.take_zero]
    exact Nat.le_refl 0
  · omega

end Kickoff

/-! ### The Aha worker -/

section Aha

variable (cfg : TopicConfig) (env : ProducerJob → ProducerEnv) (limit : ℕ) {current : ℤ}

theorem runTx_aha {db : ProducerDb} {ahaEnv : ProducerEnv} {tenant : ProducerTenant} (tx : ℕ) (hmem : tenant ∈ db.tenants.rows) :
    db.runTx cfg ahaEnv tx current (.aha tenant.id) =
      if tenant.id ∈ db.sentinels then none
      else some ({ db with sentinels := tenant.id :: db.sentinels }.enqueue tx (db.Deleted tenant.id) (ahaEnv.tryAha tenant.id)) := by
  have hget : db.tenants.get? tenant.id = some tenant := Keyed.get?_key hmem
  simp only [ProducerDb.runTx, ProducerDb.start, hget, ProducerDb.select]
  by_cases hsentinel : tenant.id ∈ db.sentinels
  · simp only [if_pos hsentinel]
  · simp only [if_neg hsentinel, ProducerDb.apply, Option.map_some]

/-- **A found tenant** has a sentinel from then on. -/
theorem runJob_aha {t : ProducerTick} {tenant : ProducerTenant} (hmem : tenant ∈ t.db.tenants.rows) :
    ∃ t', t.runJob cfg env current (.aha tenant.id) = t' ∧ t'.db.tenants = t.db.tenants ∧
      (∀ tenantId, tenantId ∈ t'.db.sentinels ↔ tenantId = tenant.id ∨ tenantId ∈ t.db.sentinels) ∧
      (tenant.id ∈ t.db.sentinels → t'.sent = t.sent) := by
  refine ⟨_, rfl, ?_⟩
  rw [ProducerTick.runJob, runTx_aha cfg t.nextTx hmem]
  by_cases hsentinel : tenant.id ∈ t.db.sentinels
  · rw [if_pos hsentinel]
    refine ⟨rfl, fun tenantId => ⟨.inr, ?_⟩, fun _ => rfl⟩
    rintro (rfl | hold)
    · exact hsentinel
    · exact hold
  · rw [if_neg hsentinel]
    exact ⟨rfl, fun _ => List.mem_cons, fun hold => absurd hold hsentinel⟩

/-- **The found tenants**, one by one. -/
theorem foldl_aha {found : List ProducerTenant} {t : ProducerTick} (hmem : ∀ tenant ∈ found, tenant ∈ t.db.tenants.rows) :
    ∃ t', ((found.map (·.id)).map ProducerJob.aha).foldl (ProducerTick.runJob cfg env current) t = t' ∧
      t'.db.tenants = t.db.tenants ∧
      (∀ tenantId, tenantId ∈ t'.db.sentinels ↔ tenantId ∈ found.map (·.id) ∨ tenantId ∈ t.db.sentinels) ∧
      ((∀ tenant ∈ found, tenant.id ∈ t.db.sentinels) → t'.sent = t.sent) := by
  induction found generalizing t with
  | nil => exact ⟨t, rfl, rfl, fun _ => ⟨.inr, fun h => h.resolve_left fun hnil => by cases hnil⟩, fun _ => rfl⟩
  | cons tenant found ih =>
    obtain ⟨hhead, htail⟩ := List.forall_mem_cons.mp hmem
    obtain ⟨t₁, hjob, htenants₁, hsentinels₁, hsent₁⟩ := runJob_aha cfg env hhead
    obtain ⟨t₂, hjobs, htenants₂, hsentinels₂, hsent₂⟩ := ih (t := t₁) (by rwa [htenants₁])
    refine ⟨t₂, ?_, htenants₂.trans htenants₁, fun tenantId => ?_, fun hall => ?_⟩
    · rw [← hjobs, ← hjob]
      rfl
    · rw [hsentinels₂, hsentinels₁, List.map_cons, List.mem_cons]
      tauto
    · obtain ⟨hfirst, hothers⟩ := List.forall_mem_cons.mp hall
      have hsent := hsent₂ fun other hother => (hsentinels₁ _).mpr (.inr (hothers other hother))
      exact hsent.trans (hsent₁ hfirst)

/-- **A tick of the Aha worker** gives the first `limit` tenants of the scan a sentinel. -/
theorem aha_spec (hwindow : AhaWindow current) (t : ProducerTick) :
    (t.aha cfg env limit current).db.tenants = t.db.tenants ∧
    (∀ tenantId, tenantId ∈ (t.aha cfg env limit current).db.sentinels ↔
      tenantId ∈ ((t.db.inAge current).take limit).map (·.id) ∨ tenantId ∈ t.db.sentinels) ∧
    ((∀ tenant ∈ (t.db.inAge current).take limit, tenant.id ∈ t.db.sentinels) → (t.aha cfg env limit current).sent = 0) := by
  have hfound : ∀ tenant ∈ (t.db.inAge current).take limit, tenant ∈ t.db.tenants.rows := fun tenant hmem =>
    List.mem_of_mem_filter (List.mem_of_mem_take hmem)
  obtain ⟨t', htick, hrest⟩ := foldl_aha cfg env (t := { t with sent := 0 }) hfound
  have hscan : ahaScan t.db.tenants.rows limit current = ((t.db.inAge current).take limit).map (·.id) := if_pos hwindow
  rw [ProducerTick.aha, hscan, htick]
  exact hrest

/-- **The ticks of the Aha worker**. -/
theorem aha_iterate (hwindow : AhaWindow current) (t : ProducerTick) (n : ℕ) :
    ((ProducerTick.aha cfg env limit current)^[n + 1] t).db.tenants = t.db.tenants ∧
    ∀ tenantId, tenantId ∈ ((ProducerTick.aha cfg env limit current)^[n + 1] t).db.sentinels ↔
      tenantId ∈ ((t.db.inAge current).take limit).map (·.id) ∨ tenantId ∈ t.db.sentinels := by
  induction n with
  | zero =>
    obtain ⟨htenants, hsentinels, -⟩ := aha_spec cfg env limit hwindow t
    exact ⟨htenants, hsentinels⟩
  | succ n ih =>
    rw [Function.iterate_succ_apply']
    generalize (ProducerTick.aha cfg env limit current)^[n + 1] t = s at ih ⊢
    obtain ⟨htenants, hsentinels⟩ := ih
    obtain ⟨htenants', hsentinels', -⟩ := aha_spec cfg env limit hwindow s
    have hage : s.db.inAge current = t.db.inAge current := by rw [ProducerDb.inAge, htenants, ProducerDb.inAge]
    refine ⟨htenants'.trans htenants, fun tenantId => ?_⟩
    rw [hsentinels', hsentinels, hage]
    tauto

end Aha

/-- **The ticks**: they come to one that sends nothing. Then no kickoff is due iff each that was is among the first
`limit * 5` rows of the scan, and no tenant of the age window is without a sentinel iff each that was is among the first `limit`
rows of the scan. -/
theorem producer_ticks (cfg : TopicConfig) (env : ProducerJob → ProducerEnv) (limit : ℕ) (current : ℤ) (t : ProducerTick) :
    (t.db.Delivers env current →
      (∃ n, ((ProducerTick.kickoff cfg env limit current)^[n + 1] t).sent = 0) ∧
      ∀ n, ((ProducerTick.kickoff cfg env limit current)^[n + 1] t).sent = 0 →
        ((∀ config ∈ ((ProducerTick.kickoff cfg env limit current)^[n + 1] t).db.liveConfigs, ¬ config.Due current) ↔
          ∀ config ∈ t.db.liveConfigs, config.Due current → config ∈ t.db.liveConfigs.take (limit * 5))) ∧
    (AhaWindow current →
      (∃ n, ((ProducerTick.aha cfg env limit current)^[n + 1] t).sent = 0) ∧
      ∀ n, ((ProducerTick.aha cfg env limit current)^[n + 1] t).sent = 0 →
        ((∀ tenant ∈ ((ProducerTick.aha cfg env limit current)^[n + 1] t).db.inAge current,
            tenant.id ∈ ((ProducerTick.aha cfg env limit current)^[n + 1] t).db.sentinels) ↔
          ∀ tenant ∈ t.db.inAge current, tenant.id ∉ t.db.sentinels → tenant ∈ (t.db.inAge current).take limit)) := by
  refine ⟨fun hdelivers => ⟨?_, fun n hsent => ?_⟩, fun hwindow => ⟨?_, fun n _ => ?_⟩⟩
  · -- as many ticks as there are rows that wait
    refine ⟨(waiting t.db limit current).length, ?_⟩
    obtain ⟨hwaiting, -, hdelivers'⟩ :=
      kickoff_iterate cfg limit hdelivers (waiting t.db limit current).length
    rw [Function.iterate_succ_apply', (kickoff_spec cfg limit hdelivers').1, hwaiting, List.length_drop]
    rcases Nat.eq_zero_or_pos limit with rfl | hpos
    · exact Nat.zero_min _
    · have hle := Nat.le_mul_of_pos_right (waiting t.db limit current).length hpos
      omega
  · obtain ⟨-, hunreached, -⟩ := kickoff_iterate cfg limit hdelivers (n + 1)
    obtain ⟨-, -, hdelivers'⟩ := kickoff_iterate cfg limit hdelivers n
    rw [not_due_iff limit, hunreached, unreached_eq_nil_iff]
    rw [Function.iterate_succ_apply'] at hsent ⊢
    exact and_iff_right (waiting_eq_nil cfg limit hdelivers' hsent)
  · refine ⟨1, ?_⟩
    obtain ⟨htenants, hsentinels⟩ := aha_iterate cfg env limit hwindow t 0
    rw [Function.iterate_succ_apply']
    refine (aha_spec cfg env limit hwindow _).2.2 fun tenant htenant => (hsentinels _).mpr (.inl (List.mem_map_of_mem ?_))
    rwa [ProducerDb.inAge, htenants] at htenant
  · obtain ⟨htenants, hsentinels⟩ := aha_iterate cfg env limit hwindow t n
    have hage : ((ProducerTick.aha cfg env limit current)^[n + 1] t).db.inAge current = t.db.inAge current := by
      rw [ProducerDb.inAge, htenants, ProducerDb.inAge]
    rw [hage]
    refine forall₂_congr fun tenant hmem => ?_
    rw [hsentinels]
    constructor
    · rintro (hfirst | hold) hnone
      · obtain ⟨other, hother, hid⟩ := List.mem_map.mp hfirst
        have hrow := List.mem_of_mem_filter (List.mem_of_mem_take hother)
        rwa [Keyed.eq_of_key (List.mem_of_mem_filter hmem) hrow hid.symm]
      · exact absurd hold hnone
    · intro hfirst
      by_cases hold : tenant.id ∈ t.db.sentinels
      · exact .inr hold
      · exact .inl (List.mem_map_of_mem (hfirst hold))

/-- Five users whose onboarding is in progress come before the one whose kickoff is due, and a tenant with a sentinel comes
before one without. -/
def starved : ProducerTick where
  db :=
    { tenants := ⟨[⟨"a", some 0, none⟩, ⟨"t", some 0, none⟩], by decide⟩
      configs := ⟨(["u1", "u2", "u3", "u4", "u5"].map fun userId =>
        ⟨"a", userId, some { TopicConfig.current.defaultState with status := .inProgress }⟩) ++ [dueConfig], by decide⟩
      events := .empty
      sentinels := ["a"]
      outbox := [] }
  nextTx := 0
  sent := 0

theorem starved_delivers : starved.db.Delivers (fun _ => dueEnv) 122_400_000_000 := by
  unfold ProducerDb.Delivers
  decide +kernel

theorem producer_ticks_starved :
    (∃ n, ((ProducerTick.kickoff TopicConfig.current (fun _ => dueEnv) 1 122_400_000_000)^[n + 1] starved).sent = 0) ∧
    ∃ n, ((ProducerTick.aha TopicConfig.current (fun _ => dueEnv) 1 122_400_000_000)^[n + 1] starved).sent = 0 := by
  obtain ⟨hkickoff, haha⟩ := producer_ticks TopicConfig.current (fun _ => dueEnv) 1 122_400_000_000 starved
  exact ⟨(hkickoff starved_delivers).1, (haha (by decide)).1⟩

/-- **Starved rows**: with a limit of 1 the ticks send nothing, and a kickoff stays due and a tenant without its sentinel. -/
theorem starved_rows :
    (starved.db.Delivers (fun _ => dueEnv) 122_400_000_000 ∧
      (starved.kickoff TopicConfig.current (fun _ => dueEnv) 1 122_400_000_000).sent = 0 ∧
      ∃ config ∈ (starved.kickoff TopicConfig.current (fun _ => dueEnv) 1 122_400_000_000).db.liveConfigs,
        config.Due 122_400_000_000) ∧
    AhaWindow 122_400_000_000 ∧
      (starved.aha TopicConfig.current (fun _ => dueEnv) 1 122_400_000_000).sent = 0 ∧
      ∃ tenant ∈ (starved.aha TopicConfig.current (fun _ => dueEnv) 1 122_400_000_000).db.inAge 122_400_000_000,
        tenant.id ∉ (starved.aha TopicConfig.current (fun _ => dueEnv) 1 122_400_000_000).db.sentinels := by
  refine ⟨⟨starved_delivers, ?_, ?_⟩, ?_, ?_, ?_⟩
  all_goals decide +kernel

end Sreda.Workers
