import Sreda.Services.Provisioning

/-!
# Runs of provisioning

## What is proved

* what a step does (`next_cases`), and what every step keeps (`ProvisionInv`);
* of a run (`provisioning_runs`): an account is of one user at most; a call that reports a new user has created the whole
  bundle with one subscription; a call that raises leaves no row; no more than three attempts of a source are recorded in
  any 24 hours; and the number of free subscriptions grows by a repair, or by a signup whose guard has counted fewer than
  the cap, which only repairs may have raised since. `repair_over_cap` is a repair at the cap.
-/

namespace Sreda.Services

open Sreda.Lib

/-! ### What leaves no row behind -/

/-- What identifies a user, and its accounts. -/
def UserAccount.accounts (user : UserAccount) : String × String × Option String × Option String :=
  (user.id, user.tenantId, user.tgAccountHash, user.maxAccountId)

/-- No row is new or gone; a tenant may be approved, a user stamped. -/
structure AccountDb.Quiet (db db' : AccountDb) : Prop where
  billing : db'.billing = db.billing
  attempts : db'.attempts = db.attempts
  workspaces : db'.workspaces = db.workspaces
  assistants : db'.assistants = db.assistants
  features : db'.features = db.features
  tenants : db'.tenants.rows.map (·.id) = db.tenants.rows.map (·.id)
  users : db'.users.rows.rows.map UserAccount.accounts = db.users.rows.rows.map UserAccount.accounts

namespace AccountDb.Quiet

variable {db db' : AccountDb}

theorem refl (db : AccountDb) : db.Quiet db := ⟨rfl, rfl, rfl, rfl, rfl, rfl, rfl⟩

variable {tenantId : String} {p : π} {now windowNow : ℤ} {plan : SubscriptionPlan}

theorem hasTenant (h : db.Quiet db') : db'.HasTenant tenantId ↔ db.HasTenant tenantId := by
  have hmem : ∀ d : AccountDb, d.HasTenant tenantId ↔ tenantId ∈ d.tenants.rows.map (·.id) := fun d => by
    simp only [AccountDb.HasTenant, List.mem_map]
  rw [hmem, hmem, h.tenants]

theorem user (h : db.Quiet db') {user : UserAccount} (huser : user ∈ db'.users.rows.rows) :
    ∃ old ∈ db.users.rows.rows, old.accounts = user.accounts := by
  have hmem : user.accounts ∈ db'.users.rows.rows.map UserAccount.accounts := List.mem_map_of_mem huser
  rw [h.users] at hmem
  exact List.mem_map.mp hmem

theorem approve (db : AccountDb) (tenantId : String) (now : ℤ) : db.Quiet (db.approve tenantId now) := by
  refine ⟨rfl, rfl, rfl, rfl, rfl, ?_, rfl⟩
  have hset : ∀ tenant : TenantAccount, { tenant with approvedAt := some now }.id = tenant.id := fun _ => rfl
  exact Keyed.keys_update hset

theorem stampUser (db : AccountDb) (userId : String) (botKey updateMaxChatId : Option String) :
    db.Quiet (db.stampUser userId botKey updateMaxChatId) := by
  refine ⟨rfl, rfl, rfl, rfl, rfl, rfl, ?_⟩
  have hset : ∀ user : UserAccount, (user.stamp botKey updateMaxChatId).id = user.id := fun _ => rfl
  have haccounts : ∀ user : UserAccount, (user.stamp botKey updateMaxChatId).accounts = user.accounts := fun _ => rfl
  exact Keyed.map_update hset haccounts

end AccountDb.Quiet

/-! ### What a step does -/

section Steps

variable {π : Type} [DecidableEq π] {H : AccountHashes} {s s' : ProvisionState π} {out : Option EnsureOutcome}

/-- The tenant that a call is about to repair. -/
def EnsurePhase.tenant : EnsurePhase → Option String
  | .idle | .unknown _ => none
  | .known _ identity => some identity.tenantId
  | .repairing tenantId _ | .granting tenantId _ _ => some tenantId

/-- What a call is about to return. -/
def EnsurePhase.result : EnsurePhase → Option OnboardingResult
  | .idle | .unknown _ | .known _ _ => none
  | .repairing _ result | .granting _ _ result => some result

/-- A call that has found no user of its account, and is not yet over. -/
def ProvisionState.Waits (s : ProvisionState π) (call : EnsureCall) : Prop :=
  (∃ p, s.phases p = .unknown call) ∨ ∃ pending ∈ s.pending, pending.call = call

/-- Where the phases of the calls come from. -/
structure PhasesFrom (H : AccountHashes) (s s' : ProvisionState π) : Prop where
  waits : ∀ call, s'.Waits call → s.Waits call ∨ s.db.identities H call = []
  tenants : ∀ p, ∀ tenantId ∈ (s'.phases p).tenant, (∃ q, tenantId ∈ (s.phases q).tenant) ∨ s.db.HasTenant tenantId
  results : ∀ p, ∀ r ∈ (s'.phases p).result, (∃ q, r ∈ (s.phases q).result) ∨ r.isNewUser = false

/-- **A step** of a call: it writes no row; or the guard lets a signup pass; or a repair grants a subscription; or the
transaction with the lock ends. -/
inductive EnsureStep (H : AccountHashes) (s : ProvisionState π) : EnsureAct π → ProvisionState π → Option EnsureOutcome → Prop where
  | quiet {act : EnsureAct π} {s' : ProvisionState π} {out : Option EnsureOutcome} (hdb : s.db.Quiet s'.db)
      (hpending : s'.pending = s.pending) (hrepairs : s'.repairs = s.repairs) (hphases : PhasesFrom H s s')
      (hnew : ∀ r, out = some (.ok r) → (∃ q, r ∈ (s.phases q).result) ∨ r.isNewUser = false) : EnsureStep H s act s' out
  | checked {p : π} {registry : Option Bool} {guard : SignupGuard} {windowNow recordNow : ℤ} {pending : PendingSignup π}
      {s' : ProvisionState π}
      (hfree : s.pending = none) (hpending : s'.pending = some pending) (hdb : s'.db = s.db) (hrepairs : s'.repairs = s.repairs)
      (hphases : PhasesFrom H s s') (hwindow : pending.windowNow = windowNow)
      (hcheck :
        pending.guard.checkInsideTx H s.db pending.call.channel pending.call.accountId windowNow recordNow = .ok pending.attempt)
      (hcounted : pending.counted = s.db.billing.freeTierActiveCount) (hthen : pending.repairs = s.repairs) :
      EnsureStep H s (.check p guard registry windowNow recordNow) s' none
  | granted {p : π} {now : ℤ} {subId tenantId : String} {plan : SubscriptionPlan} {result : OnboardingResult} {db : AccountDb}
      {s' : ProvisionState π} (hphase : s.phases p = .granting tenantId plan result)
      (hdb : (s.db.approve tenantId now).withBilling
        (s.db.billing.insertSubscription (freeTierSubscription plan tenantId now subId)) = .ok db)
      (hs' : s' = (({ s with db, repairs := s.repairs + 1 } : ProvisionState π).move p .idle)) :
      EnsureStep H s (.grant p now subId) s' (some (.ok result))
  | committed {p : π} {now : ℤ} {subId : String} {pending : PendingSignup π} (hpending : s.pending = some pending) :
      EnsureStep H s (.commit p now subId) (s.commit H pending now subId).1 (s.commit H pending now subId).2

/-- What the phases come from when one process moves. -/
theorem phasesFrom_move {db : AccountDb} {repairs : ℕ} {phase : EnsurePhase}
    (hwaits : ∀ call, phase = .unknown call → s.db.identities H call = [])
    (htenant : ∀ tenantId ∈ phase.tenant, tenantId ∈ (s.phases p).tenant ∨ s.db.HasTenant tenantId)
    (hresult : ∀ r ∈ phase.result, r ∈ (s.phases p).result ∨ r.isNewUser = false) :
    PhasesFrom H s (({ s with db, repairs } : ProvisionState π).move p phase) := by
  have hphase : ∀ q, (({ s with db, repairs } : ProvisionState π).move p phase).phases q = if q = p then phase else s.phases q := by
    intro q
    show Function.update s.phases p phase q = _
    rw [Function.update_apply]
  refine ⟨?_, ?_, ?_⟩
  · rintro call (⟨q, hq⟩ | hpending)
    · rw [hphase] at hq
      split at hq
      · exact .inr (hwaits call hq)
      · exact .inl (.inl ⟨q, hq⟩)
    · exact .inl (.inr hpending)
  · intro q tenantId h
    rw [hphase] at h
    split at h
    · exact (htenant tenantId h).imp_left fun h => ⟨p, h⟩
    · exact .inl ⟨q, h⟩
  · intro q r h
    rw [hphase] at h
    split at h
    · exact (hresult r h).imp_left fun h => ⟨p, h⟩
    · exact .inl ⟨q, h⟩

theorem phasesFrom_idle {db : AccountDb} {repairs : ℕ} :
    PhasesFrom H s (({ s with db, repairs } : ProvisionState π).move p .idle) := by
  refine phasesFrom_move (fun _ h => ?_) (fun _ h => ?_) fun _ h => ?_
  all_goals cases h

theorem ensureStep_done {act : EnsureAct π} {db : AccountDb} {outcome : EnsureOutcome} (hdb : s.db.Quiet db)
    (hnew : ∀ r, outcome = .ok r → r ∈ (s.phases p).result ∨ r.isNewUser = false) :
    EnsureStep H s act (({ s with db } : ProvisionState π).done p outcome).1
      (({ s with db } : ProvisionState π).done p outcome).2 := by
  refine .quiet hdb rfl rfl (phasesFrom_idle) fun r h => ?_
  exact (hnew r (Option.some.inj h)).imp_left fun h => ⟨p, h⟩

theorem ensureStep_move {act : EnsureAct π} {db : AccountDb} {phase : EnsurePhase} (hdb : s.db.Quiet db)
    (hwaits : ∀ call, phase = .unknown call → s.db.identities H call = [])
    (htenant : ∀ tenantId ∈ phase.tenant, tenantId ∈ (s.phases p).tenant ∨ s.db.HasTenant tenantId)
    (hresult : ∀ r ∈ phase.result, r ∈ (s.phases p).result ∨ r.isNewUser = false) :
    EnsureStep H s act (({ s with db } : ProvisionState π).move p phase) none :=
  .quiet hdb rfl rfl (phasesFrom_move hwaits htenant hresult) fun _ h => by cases h

omit [DecidableEq π] in
theorem resolve_none {call : EnsureCall} (h : resolveExternalIdentity H s.db call = .ok none) : s.db.identities H call = [] := by
  unfold resolveExternalIdentity at h
  split at h
  next hnone => exact hnone
  all_goals cases h

omit [DecidableEq π] in
theorem resolve_some {call : EnsureCall} {identity : ResolvedIdentity}
    (h : resolveExternalIdentity H s.db call = .ok (some identity)) : s.db.HasTenant identity.tenantId := by
  unfold resolveExternalIdentity at h
  split at h
  · cases h
  next found hfound =>
    obtain rfl : found = identity := Option.some.inj (Except.ok.inj h)
    have hmem : found ∈ s.db.identities H call := by rw [hfound]; exact List.mem_singleton_self found
    obtain ⟨user, -, hjoin⟩ := List.mem_filterMap.mp hmem
    obtain ⟨tenant, htenant, rfl⟩ := Option.map_eq_some_iff.mp hjoin
    exact ⟨tenant, (Keyed.get?_eq_some.mp htenant).1, (Keyed.get?_eq_some.mp htenant).2⟩
  · cases h

theorem ensureStep_resolve {act : EnsureAct π} (p : π) (call : EnsureCall) :
    EnsureStep H s act (s.resolve H p call).1 (s.resolve H p call).2 := by
  unfold ProvisionState.resolve
  split
  · exact ensureStep_done (.refl _) fun r h => .inr (by cases h; rfl)
  split
  next e _ => exact ensureStep_done (.refl _) fun r h => by cases h
  next hnone =>
    refine ensureStep_move (.refl _) (fun other h => ?_) (fun _ h => ?_) fun _ h => ?_
    · cases h
      exact resolve_none hnone
    · cases h
    · cases h
  next identity hsome =>
    refine ensureStep_move (.refl _) (fun _ h => ?_) (fun tenantId h => .inr ?_) fun _ h => ?_
    · cases h
    · cases h
      exact resolve_some hsome
    · cases h

theorem ensureStep_serve {act : EnsureAct π} {call : EnsureCall} {identity : ResolvedIdentity}
    (hphase : s.phases p = .known call identity) :
    EnsureStep H s act (s.serve p call identity).1 (s.serve p call identity).2 := by
  unfold ProvisionState.serve
  obtain ⟨db, result, hasActiveSub, hreads, hdb, hresult⟩ : ∃ db result hasActiveSub,
      serveExistingBundleReads s.db identity call.tgBotKey call.updateMaxChatId = (db, result, hasActiveSub) ∧
        s.db.Quiet db ∧ result.isNewUser = false := ⟨_, _, _, rfl, .stampUser _ _ _ _, rfl⟩
  rw [hreads]
  dsimp only
  split
  · refine ensureStep_move hdb (fun other h => ?_) (fun tenantId h => .inl ?_) fun r h => .inr ?_
    · cases h
    · rw [hphase]
      exact h
    · cases h
      exact hresult
  · refine ensureStep_done hdb fun r h => .inr ?_
    cases h
    exact hresult

theorem ensureStep_repair {act : EnsureAct π} {result : OnboardingResult}
    (hphase : s.phases p = .repairing tenantId result) :
    EnsureStep H s act (s.repair p tenantId result now).1 (s.repair p tenantId result now).2 := by
  have hresult : result ∈ (s.phases p).result := by rw [hphase]; rfl
  unfold ProvisionState.repair
  split
  · exact ensureStep_done (.approve _ _ _) fun r h => .inl (by cases h; exact hresult)
  split
  · exact ensureStep_done (.approve _ _ _) fun r h => .inl (by cases h; exact hresult)
  · refine ensureStep_move (.refl _) (fun other h => ?_) (fun id h => .inl ?_) fun r h => .inl (by cases h; exact hresult)
    · cases h
    · rw [hphase]
      exact h

theorem ensureStep_grant (now : ℤ) (subId : String)
    {result : OnboardingResult} (hphase : s.phases p = .granting tenantId plan result) :
    EnsureStep H s (.grant p now subId) (s.grant p tenantId plan result now subId).1
      (s.grant p tenantId plan result now subId).2 := by
  unfold ProvisionState.grant
  dsimp only
  split
  next e _ => exact ensureStep_done (.refl _) fun r h => by cases h
  next db hdb => exact .granted hphase hdb rfl

theorem ensureStep_check {call : EnsureCall} {guard : SignupGuard} {registry : Option Bool} {recordNow : ℤ}
    (hphase : s.phases p = .unknown call) (h : s.check H p call guard registry windowNow recordNow = some (s', out)) :
    EnsureStep H s (.check p guard registry windowNow recordNow) s' out := by
  unfold ProvisionState.check at h
  dsimp only at h
  split at h
  · cases h
    exact ensureStep_done (.refl _) fun r h => by cases h
  split at h
  · cases h
  next botSignupOpen _ hfree =>
    split at h
    · cases h
      exact ensureStep_done (.refl _) fun r h => by cases h
    next attempt hcheck =>
      cases h
      have hfrom : PhasesFrom H s (s.move p .idle) := phasesFrom_idle
      refine .checked (by simpa using hfree) rfl rfl rfl ⟨?_, hfrom.tenants, hfrom.results⟩ rfl hcheck rfl rfl
      rintro other (hother | ⟨pending, hpending, rfl⟩)
      · exact hfrom.waits other (.inl hother)
      · cases hpending
        exact .inl (.inl ⟨p, hphase⟩)

/-- **What a step does**. -/
theorem next_cases {act : EnsureAct π} (h : s.next H act = some (s', out)) : EnsureStep H s act s' out := by
  cases act with
  | resolve p call =>
    simp only [ProvisionState.next] at h
    split at h
    · have hstep : EnsureStep H s (.resolve p call) (s.resolve H p call).1 (s.resolve H p call).2 := ensureStep_resolve p call
      rwa [Option.some.inj h] at hstep
    · cases h
  | serve p =>
    simp only [ProvisionState.next] at h
    split at h
    next call identity hphase =>
      have hstep : EnsureStep H s (.serve p) (s.serve p call identity).1 (s.serve p call identity).2 := ensureStep_serve hphase
      rwa [Option.some.inj h] at hstep
    · cases h
  | repair p now =>
    simp only [ProvisionState.next] at h
    split at h
    next tenantId result hphase =>
      have hstep : EnsureStep H s (.repair p now) (s.repair p tenantId result now).1 (s.repair p tenantId result now).2 :=
        ensureStep_repair hphase
      rwa [Option.some.inj h] at hstep
    · cases h
  | grant p now subId =>
    simp only [ProvisionState.next] at h
    split at h
    next tenantId plan result hphase =>
      have hstep := ensureStep_grant (H := H) now subId hphase
      rwa [Option.some.inj h] at hstep
    · cases h
  | check p guard registry windowNow recordNow =>
    simp only [ProvisionState.next] at h
    split at h
    next hphase => exact ensureStep_check hphase h
    · cases h
  | commit p now subId =>
    simp only [ProvisionState.next, Option.map_eq_some_iff, Option.filter_eq_some_iff] at h
    obtain ⟨pending, ⟨hpending, -⟩, h⟩ := h
    have hstep : EnsureStep H s (.commit p now subId) (s.commit H pending now subId).1 (s.commit H pending now subId).2 :=
      .committed hpending
    rwa [h] at hstep

end Steps

/-! ### What every step keeps -/

section Invariant

variable {π : Type} [DecidableEq π]

/-- What is known of the signup that holds the lock: its guard has counted fewer than the cap, only repairs have granted
since, and fewer attempts than the limit are in its window. -/
structure ProvisionState.Passed (s : ProvisionState π) (pending : PendingSignup π) : Prop where
  below : (pending.counted : ℤ) < pending.guard.freeTierActiveMax
  repairs : pending.repairs ≤ s.repairs
  since : s.db.billing.freeTierActiveCount ≤ pending.counted + (s.repairs - pending.repairs)
  recent : recentAttemptsCount s.db.attempts pending.attempt.channel pending.attempt.sourceIdHash (pending.windowNow - signupWindow) <
    signupRateLimitMax
  window : pending.windowNow ≤ pending.attempt.attemptedAt

/-- What the foreign keys keep, and an account of MAX of one user. -/
structure AccountDb.Sound (db : AccountDb) : Prop where
  userTenants : ∀ user ∈ db.users.rows.rows, db.HasTenant user.tenantId
  subTenants : ∀ sub ∈ db.billing.subscriptions.rows, db.HasTenant sub.tenantId
  maxUnique : ∀ a ∈ db.users.rows.rows, ∀ b ∈ db.users.rows.rows, a.maxAccountId ≠ none → a.maxAccountId = b.maxAccountId → a = b

/-- The invariant. A user of the account of a call that has found none is one that another such call has made. -/
structure ProvisionInv (s : ProvisionState π) : Prop where
  db : s.db.Sound
  waiting : ∀ call, s.Waits call → call.channel = .max →
    ∀ user ∈ s.db.users.rows.rows, user.maxAccountId = some call.accountId → user.id = "user_max_" ++ call.accountId
  tenants : ∀ p, ∀ tenantId ∈ (s.phases p).tenant, s.db.HasTenant tenantId
  results : ∀ p, ∀ r ∈ (s.phases p).result, r.isNewUser = false
  passed : ∀ pending ∈ s.pending, s.Passed pending

/-- The clock of a process does not go back within a check. -/
def EnsureAct.Timed : EnsureAct π → Prop
  | .check _ _ _ windowNow recordNow => windowNow ≤ recordNow
  | .resolve _ _ | .serve _ | .repair _ _ | .grant _ _ _ | .commit _ _ _ => True

variable {H : AccountHashes} {s s' : ProvisionState π} {act : EnsureAct π} {out : Option EnsureOutcome}

theorem no_user_of_identities {db : AccountDb} {call : EnsureCall} (hdb : db.Sound) (h : db.identities H call = []) :
    ∀ user ∈ db.users.rows.rows, call.isOf H user = false := by
  intro user huser
  by_contra hof
  obtain ⟨tenant, htenant, hid⟩ := hdb.userTenants user huser
  have hmem : (⟨user.tenantId, user.id, tenant.approvedAt⟩ : ResolvedIdentity) ∈ db.identities H call := by
    refine List.mem_filterMap.mpr ⟨user, List.mem_filter.mpr ⟨huser, by simpa using hof⟩, ?_⟩
    rw [Keyed.get?_eq_some.mpr ⟨htenant, hid⟩]
    rfl
  rw [h] at hmem
  cases hmem

theorem sound_quiet {db db' : AccountDb} (hdb : db.Sound) (h : db.Quiet db') : db'.Sound where
  userTenants := by
    intro user huser
    obtain ⟨old, hold, hsame⟩ := h.user huser
    have htenant : old.tenantId = user.tenantId := congrArg (·.2.1) hsame
    exact h.hasTenant.mpr (htenant ▸ hdb.userTenants old hold)
  subTenants := by
    intro sub hsub
    rw [h.billing] at hsub
    exact h.hasTenant.mpr (hdb.subTenants sub hsub)
  maxUnique := by
    intro a ha b hb hsome heq
    obtain ⟨oldA, holdA, hsameA⟩ := h.user ha
    obtain ⟨oldB, holdB, hsameB⟩ := h.user hb
    have hA : oldA.maxAccountId = a.maxAccountId := congrArg (·.2.2.2) hsameA
    have hB : oldB.maxAccountId = b.maxAccountId := congrArg (·.2.2.2) hsameB
    have hold : oldA = oldB := hdb.maxUnique oldA holdA oldB holdB (hA ▸ hsome) (hA.trans (heq.trans hB.symm))
    have hid : a.id = b.id := (congrArg (·.1) hsameA).symm.trans ((congrArg UserAccount.id hold).trans (congrArg (·.1) hsameB))
    exact db'.users.rows.eq_of_key ha hb hid

omit [DecidableEq π] in
/-- The calls that wait, after a step that leaves the users. -/
theorem waiting_kept (hs : ProvisionInv s) (hfrom : PhasesFrom H s s')
    (husers : ∀ user ∈ s'.db.users.rows.rows, ∃ old ∈ s.db.users.rows.rows, old.accounts = user.accounts) :
    ∀ call, s'.Waits call → call.channel = .max →
      ∀ user ∈ s'.db.users.rows.rows, user.maxAccountId = some call.accountId → user.id = "user_max_" ++ call.accountId := by
  intro call hwaits hmax user huser haccount
  obtain ⟨old, hold, hsame⟩ := husers user huser
  have hid : old.id = user.id := congrArg (·.1) hsame
  have hold' : old.maxAccountId = some call.accountId := (congrArg (·.2.2.2) hsame).trans haccount
  rcases hfrom.waits call hwaits with hwaits' | hnone
  · rw [← hid]
    exact hs.waiting call hwaits' hmax old hold hold'
  · have hof := no_user_of_identities hs.db hnone old hold
    simp [EnsureCall.isOf, hmax, hold'] at hof

omit [DecidableEq π] in
/-- The phases, after a step that loses no tenant. -/
theorem phases_kept (hs : ProvisionInv s) (hfrom : PhasesFrom H s s') (htenants : ∀ id, s.db.HasTenant id → s'.db.HasTenant id) :
    (∀ p, ∀ tenantId ∈ (s'.phases p).tenant, s'.db.HasTenant tenantId) ∧ ∀ p, ∀ r ∈ (s'.phases p).result, r.isNewUser = false := by
  refine ⟨fun p tenantId h => htenants tenantId ?_, fun p r h => ?_⟩
  · rcases hfrom.tenants p tenantId h with ⟨q, hq⟩ | hthere
    · exact hs.tenants q tenantId hq
    · exact hthere
  · rcases hfrom.results p r h with ⟨q, hq⟩ | hnew
    · exact hs.results q r hq
    · exact hnew

/-- What a guard that lets a signup pass has seen. -/
theorem checkInsideTx_ok {guard : SignupGuard} {db : AccountDb} {channel : SignupChannel} {sourceId : String}
    {recordNow : ℤ} {attempt : SignupAttempt}
    (h : guard.checkInsideTx H db channel sourceId windowNow recordNow = .ok attempt) :
    (db.billing.freeTierActiveCount : ℤ) < guard.freeTierActiveMax ∧
      attempt = ⟨channel.text, H.hmacSignupSource sourceId, recordNow⟩ ∧
      recentAttemptsCount db.attempts channel.text (H.hmacSignupSource sourceId) (windowNow - signupWindow) < signupRateLimitMax := by
  unfold SignupGuard.checkInsideTx at h
  split at h
  · cases h
  split at h
  · cases h
  split at h
  · cases h
  next hcap =>
    dsimp only at h
    split at h
    · cases h
    next hrate =>
      cases h
      exact ⟨by omega, rfl, by omega⟩

/-- A grant makes one more free subscription at most. -/
theorem freeTierActiveCount_insert {b b' : BillingStore} {sub : TenantSubscription} (h : b.insertSubscription sub = .ok b') :
    b'.freeTierActiveCount ≤ b.freeTierActiveCount + 1 := by
  obtain ⟨hplans, hrows, -⟩ := insertSubscription_spec h
  have hfree : b'.isFreeTierActive = b.isFreeTierActive := by
    funext sub
    rw [BillingStore.isFreeTierActive, BillingStore.isFreeTierActive, hplans]
  rw [BillingStore.freeTierActiveCount, BillingStore.freeTierActiveCount, hfree, hrows, List.countP_append]
  have hone : List.countP b.isFreeTierActive [sub] ≤ 1 := List.countP_le_length
  omega

theorem sound_grant {db db' : AccountDb} {b : BillingStore} {sub : TenantSubscription}
    (hdb : db.Sound) (htenant : db.HasTenant sub.tenantId) (hb : db.billing.insertSubscription sub = .ok b)
    (hdb' : db' = { db.approve tenantId now with billing := b }) : db'.Sound := by
  obtain ⟨huserTenants, hsubTenants, hmaxUnique⟩ := sound_quiet hdb (.approve db tenantId now)
  subst hdb'
  refine ⟨huserTenants, fun row hrow => ?_, hmaxUnique⟩
  rw [(insertSubscription_spec hb).2.1, List.mem_append, List.mem_singleton] at hrow
  rcases hrow with hold | rfl
  · exact hsubTenants row hold
  · exact (AccountDb.Quiet.approve db tenantId now).hasTenant.mpr htenant

/-- **A new account**: the five rows of its bundle, and one subscription, the active free one. -/
structure AccountDb.NewAccount (db db' : AccountDb) (bundle : Bundle) (plan : SubscriptionPlan) (now : ℤ) (subId : String) :
    Prop where
  free : db.Free bundle
  tenant : ⟨bundle.tenantId, some now, none⟩ ∈ db'.tenants.rows
  workspace : ⟨bundle.workspaceId, bundle.tenantId⟩ ∈ db'.workspaces.rows
  user : bundle.user ∈ db'.users.rows.rows
  assistant : ⟨bundle.assistantId, bundle.tenantId, bundle.workspaceId⟩ ∈ db'.assistants.rows
  feature : ⟨bundle.tenantId, coreAssistant, true⟩ ∈ db'.features.rows
  freePlan : db.billing.freePlan = some plan
  subscription : db'.billing.subscriptions.rows.filter (·.tenantId = bundle.tenantId) =
    [freeTierSubscription plan bundle.tenantId now subId]

/-- What the ids in a result are. -/
structure OnboardingResult.Names (r : OnboardingResult) (bundle : Bundle) : Prop where
  tenantId : r.tenantId = some bundle.tenantId
  workspaceId : r.workspaceId = some bundle.workspaceId
  userId : r.userId = some bundle.userId
  assistantId : r.assistantId = some bundle.assistantId

omit [DecidableEq π] in
/-- The transaction with the lock ends: it fails and is rolled back; or a row of the bundle was there, and the attempt is
recorded; or the account is new. -/
theorem commit_cases (H : AccountHashes) (s : ProvisionState π) (pending : PendingSignup π) (now : ℤ) (subId : String) :
    (∃ e, s.commit H pending now subId = ({ s with pending := none }, some (.error (.account e)))) ∨
      (∃ r, r.isNewUser = false ∧ s.commit H pending now subId =
        ({ s with pending := none, db := { s.db with attempts := s.db.attempts ++ [pending.attempt] } }, some (.ok r))) ∨
        ∃ r db₁ plan billing, r.isNewUser = true ∧ r.Names (pending.call.bundle H) ∧ s.db.Free (pending.call.bundle H) ∧
          AccountDb.Added { s.db with attempts := s.db.attempts ++ [pending.attempt] } db₁ (pending.call.bundle H) now ∧
          s.db.billing.freePlan = some plan ∧
          s.db.billing.insertSubscription (freeTierSubscription plan (pending.call.bundle H).tenantId now subId) = .ok billing ∧
          s.commit H pending now subId = ({ s with pending := none, db := { db₁ with billing } }, some (.ok r)) := by
  unfold ProvisionState.commit
  dsimp only
  split
  next e _ => exact .inl ⟨e, rfl⟩
  next db created hprovision =>
    rcases provisionBundle_cases hprovision with ⟨rfl, rfl⟩ | ⟨rfl, hfree, db₁, plan, billing, hadded, hplan, hbilling, rfl⟩
    · exact .inr (.inl ⟨_, rfl, rfl⟩)
    · have hfree' : s.db.Free (pending.call.bundle H) :=
        ⟨hfree.tenant, hfree.workspace, hfree.user, hfree.assistant, hfree.feature⟩
      exact .inr (.inr ⟨_, db₁, plan, billing, rfl, ⟨rfl, rfl, rfl, rfl⟩, hfree', hadded, hplan, hbilling, rfl⟩)

theorem newAccount_of_added {db db₁ : AccountDb} {attempts : List SignupAttempt} {bundle : Bundle}
    {subId : String} {billing : BillingStore} (hdb : db.Sound) (hfree : db.Free bundle)
    (hadded : AccountDb.Added { db with attempts } db₁ bundle now) (hplan : db.billing.freePlan = some plan)
    (hbilling : db.billing.insertSubscription (freeTierSubscription plan bundle.tenantId now subId) = .ok billing) :
    db.NewAccount { db₁ with billing } bundle plan now subId where
  free := hfree
  tenant := by simp [hadded.tenants]
  workspace := by simp [hadded.workspaces]
  user := by simp [hadded.users]
  assistant := by simp [hadded.assistants]
  feature := by simp [hadded.features]
  freePlan := hplan
  subscription := by
    have hnone : db.billing.subscriptions.rows.filter (·.tenantId = bundle.tenantId) = [] := by
      refine List.filter_eq_nil_iff.mpr fun sub hsub htenant => ?_
      obtain ⟨tenant, hmem, hid⟩ := hdb.subTenants sub hsub
      exact hfree.tenant tenant hmem (hid.trans (of_decide_eq_true htenant))
    rw [(insertSubscription_spec hbilling).2.1, List.filter_append, hnone]
    simp [freeTierSubscription]

/-- A new user of an account of MAX has the id of that account. -/
theorem id_of_bundle {call : EnsureCall} {accountId : String} (h : (call.bundle H).user.maxAccountId = some accountId) :
    (call.bundle H).user.id = "user_max_" ++ accountId := by
  cases hchannel : call.channel with
  | telegram => simp [EnsureCall.bundle, hchannel, Bundle.user] at h
  | max =>
    simp only [EnsureCall.bundle, hchannel, Bundle.user, Option.some.injEq] at h ⊢
    rw [h]

theorem sound_created {db db₁ : AccountDb} {attempts : List SignupAttempt} {call : EnsureCall}
    {subId : String} {billing : BillingStore} (hdb : db.Sound) (hfree : db.Free (call.bundle H))
    (hwaiting : call.channel = .max →
      ∀ user ∈ db.users.rows.rows, user.maxAccountId = some call.accountId → user.id = "user_max_" ++ call.accountId)
    (hadded : AccountDb.Added { db with attempts } db₁ (call.bundle H) now)
    (hbilling : db.billing.insertSubscription (freeTierSubscription plan (call.bundle H).tenantId now subId) = .ok billing) :
    AccountDb.Sound { db₁ with billing } := by
  have htenants : ∀ id, db.HasTenant id → db₁.HasTenant id := by
    rintro id ⟨tenant, htenant, hid⟩
    exact ⟨tenant, by rw [hadded.tenants]; exact List.mem_append_left _ htenant, hid⟩
  have hnew : db₁.HasTenant (call.bundle H).tenantId :=
    ⟨_, by rw [hadded.tenants]; exact List.mem_append_right _ (List.mem_singleton_self _), rfl⟩
  have husers : ∀ user, user ∈ db₁.users.rows.rows ↔ user ∈ db.users.rows.rows ∨ user = (call.bundle H).user := fun user => by
    rw [hadded.users, List.mem_append, List.mem_singleton]
  -- an old user with the account of the new one would have its id
  have hfresh : ∀ user ∈ db.users.rows.rows, user.maxAccountId ≠ none → user.maxAccountId ≠ (call.bundle H).user.maxAccountId := by
    intro user huser hsome heq
    have hmax : call.channel = .max := by
      by_contra htelegram
      rw [heq] at hsome
      cases hchannel : call.channel <;> simp_all [EnsureCall.bundle, Bundle.user]
    have haccount : user.maxAccountId = some call.accountId := by simpa [EnsureCall.bundle, hmax, Bundle.user] using heq
    exact (hfree.user user huser).1 ((hwaiting hmax user huser haccount).trans (id_of_bundle (heq.symm.trans haccount)).symm)
  refine ⟨fun user huser => ?_, fun sub hsub => ?_, fun a ha b hb hsome heq => ?_⟩
  · rcases (husers user).mp huser with hold | rfl
    · exact htenants _ (hdb.userTenants user hold)
    · exact hnew
  · rw [(insertSubscription_spec hbilling).2.1, List.mem_append, List.mem_singleton] at hsub
    rcases hsub with hold | rfl
    · exact htenants _ (hdb.subTenants sub hold)
    · exact hnew
  · rcases (husers a).mp ha with hold | rfl <;> rcases (husers b).mp hb with hold' | rfl
    · exact hdb.maxUnique a hold b hold' hsome heq
    · exact absurd heq (hfresh a hold hsome)
    · exact absurd heq.symm (hfresh b hold' (heq ▸ hsome))
    · rfl

omit [DecidableEq π] in
theorem inv_unlocked {db : AccountDb} (hs : ProvisionInv s) (hdb : db.Sound) (htenants : ∀ id, s.db.HasTenant id → db.HasTenant id)
    (husers : ∀ user ∈ db.users.rows.rows, user ∈ s.db.users.rows.rows ∨
      ∀ accountId, user.maxAccountId = some accountId → user.id = "user_max_" ++ accountId) :
    ProvisionInv ({ s with db, pending := none } : ProvisionState π) where
  db := hdb
  waiting := by
    rintro call (⟨p, hp⟩ | ⟨_, ⟨⟩, -⟩) hmax user huser haccount
    rcases husers user huser with hold | hnew
    · exact hs.waiting call (.inl ⟨p, hp⟩) hmax user hold haccount
    · exact hnew call.accountId haccount
  tenants := fun p tenantId h => htenants tenantId (hs.tenants p tenantId h)
  results := hs.results
  passed := fun _ h => by cases h

/-- **What every step keeps**. -/
theorem provisionInv_step (hs : ProvisionInv s) (htimed : act.Timed) (h : s.next H act = some (s', out)) : ProvisionInv s' := by
  cases next_cases h with
  | quiet hdb hpending hrepairs hfrom hnew =>
    obtain ⟨htenants, hresults⟩ := phases_kept hs hfrom fun _ => hdb.hasTenant.mpr
    refine ⟨sound_quiet hs.db hdb, waiting_kept hs hfrom (fun _ => hdb.user), htenants, hresults, fun pending hmem => ?_⟩
    obtain ⟨hbelow, hthen, hsince, hrecent, hwindow⟩ := hs.passed pending (hpending ▸ hmem)
    exact ⟨hbelow, hrepairs ▸ hthen, by rwa [hdb.billing, hrepairs], by rwa [hdb.attempts], hwindow⟩
  | @checked p registry guard windowNow recordNow pending s' hfree hpending hdb hrepairs hfrom hwindow hcheck hcounted hthen =>
    have hquiet : s.db.Quiet s'.db := hdb ▸ .refl _
    obtain ⟨htenants, hresults⟩ := phases_kept hs hfrom fun _ => hquiet.hasTenant.mpr
    refine ⟨sound_quiet hs.db hquiet, waiting_kept hs hfrom (fun _ => hquiet.user), htenants, hresults, fun other hmem => ?_⟩
    obtain rfl : pending = other := Option.some.inj (hpending.symm.trans hmem)
    obtain ⟨hcap, hattempt, hrecent⟩ := checkInsideTx_ok hcheck
    refine ⟨by rwa [hcounted], by rw [hthen, hrepairs], by rw [hdb, hcounted, hthen, hrepairs]; omega, ?_, ?_⟩
    · rw [hdb, hattempt, hwindow]
      exact hrecent
    · rw [hattempt, hwindow]
      exact htimed
  | @granted p now subId tenantId plan result db _ hphase hdb hs' =>
    obtain ⟨billing, hbilling, rfl⟩ := withBilling_ok hdb
    subst hs'
    have hfrom : PhasesFrom H s (({ s with db := { s.db.approve tenantId now with billing }, repairs := s.repairs + 1 } :
        ProvisionState π).move p .idle) := phasesFrom_idle
    have htenant : s.db.HasTenant tenantId := hs.tenants p tenantId (by rw [hphase]; rfl)
    have hquiet : s.db.Quiet (s.db.approve tenantId now) := .approve _ _ _
    obtain ⟨htenants, hresults⟩ := phases_kept hs hfrom fun _ => hquiet.hasTenant.mpr
    refine ⟨sound_grant hs.db htenant hbilling rfl, waiting_kept hs hfrom (fun _ => hquiet.user), htenants, hresults, ?_⟩
    intro pending hmem
    obtain ⟨hbelow, hthen, hsince, hrecent, hwindow⟩ := hs.passed pending hmem
    have hcount := freeTierActiveCount_insert hbilling
    refine ⟨hbelow, ?_, ?_, hrecent, hwindow⟩
    · show pending.repairs ≤ s.repairs + 1
      omega
    · show billing.freeTierActiveCount ≤ pending.counted + (s.repairs + 1 - pending.repairs)
      omega
  | @committed p now subId pending hpending =>
    rcases commit_cases H s pending now subId with ⟨e, h⟩ | ⟨r, -, h⟩ | ⟨r, db₁, plan, billing, -, -, hfree, hadded, -, hbilling, h⟩
    · rw [h]
      exact inv_unlocked hs hs.db (fun _ h => h) fun _ h => .inl h
    · rw [h]
      exact inv_unlocked hs ⟨hs.db.userTenants, hs.db.subTenants, hs.db.maxUnique⟩ (fun _ h => h) fun _ h => .inl h
    · rw [h]
      have hwaiting := hs.waiting pending.call (.inr ⟨pending, hpending, rfl⟩)
      refine inv_unlocked hs (sound_created hs.db hfree hwaiting hadded hbilling) ?_ ?_
      · rintro id ⟨tenant, htenant, hid⟩
        exact ⟨tenant, by rw [hadded.tenants]; exact List.mem_append_left _ htenant, hid⟩
      · intro user huser
        have hmem : user ∈ s.db.users.rows.rows ++ [(pending.call.bundle H).user] := hadded.users ▸ huser
        rcases List.mem_append.mp hmem with hold | hnew
        · exact .inl hold
        · rw [List.mem_singleton.mp hnew]
          exact .inr fun _ => id_of_bundle

/-! ### The attempts -/

/-- An attempt of the source in the 24 hours that end with `t`. -/
def SignupAttempt.inWindow (attempt : SignupAttempt) (channel sourceIdHash : String) (t : ℤ) : Bool :=
  attempt.channel = channel && attempt.sourceIdHash = sourceIdHash &&
    t - signupWindow < attempt.attemptedAt && attempt.attemptedAt ≤ t

/-- What has been recorded since: no more of a source than the limit in any 24 hours. -/
def RecordedSince (before after : List SignupAttempt) : Prop :=
  ∃ recorded, after = before ++ recorded ∧
    ∀ channel sourceIdHash t, recorded.countP (·.inWindow channel sourceIdHash t) ≤ signupRateLimitMax

/-- A step records the attempt of the signup with the lock, or none. -/
theorem attempts_step (h : s.next H act = some (s', out)) :
    s'.db.attempts = s.db.attempts ∨ ∃ pending ∈ s.pending, s'.db.attempts = s.db.attempts ++ [pending.attempt] := by
  cases next_cases h with
  | quiet hdb => exact .inl hdb.attempts
  | checked _ _ hdb => exact .inl (by rw [hdb])
  | granted _ hdb hs' =>
    obtain ⟨billing, -, rfl⟩ := withBilling_ok hdb
    exact .inl (by rw [hs']; rfl)
  | @committed p now subId pending hpending =>
    rcases commit_cases H s pending now subId with ⟨e, h⟩ | ⟨r, -, h⟩ | ⟨r, db₁, plan, billing, -, -, -, hadded, -, -, h⟩
    · exact .inl (by rw [h])
    · exact .inr ⟨pending, hpending, by rw [h]⟩
    · exact .inr ⟨pending, hpending, by rw [h]; exact hadded.attempts⟩

/-- An attempt that passed its check is one more than fewer than the limit, in every window that it is in. -/
theorem recordedSince_append {before after : List SignupAttempt} {attempt : SignupAttempt}
    (h : RecordedSince before after)
    (hrecent : recentAttemptsCount after attempt.channel attempt.sourceIdHash (windowNow - signupWindow) < signupRateLimitMax)
    (hwindow : windowNow ≤ attempt.attemptedAt) : RecordedSince before (after ++ [attempt]) := by
  obtain ⟨recorded, rfl, hrecorded⟩ := h
  refine ⟨recorded ++ [attempt], by simp, fun channel sourceIdHash t => ?_⟩
  rw [List.countP_append, List.countP_singleton]
  split
  next hin =>
    simp only [SignupAttempt.inWindow, Bool.and_eq_true, decide_eq_true_eq] at hin
    obtain ⟨⟨⟨rfl, rfl⟩, hafter⟩, hbefore⟩ := hin
    have hle : recorded.countP (·.inWindow attempt.channel attempt.sourceIdHash t) ≤
        recentAttemptsCount (before ++ recorded) attempt.channel attempt.sourceIdHash (windowNow - signupWindow) := by
      rw [recentAttemptsCount, List.countP_append]
      refine le_trans (List.countP_mono_left fun other _ hother => ?_) (Nat.le_add_left _ _)
      simp only [SignupAttempt.inWindow, Bool.and_eq_true, decide_eq_true_eq] at hother ⊢
      exact ⟨hother.1.1, by omega⟩
    omega
  next => exact hrecorded channel sourceIdHash t

/-! ### Runs -/

/-- What is asked of a step. -/
structure ProvisionState.Kept (H : AccountHashes) (s : ProvisionState π) (act : EnsureAct π) (s' : ProvisionState π)
    (out : Option EnsureOutcome) : Prop where
  /-- A call that reports a new user has created its account. -/
  created : ∀ r, out = some (.ok r) → r.isNewUser = true →
    ∃ pending ∈ s.pending, ∃ plan now subId,
      s.db.NewAccount s'.db (pending.call.bundle H) plan now subId ∧ r.Names (pending.call.bundle H)
  /-- A step that does not end its call with a result leaves no row. -/
  quiet : (∀ r, out ≠ some (.ok r)) → s.db.Quiet s'.db
  /-- The number of free subscriptions grows by a repair, or by a signup whose guard has counted fewer than the cap, since
  when only repairs have granted any. -/
  cap : s.db.billing.freeTierActiveCount < s'.db.billing.freeTierActiveCount →
    (∃ p now subId, act = .grant p now subId) ∨ ∃ pending ∈ s.pending, (pending.counted : ℤ) < pending.guard.freeTierActiveMax ∧
      s.db.billing.freeTierActiveCount ≤ pending.counted + (s.repairs - pending.repairs)

theorem kept_step (hs : ProvisionInv s) (h : s.next H act = some (s', out)) : s.Kept H act s' out := by
  cases next_cases h with
  | quiet hdb _ _ _ hnew =>
    refine ⟨fun r hr hisnew => ?_, fun _ => hdb, fun hcount => ?_⟩
    · rcases hnew r hr with ⟨q, hq⟩ | hold
      · rw [hs.results q r hq] at hisnew
        cases hisnew
      · rw [hold] at hisnew
        cases hisnew
    · rw [hdb.billing] at hcount
      omega
  | checked _ _ hdb =>
    refine ⟨fun _ h => (by cases h), fun _ => hdb ▸ .refl _, fun hcount => ?_⟩
    rw [hdb] at hcount
    omega
  | @granted p now subId tenantId plan result db _ hphase hdb hs' =>
    refine ⟨fun r hr hisnew => ?_, fun hno => absurd rfl (hno result), fun _ => .inl ⟨p, now, subId, rfl⟩⟩
    obtain rfl : result = r := Except.ok.inj (Option.some.inj hr)
    rw [hs.results p result (by rw [hphase]; rfl)] at hisnew
    cases hisnew
  | @committed p now subId pending hpending =>
    have hpassed := hs.passed pending hpending
    refine ⟨?_, ?_, fun _ => .inr ⟨pending, hpending, hpassed.below, hpassed.since⟩⟩
    · intro r hr hisnew
      rcases commit_cases H s pending now subId with ⟨e, h⟩ | ⟨r', hold, h⟩ |
        ⟨r', db₁, plan, billing, -, hnames, hfree, hadded, hplan, hbilling, h⟩
      · rw [h] at hr
        cases hr
      · rw [h] at hr
        cases hr
        rw [hold] at hisnew
        cases hisnew
      · rw [h] at hr ⊢
        cases hr
        exact ⟨pending, hpending, plan, now, subId, newAccount_of_added hs.db hfree hadded hplan hbilling, hnames⟩
    · intro hno
      rcases commit_cases H s pending now subId with ⟨e, h⟩ | ⟨r', -, h⟩ | ⟨r', db₁, plan, billing, -, -, -, -, -, -, h⟩
      · rw [h]
        exact .refl _
      · exact absurd (by rw [h]) (hno r')
      · exact absurd (by rw [h]) (hno r')

/-- A state in which no call is under way. -/
structure ProvisionState.Init (s : ProvisionState π) : Prop where
  db : s.db.Sound
  idle : ∀ p, s.phases p = .idle
  free : s.pending = none

/-- The calls as a transition system. -/
def provisioning (H : AccountHashes) : Lts (ProvisionState π) (EnsureAct π) where
  init := ProvisionState.Init
  step s act s' := act.Timed ∧ ∃ out, s.next H act = some (s', out)

omit [DecidableEq π] in
theorem inv_of_init (h : s.Init) : ProvisionInv s where
  db := h.db
  waiting := by
    rintro call (⟨p, hp⟩ | ⟨pending, hpending, -⟩)
    · rw [h.idle p] at hp
      cases hp
    · rw [h.free] at hpending
      cases hpending
  tenants := fun p tenantId ht => by rw [h.idle p] at ht; cases ht
  results := fun p r hr => by rw [h.idle p] at hr; cases hr
  passed := fun pending hpending => by rw [h.free] at hpending; cases hpending

omit [DecidableEq π] in
/-- An account of a call is of one user at most. -/
theorem unique_account (hdb : s.db.Sound) (call : EnsureCall) {a b : UserAccount} (ha : a ∈ s.db.users.rows.rows)
    (hb : b ∈ s.db.users.rows.rows) (hofA : call.isOf H a = true) (hofB : call.isOf H b = true) : a = b := by
  cases hchannel : call.channel with
  | telegram =>
    simp only [EnsureCall.isOf, hchannel, decide_eq_true_eq] at hofA hofB
    exact s.db.users.eq_of_entry ha hb hofA hofB
  | max =>
    simp only [EnsureCall.isOf, hchannel, decide_eq_true_eq] at hofA hofB
    exact hdb.maxUnique a ha b hb (by rw [hofA]; simp) (hofA.trans hofB.symm)

/-- **Provisioning.** In every run from a database in which an account of MAX is of one user at most: an account of either
channel is so; of a source, no more attempts than the limit have been recorded in any 24 hours; and every step keeps what is
asked of it. -/
theorem provisioning_runs {s₀ : ProvisionState π} {acts : List (EnsureAct π)} (hinit : s₀.Init)
    (hrun : (provisioning H).Run s₀ acts s) :
    (∀ call : EnsureCall, ∀ a ∈ s.db.users.rows.rows, ∀ b ∈ s.db.users.rows.rows,
      call.isOf H a = true → call.isOf H b = true → a = b) ∧
      RecordedSince s₀.db.attempts s.db.attempts ∧
        ∀ act s' out, s.next H act = some (s', out) → s.Kept H act s' out := by
  have hboth : ProvisionInv s ∧ RecordedSince s₀.db.attempts s.db.attempts := by
    induction hrun with
    | nil => exact ⟨inv_of_init hinit, [], by simp, fun _ _ _ => Nat.zero_le _⟩
    | snoc _ hstep ih =>
      obtain ⟨htimed, out, hnext⟩ := hstep
      refine ⟨provisionInv_step ih.1 htimed hnext, ?_⟩
      rcases attempts_step hnext with hsame | ⟨pending, hpending, hmore⟩
      · rw [hsame]
        exact ih.2
      · rw [hmore]
        exact recordedSince_append ih.2 (ih.1.passed pending hpending).recent (ih.1.passed pending hpending).window
  exact ⟨fun call a ha b hb => unique_account hboth.1.db call ha hb, hboth.2, fun act s' out h => kept_step hboth.1 h⟩

end Invariant

/-! ### A repair at the cap -/

/-- A tenant with the free subscription, and an older one without, which has a user. -/
def twoTenants : AccountDb where
  billing := grantedStore none
  tenants := ⟨[{ id := "tenant_1", approvedAt := some 0 }, { id := "tenant_2", approvedAt := some 0 }], by decide⟩
  workspaces := .empty
  users := ⟨⟨[{ id := "user_2", tenantId := "tenant_2", tgAccountHash := some "2" }], by decide⟩, by decide⟩
  assistants := .empty
  features := .empty
  attempts := []

/-- Hashes that leave the text. -/
def plainHashes : AccountHashes := ⟨id, id⟩

/-- One process and its state after some steps. -/
def twoTenantsAfter (acts : List (EnsureAct Unit)) : ProvisionState Unit :=
  acts.foldl (fun s act => ((s.next plainHashes act).map Prod.fst).getD s)
    { db := twoTenants, phases := fun _ => .idle, pending := none, repairs := 0 }

/-- The call of the older tenant's user, up to the grant. -/
def olderCall : List (EnsureAct Unit) := [.resolve () { channel := .telegram, externalId := "2" }, .serve (), .repair () 1]

theorem twoTenants_init : (twoTenantsAfter []).Init where
  db :=
    { userTenants := fun user huser => ⟨{ id := "tenant_2", approvedAt := some 0 }, by decide, by rw [List.mem_singleton.mp huser]⟩
      subTenants := fun sub hsub => ⟨{ id := "tenant_1", approvedAt := some 0 }, by decide, by rw [List.mem_singleton.mp hsub]; rfl⟩
      maxUnique := fun a ha b hb _ _ => (List.mem_singleton.mp ha).trans (List.mem_singleton.mp hb).symm }
  idle := fun _ => rfl
  free := rfl

theorem olderCall_run : (provisioning plainHashes).Run (twoTenantsAfter []) olderCall (twoTenantsAfter olderCall) := by
  refine ((Lts.Run.single (t := twoTenantsAfter (olderCall.take 1)) ?_).snoc (t := twoTenantsAfter (olderCall.take 1)) ?_).snoc
    (t := twoTenantsAfter (olderCall.take 2)) ?_
  all_goals exact ⟨trivial, none, rfl⟩

theorem provisioning_runs_older :
    (∀ call : EnsureCall, ∀ a ∈ (twoTenantsAfter olderCall).db.users.rows.rows,
      ∀ b ∈ (twoTenantsAfter olderCall).db.users.rows.rows, call.isOf plainHashes a = true → call.isOf plainHashes b = true → a = b) ∧
      RecordedSince (twoTenantsAfter []).db.attempts (twoTenantsAfter olderCall).db.attempts ∧
        ∀ act s' out, (twoTenantsAfter olderCall).next plainHashes act = some (s', out) →
          (twoTenantsAfter olderCall).Kept plainHashes act s' out :=
  provisioning_runs twoTenants_init olderCall_run

/-- The guard of a step has this cap. -/
def EnsureAct.Capped (cap : ℤ) : EnsureAct Unit → Prop
  | .check _ guard _ _ _ => guard.freeTierActiveMax = cap
  | .resolve _ _ | .serve _ | .repair _ _ | .grant _ _ _ | .commit _ _ _ => True

/-- The repair of the older tenant grants a second free subscription, where the cap is one. -/
theorem repair_over_cap : ¬ ∀ (H : AccountHashes) (cap : ℤ) (s₀ s s' : ProvisionState Unit) (acts : List (EnsureAct Unit))
    (act : EnsureAct Unit) (out : Option EnsureOutcome), s₀.Init → (provisioning H).Run s₀ acts s → (∀ a ∈ acts, a.Capped cap) →
      s.next H act = some (s', out) → s.db.billing.freeTierActiveCount < s'.db.billing.freeTierActiveCount →
        (s.db.billing.freeTierActiveCount : ℤ) < cap := by
  intro hall
  have hcapped : ∀ a ∈ olderCall, a.Capped 1 := by simp [olderCall, EnsureAct.Capped]
  have hnext : (twoTenantsAfter olderCall).next plainHashes (.grant () 2 "sub_2") =
      some (twoTenantsAfter (olderCall ++ [.grant () 2 "sub_2"]), some (.ok
        { accountId := some "2", tenantId := some "tenant_2", userId := some "user_2" })) := rfl
  have hlt := hall plainHashes 1 _ _ _ olderCall _ _ twoTenants_init olderCall_run hcapped hnext (by decide)
  exact absurd hlt (by decide)

end Sreda.Services
