import Sreda.Planner.ExecutorInvariants

/-!
# The loops of the executor

The loops over the layers, the batches and their steps make a run of the machine
(`executePlan_run`), in which every layer gets its results before the next. A loop that
skips some steps and keeps others is treated once (`skim_reaches`).
-/

namespace Sreda.Planner

open Sreda.Lib

variable {st st' : ExecState} {new todo later layer : List String} {batch : List Step}

section Loops

variable {env : ExecEnv} {ep : ExecutionPlan}

/-- From `st` the machine gets to `st'`, which has the results of the steps `new` added to
the log and sees the same outputs. -/
structure Reaches (env : ExecEnv) (ep : ExecutionPlan) (st : ExecState) (new : List String) (st' : ExecState) :
    Prop where
  run : ∃ phases, (machine env ep).Run st phases st'
  ids : st'.ids = st.ids ++ new
  stepOutputs : st'.stepOutputs = st.stepOutputs

theorem Reaches.refl (st : ExecState) : Reaches env ep st [] st := ⟨⟨[], .nil st⟩, by simp, rfl⟩

theorem Reaches.trans {st'' : ExecState} {new' : List String} (h : Reaches env ep st new st')
    (h' : Reaches env ep st' new' st'') : Reaches env ep st (new ++ new') st'' := by
  obtain ⟨phases, hrun⟩ := h.run
  obtain ⟨phases', hrun'⟩ := h'.run
  exact ⟨⟨_, hrun.trans hrun'⟩, by rw [h'.ids, h.ids, List.append_assoc], h'.stepOutputs.trans h.stepOutputs⟩

theorem Reaches.skip {stepId : String} (reason : String) (h : stepId ∉ st.ids) :
    Reaches env ep st [stepId] (recordSkip ep st stepId reason) :=
  ⟨⟨[.skip stepId reason], .single ⟨h, rfl⟩⟩, recordSkip_ids st stepId reason, rfl⟩

/-- The steps `todo` are still to get their results: none is in the log, and none comes twice. -/
structure Open (st : ExecState) (todo : List String) : Prop where
  nodup : todo.Nodup
  fresh : ∀ stepId ∈ todo, stepId ∉ st.ids

theorem Open.perm {todo' : List String} (h : Open st todo) (hp : todo.Perm todo') : Open st todo' :=
  ⟨hp.nodup_iff.1 h.nodup, fun stepId hm => h.fresh stepId (hp.mem_iff.2 hm)⟩

theorem Open.left (h : Open st (todo ++ later)) : Open st todo :=
  ⟨(List.nodup_append.1 h.nodup).1, fun stepId hm => h.fresh stepId (List.mem_append_left _ hm)⟩

/-- When some steps have got their results, the others are still to get theirs. -/
theorem Reaches.rest (hr : Reaches env ep st new st')
    (h : Open st (todo ++ later)) (hp : new.Perm todo) : Open st' later := by
  obtain ⟨-, hnd, hdisj⟩ := List.nodup_append.1 h.nodup
  refine ⟨hnd, fun stepId hm => ?_⟩
  rw [hr.ids, List.mem_append]
  rintro (hin | hin)
  · exact h.fresh stepId (List.mem_append_right _ hm) hin
  · exact hdisj _ (hp.mem_iff.1 hin) _ hm rfl

theorem drain_reaches (env : ExecEnv) (ep : ExecutionPlan) (reason : String) :
    ∀ (stepIds : List String) (st : ExecState),
    Open st stepIds → Reaches env ep st stepIds (drain ep reason stepIds st)
  | [], st, _ => .refl st
  | stepId :: stepIds, st, h => by
    have hskip : Reaches env ep st [stepId] (recordSkip ep st stepId reason) := .skip reason (h.fresh stepId (by simp))
    have hrest : Open (recordSkip ep st stepId reason) stepIds := hskip.rest h (.refl _)
    exact hskip.trans (drain_reaches env ep reason stepIds _ hrest)

/-- What skipping steps does not change, apart from the log. -/
structure SameFlags (st st' : ExecState) : Prop where
  enabled : st'.enabled = st.enabled
  abortReason : st'.abortReason = st.abortReason
  failedIntentGroups : st'.failedIntentGroups = st.failedIntentGroups
  newOutputs : st'.newOutputs = st.newOutputs

/-- A loop that skips some steps and keeps the others: what the kept ones satisfy, they still
satisfy in the end, since skipping does not change it. -/
theorem skim_reaches (env : ExecEnv) {α : Type} (f : ExecState × List Step → α → ExecState × List Step)
    (id : α → String) (keep : α → Option Step) (good : ExecState → Step → Prop) (xs : List α) (st : ExecState)
    (hf : ∀ new st' kept, Reaches env ep st new st' → SameFlags st st' → ∀ x ∈ xs,
      (∃ reason, f (st', kept) x = (recordSkip ep st' (id x) reason, kept)) ∨
      ∃ step, keep x = some step ∧ step.1 = id x ∧ good st' step ∧ f (st', kept) x = (st', kept ++ [step]))
    (hgood : ∀ {st st' step}, SameFlags st st' → good st step → good st' step)
    (hopen : Open st (xs.map id)) :
    ∃ new st' kept, xs.foldl f (st, []) = (st', kept) ∧ Reaches env ep st new st' ∧ SameFlags st st' ∧
      (new ++ kept.map Prod.fst).Perm (xs.map id) ∧ (kept.map Prod.fst).Sublist (xs.map id) ∧
      kept.Sublist (xs.filterMap keep) ∧ ∀ step ∈ kept, good st' step := by
  induction xs using List.reverseRecOn with
  | nil => exact ⟨[], st, [], rfl, .refl st, ⟨rfl, rfl, rfl, rfl⟩, by simp, by simp, by simp, by simp⟩
  | append_singleton xs x ih =>
    rw [List.map_append] at hopen
    obtain ⟨new, st', kept, hfold, hreach, hsame, hperm, hsub, hkept, hall⟩ :=
      ih (fun new st' kept hr hs y hy => hf new st' kept hr hs y (by simp [hy])) hopen.left
    have hx : id x ∉ st'.ids := by
      have hopen' : Open st (new ++ (kept.map Prod.fst ++ [id x])) := by
        rw [← List.append_assoc]
        exact hopen.perm (hperm.symm.append_right _)
      exact (hreach.rest hopen' (.refl _)).fresh _ (by simp)
    rw [List.foldl_append, hfold, List.foldl_cons, List.foldl_nil]
    rcases hf new st' kept hreach hsame x (by simp) with ⟨reason, heq⟩ | ⟨step, hkeep, hid, hstep, heq⟩
    · have hskip : SameFlags st' (recordSkip ep st' (id x) reason) := ⟨rfl, rfl, rfl, rfl⟩
      refine ⟨new ++ [id x], _, kept, heq, hreach.trans (.skip reason hx), ⟨hsame.enabled, hsame.abortReason,
        hsame.failedIntentGroups, hsame.newOutputs⟩, ?_, ?_, ?_, fun step hmem => hgood hskip (hall step hmem)⟩
      · have hswap : (new ++ [id x] ++ kept.map Prod.fst).Perm (new ++ kept.map Prod.fst ++ [id x]) := by
          have hcomm : ([id x] ++ kept.map Prod.fst).Perm (kept.map Prod.fst ++ [id x]) := List.perm_append_comm
          simpa using hcomm.append_left new
        exact hswap.trans (by simpa using hperm.append_right [id x])
      · simpa using hsub.trans (List.sublist_append_left _ _)
      · rw [List.filterMap_append]
        exact hkept.trans (List.sublist_append_left _ _)
    · refine ⟨new, st', kept ++ [step], heq, hreach, hsame, ?_, ?_, ?_, ?_⟩
      · simpa [hid] using hperm.append_right [id x]
      · simpa [hid] using hsub.append (List.Sublist.refl [id x])
      · simpa [hkeep] using hkept.append (List.Sublist.refl [step])
      · intro other hmem
        rcases List.mem_append.1 hmem with hmem | hmem
        · exact hall other hmem
        · rw [List.mem_singleton] at hmem
          exact hmem ▸ hstep

/-- A step that is not skipped is an enabled step of the plan. -/
theorem admitStep_cases (env : ExecEnv) (ep : ExecutionPlan) (st : ExecState) (kept : List Step) (stepId : String) :
    (∃ reason, admitStep env ep (st, kept) stepId = (recordSkip ep st stepId reason, kept)) ∨
      ∃ action, ep.plan.action? stepId = some action ∧ stepId ∈ st.enabled ∧ skipReason env ep st stepId = none ∧
        admitStep env ep (st, kept) stepId = (st, kept ++ [(stepId, action)]) := by
  unfold admitStep
  cases hr : skipReason env ep st stepId with
  | some reason => exact .inl ⟨reason, by simp⟩
  | none =>
    cases ha : ep.plan.action? stepId with
    | none => exact .inl ⟨"", by simp⟩
    | some action =>
      refine .inr ⟨action, rfl, ?_, rfl, by simp⟩
      by_contra hno
      simp [skipReason, ha, hno] at hr

/-- A step that is not skipped sees an output of every producer: its producers have results,
and with any other status than `ok` the step would have been skipped or the run stopped. -/
theorem supplied_of_skipReason (hlog : LogInv env ep st) (hab : st.abortReason = none)
    (hnew : st.newOutputs = []) {stepId : String} {action : Action} (ha : ep.plan.action? stepId = some action)
    (hids : ∀ dep ∈ producers env.py ep.plan stepId action, dep ∈ st.ids) (hr : skipReason env ep st stepId = none) :
    Supplied env.py ep.plan st.stepOutputs (stepId, action) := by
  intro dep hdep
  simp only [skipReason, ha] at hr
  split at hr
  · cases hr
  split at hr
  · cases hr
  rename_i hskipped
  split at hr
  · cases hr
  rename_i hfailed
  simp only [ne_eq, not_not] at hskipped hfailed
  obtain ⟨r, hmem, rfl⟩ := List.mem_map.1 (hids dep hdep)
  have hdedup : r.stepId ∈ (producers env.py ep.plan stepId action).dedup := List.mem_dedup.2 hdep
  have hnofail : ¬ Fails r := by
    intro hf
    obtain ⟨status, hstatus⟩ := hlog.failed r hmem hf
    obtain ⟨found, hfound⟩ : ∃ found, st.failedStepIds.lookup r.stepId = some found := by
      rw [← Option.isSome_iff_exists, List.lookup_isSome_iff]
      exact ⟨_, hstatus, by simp⟩
    have := List.filterMap_eq_nil_iff.1 hfailed r.stepId hdedup
    rw [hfound] at this
    cases this
  have hnostop := hlog.running hab r hmem
  have hok : r.status = .ok := by
    cases hst : r.status with
    | ok => rfl
    | error => exact absurd (.inl hst) hnofail
    | timeout => exact absurd (.inr hst) hnofail
    | unknownOutcome => exact absurd (.inl hst) hnostop
    | planGap => exact absurd (.inr (.inl hst)) hnostop
    | argViolation => exact absurd (.inr (.inr (.inl hst))) hnostop
    | skipped =>
      have hin : r.stepId ∈ (producers env.py ep.plan stepId action).dedup.filter (· ∈ st.skippedStepIds) :=
        List.mem_filter.2 ⟨hdedup, by simpa using hlog.skipped r hmem hst⟩
      rw [hskipped] at hin
      cases hin
  obtain ⟨output, hout⟩ := hlog.taken r hmem hok
  exact ⟨output, by simpa [hnew] using hout⟩

/-- The first part of a layer: some steps are skipped, the others are ready to be run. -/
theorem admitStep_reaches (env : ExecEnv) (ep : ExecutionPlan) (layer : List String) (st : ExecState)
    (hopen : Open st layer) (hreachable : (machine env ep).Reachable st) (hab : st.abortReason = none)
    (hnew : st.newOutputs = [])
    (hdeps : ∀ stepId ∈ layer, ∀ action, ep.plan.action? stepId = some action →
      ∀ dep ∈ producers env.py ep.plan stepId action, dep ∈ st.ids) :
    ∃ new st' runnable, layer.foldl (admitStep env ep) (st, []) = (st', runnable) ∧ Reaches env ep st new st' ∧
      SameFlags st st' ∧ (new ++ runnable.map Prod.fst).Perm layer ∧ (runnable.map Prod.fst).Sublist layer ∧
      ∀ step ∈ runnable, ep.plan.action? step.1 = some step.2 ∧ step.1 ∈ st'.enabled ∧
        Supplied env.py ep.plan st'.stepOutputs step := by
  obtain ⟨new, st', runnable, hfold, hreach, hsame, hperm, hsub, -, hall⟩ :=
    skim_reaches env (admitStep env ep) (fun stepId => stepId) (fun stepId => (ep.plan.action? stepId).map (stepId, ·))
      (fun st' step => ep.plan.action? step.1 = some step.2 ∧ step.1 ∈ st'.enabled ∧
        Supplied env.py ep.plan st.stepOutputs step)
      layer st
      (fun new st' kept hreach hsame stepId hmem => by
        rcases admitStep_cases env ep st' kept stepId with hskip | ⟨action, ha, hen, hr, heq⟩
        · exact .inl hskip
        · obtain ⟨phases, hrun⟩ := hreach.run
          have hlog := LogInv.reachable (hreachable.run hrun)
          have hsup := supplied_of_skipReason hlog (hsame.abortReason.trans hab) (hsame.newOutputs.trans hnew) ha
            (fun dep hdep => hreach.ids ▸ List.mem_append_left _ (hdeps stepId hmem action ha dep hdep)) hr
          exact .inr ⟨(stepId, action), by simp [ha], rfl, ⟨ha, hen, hreach.stepOutputs ▸ hsup⟩, heq⟩)
      (fun hsame hgood => ⟨hgood.1, by rw [hsame.enabled]; exact hgood.2.1, hgood.2.2⟩)
      (by simpa using hopen)
  rw [← hreach.stepOutputs] at hall
  exact ⟨new, st', runnable, hfold, hreach, hsame, by simpa using hperm, by simpa using hsub, hall⟩

/-- The second look at a batch: some steps are skipped, the groups of the others have not
failed. -/
theorem refilter_reaches (env : ExecEnv) (ep : ExecutionPlan) (batch : List Step) (st : ExecState)
    (hopen : Open st (batch.map Prod.fst)) :
    ∃ new st' kept, batch.foldl (refilter ep) (st, []) = (st', kept) ∧ Reaches env ep st new st' ∧
      SameFlags st st' ∧ (new ++ kept.map Prod.fst).Perm (batch.map Prod.fst) ∧ kept.Sublist batch ∧
      ∀ step ∈ kept, groupFailed ep st' step.2 = false := by
  obtain ⟨new, st', kept, hfold, hreach, hsame, hperm, -, hsub, hall⟩ :=
    skim_reaches env (refilter ep) Prod.fst some (fun st step => groupFailed ep st step.2 = false) batch st
      (fun _ st kept _ _ step _ => by
        unfold refilter
        cases hg : groupFailed ep st step.2 with
        | true => exact .inl ⟨"honest_partial_group_failed", rfl⟩
        | false => exact .inr ⟨step, rfl, rfl, hg, by simp⟩)
      (fun hsame hgood => by
        unfold groupFailed at hgood ⊢
        rwa [hsame.failedIntentGroups])
      hopen
  exact ⟨new, st', kept, hfold, hreach, hsame, hperm, by simpa using hsub, hall⟩

/-- The batches of a layer are the steps to run, in order, with at most one step of an
`honest_partial` group in each. -/
theorem buildLayerBatches_spec (ep : ExecutionPlan) (steps : List Step) :
    (buildLayerBatches ep steps).flatten = steps ∧
      ∀ batch ∈ buildLayerBatches ep steps, batch.Pairwise fun x y => ¬ SameGroup ep x.2 y.2 := by
  have hloop : ∀ steps : List Step, ∃ batches current seen,
      steps.foldl (batchStep ep) ([], [], []) = (batches, current, seen) ∧
      batches.flatten ++ current = steps ∧
      (∀ batch ∈ batches, batch.Pairwise fun x y => ¬ SameGroup ep x.2 y.2) ∧
      (current.Pairwise fun x y => ¬ SameGroup ep x.2 y.2) ∧
      ∀ step ∈ current, honest ep step.2 = true → step.2.intentGroup ∈ seen := by
    intro steps
    induction steps using List.reverseRecOn with
    | nil => exact ⟨[], [], [], rfl, by simp, by simp, by simp, by simp⟩
    | append_singleton steps step ih =>
      obtain ⟨batches, current, seen, hfold, hflat, hbatches, hcurrent, hseen⟩ := ih
      rw [List.foldl_append, hfold, List.foldl_cons, List.foldl_nil]
      by_cases hnew : honest ep step.2 ∧ step.2.intentGroup ∈ seen
      · refine ⟨batches ++ [current], [step], [step.2.intentGroup], by simp [batchStep, hnew], by simp [← hflat],
          ?_, by simp, by simp⟩
        intro batch hmem
        rcases List.mem_append.1 hmem with hmem | hmem
        · exact hbatches batch hmem
        · rw [List.mem_singleton] at hmem
          exact hmem ▸ hcurrent
      · refine ⟨batches, current ++ [step], if honest ep step.2 then step.2.intentGroup :: seen else seen,
          by simp [batchStep, hnew], by simp [← hflat], hbatches, ?_, ?_⟩
        · refine List.pairwise_append.2 ⟨hcurrent, by simp, fun x hx y hy hsame => hnew ?_⟩
          obtain rfl : y = step := by simpa using hy
          have hx' := hseen x hx hsame.1
          refine ⟨?_, hsame.2 ▸ hx'⟩
          simpa [honest, hsame.2] using hsame.1
        · intro x hx hhonest
          rcases List.mem_append.1 hx with hx | hx
          · have := hseen x hx hhonest
            split
            · exact List.mem_cons_of_mem _ this
            · exact this
          · obtain rfl : x = step := by simpa using hx
            simp [hhonest]
  obtain ⟨batches, current, seen, hfold, hflat, hbatches, hcurrent, -⟩ := hloop steps
  unfold buildLayerBatches
  rw [hfold]
  cases current with
  | nil => exact ⟨by simpa using hflat, by simpa using hbatches⟩
  | cons step current =>
    refine ⟨by simpa using hflat, fun batch hmem => ?_⟩
    rcases List.mem_append.1 (by simpa using hmem : batch ∈ batches ++ [step :: current]) with hmem | hmem
    · exact hbatches batch hmem
    · rw [List.mem_singleton] at hmem
      exact hmem ▸ hcurrent

/-- A part of a list without repetitions keeps the order of the list. -/
theorem sublist_pair {p l : List String} (hp : p.Sublist l) (hnd : l.Nodup) {a b : String}
    (hab : [a, b].Sublist l) (ha : a ∈ p) (hb : b ∈ p) : [a, b].Sublist p := by
  have hfilter : ∀ {p l : List String}, p.Sublist l → l.Nodup → l.filter (· ∈ p) = p := by
    intro p l hp
    induction hp with
    | slnil => intro _; rfl
    | @cons p l x hp ih =>
      intro hnd
      obtain ⟨hx, hnd⟩ := List.nodup_cons.1 hnd
      have hxp : x ∉ p := fun h => hx (hp.subset h)
      rw [List.filter_cons_of_neg (by simpa using hxp), ih hnd]
    | @cons_cons p l x hp ih =>
      intro hnd
      obtain ⟨hx, hnd⟩ := List.nodup_cons.1 hnd
      rw [List.filter_cons_of_pos (by simp)]
      congr 1
      refine Eq.trans (List.filter_congr fun y hy => ?_) (ih hnd)
      have hne : y ≠ x := fun h => hx (h ▸ hy)
      simp [hne]
  have hsub := hab.filter fun x => decide (x ∈ p)
  rwa [hfilter hp hnd, List.filter_cons_of_pos (by simpa using ha), List.filter_cons_of_pos (by simpa using hb),
    List.filter_nil] at hsub

/-- In a list without repetitions, what stands before an element of the front part lies in
the front part. -/
theorem mem_front {xs ys : List String} {a b : String} (hab : [a, b].Sublist (xs ++ ys)) (hb : b ∈ xs)
    (hnd : (xs ++ ys).Nodup) : a ∈ xs := by
  obtain ⟨l, k, heq, hl, hk⟩ := List.sublist_append_iff.1 hab
  have hnot : b ∉ k := fun hbk => (List.nodup_append.1 hnd).2.2 b hb b (hk.subset hbk) rfl
  rcases l with _ | ⟨c, l⟩
  · simp only [List.nil_append] at heq
    exact absurd (heq ▸ (by simp : b ∈ [a, b])) hnot
  · obtain ⟨rfl, -⟩ := List.cons.inj heq
    exact hl.subset (by simp)

/-- The layer of a step is the only one it is in. -/
theorem Before.sublist (hnd : ep.layers.flatten.Nodup) {a b : String} (h : Before ep a b)
    (hl : layer ∈ ep.layers) (hb : b ∈ layer) : [a, b].Sublist layer := by
  obtain ⟨layer', hl', hab⟩ := h
  by_cases heq : layer' = layer
  · exact heq ▸ hab
  · have hdisj := (List.nodup_flatten.1 hnd).2
    have : Std.Symm fun l k : List String => l.Disjoint k := ⟨fun _ _ h => h.symm⟩
    exact absurd hb (hdisj.forall hl' hl heq (hab.subset (by simp)))

/-- Where the loop over the batches of a layer stands: the steps of the layer are in the log
or in a batch that is still to come. -/
structure Pending (env : ExecEnv) (ep : ExecutionPlan) (layer : List String) (st : ExecState)
    (batches : List (List Step)) : Prop where
  layer_mem : layer ∈ ep.layers
  layer_nodup : layer.Nodup
  sub : (batches.flatten.map Prod.fst).Sublist layer
  fresh : ∀ step ∈ batches.flatten, step.1 ∉ st.ids
  rest : ∀ stepId ∈ layer, stepId ∈ st.ids ∨ stepId ∈ batches.flatten.map Prod.fst
  groups : ∀ batch ∈ batches, batch.Pairwise fun x y => ¬ SameGroup ep x.2 y.2
  action : ∀ step ∈ batches.flatten, ep.plan.action? step.1 = some step.2
  enabled : ∀ step ∈ batches.flatten, step.1 ∈ st.enabled
  supplied : ∀ step ∈ batches.flatten, Supplied env.py ep.plan st.stepOutputs step
  running : st.abortReason = none

theorem Pending.isOpen {later : List (List Step)}
    (h : Pending env ep layer st (batch :: later)) : Open st (batch.map Prod.fst ++ later.flatten.map Prod.fst) := by
  rw [← List.map_append, ← List.flatten_cons]
  refine ⟨h.sub.nodup h.layer_nodup, fun stepId hm => ?_⟩
  obtain ⟨step, hs, rfl⟩ := List.mem_map.1 hm
  exact h.fresh step hs

/-- The first batch goes into the log, the others are still pending. -/
theorem Pending.tail {later : List (List Step)}
    (h : Pending env ep layer st (batch :: later)) (hreach : Reaches env ep st new st')
    (hnew : new.Perm (batch.map Prod.fst)) (hen : st.enabled ⊆ st'.enabled) (hrun : st'.abortReason = none) :
    Pending env ep layer st' later where
  layer_mem := h.layer_mem
  layer_nodup := h.layer_nodup
  sub := by
    have hsub := h.sub
    rw [List.flatten_cons, List.map_append] at hsub
    exact (List.sublist_append_right _ _).trans hsub
  fresh step hs := (hreach.rest h.isOpen hnew).fresh step.1 (List.mem_map_of_mem hs)
  rest stepId hmem := by
    rw [hreach.ids, List.mem_append]
    rcases h.rest stepId hmem with hin | hin
    · exact .inl (.inl hin)
    · rw [List.flatten_cons, List.map_append, List.mem_append] at hin
      rcases hin with hin | hin
      · exact .inl (.inr (hnew.mem_iff.2 hin))
      · exact .inr hin
  groups b hb := h.groups b (by simp [hb])
  action step hs := h.action step (by simp [hs])
  enabled step hs := hen (h.enabled step (by simp [hs]))
  supplied step hs := hreach.stepOutputs ▸ h.supplied step (by simp [hs])
  running := hrun

/-- The batch that is left after the second look may be run. -/
theorem Pending.ready (hnd : ep.layers.flatten.Nodup)
    {kept : List Step} {later : List (List Step)} (h : Pending env ep layer st (batch :: later))
    {skipped : List String}
    (hreach : Reaches env ep st skipped st') (hsame : SameFlags st st')
    (hperm : (skipped ++ kept.map Prod.fst).Perm (batch.map Prod.fst)) (hsub : kept.Sublist batch)
    (hgroup : ∀ step ∈ kept, groupFailed ep st' step.2 = false) : Ready ep st' kept := by
  have hmem : ∀ step ∈ kept, step ∈ (batch :: later).flatten := fun step hs => by simp [hsub.subset hs]
  have hfront := h.isOpen.nodup
  have hkept : Open st' (kept.map Prod.fst) := hreach.rest (h.isOpen.left.perm hperm.symm) (.refl _)
  have hgroups : kept.Pairwise fun x y => ¬ SameGroup ep x.2 y.2 := (h.groups batch (by simp)).sublist hsub
  refine ⟨⟨fun step hs => h.action step (hmem step hs), hkept.nodup,
    fun step hs => hkept.fresh step.1 (List.mem_map_of_mem hs)⟩, hsame.abortReason.trans h.running, ?_, hgroup, hgroups, ?_⟩
  · intro step hs
    rw [hsame.enabled]
    exact h.enabled step (hmem step hs)
  · intro step hs a action hbefore ha hsg
    have hstep : step.1 ∈ batch.map Prod.fst := List.mem_map_of_mem (hsub.subset hs)
    have hlayer : [a, step.1].Sublist layer :=
      hbefore.sublist hnd h.layer_mem (h.sub.subset (List.mem_map_of_mem (hmem step hs)))
    rw [hreach.ids, List.mem_append]
    rcases h.rest a (hlayer.subset (by simp)) with hin | hin
    · exact .inl hin
    · -- `a` stands before the step, so it is in the same batch, and was skipped
      have hpair := sublist_pair h.sub h.layer_nodup hlayer hin (List.mem_map_of_mem (hmem step hs))
      rw [List.flatten_cons, List.map_append] at hpair
      have habatch : a ∈ batch.map Prod.fst := mem_front hpair hstep hfront
      rcases List.mem_append.1 (hperm.mem_iff.2 habatch) with hskip | hin
      · exact .inr hskip
      · obtain ⟨other, hother, rfl⟩ := List.mem_map.1 hin
        have hact : other.2 = action := by
          have := h.action other (hmem other hother)
          rw [ha] at this
          exact (Option.some.inj this).symm
        have hne : other ≠ step := by
          rintro rfl
          have := hlayer.nodup h.layer_nodup
          simp at this
        have : Std.Symm fun x y : Step => ¬ SameGroup ep x.2 y.2 := ⟨fun _ _ hno hsg => hno hsg.symm⟩
        exact absurd (hact ▸ hsg) (hgroups.forall hother hs hne)

/-- The barrier stops a batch: the ambiguous step is logged, the other steps of the batch and
the later steps are skipped. -/
theorem haltBatch_reaches (hfresh : Fresh ep st batch)
    (hsup : ∀ step ∈ batch, Supplied env.py ep.plan st.stepOutputs step) {step : Step} {path : RefPath} {count : ℕ}
    (hfound : batch.findSome? (ambiguityOf env st.stepOutputs) = some (step, path, count))
    (hopen : Open st (batch.map Prod.fst ++ later)) :
    ∃ new, Reaches env ep st new (drain ep "halted_arg_violation"
        ((batch.map Prod.fst).filter (· ≠ step.1) ++ later) (haltBatch st batch step path count)) ∧
      new.Perm (batch.map Prod.fst ++ later) := by
  obtain ⟨hstep, hambiguous⟩ : step ∈ batch ∧ ambiguityOf env st.stepOutputs step = some (step, path, count) := by
    obtain ⟨other, hother, hsome⟩ := List.exists_of_findSome?_eq_some hfound
    obtain ⟨rfl, -⟩ := ambiguityOf_some hsome
    exact ⟨hother, hsome⟩
  have hhalt : Reaches env ep st [step.1] (haltBatch st batch step path count) :=
    ⟨⟨[.halt batch step path count], .single ⟨hfresh, hstep, hambiguous, hsup, rfl⟩⟩, haltBatch_ids _ _ _ _ _, rfl⟩
  have hothers : (step.1 :: (batch.map Prod.fst).filter (· ≠ step.1)).Perm (batch.map Prod.fst) := by
    have herase := List.perm_cons_erase (List.mem_map_of_mem hstep : step.1 ∈ batch.map Prod.fst)
    rw [hfresh.nodup.erase_eq_filter] at herase
    have hfilter : (batch.map Prod.fst).filter (· ≠ step.1) = (batch.map Prod.fst).filter (· != step.1) :=
      List.filter_congr fun x _ => by rw [Bool.eq_iff_iff]; simp
    exact hfilter ▸ herase.symm
  have hperm : ([step.1] ++ ((batch.map Prod.fst).filter (· ≠ step.1) ++ later)).Perm
      (batch.map Prod.fst ++ later) := by
    simpa using hothers.append_right later
  have hdrain := drain_reaches env ep "halted_arg_violation" _ _ (hhalt.rest (hopen.perm hperm.symm) (.refl _))
  exact ⟨_, hhalt.trans hdrain, hperm⟩

/-- A batch without an ambiguous selector is run. -/
theorem takeBatch_reaches (hready : Ready ep st batch)
    (hsup : ∀ step ∈ batch, Supplied env.py ep.plan st.stepOutputs step)
    (hnone : batch.findSome? (ambiguityOf env st.stepOutputs) = none) {runs : List StepRun}
    (hruns : gather env st.stepOutputs batch = .ok runs) :
    Reaches env ep st (batch.map Prod.fst) (takeBatch env ep st batch runs) := by
  obtain ⟨-, -, hids, hout, -⟩ := takeBatch_frame ep (gather_ends hruns) st
  exact ⟨⟨[.batch batch], .single ⟨hready, List.findSome?_eq_none_iff.1 hnone, hsup, runs, hruns, rfl⟩⟩, hids, hout⟩

/-- The loop over the batches: every step of a batch gets its result, whether the batches
are run, stopped or skipped. -/
theorem runBatches_reaches (hnd : ep.layers.flatten.Nodup) :
    ∀ (batches : List (List Step)) {st st' : ExecState}, Pending env ep layer st batches →
      runBatches env ep st.stepOutputs batches st = .ok st' →
      ∃ new, Reaches env ep st new st' ∧ new.Perm (batches.flatten.map Prod.fst)
  | [], st, st', _, h => by
    obtain rfl : st = st' := by simpa [runBatches] using h
    exact ⟨[], .refl st, by simp⟩
  | batch :: later, st, st', hp, h => by
    obtain ⟨skipped, st₁, kept, hfold, hreach, hsame, hperm, hsub, hgroup⟩ :=
      refilter_reaches env ep batch st hp.isOpen.left
    rw [runBatches, hfold] at h
    simp only at h
    rw [List.flatten_cons, List.map_append]
    by_cases hempty : kept = []
    · -- the whole batch was skipped
      subst hempty
      rw [List.isEmpty_nil, if_pos rfl, ← hreach.stepOutputs] at h
      have hskipped : skipped.Perm (batch.map Prod.fst) := by simpa using hperm
      obtain ⟨new, hr, hnew⟩ := runBatches_reaches hnd later
        (hp.tail hreach hskipped (by rw [hsame.enabled]; exact List.Subset.refl _)
          (hsame.abortReason.trans hp.running)) h
      exact ⟨skipped ++ new, hreach.trans hr, hskipped.append hnew⟩
    rw [if_neg (by simpa using hempty)] at h
    have hready := hp.ready hnd hreach hsame hperm hsub hgroup
    have hsup : ∀ step ∈ kept, Supplied env.py ep.plan st₁.stepOutputs step := fun step hs =>
      hreach.stepOutputs ▸ hp.supplied step (by simp [hsub.subset hs])
    have hsplit : (skipped ++ (kept.map Prod.fst ++ later.flatten.map Prod.fst)).Perm
        (batch.map Prod.fst ++ later.flatten.map Prod.fst) := by
      rw [← List.append_assoc]
      exact hperm.append_right _
    have hopen : Open st₁ (kept.map Prod.fst ++ later.flatten.map Prod.fst) :=
      hreach.rest (hp.isOpen.perm hsplit.symm) (.refl _)
    rw [← hreach.stepOutputs] at h
    cases hamb : kept.findSome? (ambiguityOf env st₁.stepOutputs) with
    | some found =>
      obtain ⟨step, path, count⟩ := found
      simp only [hamb, Except.ok.injEq] at h
      obtain ⟨new, hhalt, hnew⟩ := haltBatch_reaches hready.toFresh hsup hamb hopen
      exact ⟨_, h ▸ hreach.trans hhalt, (hnew.append_left skipped).trans hsplit⟩
    | none =>
      simp only [hamb] at h
      obtain ⟨runs, hruns, h⟩ := Value.bind_ok.1 h
      obtain ⟨-, -, -, -, hen⟩ := takeBatch_frame ep (gather_ends hruns) st₁
      have hbatch := takeBatch_reaches hready hsup hamb hruns
      have hdone := hreach.trans hbatch
      cases hab : (takeBatch env ep st₁ kept runs).abortReason with
      | some reason =>
        simp only [hab, Except.ok.injEq] at h
        have hdrain := drain_reaches env ep ("halted_" ++ reason) _ _ (hbatch.rest hopen (.refl _))
        exact ⟨_, h ▸ hdone.trans hdrain, hperm.append_right _⟩
      | none =>
        simp only [hab] at h
        rw [hreach.stepOutputs, ← hdone.stepOutputs] at h
        obtain ⟨new, hr, hnew⟩ := runBatches_reaches hnd later
          (hp.tail hdone hperm (by rw [← hsame.enabled]; exact hen) hab) h
        exact ⟨_, hdone.trans hr, hperm.append hnew⟩

/-- The layers hold no step twice, and what a step needs lies in an earlier layer. -/
structure Layered (py : Py) (ep : ExecutionPlan) : Prop where
  nodup : ep.layers.flatten.Nodup
  deps : ∀ pre layer post, ep.layers = pre ++ layer :: post → ∀ stepId ∈ layer, ∀ action,
    ep.plan.action? stepId = some action → ∀ dep ∈ producers py ep.plan stepId action, dep ∈ pre.flatten

/-- Between two layers: the layers so far, `done`, have their results, layer after layer. -/
structure Between (env : ExecEnv) (ep : ExecutionPlan) (done : List (List String)) (st : ExecState) : Prop where
  reachable : (machine env ep).Reachable st
  newOutputs : st.newOutputs = []
  blocks : ∃ blocks, List.Forall₂ List.Perm blocks done ∧ st.ids = blocks.flatten

theorem Between.mem_ids {done : List (List String)} (h : Between env ep done st) (stepId : String) :
    stepId ∈ st.ids ↔ stepId ∈ done.flatten := by
  obtain ⟨blocks, hblocks, hids⟩ := h.blocks
  rw [hids, (List.Perm.flatten_congr hblocks).mem_iff]

theorem Between.snoc {done : List (List String)}
    {phases : List Phase} (h : Between env ep done st) (hrun : (machine env ep).Run st phases st')
    (hnew : st'.newOutputs = []) (hids : st'.ids = st.ids ++ new) (hperm : new.Perm layer) :
    Between env ep (done ++ [layer]) st' := by
  obtain ⟨blocks, hblocks, hst⟩ := h.blocks
  refine ⟨h.reachable.run hrun, hnew, blocks ++ [new], List.rel_append hblocks (.cons hperm .nil), ?_⟩
  rw [hids, hst]
  simp

theorem drain_newOutputs (reason : String) (stepIds : List String) (st : ExecState) :
    (drain ep reason stepIds st).newOutputs = st.newOutputs := by
  unfold drain
  induction stepIds generalizing st with
  | nil => rfl
  | cons stepId stepIds ih =>
    rw [List.foldl_cons, ih]
    rfl

/-- One layer: every step of it gets its result. -/
theorem runLayer_between (hep : Layered env.py ep) {pre post : List (List String)}
    (hl : ep.layers = pre ++ layer :: post) (hst : Between env ep pre st)
    (h : runLayer env ep st layer = .ok st') : Between env ep (pre ++ [layer]) st' := by
  have hopen : Open st layer := by
    have hnd := hep.nodup
    rw [hl, List.flatten_append, List.flatten_cons] at hnd
    refine ⟨(List.nodup_append.1 (List.nodup_append.1 hnd).2.1).1, fun stepId hs hin => ?_⟩
    rw [hst.mem_ids] at hin
    exact (List.nodup_append.1 hnd).2.2 stepId hin stepId (List.mem_append_left _ hs) rfl
  unfold runLayer at h
  cases hab : st.abortReason with
  | some reason =>
    simp only [hab, Except.ok.injEq] at h
    have hdrain := drain_reaches env ep ("halted_" ++ reason) layer st hopen
    obtain ⟨phases, hrun⟩ := hdrain.run
    rw [← h]
    exact hst.snoc hrun ((drain_newOutputs _ _ _).trans hst.newOutputs) hdrain.ids (.refl _)
  | none =>
    obtain ⟨new, st₁, runnable, hfold, hreach, hsame, hperm, hsub, hall⟩ :=
      admitStep_reaches env ep layer st hopen hst.reachable hab hst.newOutputs fun stepId hs action ha dep hdep =>
        (hst.mem_ids dep).2 (hep.deps pre layer post hl stepId hs action ha dep hdep)
    simp only [hab, hfold] at h
    by_cases hempty : runnable = []
    · subst hempty
      simp only [List.isEmpty_nil, if_true, Except.ok.injEq] at h
      obtain ⟨phases, hrun⟩ := hreach.run
      rw [← h]
      exact hst.snoc hrun (hsame.newOutputs.trans hst.newOutputs) hreach.ids (by simpa using hperm)
    · rw [if_neg (by simpa using hempty)] at h
      obtain ⟨st₂, hbatches, h⟩ := Value.bind_ok.1 h
      obtain rfl : mergeOutputs st₂ = st' := by simpa [pure, Except.pure] using h
      obtain ⟨hflat, hgroups⟩ := buildLayerBatches_spec ep runnable
      have hrest : Open st₁ (runnable.map Prod.fst) := hreach.rest (hopen.perm hperm.symm) (.refl _)
      have hpending : Pending env ep layer st₁ (buildLayerBatches ep runnable) := {
        layer_mem := by simp [hl]
        layer_nodup := hopen.nodup
        sub := hflat.symm ▸ hsub
        fresh := hflat.symm ▸ fun step hs => hrest.fresh step.1 (List.mem_map_of_mem hs)
        rest := fun stepId hmem => by
          rw [hflat, hreach.ids, List.mem_append]
          rcases List.mem_append.1 (hperm.mem_iff.2 hmem) with hin | hin
          · exact .inl (.inr hin)
          · exact .inr hin
        groups := hgroups
        action := hflat.symm ▸ fun step hs => (hall step hs).1
        enabled := hflat.symm ▸ fun step hs => (hall step hs).2.1
        supplied := hflat.symm ▸ fun step hs => (hall step hs).2.2
        running := hsame.abortReason.trans hab }
      obtain ⟨done, hr, hdone⟩ := runBatches_reaches hep.nodup _ hpending hbatches
      rw [hflat] at hdone
      obtain ⟨phases, hrun⟩ := (hreach.trans hr).run
      have hmerge : (machine env ep).step st₂ .merge (mergeOutputs st₂) := rfl
      exact hst.snoc (hrun.trans (.single hmerge)) rfl (hreach.trans hr).ids ((hdone.append_left new).trans hperm)

theorem runLayers_between (hep : Layered env.py ep) : ∀ (layers : List (List String)) {pre : List (List String)}
    {st st' : ExecState}, ep.layers = pre ++ layers → Between env ep pre st →
    layers.foldlM (runLayer env ep) st = .ok st' → Between env ep ep.layers st'
  | [], pre, st, st', hl, hst, h => by
    obtain rfl : st = st' := by simpa [pure, Except.pure] using h
    rw [hl, List.append_nil]
    exact hst
  | layer :: layers, pre, st, st', hl, hst, h => by
    rw [List.foldlM_cons] at h
    obtain ⟨st₁, hlayer, h⟩ := Value.bind_ok.1 h
    exact runLayers_between hep layers (by simpa using hl) (runLayer_between hep hl hst hlayer) h

/-- **A run of the executor is a run of the machine** that gives every layer its results
before the next layer. -/
theorem executePlan_run (hep : Layered env.py ep) {run : ExecRun} (h : executePlan env ep = .ok run) :
    ∃ st, (machine env ep).Reachable st ∧ run.events = st.events ∧ run.log.steps = st.results ∧
      run.log.outcome = summariseOutcome st.results st.aborted env.registry ∧
      ∃ blocks, List.Forall₂ List.Perm blocks ep.layers ∧ st.ids = blocks.flatten := by
  unfold executePlan at h
  obtain ⟨-, -, h⟩ := Value.bind_ok.1 h
  by_cases hempty : ep.layers = []
  · rw [if_pos (by simp [hempty])] at h
    obtain rfl := Except.ok.inj h
    exact ⟨initialState ep, ⟨[], .init rfl⟩, rfl, rfl, rfl, [], by rw [hempty]; exact .nil, rfl⟩
  · rw [if_neg (by simpa using hempty)] at h
    obtain ⟨st, hst, h⟩ := Value.bind_ok.1 h
    obtain rfl := Except.ok.inj h
    have hinit : Between env ep [] (initialState ep) := ⟨⟨[], .init rfl⟩, rfl, [], .nil, rfl⟩
    have hend := runLayers_between hep ep.layers rfl hinit hst
    exact ⟨st, hend.reachable, rfl, rfl, rfl, hend.blocks⟩

end Loops

end Sreda.Planner
