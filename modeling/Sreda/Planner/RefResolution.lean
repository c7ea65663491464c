import Sreda.Planner.ExecutorGuarantees
import Sreda.Planner.RefCheck

/-!
# References that resolve

What the reference checks of the validator are worth in a run. A checked reference has no
private segment (`refs_public`); where the check decides its path for the variant that the
producer returned, the path can be walked (`resolves_of_decides`); and in a run every step
that is started sees an output of every producer (`executePlan_refs_resolve`).
-/

namespace Sreda.Planner

open Sreda.Lib

/-! ### The syntax of references -/

variable {path : RefPath} {stepId tool : String} {action producer : Action} {output : OutputModel} {member : Model}
variable {dumped : Dict} {spec : ToolSpec} {snapshot : List (String × Dict)}

section Syntax

variable {py : Py}

/-- What `matchPath` reads: no brace and no dollar up to the brace that ends the reference. -/
theorem matchPath_split {cs seg : List Char} {path p : RefPath} {n : ℕ} (h : matchPath py cs seg path = some (p, n)) :
    ∃ body tail, cs = body ++ '}' :: tail ∧ '}' ∉ body ∧ '$' ∉ body ∧ n = body.length + 1 ∧
      matchPath py (body ++ ['}']) seg path = some (p, n) := by
  induction cs generalizing seg path p n with
  | nil => simp [matchPath] at h
  | cons c cs ih =>
    -- one more character in front of what the rest reads
    have hcons : ∀ (seg' : List Char) (path' : RefPath), c ≠ '}' → c ≠ '$' →
        (∀ rest, matchPath py (c :: rest) seg path = (matchPath py rest seg' path').map fun q => (q.1, q.2 + 1)) →
        ∃ body tail, c :: cs = body ++ '}' :: tail ∧ '}' ∉ body ∧ '$' ∉ body ∧ n = body.length + 1 ∧
          matchPath py (body ++ ['}']) seg path = some (p, n) := by
      intro seg' path' hbrace hdollar hstep
      rw [hstep] at h
      obtain ⟨⟨p', n'⟩, hrec, heq⟩ := Option.map_eq_some_iff.1 h
      obtain ⟨rfl, rfl⟩ := Prod.mk.inj heq
      obtain ⟨body, tail, rfl, hb, hd, hlen, hself⟩ := ih hrec
      refine ⟨c :: body, tail, rfl, ?_, ?_, by simp [hlen], ?_⟩
      · simp [hb, Ne.symm hbrace]
      · simp [hd, Ne.symm hdollar]
      · rw [List.cons_append, hstep, hself]
        rfl
    by_cases hseg : seg.isEmpty = true
    · by_cases hstart : startsSegment c = true
      · refine hcons [c] path ?_ ?_ fun rest => by simp [matchPath, hseg, hstart]
        · rintro rfl; revert hstart; decide
        · rintro rfl; revert hstart; decide
      · simp [matchPath, hseg, hstart] at h
    · by_cases hbrace : c = '}'
      · subst hbrace
        have hend : ∀ rest, matchPath py ('}' :: rest) seg path =
            some ((String.ofList seg.reverse :: path).reverse, 1) := fun rest => by simp [matchPath, hseg]
        rw [hend] at h
        obtain ⟨rfl, rfl⟩ := Prod.mk.inj (Option.some.inj h)
        exact ⟨[], cs, rfl, by simp, by simp, rfl, hend []⟩
      by_cases hdot : c = '.'
      · subst hdot
        exact hcons [] (String.ofList seg.reverse :: path) (by decide) (by decide) fun rest => by simp [matchPath, hseg]
      by_cases hword : py.isWord c = true
      · refine hcons (c :: seg) path hbrace ?_ fun rest => by simp [matchPath, hseg, hbrace, hdot, hword]
        rintro rfl
        rw [py.isWord_ascii '$' (by decide)] at hword
        revert hword
        decide
      · simp [matchPath, hseg, hbrace, hdot, hword] at h

theorem scan_ref : ∀ {k : ℕ} {cs : List Char}, .ref path ∈ scan py k cs →
    ∃ pre rest n, cs = pre ++ '$' :: '{' :: rest ∧ matchPath py rest [] [] = some (path, n)
  | _, [], h => by simp [scan] at h
  | k + 1, c :: cs, h => by
    rw [scan] at h
    obtain ⟨pre, rest, n, rfl, hm⟩ := scan_ref h
    exact ⟨c :: pre, rest, n, rfl, hm⟩
  | 0, c :: cs, h => by
    rw [scan] at h
    have hrest : ∀ {k : ℕ}, .ref path ∈ scan py k cs →
        ∃ pre rest n, c :: cs = pre ++ '$' :: '{' :: rest ∧ matchPath py rest [] [] = some (path, n) := by
      intro k h
      obtain ⟨pre, rest, n, rfl, hm⟩ := scan_ref h
      exact ⟨c :: pre, rest, n, rfl, hm⟩
    cases hmatch : matchRef py (c :: cs) with
    | none =>
      rw [hmatch] at h
      rcases List.mem_cons.1 h with h | h
      · cases h
      · exact hrest h
    | some found =>
      obtain ⟨p, n⟩ := found
      rw [hmatch] at h
      rcases List.mem_cons.1 h with h | h
      · obtain rfl := Token.ref.inj h
        unfold matchRef at hmatch
        split at hmatch
        · rename_i rest heq
          obtain ⟨⟨p', n'⟩, hm, heq'⟩ := Option.map_eq_some_iff.1 hmatch
          obtain ⟨rfl, -⟩ := Prod.mk.inj heq'
          exact ⟨[], rest, n', heq, hm⟩
        · cases hmatch
      · exact hrest h

/-- From inside a token, the text up to the brace ends it. -/
theorem broadRefTokens_read {body tail : List Char} (hbody : '}' ∉ body) (acc : List Char) :
    acc.reverse ++ body ∈ broadRefTokens (some acc) (body ++ '}' :: tail) := by
  induction body generalizing acc with
  | nil => simp [broadRefTokens]
  | cons c body ih =>
    rw [List.mem_cons, not_or] at hbody
    rw [List.cons_append, broadRefTokens, if_neg (Ne.symm hbody.1)]
    simpa using ih hbody.2 (c :: acc)

/-- What is between the braces is read as one token, or as the end of one that began before. -/
theorem broadRefTokens_mem {body : List Char} (hbody : '}' ∉ body) (tail : List Char) :
    ∀ (pre : List Char) (st : Option (List Char)),
    ∃ inner ∈ broadRefTokens st (pre ++ '$' :: '{' :: (body ++ '}' :: tail)),
      inner = body ∨ ∃ x, inner = x ++ '$' :: '{' :: body
  | [], none => ⟨body, by simpa [broadRefTokens] using broadRefTokens_read hbody [], .inl rfl⟩
  | [], some acc => by
    refine ⟨_, ?_, .inr ⟨acc.reverse, rfl⟩⟩
    simpa [broadRefTokens] using broadRefTokens_read hbody ('{' :: '$' :: acc)
  | c :: pre, some acc => by
    by_cases hc : c = '}'
    · obtain ⟨inner, hmem, hinner⟩ := broadRefTokens_mem hbody tail pre none
      exact ⟨inner, by simp [broadRefTokens, hc, hmem], hinner⟩
    · obtain ⟨inner, hmem, hinner⟩ := broadRefTokens_mem hbody tail pre (some (c :: acc))
      exact ⟨inner, by simpa [broadRefTokens, hc] using hmem, hinner⟩
  | [c], none => by
    obtain ⟨inner, hmem, hinner⟩ := broadRefTokens_mem hbody tail [] none
    exact ⟨inner, by simpa [broadRefTokens] using hmem, hinner⟩
  | c :: d :: pre, none => by
    by_cases hopen : c = '$' ∧ d = '{'
    · obtain ⟨rfl, rfl⟩ := hopen
      obtain ⟨inner, hmem, hinner⟩ := broadRefTokens_mem hbody tail pre (some [])
      exact ⟨inner, by simpa [broadRefTokens] using hmem, hinner⟩
    · obtain ⟨inner, hmem, hinner⟩ := broadRefTokens_mem hbody tail (d :: pre) none
      refine ⟨inner, ?_, hinner⟩
      rw [List.cons_append, List.cons_append, broadRefTokens]
      · exact hmem
      · rintro cs rfl heq
        obtain ⟨rfl, -⟩ := List.cons.inj heq
        exact hopen ⟨rfl, rfl⟩

/-- A strict path holds no dollar, so no other token begins inside it. -/
theorem not_dollar_of_strict {inner : List Char} (h : isStrictRefPath py inner = true) : '$' ∉ inner := by
  unfold isStrictRefPath at h
  split at h
  · rename_i path n hm
    obtain ⟨body, tail, heq, -, hdollar, hn, -⟩ := matchPath_split hm
    have hlen : n = inner.length + 1 := by
      simp only [Bool.and_eq_true, decide_eq_true_eq] at h
      exact h.1
    have hbody : inner.length = body.length := by omega
    exact (List.append_inj_left heq hbody) ▸ hdollar
  · cases h

/-- **A reference in checked arguments has no private segment.** -/
theorem refs_public (h : checkRefSyntax py stepId action = []) :
    ∀ path ∈ iterRefs py (.dict action.args), ∀ field ∈ path, isPrivate field = false := by
  intro path hpath
  obtain ⟨text, htext, href⟩ := List.mem_flatMap.1 hpath
  obtain ⟨token, htoken, hpath⟩ := List.mem_filterMap.1 href
  obtain rfl : token = .ref path := by
    cases token with
    | char c => cases hpath
    | ref p => exact congrArg Token.ref (Option.some.inj hpath)
  obtain ⟨pre, rest, n, hcs, hm⟩ := scan_ref htoken
  obtain ⟨body, tail, rfl, hbrace, -, hn, hself⟩ := matchPath_split hm
  obtain ⟨inner, hinner, hform⟩ := broadRefTokens_mem hbrace tail pre none
  -- the token around the reference is well formed, so it is the reference itself
  have hstrict : isStrictRefPath py inner = true := by
    by_contra hno
    have hmal : inner ∈ (Value.strings (.dict action.args)).flatMap fun text =>
        (broadRefTokens none text.toList).filter fun inner => !isStrictRefPath py inner :=
      List.mem_flatMap.2 ⟨text, htext, List.mem_filter.2 ⟨hcs ▸ hinner, by simpa using hno⟩⟩
    simp only [checkRefSyntax, iterMalformedRefTokens, List.map_eq_nil_iff] at h
    rw [h] at hmal
    cases hmal
  rcases hform with rfl | ⟨x, rfl⟩
  · simp only [isStrictRefPath, hself, Bool.and_eq_true, Bool.not_eq_true', List.any_eq_false] at hstrict
    exact fun field hf => by simpa using hstrict.2 field hf
  · exact absurd (by simp) (not_dollar_of_strict hstrict)

end Syntax

/-! ### Outputs that conform to a model -/

/-- The value is one that a field with this annotation is dumped as. -/
inductive Conforms (models : String → Model) : Annotation → Value → Prop where
  | any (v : Value) : Conforms models .any v
  | noneType : Conforms models .noneType .null
  | scalar (v : Value) : Conforms models (.scalar v.typeName) v
  | literal {values : List String} {s : String} : s ∈ values → Conforms models (.literal values) (.str s)
  | list {element : Annotation} {xs : List Value} : (∀ x ∈ xs, Conforms models element x) →
      Conforms models (.list element) (.list xs)
  | sequence (element : Annotation) (type : String) (id : ℕ) : Conforms models (.sequence element) (.object type id)
  | dict {value : Annotation} {kvs : Dict} : (∀ entry ∈ kvs, Conforms models value entry.2) →
      Conforms models (.dict value) (.dict kvs)
  /-- A model is dumped as a dict with all its fields. -/
  | model {name : String} {kvs : Dict} (value : String → Value) :
      (∀ field ann, (models name).lookup field = some ann → kvs.lookup field = some (value field)) →
      (∀ field ann, (models name).lookup field = some ann → Conforms models ann (value field)) →
      Conforms models (.model name) (.dict kvs)
  | union {arms : List Annotation} {arm : Annotation} {v : Value} : arm ∈ arms → Conforms models arm v →
      Conforms models (.union arms) v
  | annotated {inner : Annotation} {v : Value} : Conforms models inner v → Conforms models (.annotated inner) v

/-- The output is a dump of this variant. -/
def OutputModel.Returned (output : OutputModel) (member : Model) (dumped : Dict) : Prop :=
  member ∈ output.members ∧ ∀ field ann, member.lookup field = some ann →
    ∃ v, dumped.lookup field = some v ∧ Conforms output.models ann v

section Conformance

variable {models : String → Model}

/-- Outside of unions, stripping an annotation loses nothing. -/
theorem Conforms.strip : ∀ {ann : Annotation} {v : Value}, flattenUnionArms ann = none →
    Conforms models ann v →
    Conforms models (stripOptionalAndAnnotated ann) v ∧
      flattenUnionArms (stripOptionalAndAnnotated ann) = none
  | .annotated inner, v, hflat, h => by
    cases h with
    | annotated hinner =>
      have hflat' : flattenUnionArms inner = none := by simpa [flattenUnionArms] using hflat
      have hstrip := Conforms.strip hflat' hinner
      exact ⟨hstrip.1, hstrip.2⟩
  | .union arms, _, hflat, _ => by simp [flattenUnionArms] at hflat
  | .any, _, hflat, h => ⟨h, hflat⟩
  | .noneType, _, hflat, h => ⟨h, hflat⟩
  | .scalar _, _, hflat, h => ⟨h, hflat⟩
  | .literal _, _, hflat, h => ⟨h, hflat⟩
  | .list _, _, hflat, h => ⟨h, hflat⟩
  | .sequence _, _, hflat, h => ⟨h, hflat⟩
  | .dict _, _, hflat, h => ⟨h, hflat⟩
  | .model _, _, hflat, h => ⟨h, hflat⟩

end Conformance

/-! ### Paths that the check decides -/

/-- The check does not leave the path to the run: no field on it is declared as a union, and
nothing but models and lists is read further. -/
def decidesPath (models : String → Model) : List String → Annotation → Bool
  | [], _ => true
  | first :: rest, ann =>
    (flattenUnionArms ann).isNone &&
      if first = "only" then
        match peelListElementAnnotation (stripOptionalAndAnnotated ann) with
        | none => true
        | some element => decidesPath models rest element
      else match tryExtractBasemodel (stripOptionalAndAnnotated ann) with
        | some name =>
          match (models name).lookup first with
          | none => true
          | some ann => decidesPath models rest ann
        | none => isSequenceOrigin (stripOptionalAndAnnotated ann)

/-- The same for a path that begins at a variant of the output. -/
def decidesMemberPath (models : String → Model) (member : Model) : List String → Bool
  | [] => true
  | first :: rest =>
    first ≠ "only" &&
      match member.lookup first with
      | none => true
      | some ann => decidesPath models rest ann

section Walk

variable {py : Py} {models : String → Model}

/-- A field that the check allows, of a dict that has the fields of the model. -/
theorem field_of_status {model : Model} {kvs : Dict} {first : String} {rest : List String}
    (hfields : ∀ field ann, model.lookup field = some ann →
      ∃ v, kvs.lookup field = some v ∧ Conforms models ann v)
    (honly : first ≠ "only") (hpublic : isPrivate first = false)
    (hstatus : memberFieldStatus (annotationPathStatus models rest) model first ≠ some false) :
    ∃ ann v, model.lookup first = some ann ∧ kvs.lookup first = some v ∧
      Conforms models ann v ∧ annotationPathStatus models rest ann ≠ some false := by
  unfold memberFieldStatus at hstatus
  rw [if_neg honly, hpublic, if_neg Bool.false_ne_true] at hstatus
  cases hl : model.lookup first with
  | none => simp [hl] at hstatus
  | some ann =>
    obtain ⟨v, hv, hconf⟩ := hfields first ann hl
    exact ⟨ann, v, rfl, hv, hconf, by simpa [hl] using hstatus⟩

theorem walkFields_dict {kvs : Dict} {first : String} {v : Value} (hpublic : isPrivate first = false)
    (hv : kvs.lookup first = some v) (rest : List String) :
    walkFields py (.dict kvs) (first :: rest) = walkFields py v rest := by
  have hno : ¬ first.toList.head? = some '_' := by simpa [isPrivate] using hpublic
  simp [walkFields, hno, hv]

/-- **A path that the check decides and allows can be walked** up to its selector, and what is
found there again has a decided and allowed path ahead. -/
theorem walkFields_of_decides : ∀ {before after : List String} {ann : Annotation} {v : Value},
    Conforms models ann v → annotationPathStatus models (before ++ after) ann ≠ some false →
    decidesPath models (before ++ after) ann = true → (∀ field ∈ before, isPrivate field = false) →
    "only" ∉ before →
    ∃ ann' w, walkFields py v before = .ok w ∧ Conforms models ann' w ∧
      annotationPathStatus models after ann' ≠ some false ∧ decidesPath models after ann' = true
  | [], after, ann, v, hconf, hstatus, hdec, _, _ => ⟨ann, v, rfl, hconf, hstatus, hdec⟩
  | first :: before, after, ann, v, hconf, hstatus, hdec, hpublic, honly => by
    rw [List.mem_cons, not_or] at honly
    have hfirst : first ≠ "only" := Ne.symm honly.1
    rw [List.cons_append, decidesPath, Bool.and_eq_true, Option.isNone_iff_eq_none, if_neg hfirst] at hdec
    obtain ⟨hflat, hdec⟩ := hdec
    simp only [List.cons_append, annotationPathStatus, hflat, if_neg hfirst] at hstatus
    obtain ⟨hbare, hflat'⟩ := Conforms.strip hflat hconf
    cases hmodel : tryExtractBasemodel (stripOptionalAndAnnotated ann) with
    | none => simp_all
    | some name =>
      simp only [hmodel] at hdec hstatus
      -- the value is a dump of the model `name`
      have hdump : Conforms models (.model name) v := by
        have hstrip := (Conforms.strip hflat' hbare).1
        unfold tryExtractBasemodel at hmodel
        split at hmodel
        · rename_i name' heq
          rw [heq] at hstrip
          exact Option.some.inj hmodel ▸ hstrip
        · cases hmodel
      cases hdump with
      | model value hlookup hvalue =>
        obtain ⟨ann₁, w, hl, hw, hconf₁, hstatus₁⟩ := field_of_status
          (fun field ann hf => ⟨value field, hlookup field ann hf, hvalue field ann hf⟩)
          hfirst (hpublic first (by simp)) hstatus
        simp only [hl] at hdec
        rw [walkFields_dict (hpublic first (by simp)) hw]
        exact walkFields_of_decides hconf₁ hstatus₁ hdec (fun field hf => hpublic field (by simp [hf])) honly.2

/-- The same for a path that begins at the output of a step. -/
theorem walkFields_of_decidesMember
    (hret : output.Returned member dumped) {before after : List String} (hne : before ≠ [])
    (hstatus : memberPathStatus output.models member (before ++ after) ≠ some false)
    (hdec : decidesMemberPath output.models member (before ++ after) = true)
    (hpublic : ∀ field ∈ before, isPrivate field = false) (honly : "only" ∉ before) :
    ∃ ann w, walkFields py (.dict dumped) before = .ok w ∧ Conforms output.models ann w ∧
      annotationPathStatus output.models after ann ≠ some false ∧
      decidesPath output.models after ann = true := by
  cases before with
  | nil => exact absurd rfl hne
  | cons first before =>
    rw [List.mem_cons, not_or] at honly
    simp only [List.cons_append, memberPathStatus] at hstatus
    simp only [List.cons_append, decidesMemberPath, Bool.and_eq_true] at hdec
    obtain ⟨ann, v, hl, hv, hconf, hstatus'⟩ := field_of_status hret.2 (Ne.symm honly.1)
      (hpublic first (by simp)) hstatus
    simp only [hl] at hdec
    rw [walkFields_dict (hpublic first (by simp)) hv]
    exact walkFields_of_decides hconf hstatus' hdec.2 (fun field hf => hpublic field (by simp [hf])) honly.2

/-- Without a selector, such a path can be walked to its end. -/
theorem walkFields_total {path : List String} {ann : Annotation} {v : Value} (hconf : Conforms models ann v)
    (hstatus : annotationPathStatus models path ann ≠ some false) (hdec : decidesPath models path ann = true)
    (hpublic : ∀ field ∈ path, isPrivate field = false) (honly : "only" ∉ path) :
    ∃ w, walkFields py v path = .ok w := by
  rw [← List.append_nil path] at hstatus hdec
  obtain ⟨-, w, hw, -⟩ := walkFields_of_decides hconf hstatus hdec hpublic honly
  exact ⟨w, hw⟩

theorem walkFields_total_of_returned (hret : output.Returned member dumped) {path : List String}
    (hstatus : memberPathStatus output.models member path ≠ some false)
    (hdec : decidesMemberPath output.models member path = true)
    (hpublic : ∀ field ∈ path, isPrivate field = false) (honly : "only" ∉ path) :
    ∃ w, walkFields py (.dict dumped) path = .ok w := by
  by_cases hne : path = []
  · exact ⟨.dict dumped, by rw [hne]; rfl⟩
  rw [← List.append_nil path] at hstatus hdec
  obtain ⟨-, w, hw, -⟩ := walkFields_of_decidesMember hret hne hstatus hdec hpublic honly
  exact ⟨w, hw⟩

/-- At a selector, an allowed and decided path has a list ahead. -/
theorem list_of_only {ann : Annotation} {v : Value} {rest : List String} (hconf : Conforms models ann v)
    (hstatus : annotationPathStatus models ("only" :: rest) ann ≠ some false)
    (hdec : decidesPath models ("only" :: rest) ann = true) :
    ∃ element xs, v = .list xs ∧ (∀ x ∈ xs, Conforms models element x) ∧
      annotationPathStatus models rest element ≠ some false ∧ decidesPath models rest element = true := by
  rw [decidesPath, Bool.and_eq_true, Option.isNone_iff_eq_none, if_pos rfl] at hdec
  obtain ⟨hflat, hdec⟩ := hdec
  simp only [annotationPathStatus, hflat, if_true] at hstatus
  obtain ⟨hbare, hflat'⟩ := Conforms.strip hflat hconf
  have hstrip := (Conforms.strip hflat' hbare).1
  cases hpeel : peelListElementAnnotation (stripOptionalAndAnnotated ann) with
  | none => simp [hpeel] at hstatus
  | some element =>
    simp only [hpeel] at hstatus hdec
    unfold peelListElementAnnotation at hpeel
    split at hpeel
    · rename_i element' heq
      obtain rfl := Option.some.inj hpeel
      rw [heq] at hstrip
      cases hstrip with
      | list hall => exact ⟨_, _, rfl, hall, hstatus, hdec⟩
    · cases hpeel

end Walk

/-! ### References that the check decides -/

/-- The reference checks decide the reference `path` of the step for the output `dumped` of
its producer. -/
structure Decides (py : Py) (plan : Plan) (output : OutputModel) (stepId : String) (path : RefPath) (dumped : Dict) :
    Prop where
  /-- The variant that was returned was looked at: the producer goes on with the step under a
  status of it, or there is no other variant and no status to narrow the check to. -/
  routed : ∀ member, output.Returned member dumped →
    (∃ status ∈ reachableProducerStatuses plan (extractStepId path) stepId, status ∈ member.statuses) ∨
      (reachableProducerStatuses plan (extractStepId path) stepId = [] ∧ output.members = [member])
  /-- Its answer for this variant was not put off. -/
  plain : ∀ member, output.Returned member dumped → decidesMemberPath output.models member (path.drop 1) = true
  /-- A selector comes once, and the list that it reads has one element. -/
  only : ∀ before after, path.drop 1 = before ++ "only" :: after → "only" ∉ before → "only" ∉ after ∧
    ∀ xs, walkFields py (.dict dumped) before = .ok (.list xs) → xs.length = 1

section Decided

variable {py : Py} {registry : Registry} {plan : Plan}

theorem combineStatuses_singleton {status : Option Bool} (h : combineStatuses [status] ≠ some false) :
    status ≠ some false := by
  rintro rfl
  exact h (by decide)

/-- Narrowed to a status of a variant, the check looks at this variant alone. -/
theorem filterMembersByStatus_eq {status : String} (hmem : member ∈ output.members) (hs : status ∈ member.statuses) :
    filterMembersByStatus output.members status = [member] := by
  have hpair : (filterMembersByStatus output.members status).Pairwise fun _ _ => False := by
    refine (output.discriminated.filter _).imp_of_mem fun {m k} hm hk hdis => ?_
    have hm' : status ∈ m.statuses := by simpa using (List.mem_filter.1 hm).2
    have hk' : status ∈ k.statuses := by simpa using (List.mem_filter.1 hk).2
    exact hdis status hm' hk'
  have hin : member ∈ filterMembersByStatus output.members status := List.mem_filter.2 ⟨hmem, by simpa using hs⟩
  match hf : filterMembersByStatus output.members status with
  | [] => rw [hf] at hin; cases hin
  | [m] =>
    rw [hf, List.mem_singleton] at hin
    rw [hin]
  | m :: k :: rest =>
    rw [hf] at hpair
    exact ((List.pairwise_cons.1 hpair).1 k (by simp)).elim

theorem refFieldExistsInOutput_ne {narrow : Option String} (hprod : plan.action? (extractStepId path) = some producer)
    (hspec : registry producer.tool = some spec) (hne : path.drop 1 ≠ [])
    (h : maybeCheckFieldPath py registry plan path stepId tool narrow = []) :
    refFieldExistsInOutput spec.outputModel (path.drop 1) narrow ≠ some false := by
  intro hfalse
  unfold maybeCheckFieldPath at h
  simp only [hprod, hspec] at h
  cases hsegs : path.drop 1 with
  | nil => exact hne hsegs
  | cons first rest =>
    rw [hsegs] at hfalse
    simp only [hsegs, hfalse, if_true] at h
    cases h

/-- Without a violation, the path is not rejected in the variant that was returned. -/
theorem memberPathStatus_ne (hprod : plan.action? (extractStepId path) = some producer)
    (hspec : registry producer.tool = some spec) (hcheck : checkRef py registry plan stepId tool path = [])
    (hret : spec.outputModel.Returned member dumped) (hdec : Decides py plan spec.outputModel stepId path dumped)
    (hpublic : ∀ field ∈ path.drop 1, isPrivate field = false) :
    memberPathStatus spec.outputModel.models member (path.drop 1) ≠ some false := by
  have hin : extractStepId path ∈ plan.stepIds := Plan.action?_isSome.1 ⟨producer, hprod⟩
  cases hsegs : path.drop 1 with
  | nil => simp [memberPathStatus]
  | cons first rest =>
    have hfirst : isPrivate first = false := hpublic first (by simp [hsegs])
    have hnonempty : spec.outputModel.members.isEmpty = false := by
      cases hm : spec.outputModel.members with
      | nil => rw [OutputModel.Returned, hm] at hret; cases hret.1
      | cons m ms => rfl
    unfold checkRef at hcheck
    simp only [hin, not_true_eq_false, if_false] at hcheck
    split at hcheck
    · cases hcheck
    · rcases hdec.routed member hret with ⟨status, hreach, hstatus⟩ | ⟨hreach, hsingle⟩
      · -- the check was made for the status, for which there is no other variant
        have hsorted : status ∈ sorted (reachableProducerStatuses plan (extractStepId path) stepId).dedup :=
          (sorted_perm _).mem_iff.2 (List.mem_dedup.2 hreach)
        have hnil : maybeCheckFieldPath py registry plan path stepId tool (some status) = [] := by
          split at hcheck
          · rename_i heq
            rw [heq] at hsorted
            cases hsorted
          · exact List.flatMap_eq_nil_iff.1 hcheck status hsorted
        have hexists := refFieldExistsInOutput_ne hprod hspec (by simp [hsegs]) hnil
        rw [hsegs, refFieldExistsInOutput, hnonempty] at hexists
        simp only [Bool.false_eq_true, if_false, filterMembersByStatus_eq hret.1 hstatus, List.isEmpty_cons, hfirst,
          List.map_cons, List.map_nil] at hexists
        exact combineStatuses_singleton hexists
      · have hnil : maybeCheckFieldPath py registry plan path stepId tool none = [] := by
          rw [hreach] at hcheck
          exact hcheck
        have hexists := refFieldExistsInOutput_ne hprod hspec (by simp [hsegs]) hnil
        rw [hsegs, refFieldExistsInOutput, hnonempty] at hexists
        simp only [Bool.false_eq_true, if_false, hsingle, List.isEmpty_cons, hfirst, List.map_cons,
          List.map_nil] at hexists
        exact combineStatuses_singleton hexists

/-- **A checked reference that the check decides resolves.** -/
theorem resolves_of_decides (hprod : plan.action? (extractStepId path) = some producer)
    (hspec : registry producer.tool = some spec) (hcheck : checkRef py registry plan stepId tool path = [])
    (hret : ∃ member, spec.outputModel.Returned member dumped)
    (hdec : Decides py plan spec.outputModel stepId path dumped)
    (hpublic : ∀ field ∈ path, isPrivate field = false)
    (hsnapshot : snapshot.lookup (extractStepId path) = some dumped) :
    ∃ v, resolveAnyRef py snapshot path = .ok v := by
  obtain ⟨member, hret⟩ := hret
  have hkey : isActionKey (extractStepId path) = true :=
    plan.keys_format _ (Plan.action?_isSome.1 ⟨producer, hprod⟩)
  cases path with
  | nil => exact absurd hkey (by decide)
  | cons target segs =>
    simp only [extractStepId, List.headD_cons] at hkey hsnapshot
    have htarget : "only" ≠ target := by
      rintro rfl
      revert hkey
      decide
    have hpublic' : ∀ field ∈ segs, isPrivate field = false := fun field hf => hpublic field (by simp [hf])
    have hstatus := memberPathStatus_ne hprod hspec hcheck hret hdec (by simpa using hpublic')
    have hplain := hdec.plain member hret
    simp only [List.drop_succ_cons, List.drop_zero] at hstatus hplain
    by_cases honly : "only" ∈ segs
    · obtain ⟨before, after, rfl, hbefore⟩ := List.eq_append_cons_of_mem honly
      obtain ⟨hafter, hone⟩ := hdec.only before after rfl hbefore
      cases before with
      | nil => simp [decidesMemberPath] at hplain
      | cons first before =>
        obtain ⟨ann, w, (hw : walkFields py _ _ = _), hconf, hst, hd⟩ := walkFields_of_decidesMember hret (by simp)
          hstatus hplain (fun field hf => hpublic' field (List.mem_append_left _ hf)) hbefore
        obtain ⟨element, xs, rfl, hall, hst', hd'⟩ := list_of_only hconf hst hd
        obtain ⟨x, rfl⟩ := List.length_eq_one_iff.1 (hone xs hw)
        obtain ⟨v, hv⟩ : ∃ v, walkFields py x after = .ok v :=
          walkFields_total (hall x (by simp)) hst' hd' (fun field hf => hpublic' field (by simp [hf])) hafter
        exact ⟨v, resolveAnyRef_only (List.not_mem_cons_of_ne_of_not_mem htarget hbefore) hsnapshot hw hv⟩
    · obtain ⟨v, hv⟩ : ∃ v, walkFields py (.dict dumped) segs = .ok v :=
        walkFields_total_of_returned hret hstatus hplain hpublic' honly
      exact ⟨v, resolveAnyRef_fields (List.not_mem_cons_of_ne_of_not_mem htarget honly) hsnapshot hv⟩

end Decided

/-! ### References in a run -/

section Run

variable {plan : Plan} {ep : ExecutionPlan}

/-- A reference without a violation is to a producer of the step. -/
theorem producers_of_checkRef {py : Py} {registry : Registry}
    (hpath : path ∈ iterRefs py (.dict action.args)) (h : checkRef py registry plan stepId tool path = []) :
    extractStepId path ∈ producers py plan stepId action := by
  unfold checkRef at h
  simp only at h
  split at h
  · cases h
  rename_i hin
  split at h
  · cases h
  rename_i hself
  refine List.mem_filter.2 ⟨List.mem_append_left _ (List.mem_map_of_mem hpath), ?_⟩
  simpa using ⟨hself, by simpa using hin⟩

/-- A step whose references resolve is refused only for what its input model says. -/
theorem resolveArgs_refused {env : ExecEnv} {summary : String}
    (hrefs : ∀ path ∈ iterRefs env.py (.dict action.args), ∃ v, resolveAnyRef env.py snapshot path = .ok v)
    (h : resolveArgs env action spec snapshot = .error summary) :
    ∃ resolved, (∃ errors, spec.validateArgs resolved = .error (.validation errors) ∧
        summary = "execute_time_arg_violation: " ++ errors) ∨
      ∃ exc, spec.validateArgs resolved = .error (.internal exc) ∧
        summary = "arg_validation_internal: " ++ exc.type ++ ": " ++ exc.message := by
  obtain ⟨selected, resolved, hsel, hres⟩ := refs_resolved hrefs
  simp only [resolveArgs, hsel, hres] at h
  refine ⟨unwrapResolved resolved, ?_⟩
  cases hargs : spec.validateArgs (unwrapResolved resolved) with
  | ok args => simp [hargs] at h
  | error e =>
    cases e with
    | validation errors =>
      rw [hargs] at h
      exact .inl ⟨errors, rfl, (Except.error.inj h).symm⟩
    | internal exc =>
      rw [hargs] at h
      exact .inr ⟨exc, rfl, (Except.error.inj h).symm⟩

/-- The input model refused the resolved arguments of the step. -/
def RefusedByModel (env : ExecEnv) (action : Action) (r : StepResult) : Prop :=
  ∃ spec resolved, env.registry action.tool = some spec ∧
    ((∃ errors, spec.validateArgs resolved = .error (.validation errors) ∧
        r.errorSummary = some ("execute_time_arg_violation: " ++ errors)) ∨
      ∃ exc, spec.validateArgs resolved = .error (.internal exc) ∧
        r.errorSummary = some ("arg_validation_internal: " ++ exc.type ++ ": " ++ exc.message))

/-- What a started step finds under a reference: an `ok` output of the producer, in which the
reference resolves if the reference checks decide it. -/
def RefSupplied (env : ExecEnv) (plan : Plan) (log : List StepResult) (snapshot : List (String × Dict))
    (stepId : String) (path : RefPath) : Prop :=
  ∃ r ∈ log, ∃ spec, env.registry r.tool = some spec ∧ r.stepId = extractStepId path ∧ r.status = .ok ∧
    snapshot.lookup (extractStepId path) = some (r.parsedOutput.getD []) ∧
    (Decides env.py plan spec.outputModel stepId path (r.parsedOutput.getD []) →
      ∃ v, resolveAnyRef env.py snapshot path = .ok v)

/-- The reference checks decide all references of the step, for the outputs in the log. -/
def DecidesAll (env : ExecEnv) (plan : Plan) (log : List StepResult) (stepId : String) (action : Action) : Prop :=
  ∀ path ∈ iterRefs env.py (.dict action.args), ∀ r ∈ log, r.stepId = extractStepId path → r.status = .ok →
    ∀ spec, env.registry r.tool = some spec →
      Decides env.py plan spec.outputModel stepId path (r.parsedOutput.getD [])

/-- A snapshot that has the outputs of all producers supplies every checked reference. -/
theorem SnapshotOk.refSupplied {env : ExecEnv} (h : compile env.py env.registry plan = .ok ep)
    (hchecks : refViolations env.py env.registry plan = []) {st : ExecState} (hlog : LogInv env ep st)
    (hconf : ∀ r ∈ st.results, r.status = .ok → ∀ spec, env.registry r.tool = some spec →
      ∃ member, spec.outputModel.Returned member (r.parsedOutput.getD []))
    {stepIds : List String}
    (hsnap : SnapshotOk env.py plan st.results stepIds snapshot) (hstep : stepId ∈ stepIds)
    (haction : plan.action? stepId = some action)
    (hpath : path ∈ iterRefs env.py (.dict action.args)) : RefSupplied env plan st.results snapshot stepId path := by
  obtain ⟨hknown, hplan, -⟩ := compile_layers h
  -- no check of the step has anything to say
  have hmem := Plan.mem_of_action? haction
  obtain ⟨hostSpec, hhost⟩ := hknown _ hmem
  have hstepchecks : checkRefSyntax env.py stepId action = [] ∧
      checkRefs env.py env.registry plan stepId action = [] := by
    simp only [refViolations, List.append_eq_nil_iff] at hchecks
    have hnil := List.flatMap_eq_nil_iff.1 hchecks.1.1 _ hmem
    simp only [hhost, List.append_eq_nil_iff] at hnil
    exact ⟨hnil.1.1, hnil.2⟩
  have hcheck := List.flatMap_eq_nil_iff.1 hstepchecks.2 path hpath
  -- the output of the producer is in the snapshot
  obtain ⟨output, hout⟩ := hsnap.supplied stepId hstep action haction _ (producers_of_checkRef hpath hcheck)
  obtain ⟨dumped, hlookup⟩ : ∃ dumped, snapshot.lookup (extractStepId path) = some dumped := by
    rw [← Option.isSome_iff_exists, List.lookup_isSome_iff]
    exact ⟨_, hout, by simp⟩
  obtain ⟨pre, post, heq, -⟩ := List.lookup_eq_some_iff.1 hlookup
  obtain ⟨r, hr, hid, hok, hdumped⟩ := hsnap.outputs (extractStepId path, dumped) (by simp [heq])
  obtain ⟨producer, hprod, htool⟩ := hlog.tools r hr (by simp [hok])
  rw [hplan, hid] at hprod
  obtain ⟨spec, hspec⟩ := hknown _ (Plan.mem_of_action? hprod)
  have hspec' : env.registry r.tool = some spec := htool ▸ hspec
  simp only at hid hdumped
  subst hdumped
  refine ⟨r, hr, spec, hspec', hid, hok, hlookup, fun hdec => ?_⟩
  exact resolves_of_decides hprod hspec hcheck (hconf r hr hok spec hspec') hdec
    (refs_public hstepchecks.1 path hpath) hlookup

/-- **In a run of a checked plan every step that is started sees the `ok` output of every step
that it refers to, and a reference that the check decides resolves.** A step of which the
checks decide all references is refused by its input model only. -/
theorem executePlan_refs_resolve (env : ExecEnv) (h : compile env.py env.registry plan = .ok ep)
    (hchecks : refViolations env.py env.registry plan = []) {run : ExecRun} (hrun : executePlan env ep = .ok run)
    (hconf : ∀ r ∈ run.log.steps, r.status = .ok → ∀ spec, env.registry r.tool = some spec →
      ∃ member, spec.outputModel.Returned member (r.parsedOutput.getD [])) :
    (∀ e ∈ run.events, ∀ stepIds snapshot, e.started? = some (stepIds, snapshot) → ∀ stepId ∈ stepIds,
      ∀ action, plan.action? stepId = some action → ∀ path ∈ iterRefs env.py (.dict action.args),
        RefSupplied env plan run.log.steps snapshot stepId path) ∧
    ∀ r ∈ run.log.steps, r.status = .argViolation → ∀ action, plan.action? r.stepId = some action →
      DecidesAll env plan run.log.steps r.stepId action → RefusedByModel env action r := by
  obtain ⟨-, hplan, -⟩ := compile_layers h
  obtain ⟨st, hreach, hev, hres, -⟩ := executePlan_run (compile_layered h) hrun
  have htrace := TraceInv.reachable (compile_layered h).nodup hreach
  have hlog := LogInv.reachable hreach
  rw [hev, hres]
  rw [hres] at hconf
  have hsupplied : ∀ e ∈ st.events, ∀ stepIds snapshot, e.started? = some (stepIds, snapshot) → ∀ stepId ∈ stepIds,
      ∀ action, plan.action? stepId = some action → ∀ path ∈ iterRefs env.py (.dict action.args),
        RefSupplied env plan st.results snapshot stepId path := by
    intro e he stepIds snapshot hstarted stepId hstep action haction path hpath
    have hsnap := htrace.snapshots e he stepIds snapshot hstarted
    rw [hplan] at hsnap
    exact hsnap.refSupplied h hchecks hlog hconf hstep haction hpath
  refine ⟨hsupplied, fun r hr hst action haction hdec => ?_⟩
  obtain ⟨e, he, stepIds, snapshot, action', hstarted, hstep, haction', hwhy⟩ :=
    RefusalInv.reachable hreach r hr hst
  rw [hplan, haction] at haction'
  obtain rfl := Option.some.inj haction'
  have hrefs : ∀ path ∈ iterRefs env.py (.dict action.args), ∃ v, resolveAnyRef env.py snapshot path = .ok v := by
    intro path hpath
    obtain ⟨p, hp, spec, hspec, hid, hok, -, hresolves⟩ :=
      hsupplied e he stepIds snapshot hstarted _ hstep action haction path hpath
    exact hresolves (hdec path hpath p hp hid hok spec hspec)
  rcases hwhy with ⟨path, count, hambiguous⟩ | ⟨spec, summary, hspec, hargs, hsummary⟩
  · -- the barrier had nothing to stop
    obtain ⟨selected, -, hsel, -⟩ := refs_resolved hrefs
    rw [hsel] at hambiguous
    cases hambiguous
  · obtain ⟨resolved, hrefused⟩ := resolveArgs_refused hrefs hargs
    exact ⟨spec, resolved, hspec, hsummary ▸ by simpa using hrefused⟩

/-! ### A plan with two producers -/

theorem createSpec_timeout : 1 ≤ 15 ∧ 15 ≤ 600 := by decide

theorem createSpec_requestLocal : false = true → Effect.write = .write := nofun

theorem createSpec_readOnly : SideEffectClass.transactionalWrite = .readOnly → Effect.write = .read := nofun

/-- A write tool that returns the id of the new task, or an error. -/
def createSpec : ToolSpec where
  name := "add_task"
  effect := .write
  readDomains := []
  writeDomains := ["tasks"]
  parallelSafe := true
  timeoutSeconds := 15
  sideEffectClass := .transactionalWrite
  requestLocal := false
  committedStatuses := some ["ok"]
  validateArgs := fun args => match args with
    | .dict kvs => .ok kvs
    | _ => .error (.validation "[]")
  parse := fun raw =>
    if raw = "ok" then .output [("status", .str "ok"), ("task_id", .str "t1")]
    else .output [("status", .str "error"), ("message", .str raw)]
  outputModel := {
    members := [[("status", .literal ["ok"]), ("task_id", .scalar "str")],
      [("status", .literal ["error"]), ("message", .scalar "str")]]
    models := fun _ => []
    discriminated := by decide }
  validateOutput := .ok
  timeout_pos := createSpec_timeout
  domains_ok := by simp
  request_local_ok := createSpec_requestLocal
  read_only_ok := createSpec_readOnly

/-- A branch for one status. -/
def onStatus (status : String) (next : Option String) : OutcomeBranch where
  expected := [("status", .str status)]
  next := next
  compose := none
  terminus := .inr rfl

/-- `s1` goes on with `s3`, which also reads the id of the task of `s2`. -/
def twoProducers : Plan where
  actions := [
    ("s1", { tool := "add_task", args := [], intentGroup := "tasks", dependsOn := []
             expectedOutcomes := [onStatus "ok" (some "s3"), onStatus "error" none]
             expectedOutcomes_ne_nil := by simp }),
    ("s2", { tool := "add_task", args := [], intentGroup := "tasks", dependsOn := []
             expectedOutcomes := [onStatus "ok" none, onStatus "error" none]
             expectedOutcomes_ne_nil := by simp }),
    ("s3", { tool := "add_task"
             args := [("title", .str "$\x7bs1.task_id\x7d"), ("parent", .str "$\x7bs2.task_id\x7d")]
             intentGroup := "tasks", dependsOn := []
             expectedOutcomes := [onStatus "ok" none, onStatus "error" none]
             expectedOutcomes_ne_nil := by simp })]
  keys_nodup := by decide
  keys_format := by decide
  dependsOn_ok := by decide
  next_ok := by decide
  dependsOn_acyclic := dependsOn_acyclic_of_nil (by decide)

/-- Each step is a layer of its own. -/
def twoProducersCompiled : ExecutionPlan where
  layers := [["s1"], ["s2"], ["s3"]]
  failModes := [("tasks", .honestPartial)]
  plan := twoProducers

/-- Every task is created but the one of `s2`. -/
def creating : ExecEnv where
  py := Py.ascii
  registry := fun tool => if tool = "add_task" then some createSpec else none
  toolsByName := fun _ => some fun stepId _ => .returned (if stepId = "s2" then "no such list" else "ok")
  ledger := none
  scheduler := Scheduler.sequential

theorem twoProducers_compiled : compile Py.ascii creating.registry twoProducers = .ok twoProducersCompiled := rfl

set_option maxRecDepth 4000 in
theorem twoProducers_checked : refViolations Py.ascii creating.registry twoProducers = [] := by rfl

/-- What a result says, without the texts that the tool returned. -/
def StepResult.digest (r : StepResult) : String × String × StepStatus × Option Dict × Option String :=
  (r.stepId, r.tool, r.status, r.parsedOutput, r.errorSummary)

/-- `s2` has no task, so the reference of `s3` to it fails. -/
def twoProducersDigests : List (String × String × StepStatus × Option Dict × Option String) := [
  ("s1", "add_task", .ok, some [("status", .str "ok"), ("task_id", .str "t1")], none),
  ("s2", "add_task", .ok, some [("status", .str "error"), ("message", .str "no such list")], none),
  ("s3", "add_task", .argViolation, none, some ("ref_resolve_error: Reference '$\x7bs2.task_id\x7d' — field "
    ++ "'task_id' not in result of 's2'. Available fields: ['message', 'status']"))]

set_option maxRecDepth 8000 in
theorem twoProducers_run : ∃ run, executePlan creating twoProducersCompiled = .ok run ∧
    run.log.steps.map StepResult.digest = twoProducersDigests ∧
    run.events.filterMap ExecEvent.started? = [(["s1"], []),
      (["s2"], [("s1", [("status", .str "ok"), ("task_id", .str "t1")])]),
      (["s3"], [("s2", [("status", .str "error"), ("message", .str "no such list")]),
        ("s1", [("status", .str "ok"), ("task_id", .str "t1")])])] :=
  ⟨_, rfl, rfl, rfl⟩

/-- A dict of a status and another text, for a variant of these two fields. -/
theorem returned_statusAnd {field status text : String}
    (hmem : [("status", .literal [status]), (field, .scalar "str")] ∈ output.members) :
    output.Returned [("status", .literal [status]), (field, .scalar "str")]
      [("status", .str status), (field, .str text)] := by
  refine ⟨hmem, fun other ann hother => ?_⟩
  by_cases hstatus : other = "status"
  · subst hstatus
    obtain rfl : .literal [status] = ann := by simpa using hother
    exact ⟨.str status, by simp, .literal (by simp)⟩
  · have hno : (other == "status") = false := beq_eq_false_iff_ne.2 hstatus
    simp only [List.lookup_cons, hno, List.lookup_nil] at hother
    split at hother
    · rename_i heq
      obtain rfl := beq_iff_eq.1 heq
      obtain rfl := Option.some.inj hother
      exact ⟨.str text, by simp [List.lookup_cons, hno], .scalar (.str text)⟩
    · cases hother

/-- Both producers return what their output model says. -/
theorem twoProducers_conform {log : List StepResult} (h : log.map StepResult.digest = twoProducersDigests) :
    ∀ r ∈ log, r.status = .ok → ∀ spec, creating.registry r.tool = some spec →
      ∃ member, spec.outputModel.Returned member (r.parsedOutput.getD []) := by
  intro r hr hok spec hspec
  have hmem : r.digest ∈ twoProducersDigests := h ▸ List.mem_map_of_mem hr
  simp only [twoProducersDigests, StepResult.digest, List.mem_cons, Prod.mk.injEq, List.not_mem_nil, or_false] at hmem
  rcases hmem with ⟨-, htool, -, hout, -⟩ | ⟨-, htool, -, hout, -⟩ | ⟨-, -, hst, -, -⟩
  · obtain rfl : createSpec = spec := by simpa [creating, htool] using hspec
    rw [hout]
    exact ⟨_, returned_statusAnd List.mem_cons_self⟩
  · obtain rfl : createSpec = spec := by simpa [creating, htool] using hspec
    rw [hout]
    exact ⟨_, returned_statusAnd (List.mem_cons_of_mem _ List.mem_cons_self)⟩
  · rw [hok] at hst
    cases hst

/-- **`s3` is started after `s1`, and its reference to the task of `s2` fails.** -/
theorem twoProducers_refs_fail : compile Py.ascii creating.registry twoProducers = .ok twoProducersCompiled ∧
    refViolations Py.ascii creating.registry twoProducers = [] ∧
    ∃ run, executePlan creating twoProducersCompiled = .ok run ∧
      (∀ r ∈ run.log.steps, r.status = .ok → ∀ spec, creating.registry r.tool = some spec →
        ∃ member, spec.outputModel.Returned member (r.parsedOutput.getD [])) ∧
      ∃ r ∈ run.log.steps, r.stepId = "s3" ∧ r.status = .argViolation ∧
        r.errorSummary = some ("ref_resolve_error: Reference '$\x7bs2.task_id\x7d' — field 'task_id' not in result "
          ++ "of 's2'. Available fields: ['message', 'status']") := by
  obtain ⟨run, hrun, hdigests, -⟩ := twoProducers_run
  refine ⟨twoProducers_compiled, twoProducers_checked, run, hrun, twoProducers_conform hdigests, ?_⟩
  obtain ⟨r, hr, heq⟩ : ∃ r ∈ run.log.steps, r.digest = twoProducersDigests[2] := by
    rw [← List.mem_map, hdigests]
    exact List.getElem_mem _
  simp only [twoProducersDigests, StepResult.digest, List.getElem_cons_succ, List.getElem_cons_zero,
    Prod.mk.injEq] at heq
  obtain ⟨hid, -, hst, -, hsummary⟩ := heq
  exact ⟨r, hr, hid, hst, hsummary⟩

/-- The reference of `s3` to `s1`, which goes on with it, is decided for a task. -/
theorem twoProducers_decides : Decides Py.ascii twoProducers createSpec.outputModel "s3" ["s1", "task_id"]
    [("status", .str "ok"), ("task_id", .str "t1")] := by
  -- of the two variants only the one with the task was returned
  have hmember : ∀ member, createSpec.outputModel.Returned member [("status", .str "ok"), ("task_id", .str "t1")] →
      member = [("status", .literal ["ok"]), ("task_id", .scalar "str")] := by
    rintro member ⟨hin, hfields⟩
    simp only [createSpec, List.mem_cons, List.not_mem_nil, or_false] at hin
    rcases hin with rfl | rfl
    · rfl
    · obtain ⟨v, hv, -⟩ := hfields "message" (.scalar "str") rfl
      cases hv
  refine ⟨fun member hret => .inl ⟨"ok", by decide, ?_⟩, fun member hret => ?_, fun before after heq => ?_⟩
  · rw [hmember member hret]
    decide
  · rw [hmember member hret]
    rfl
  · have hin : "only" ∈ ["s1", "task_id"].drop 1 := by
      rw [heq]
      simp
    exact absurd hin (by decide)

theorem executePlan_refs_resolve_twoProducers : ∃ run, executePlan creating twoProducersCompiled = .ok run ∧
    ∃ e ∈ run.events, ∃ snapshot, e.started? = some (["s3"], snapshot) ∧
      ∃ v, resolveAnyRef Py.ascii snapshot ["s1", "task_id"] = .ok v := by
  obtain ⟨run, hrun, hdigests, hstarted⟩ := twoProducers_run
  obtain ⟨hsupplied, -⟩ := executePlan_refs_resolve creating twoProducers_compiled twoProducers_checked hrun
    (twoProducers_conform hdigests)
  obtain ⟨e, he, hst⟩ : ∃ e ∈ run.events, e.started? = some (["s3"], [
      ("s2", [("status", .str "error"), ("message", .str "no such list")]),
      ("s1", [("status", .str "ok"), ("task_id", .str "t1")])]) := by
    rw [← List.mem_filterMap, hstarted]
    simp
  refine ⟨run, hrun, e, he, _, hst, ?_⟩
  obtain ⟨r, hr, spec, hspec, -, -, hlookup, hresolves⟩ := hsupplied e he _ _ hst "s3" List.mem_cons_self _ rfl
    ["s1", "task_id"] (by decide)
  have hout : r.parsedOutput.getD [] = [("status", .str "ok"), ("task_id", .str "t1")] :=
    (Option.some.inj hlookup).symm
  obtain rfl : createSpec = spec := by
    have htool : r.tool = "add_task" := by
      have hmem : r.digest ∈ twoProducersDigests := hdigests ▸ List.mem_map_of_mem hr
      simp only [twoProducersDigests, StepResult.digest, List.mem_cons, Prod.mk.injEq, List.not_mem_nil,
        or_false] at hmem
      rcases hmem with ⟨-, htool, -⟩ | ⟨-, htool, -⟩ | ⟨-, htool, -⟩ <;> exact htool
    simpa [creating, htool] using hspec
  refine hresolves ?_
  rw [hout]
  exact twoProducers_decides

end Run

end Sreda.Planner
