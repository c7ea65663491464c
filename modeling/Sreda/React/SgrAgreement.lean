import Sreda.React.SgrStep

/-!
# The schema of an SGR step and its parser

`runtime/react_sgr.py` says that the contract of the schema and the parser is exact: what is valid is read, and what is read
as an act has arguments that are valid once the optional keys that the parser has taken off are null again.

## What is proved

* the two agree for a list of tools if and only if no field is an int or a nested model, however deep in optionals and
  lists, no field is named `definitions`, and every optional field has a default (`agree_iff`).

A nested model lets further keys pass that its schema closes off, a required optional field is taken off when it is null, an
integer may be written with a fraction of zero, and a property named `definitions` is taken for a table of definitions.
-/

namespace Sreda.React

open Sreda.Lib Sreda.Lib.JsonSchema

/-! ### The contract -/

mutual

/-- The document with null for the optional keys that are not there. -/
def ArgTy.fill : ArgTy → Json → Json
  | .optional ty, data => ty.fill data
  | .list ty, data =>
    match data with
    | .arr items => .arr (items.map fun item => ty.fill item)
    | data => data
  | .model _ fields, data =>
    match data with
    | .obj pairs => .obj (fillFields fields pairs)
    | data => data
  | _, data => data
termination_by structural ty => ty

def fillFields : List ArgField → Pairs → Pairs
  | [], pairs => pairs
  | ⟨name, hasDefault, ty⟩ :: fields, pairs =>
    fillFields fields
      (match pairs.lookup name with
        | some data => put name (ty.fill data) pairs
        | none => if hasDefault then put name .null pairs else pairs)
termination_by structural fields => fields

end

/-- The schema and the parser agree on the tools. -/
structure Agree (tools : List SgrTool) : Prop where
  accepted : ∀ shape schema, buildWireSchema tools shape = .ok schema → ∀ data, (Json.obj data).DistinctKeys →
    valid schema (.obj data) = true → ∃ decision, parseSgrReply (.ok (.obj data)) false tools = .ok decision
  decided : ∀ data toolCalls decision, data.DistinctKeys → parseSgrReply (.ok data) toolCalls tools = .ok decision →
    decision.kind = .act → ∃ tool ∈ tools, ∃ args, decision.action = some tool.name ∧ decision.args = some args ∧
      valid tool.branch (.obj [("action", .str tool.name), ("args", (ArgTy.model none tool.fields).fill (.obj args))]) = true

/-- The type under optionals and lists. -/
def ArgTy.base : ArgTy → ArgTy
  | .optional ty => ty.base
  | .list ty => ty.base
  | ty => ty

/-- The type is a text, a float or a bool, or made of one by optionals and lists. -/
def ArgTy.isPlain (ty : ArgTy) : Bool :=
  match ty.base with
  | .int | .model _ _ => false
  | _ => true

/-- The field is read as its schema describes it. -/
def Sound (field : ArgField) : Prop :=
  field.name ≠ "definitions" ∧ field.ty.isPlain = true ∧ (field.ty.isOptional = true → field.hasDefault = true)

/-! ### Plain types -/

theorem ArgTy.accepts_iff_validate : ∀ {t : ArgTy}, t.isPlain = true → ∀ {data : Json},
    t.Accepts data ↔ t.validate data = true
  | .str, _, data => by cases data <;> simp [ArgTy.Accepts, ArgTy.validate]
  | .float, _, data => by
    cases data with
    | float q => by_cases h : q.den = 1 <;> simp [ArgTy.Accepts, ArgTy.validate, typeNames, h]
    | _ => simp [ArgTy.Accepts, ArgTy.validate, typeNames]
  | .bool, _, data => by cases data <;> simp [ArgTy.Accepts, ArgTy.validate]
  | .optional ty, h, data => by
    rw [ArgTy.Accepts, ArgTy.accepts_iff_validate (t := ty) h]
    cases data <;> simp [ArgTy.validate]
  | .list ty, h, data => by
    rw [ArgTy.Accepts]
    simp only [ArgTy.accepts_iff_validate (t := ty) h]
    cases data <;> simp [ArgTy.validate]
  | .int, h, _ => by cases h
  | .model _ _, h, _ => by cases h

theorem ArgTy.fill_of_plain : ∀ {t : ArgTy}, t.isPlain = true → ∀ {data : Json}, t.fill data = data
  | .str, _, _ | .float, _, _ | .bool, _, _ => by simp [ArgTy.fill]
  | .optional ty, h, data => by rw [ArgTy.fill, ArgTy.fill_of_plain (t := ty) h]
  | .list ty, h, data => by
    cases data with
    | arr items => simp [ArgTy.fill, ArgTy.fill_of_plain (t := ty) h]
    | _ => rfl
  | .int, h, _ => by cases h
  | .model _ _, h, _ => by cases h

/-- Of the plain types, only an optional one has null. -/
theorem ArgTy.isOptional_of_null {ty : ArgTy} (hplain : ty.isPlain = true) (h : ty.Accepts .null) : ty.isOptional = true := by
  cases ty with
  | optional ty => rfl
  | model definition fields => cases hplain
  | _ => simp [ArgTy.Accepts, typeNames] at h

/-! ### Keys that are taken off and put back -/

theorem mem_dropNulls {args : Pairs} {pair : String × Json} : pair ∈ dropNulls args ↔ pair ∈ args ∧ pair.2 ≠ .null := by
  obtain ⟨key, value⟩ := pair
  rw [dropNulls, List.mem_filter]
  cases value <;> simp

theorem nodup_dropNulls {args : Pairs} (h : (args.map Prod.fst).Nodup) : ((dropNulls args).map Prod.fst).Nodup :=
  h.sublist (List.filter_sublist.map Prod.fst)

variable {key : String} {value : Json} {field : ArgField} {defs : Pairs}

theorem lookup_dropNulls {args : Pairs} (hnodup : (args.map Prod.fst).Nodup)
    (h : args.lookup key = some value) (hnull : value ≠ .null) : (dropNulls args).lookup key = some value :=
  lookup_of_mem (nodup_dropNulls hnodup) (mem_dropNulls.mpr ⟨mem_of_lookup h, hnull⟩)

theorem lookup_dropNulls_null {args : Pairs} (hnodup : (args.map Prod.fst).Nodup)
    (h : args.lookup key = some .null) : (dropNulls args).lookup key = none := by
  apply lookup_eq_none_of_ne
  rintro ⟨name, value⟩ hpair rfl
  obtain ⟨hmem, hnull⟩ := mem_dropNulls.mp hpair
  have hvalue := lookup_of_mem hnodup hmem
  rw [h] at hvalue
  cases hvalue
  exact hnull rfl

theorem lookup_fillFields_of_notMem : ∀ {fields : List ArgField} {pairs : Pairs},
    key ∉ fields.map (·.name) → (fillFields fields pairs).lookup key = pairs.lookup key
  | [], _, _ => by rw [fillFields]
  | ⟨name, hasDefault, ty⟩ :: fields, pairs, h => by
    rw [List.map_cons, List.mem_cons, not_or] at h
    obtain ⟨hne, hrest⟩ := h
    rw [fillFields, lookup_fillFields_of_notMem hrest]
    cases pairs.lookup name with
    | some data => rw [lookup_put, if_neg hne]
    | none => cases hasDefault <;> simp [lookup_put, hne]

/-- A field is filled where it is there, and null where it is left out. -/
theorem lookup_fillFields : ∀ {fields : List ArgField} {pairs : Pairs}, (fields.map (·.name)).Nodup →
    field ∈ fields → (fillFields fields pairs).lookup field.name =
      match pairs.lookup field.name with
      | some data => some (field.ty.fill data)
      | none => if field.hasDefault then some .null else none
  | ⟨name, hasDefault, ty⟩ :: fields, pairs, hnodup, hfield => by
    rw [List.map_cons, List.nodup_cons] at hnodup
    obtain ⟨hname, hnodup⟩ := hnodup
    rw [fillFields]
    rcases List.mem_cons.mp hfield with rfl | hrest
    · rw [lookup_fillFields_of_notMem hname]
      cases hlookup : pairs.lookup name with
      | some data => simp [lookup_put]
      | none => cases hasDefault <;> simp [lookup_put, hlookup]
    · have hne : field.name ≠ name := by
        rintro rfl
        exact hname (List.mem_map.mpr ⟨_, hrest, rfl⟩)
      rw [lookup_fillFields hnodup hrest]
      cases pairs.lookup name with
      | some data => rw [lookup_put, if_neg hne]
      | none => cases hasDefault <;> simp [lookup_put, hne]

theorem mem_keys_iff {pairs : Pairs} : key ∈ pairs.map Prod.fst ↔ (pairs.lookup key).isSome = true := by
  simp only [List.lookup_isSome_iff, List.mem_map, beq_iff_eq]
  exact exists_congr fun pair => and_congr_right fun _ => eq_comm

theorem mem_keys_fillFields {fields : List ArgField} {pairs : Pairs}
    (h : key ∈ (fillFields fields pairs).map Prod.fst) : key ∈ pairs.map Prod.fst ∨ key ∈ fields.map (·.name) := by
  by_cases hname : key ∈ fields.map (·.name)
  · exact .inr hname
  · rw [mem_keys_iff, lookup_fillFields_of_notMem hname] at h
    exact .inl (mem_keys_iff.mpr h)

/-! ### Sound fields are enough -/

variable {tools : List SgrTool}

/-- Arguments that the schema accepts pass the checks. -/
theorem checkArgs_of_accepts {tool : SgrTool} (hsound : ∀ field ∈ tool.fields, Sound field) {args : Pairs}
    (hnodup : (args.map Prod.fst).Nodup) (h : (ArgTy.model none tool.fields).Accepts (.obj args)) :
    checkArgs tool args = .ok (dropNulls args) := by
  rw [ArgTy.Accepts] at h
  obtain ⟨_, ⟨⟩, hkeys, hfields⟩ := h
  rw [fieldsAccept_iff] at hfields
  refine checkArgs_eq_ok_iff.mpr ⟨rfl, fun pair hpair => (hkeys pair (mem_dropNulls.mp hpair).1).2, ?_⟩
  rw [validateFields_iff]
  intro field hfield
  obtain ⟨hname, hplain, hdefault⟩ := hsound field hfield
  obtain ⟨data, hdata, haccepts⟩ := hfields field hfield hname
  by_cases hnull : data = .null
  · subst hnull
    refine .inr ⟨lookup_dropNulls_null hnodup hdata, ?_⟩
    rcases haccepts with haccepts | ⟨hhas, -⟩
    · exact hdefault (ArgTy.isOptional_of_null hplain haccepts)
    · exact hhas
  · have hvalue : field.ty.Accepts data := haccepts.resolve_right fun h => hnull h.2
    exact .inl ⟨data, lookup_dropNulls hnodup hdata hnull, (ArgTy.accepts_iff_validate hplain).mp hvalue⟩

/-- Arguments that have passed are accepted by the schema, once filled. -/
theorem accepts_fill {tool : SgrTool} (hsound : ∀ field ∈ tool.fields, Sound field) {sent args : Pairs}
    (h : checkArgs tool sent = .ok args) :
    (ArgTy.model none tool.fields).Accepts ((ArgTy.model none tool.fields).fill (.obj args)) := by
  obtain ⟨rfl, hkeys, hvalid⟩ := checkArgs_eq_ok_iff.mp h
  rw [ArgTy.fill, ArgTy.Accepts]
  refine ⟨_, rfl, ?_, ?_⟩
  · intro pair hpair
    have hname : pair.1 ∈ tool.fields.map (·.name) := by
      rcases mem_keys_fillFields (List.mem_map_of_mem hpair) with hmem | hmem
      · obtain ⟨sentPair, hsent, heq⟩ := List.mem_map.mp hmem
        rw [← heq]
        exact hkeys sentPair hsent
      · exact hmem
    obtain ⟨field, hfield, heq⟩ := List.mem_map.mp hname
    exact ⟨heq ▸ (hsound field hfield).1, hname⟩
  · rw [fieldsAccept_iff]
    intro field hfield _
    obtain ⟨-, hplain, -⟩ := hsound field hfield
    rw [lookup_fillFields tool.wellFormed.2.1 hfield]
    rcases validateFields_iff.mp hvalid field hfield with ⟨data, hdata, hpass⟩ | ⟨hnone, hdefault⟩
    · rw [hdata]
      refine ⟨_, rfl, .inl ?_⟩
      rw [ArgTy.fill_of_plain hplain]
      exact (ArgTy.accepts_iff_validate hplain).mpr hpass
    · rw [hnone, hdefault]
      exact ⟨.null, rfl, .inr ⟨rfl, rfl⟩⟩

theorem valid_branch_of_accepts {tool : SgrTool} {args : Json} (h : (ArgTy.model none tool.fields).Accepts args) :
    valid tool.branch (.obj [("action", .str tool.name), ("args", args)]) = true := by
  refine (tool.valid_branch_iff _).mpr ⟨_, args, rfl, ?_, rfl, rfl, h⟩
  simp

theorem agree_of_sound (hnodup : (tools.map (·.name)).Nodup)
    (hsound : ∀ tool ∈ tools, ∀ field ∈ tool.fields, Sound field) : Agree tools where
  accepted := by
    intro shape schema hschema data hdistinct hvalid
    obtain ⟨flat, hflat, hclosed, hvalues⟩ := flatten_of_valid hschema hvalid hdistinct
    obtain ⟨step, hstep, hact⟩ := parseStep_of_closed hclosed
    rw [parseSgrReply_of_closed hflat hclosed, decideStep, hstep]
    cases step with
    | act situation action args =>
      obtain ⟨tool, htool, rfl, haccepts, choice, hchoice, hargs⟩ := hact _ _ _ rfl
      have hfind : tools.find? (·.name = tool.name) = some tool := find?_of_mem hnodup htool
      have hargsDistinct := (hvalues _ _ hchoice).2.lookup hargs
      have hcheck := checkArgs_of_accepts (hsound tool htool) hargsDistinct.1 haccepts
      refine ⟨{
        kind := .act, situation, enoughData := some true, action := some tool.name, args := some (dropNulls args) }, ?_⟩
      simp only [hfind, hcheck]
      rfl
    | clarify situation question => exact ⟨_, rfl⟩
    | finish situation reply => exact ⟨_, rfl⟩
  decided := by
    intro data toolCalls decision _ hparse hkind
    obtain ⟨tool, htool, sent, args, haction, hargs, hcheck⟩ := checkArgs_of_act hparse hkind
    exact ⟨tool, htool, args, haction, hargs, valid_branch_of_accepts (accepts_fill (hsound tool htool) hcheck)⟩

/-! ### Documents of a type -/

mutual

/-- A document that validates. -/
def ArgTy.sample : ArgTy → Json
  | .str => .str ""
  | .int => .int 0
  | .float => .int 0
  | .bool => .bool true
  | .optional ty => ty.sample
  | .list _ => .arr []
  | .model _ fields => .obj (sampleFields fields)

def sampleFields : List ArgField → Pairs
  | [] => []
  | ⟨name, _, ty⟩ :: fields => (name, ty.sample) :: sampleFields fields

end

/-- The fields with a document for each. -/
def offer (pick : ArgField → Json) (fields : List ArgField) : Pairs := fields.map fun field => (field.name, pick field)

/-- A document with this at its base. -/
def ArgTy.wrap : ArgTy → Json → Json
  | .optional ty, data => ty.wrap data
  | .list ty, data => .arr [ty.wrap data]
  | _, data => data

section Offer

variable {pick : ArgField → Json} {fields : List ArgField}

theorem keys_offer : (offer pick fields).map Prod.fst = fields.map (·.name) := by
  simp [offer]

theorem lookup_offer (hnodup : (fields.map (·.name)).Nodup) (hfield : field ∈ fields) :
    (offer pick fields).lookup field.name = some (pick field) :=
  lookup_of_mem (by rwa [keys_offer]) (List.mem_map.mpr ⟨field, hfield, rfl⟩)

theorem dropNulls_offer (h : ∀ field ∈ fields, pick field ≠ .null) : dropNulls (offer pick fields) = offer pick fields := by
  rw [dropNulls, List.filter_eq_self]
  intro pair hpair
  obtain ⟨field, hfield, rfl⟩ := List.mem_map.mp hpair
  have hnull := h field hfield
  cases hpick : pick field with
  | null => exact absurd hpick hnull
  | _ => rfl

theorem distinctKeys_offer (hnodup : (fields.map (·.name)).Nodup) (h : ∀ field ∈ fields, (pick field).DistinctKeys) :
    (Json.obj (offer pick fields)).DistinctKeys := by
  refine ⟨by rwa [keys_offer], ?_⟩
  clear hnodup
  induction fields with
  | nil => trivial
  | cons field fields ih =>
    rw [List.forall_mem_cons] at h
    exact ⟨h.1, ih h.2⟩

theorem validateFields_offer (hnodup : (fields.map (·.name)).Nodup) (h : ∀ field ∈ fields, field.ty.validate (pick field) = true) :
    validateFields fields (offer pick fields) = true :=
  validateFields_iff.mpr fun field hfield => .inl ⟨_, lookup_offer hnodup hfield, h field hfield⟩

theorem accepts_offer (hnodup : (fields.map (·.name)).Nodup)
    (h : ∀ field ∈ fields, field.name ≠ "definitions" ∧ field.ty.Accepts (pick field)) :
    (ArgTy.model none fields).Accepts (.obj (offer pick fields)) := by
  rw [ArgTy.Accepts]
  refine ⟨_, rfl, ?_, ?_⟩
  · intro pair hpair
    obtain ⟨field, hfield, rfl⟩ := List.mem_map.mp hpair
    exact ⟨(h field hfield).1, List.mem_map.mpr ⟨field, hfield, rfl⟩⟩
  · rw [fieldsAccept_iff]
    intro field hfield _
    exact ⟨_, lookup_offer hnodup hfield, .inl (h field hfield).2⟩

theorem sampleFields_eq : ∀ {fields : List ArgField}, sampleFields fields = offer (·.ty.sample) fields
  | [] => rfl
  | ⟨name, hasDefault, ty⟩ :: fields => by rw [sampleFields, sampleFields_eq, offer, offer, List.map_cons]

end Offer

theorem ArgTy.sample_ne_null : ∀ {ty : ArgTy}, ty.sample ≠ .null
  | .str | .int | .float | .bool | .list _ | .model _ _ => by simp [ArgTy.sample]
  | .optional ty => by
    rw [ArgTy.sample]
    exact ArgTy.sample_ne_null

mutual

theorem ArgTy.validate_sample : ∀ (ty : ArgTy), ty.WellFormed defs → ty.validate ty.sample = true
  | .str, _ | .int, _ | .float, _ | .bool, _ => rfl
  | .list _, _ => rfl
  | .optional ty, h => by
    rw [ArgTy.sample, ArgTy.validate_optional ArgTy.sample_ne_null]
    exact ArgTy.validate_sample ty h
  | .model _ fields, ⟨_, hnodup, _, hfields⟩ => by
    rw [ArgTy.sample, sampleFields_eq]
    exact validateFields_offer hnodup (validate_sampleFields fields hfields)

theorem validate_sampleFields : ∀ (fields : List ArgField), FieldsWellFormed defs fields →
    ∀ field ∈ fields, field.ty.validate field.ty.sample = true
  | [], _, _, hfield => by cases hfield
  | ⟨name, hasDefault, ty⟩ :: fields, ⟨hty, hfields⟩, field, hfield => by
    rcases List.mem_cons.mp hfield with rfl | hfield
    · exact ArgTy.validate_sample ty hty
    · exact validate_sampleFields fields hfields field hfield

end

theorem wellFormed_of_mem : ∀ {fields : List ArgField}, FieldsWellFormed defs fields →
    field ∈ fields → field.ty.WellFormed defs
  | ⟨name, hasDefault, ty⟩ :: fields, ⟨hty, hfields⟩, hfield => by
    rcases List.mem_cons.mp hfield with rfl | hfield
    · exact hty
    · exact wellFormed_of_mem hfields hfield

mutual

theorem ArgTy.distinctKeys_sample : ∀ (ty : ArgTy), ty.WellFormed defs → ty.sample.DistinctKeys
  | .str, _ | .int, _ | .float, _ | .bool, _ | .list _, _ => trivial
  | .optional ty, h => ArgTy.distinctKeys_sample ty h
  | .model _ fields, ⟨_, hnodup, _, hfields⟩ => by
    rw [ArgTy.sample, sampleFields_eq]
    exact distinctKeys_offer hnodup (distinctKeys_sampleFields fields hfields)

theorem distinctKeys_sampleFields : ∀ (fields : List ArgField), FieldsWellFormed defs fields →
    ∀ field ∈ fields, field.ty.sample.DistinctKeys
  | [], _, _, hfield => by cases hfield
  | ⟨name, hasDefault, ty⟩ :: fields, ⟨hty, hfields⟩, field, hfield => by
    rcases List.mem_cons.mp hfield with rfl | hfield
    · exact ArgTy.distinctKeys_sample ty hty
    · exact distinctKeys_sampleFields fields hfields field hfield

end

section Wrap

variable {data : Json}

theorem ArgTy.wrap_ne_null (h : data ≠ .null) : ∀ {t : ArgTy}, t.wrap data ≠ .null
  | .str | .int | .float | .bool | .model _ _ => h
  | .list _ => by simp [ArgTy.wrap]
  | .optional ty => ArgTy.wrap_ne_null h (t := ty)

theorem ArgTy.accepts_wrap (h : data ≠ .null) : ∀ {ty : ArgTy}, ty.Accepts (ty.wrap data) ↔ ty.base.Accepts data
  | .str | .int | .float | .bool | .model _ _ => .rfl
  | .optional ty => by
    have hwrap : ty.wrap data ≠ .null := ArgTy.wrap_ne_null h
    rw [ArgTy.Accepts, ArgTy.wrap, ArgTy.base, ArgTy.accepts_wrap h, or_iff_left hwrap]
  | .list ty => by
    rw [ArgTy.Accepts, ArgTy.wrap, ArgTy.base, ← ArgTy.accepts_wrap h]
    simp

theorem ArgTy.validate_wrap (h : data ≠ .null) : ∀ {ty : ArgTy}, ty.validate (ty.wrap data) = ty.base.validate data
  | .str | .int | .float | .bool | .model _ _ => rfl
  | .optional ty => by
    rw [ArgTy.wrap, ArgTy.base, ArgTy.validate_optional (ArgTy.wrap_ne_null h), ArgTy.validate_wrap h]
  | .list ty => by
    rw [ArgTy.wrap, ArgTy.base, ← ArgTy.validate_wrap h]
    exact Bool.and_true _

theorem ArgTy.fill_wrap : ∀ {ty : ArgTy}, ty.fill (ty.wrap data) = ty.wrap (ty.base.fill data)
  | .str | .int | .float | .bool | .model _ _ => rfl
  | .optional ty => by rw [ArgTy.fill, ArgTy.wrap, ArgTy.base, ArgTy.fill_wrap, ArgTy.wrap]
  | .list ty => by
    have hty : ty.fill (ty.wrap data) = ty.wrap (ty.base.fill data) := ArgTy.fill_wrap
    rw [ArgTy.wrap, ArgTy.base, ArgTy.fill, ArgTy.wrap, ← hty]
    rfl

theorem ArgTy.distinctKeys_wrap (h : data.DistinctKeys) : ∀ {t : ArgTy}, (t.wrap data).DistinctKeys
  | .str | .int | .float | .bool | .model _ _ => h
  | .optional ty => ArgTy.distinctKeys_wrap h (t := ty)
  | .list ty => ⟨ArgTy.distinctKeys_wrap h (t := ty), trivial⟩

end Wrap

theorem ArgTy.wellFormed_base : ∀ {t : ArgTy}, t.WellFormed defs → t.base.WellFormed defs
  | .str, h | .int, h | .float, h | .bool, h | .model _ _, h => h
  | .optional ty, h => ArgTy.wellFormed_base (t := ty) h
  | .list ty, h => ArgTy.wellFormed_base (t := ty) h

/-- Without models, what validates as the sample is accepted. -/
theorem ArgTy.accepts_sample : ∀ {t : ArgTy}, (∀ definition fields, t.base ≠ .model definition fields) →
    t.Accepts t.sample
  | .str, _ | .int, _ | .float, _ | .bool, _ => by simp [ArgTy.Accepts, ArgTy.sample, typeNames]
  | .list _, _ => by simp [ArgTy.Accepts, ArgTy.sample]
  | .optional ty, h => .inl (ArgTy.accepts_sample (t := ty) h)
  | .model definition fields, h => absurd rfl (h definition fields)

/-! ### Sound fields are needed -/

/-- A reply that acts, in the flat form. -/
def actReply (tool : SgrTool) (args : Pairs) : Pairs := [
  ("kind", .str "act"), ("situation", .str "s"), ("enough_data", .bool true),
  ("tool", .obj [("action", .str tool.name), ("args", .obj args)])]

section Needed

variable {tool : SgrTool} {args : Pairs}

theorem distinctKeys_actReply (h : (Json.obj args).DistinctKeys) : (Json.obj (actReply tool args)).DistinctKeys := by
  refine ⟨?_, trivial, trivial, trivial, ⟨?_, trivial, h, trivial⟩, trivial⟩ <;> simp [actReply]

theorem parseSgrReply_actReply (hnodup : (tools.map (·.name)).Nodup) (htool : tool ∈ tools) :
    parseSgrReply (.ok (.obj (actReply tool args))) false tools = (checkArgs tool args).map fun args =>
      { kind := .act, situation := "s", enoughData := some true, action := some tool.name, args := some args } := by
  have hfind : tools.find? (·.name = tool.name) = some tool := find?_of_mem hnodup htool
  have hparse : parseStep (actReply tool args) = .ok (.act "s" tool.name args) := by
    simp [parseStep, actReply, List.lookup, textErrors, literalErrors, toolErrors, strErrors, dictErrors, extraErrors, textAt,
      dictAt, Json.pairs]
    decide
  have hflat : flatten (actReply tool args) = .ok (actReply tool args) := by
    simp [flatten, isEnvelope, actReply]
  rw [parseSgrReply, if_neg Bool.false_ne_true]
  show (flatten (actReply tool args) >>= _) = _
  rw [hflat]
  show decideStep tools (actReply tool args) = _
  rw [decideStep, hparse]
  simp only [hfind]

/-- The reply is valid in the flat form when the arguments are accepted. -/
theorem stepClosed_actReply (htool : tool ∈ tools) (h : (ArgTy.model none tool.fields).Accepts (.obj args)) :
    ∃ properties ∈ stepProperties tools, valid (closedSchema properties) (.obj (actReply tool args)) = true := by
  refine ⟨_, List.mem_cons_self, valid_closedSchema.mpr ⟨_, rfl, ?_, ?_, ?_⟩⟩
  · simp [actReply]
  · simp [actReply, List.lookup]
  · have hbranch : valid (.obj [("anyOf", .arr (tools.map SgrTool.branch))])
        (.obj [("action", .str tool.name), ("args", .obj args)]) = true :=
      valid_anyOf.mpr ⟨_, List.mem_map_of_mem htool, valid_branch_of_accepts h⟩
    have hsituation : valid situationSchema (.str "s") = true := valid_text.mpr ⟨"s", rfl, by decide, by decide⟩
    simp [actReply, List.lookup, constSchema, valid_const, sameScalar, hbranch, hsituation]

variable (hnodup : (tools.map (·.name)).Nodup) (hagree : Agree tools) (htool : tool ∈ tools)
include hnodup hagree htool

/-- Where the two agree, arguments that are accepted pass the checks. -/
theorem Agree.checkArgs (hdistinct : (Json.obj args).DistinctKeys) (h : (ArgTy.model none tool.fields).Accepts (.obj args)) :
    ∃ args', React.checkArgs tool args = .ok args' := by
  obtain ⟨properties, hproperties, hvalid⟩ := stepClosed_actReply htool h
  have hflat : valid (.obj [("anyOf", .arr ((stepProperties tools).map closedSchema))]) (.obj (actReply tool args)) = true :=
    valid_anyOf.mpr ⟨_, List.mem_map_of_mem hproperties, hvalid⟩
  obtain ⟨decision, hdecision⟩ := hagree.accepted "flat" _ rfl _ (distinctKeys_actReply hdistinct) hflat
  rw [parseSgrReply_actReply hnodup htool] at hdecision
  cases hcheck : React.checkArgs tool args with
  | error e => simp [hcheck, Except.map] at hdecision
  | ok args' => exact ⟨args', rfl⟩

/-- Where the two agree, arguments that pass are accepted once they are filled. -/
theorem Agree.accepts_fill (hdistinct : (Json.obj args).DistinctKeys) (hcheck : React.checkArgs tool args = .ok args) :
    (∀ pair ∈ fillFields tool.fields args, pair.1 ≠ "definitions" ∧ pair.1 ∈ tool.fields.map (·.name)) ∧
      FieldsAccept tool.fields (fillFields tool.fields args) := by
  have hparse := @parseSgrReply_actReply _ _ args hnodup htool
  rw [hcheck] at hparse
  obtain ⟨other, hother, _, haction, hargs, hvalid⟩ := hagree.decided _ _ _ (distinctKeys_actReply hdistinct) hparse rfl
  obtain rfl : tool = other := List.inj_on_of_nodup_map hnodup htool hother (Option.some.inj haction)
  obtain rfl : args = _ := Option.some.inj hargs
  obtain ⟨_, filled, ⟨⟩, -, -, hlookup, haccepts⟩ := (tool.valid_branch_iff _).mp hvalid
  obtain rfl : _ = filled := Option.some.inj hlookup
  rw [ArgTy.fill, ArgTy.Accepts] at haccepts
  obtain ⟨_, ⟨⟩, hkeys, hfields⟩ := haccepts
  exact ⟨hkeys, hfields⟩

/-- The fields of an offer that passes are accepted, once filled, and none is named `definitions`. -/
theorem Agree.accepts_offer {pick : ArgField → Json} (hfield : field ∈ tool.fields)
    (h : ∀ field ∈ tool.fields, field.ty.validate (pick field) = true ∧ pick field ≠ .null ∧ (pick field).DistinctKeys) :
    field.name ≠ "definitions" ∧
      (field.ty.Accepts (field.ty.fill (pick field)) ∨ field.hasDefault = true ∧ field.ty.fill (pick field) = .null) := by
  obtain ⟨-, hnames, -, -⟩ := tool.wellFormed
  have hdistinct : (Json.obj (offer pick tool.fields)).DistinctKeys :=
    distinctKeys_offer hnames fun field hfield => (h field hfield).2.2
  have hcheck : React.checkArgs tool (offer pick tool.fields) = .ok (offer pick tool.fields) := by
    have hnulls : dropNulls (offer pick tool.fields) = offer pick tool.fields :=
      dropNulls_offer fun field hfield => (h field hfield).2.1
    refine checkArgs_eq_ok_iff.mpr ⟨hnulls.symm, ?_, ?_⟩ <;> rw [hnulls]
    · intro pair hpair
      rw [← @keys_offer pick _]
      exact List.mem_map_of_mem hpair
    · exact validateFields_offer hnames fun field hfield => (h field hfield).1
  obtain ⟨hkeys, hfields⟩ := hagree.accepts_fill hnodup htool hdistinct hcheck
  have hlookup := @lookup_fillFields _ _ (offer pick tool.fields) hnames hfield
  rw [lookup_offer hnames hfield] at hlookup
  have hname := (hkeys _ (mem_of_lookup hlookup)).1
  obtain ⟨data, hdata, haccepts⟩ := fieldsAccept_iff.mp hfields field hfield hname
  rw [hlookup] at hdata
  cases hdata
  exact ⟨hname, haccepts⟩

omit hnodup hagree htool in
/-- The samples, with another document for one field. -/
theorem validate_pick {bad : ArgField} (hvalue : bad.ty.validate value = true) (hnull : value ≠ .null)
    (hdistinct : value.DistinctKeys) (hbad : bad ∈ tool.fields) : ∀ field ∈ tool.fields,
      field.ty.validate (if field.name = bad.name then value else field.ty.sample) = true ∧
        (if field.name = bad.name then value else field.ty.sample) ≠ .null ∧
        (if field.name = bad.name then value else field.ty.sample).DistinctKeys := by
  obtain ⟨-, hnames, -, hwf⟩ := tool.wellFormed
  intro field hfield
  by_cases heq : field.name = bad.name
  · obtain rfl := List.inj_on_of_nodup_map hnames hfield hbad heq
    simp only [if_pos]
    exact ⟨hvalue, hnull, hdistinct⟩
  · simp only [if_neg heq]
    exact ⟨validate_sampleFields _ hwf field hfield, ArgTy.sample_ne_null, distinctKeys_sampleFields _ hwf field hfield⟩

/-- No field is named `definitions`, and none has a model at its base. -/
theorem Agree.base_ne_model (hfield : field ∈ tool.fields) :
    field.name ≠ "definitions" ∧ ∀ definition fields, field.ty.base ≠ .model definition fields := by
  obtain ⟨-, -, -, hwf⟩ := tool.wellFormed
  have hsamples : ∀ field ∈ tool.fields, field.ty.validate field.ty.sample = true ∧ field.ty.sample ≠ .null ∧
      field.ty.sample.DistinctKeys := fun field hfield =>
    ⟨validate_sampleFields _ hwf field hfield, ArgTy.sample_ne_null, distinctKeys_sampleFields _ hwf field hfield⟩
  refine ⟨(hagree.accepts_offer hnodup htool hfield hsamples).1, ?_⟩
  intro definition fields hbase
  -- the model passes with a key that it does not have
  let value : Json := .obj (("$", .null) :: sampleFields fields)
  have hmodel : (ArgTy.model definition fields).WellFormed tool.defs := by
    rw [← hbase]
    exact ArgTy.wellFormed_base (wellFormed_of_mem hwf hfield)
  obtain ⟨-, hinner, hdollar, hinnerWf⟩ := hmodel
  have hkey : "$" ∉ fields.map (·.name) := by
    intro hmem
    obtain ⟨inner, hinnerMem, hname⟩ := List.mem_map.mp hmem
    exact hdollar inner hinnerMem (by rw [hname]; decide)
  have hpass : field.ty.base.validate value = true := by
    rw [hbase]
    refine validateFields_iff.mpr fun inner hinnerMem => .inl ⟨inner.ty.sample, ?_, validate_sampleFields _ hinnerWf _ hinnerMem⟩
    have hne : inner.name ≠ "$" := by
      rintro heq
      exact hkey (List.mem_map.mpr ⟨inner, hinnerMem, heq⟩)
    rw [List.lookup_cons, beq_eq_false_iff_ne.mpr hne, sampleFields_eq]
    exact lookup_offer hinner hinnerMem
  have hvalue : value ≠ .null := by simp [value]
  have hdistinct : value.DistinctKeys := by
    have hrest : (Json.obj (sampleFields fields)).DistinctKeys := by
      rw [sampleFields_eq]
      exact distinctKeys_offer hinner (distinctKeys_sampleFields _ hinnerWf)
    refine ⟨List.nodup_cons.mpr ⟨?_, hrest.1⟩, trivial, hrest.2⟩
    rwa [sampleFields_eq, keys_offer]
  have hpicked := validate_pick (by rwa [ArgTy.validate_wrap hvalue]) (ArgTy.wrap_ne_null hvalue (t := field.ty))
    (ArgTy.distinctKeys_wrap hdistinct) hfield
  have haccepts := (hagree.accepts_offer hnodup htool hfield hpicked).2
  have hfilled : field.ty.base.fill value ≠ .null := by
    rw [hbase]
    simp [value, ArgTy.fill]
  rw [if_pos rfl, ArgTy.fill_wrap] at haccepts
  have hbaseAccepts := (ArgTy.accepts_wrap hfilled).mp
    (haccepts.resolve_right fun h => ArgTy.wrap_ne_null hfilled h.2)
  rw [hbase, ArgTy.fill, ArgTy.Accepts] at hbaseAccepts
  obtain ⟨_, ⟨⟩, hkeys, -⟩ := hbaseAccepts
  have hlookup : (fillFields fields (("$", Json.null) :: sampleFields fields)).lookup "$" = some .null := by
    rw [lookup_fillFields_of_notMem hkey]
    rfl
  exact hkey (hkeys _ (mem_of_lookup hlookup)).2

/-- A document that is accepted passes, if it is not null. -/
theorem Agree.validate_of_accepts (hfield : field ∈ tool.fields)
    (haccepts : field.ty.Accepts value) (hdistinct : value.DistinctKeys) :
    (value ≠ .null → field.ty.validate value = true) ∧ (value = .null → field.hasDefault = true) := by
  obtain ⟨-, hnames, -, hwf⟩ := tool.wellFormed
  let pick : ArgField → Json := fun other => if other.name = field.name then value else other.ty.sample
  have hpick : ∀ other ∈ tool.fields, other.name ≠ "definitions" ∧ other.ty.Accepts (pick other) ∧ (pick other).DistinctKeys := by
    intro other hother
    obtain ⟨hname, hbase⟩ := hagree.base_ne_model hnodup htool hother
    by_cases heq : other.name = field.name
    · obtain rfl := List.inj_on_of_nodup_map hnames hother hfield heq
      simp only [pick, if_pos]
      exact ⟨hname, haccepts, hdistinct⟩
    · simp only [pick, if_neg heq]
      exact ⟨hname, ArgTy.accepts_sample hbase, distinctKeys_sampleFields _ hwf other hother⟩
  have hoffer : (Json.obj (offer pick tool.fields)).DistinctKeys :=
    distinctKeys_offer hnames fun other hother => (hpick other hother).2.2
  have hmodel : (ArgTy.model none tool.fields).Accepts (.obj (offer pick tool.fields)) :=
    React.accepts_offer hnames fun other hother => ⟨(hpick other hother).1, (hpick other hother).2.1⟩
  obtain ⟨args', hcheck⟩ := hagree.checkArgs hnodup htool hoffer hmodel
  obtain ⟨-, -, hvalid⟩ := checkArgs_eq_ok_iff.mp hcheck
  have hlookup : (offer pick tool.fields).lookup field.name = some value := by
    rw [lookup_offer hnames hfield]
    simp [pick]
  have hfieldValid := validateFields_iff.mp hvalid field hfield
  constructor
  · intro hnull
    rw [lookup_dropNulls hoffer.1 hlookup hnull] at hfieldValid
    simpa using hfieldValid
  · rintro rfl
    rw [lookup_dropNulls_null hoffer.1 hlookup] at hfieldValid
    simpa using hfieldValid

theorem Agree.sound (hfield : field ∈ tool.fields) : Sound field := by
  obtain ⟨hname, hbase⟩ := hagree.base_ne_model hnodup htool hfield
  refine ⟨hname, ?_, ?_⟩
  · by_contra hplain
    have hint : field.ty.base = .int := by
      unfold ArgTy.isPlain at hplain
      split at hplain
      next h => exact h
      next definition fields h => exact absurd h (hbase definition fields)
      next => exact absurd rfl hplain
    have hvalue : Json.float 1 ≠ .null := by simp
    have haccepts : field.ty.Accepts (field.ty.wrap (.float 1)) := by
      rw [ArgTy.accepts_wrap hvalue, hint]
      simp [ArgTy.Accepts, typeNames]
    have hpass := (hagree.validate_of_accepts hnodup htool hfield haccepts
      (ArgTy.distinctKeys_wrap (show (Json.float 1).DistinctKeys from trivial))).1
      (ArgTy.wrap_ne_null hvalue)
    rw [ArgTy.validate_wrap hvalue, hint] at hpass
    cases hpass
  · intro hoptional
    have haccepts : field.ty.Accepts .null := by
      cases hty : field.ty with
      | optional ty => exact .inr rfl
      | _ => simp [hty, ArgTy.isOptional] at hoptional
    exact (hagree.validate_of_accepts hnodup htool hfield haccepts trivial).2 rfl

end Needed

/-- **The schema and the parser agree** on the tools if and only if every field is read as its schema describes it. -/
theorem agree_iff (hnodup : (tools.map (·.name)).Nodup) :
    Agree tools ↔ ∀ tool ∈ tools, ∀ field ∈ tool.fields, Sound field :=
  ⟨fun hagree _ htool _ hfield => hagree.sound hnodup htool hfield, agree_of_sound hnodup⟩

/-- A tool with a text, some tags and a flag that may be left out. -/
def noteTool : SgrTool where
  name := "add_note"
  description := ""
  fields := [⟨"text", false, .str⟩, ⟨"tags", true, .list .str⟩, ⟨"pinned", true, .optional .bool⟩]
  defs := []
  wellFormed := by
    refine ⟨by simp, by simp, ?_, trivial, trivial, trivial, trivial⟩
    simp only [List.forall_mem_cons]
    exact ⟨by decide, by decide, by decide, List.forall_mem_nil _⟩

theorem agree_note : Agree [noteTool] := by
  refine (agree_iff (by simp)).mpr ?_
  simp [noteTool, Sound, ArgTy.isPlain, ArgTy.base, ArgTy.isOptional]

/-- A tool with a field that may be null and has no default. -/
def moveTool : SgrTool where
  name := "move_task"
  description := ""
  fields := [⟨"due", false, .optional .str⟩]
  defs := []
  wellFormed := by
    refine ⟨by simp, by simp, ?_, trivial, trivial⟩
    simp only [List.forall_mem_cons]
    exact ⟨by decide, List.forall_mem_nil _⟩

/-- The null of a required field is valid, and taken off before the arguments are checked. -/
theorem required_null_rejected : ([moveTool].map (·.name)).Nodup ∧
    (∃ schema, buildWireSchema [moveTool] "flat" = .ok schema ∧
      valid schema (.obj (actReply moveTool [("due", .null)])) = true) ∧
    parseSgrReply (.ok (.obj (actReply moveTool [("due", .null)]))) false [moveTool] =
      .error (.argsInvalid "ValidationError") := by
  have hnodup : ([moveTool].map (·.name)).Nodup := by simp
  refine ⟨hnodup, ⟨_, rfl, ?_⟩, ?_⟩
  · have haccepts : (ArgTy.model none moveTool.fields).Accepts (.obj [("due", .null)]) := by
      simp [moveTool, ArgTy.Accepts, FieldsAccept]
    obtain ⟨properties, hproperties, hvalid⟩ := stepClosed_actReply List.mem_cons_self haccepts
    exact valid_anyOf.mpr ⟨_, List.mem_map_of_mem hproperties, hvalid⟩
  · rw [parseSgrReply_actReply hnodup List.mem_cons_self]
    rfl

end Sreda.React
