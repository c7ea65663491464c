import Mathlib.Data.Finset.Card
import Mathlib.Data.List.TakeWhile
import Sreda.Lib.PyText

/-!
# The policy of a turn

`runtime/react_policy.py`, `compute_unified_policy`: which domains a turn may read and which it may write
without a confirmation, from the words of the user, the route, what the turn before has opened, and the
verdicts of two classifiers that ask a model. With it `compute_allowed_domains` of `runtime/react_preflight.py`
and `read_cue_domains` and `read_cue_groups` of `runtime/react_signals.py`.

The detectors of a text are any. Written out are the patterns that the groups are made of twice, once as a
cue and once as the qualifier of a list: the words for reminders and for tasks. Sorted lists of domains are
sets here.

## What is proved

* a group that the cues ask for has its domains among the cues (`readCueGroups_subset`): a list of reminders
  is a cue for reminders, too (`reminders_agree`);
* what the subtraction of a verdict leaves (`mem_subtractGroups`);
* the policy is safe about writes, and a verdict takes from the readable domains only what another reading of
  one group would have meant (`unified_policy_safe`); what a model has opened is not spared (`opened_then_taken`).
-/

namespace Sreda.React

open Sreda.Lib.PyText (Text isSpace lowerChar lowerChar_space)

/-! ### Routes and verdicts -/

/-- `RouteResult`. -/
structure RouteResult where
  allDomains : List String
  compoundByConnector : Bool
  crossIntent : Option String
  deriving DecidableEq

/-- The values of `DomainClassResult.confidence`. -/
inductive Confidence where
  | high | low
  deriving DecidableEq

/-- `DomainClassResult`. -/
structure DomainClassResult where
  domains : List String
  confidence : Confidence
  deriving DecidableEq

/-- `_CROSS_INTENT_POLICY`. -/
def crossIntentPolicy (intent : String) : Option (Finset String × Finset String) :=
  if intent = "menu_to_shopping" then some ({"menu", "shopping"}, {"shopping"}) else none

/-- `compute_allowed_domains`: what may be read and what may be written. -/
def computeAllowedDomains (route : RouteResult) (classified : Option DomainClassResult) : Finset String × Finset String :=
  match route.crossIntent.bind crossIntentPolicy with
  | some policy => policy
  | none =>
    if route.allDomains.length = 1 then (route.allDomains.toFinset, route.allDomains.toFinset)
    else if 2 ≤ route.allDomains.length then (route.allDomains.toFinset, ∅)
    else
      match classified with
      | some verdict =>
        if verdict.domains ≠ [] ∧ verdict.confidence = .high then (verdict.domains.toFinset, verdict.domains.toFinset)
        else (∅, ∅)
      | none => (∅, ∅)

/-! ### The cues of a text -/

/-- The patterns of `_READ_CUES`. -/
inductive ReadCue where
  | reminders | tasks | checklists | lists | shopping | memory | menu | recipes
  deriving DecidableEq

/-- The domains of a pattern. -/
def ReadCue.domains : ReadCue → Finset String
  | reminders => {"reminders"}
  | tasks => {"tasks"}
  | checklists => {"checklists"}
  | lists => {"checklists", "shopping"}
  | shopping => {"shopping"}
  | memory => {"memory"}
  | menu => {"menu"}
  | recipes => {"recipes"}

/-- `_READ_CUES`. -/
def readCues : List ReadCue := [.reminders, .tasks, .checklists, .lists, .shopping, .memory, .menu, .recipes]

/-- The detectors of a text, and the characters of a word. -/
structure Detectors where
  writeCommandSignal : Text → Bool
  declarativeMemorySignal : Text → Bool
  /-- The other patterns of `_READ_CUES`. -/
  cue : ReadCue → Text → Bool
  /-- `\\w`. -/
  isWord : Char → Bool
  isWord_space : ∀ c, isSpace c = true → isWord c = false
  isWord_letter : ∀ c, 'а' ≤ lowerChar c → lowerChar c ≤ 'я' → isWord c = true

/-- A literal without regard to the case at the front of a text: what is left. -/
def literal : List Char → Text → Option Text
  | [], s => some s
  | _ :: _, [] => none
  | p :: ps, c :: s => if lowerChar c = p then literal ps s else none

/-- `re.search`: a pattern that looks at the character before it and at the text after it. -/
def searchFrom (pattern : Option Char → Text → Bool) : Option Char → Text → Bool
  | before, [] => pattern before []
  | before, c :: s => pattern before (c :: s) || searchFrom pattern (some c) s

section Texts

variable (D : Detectors)

/-- `\b`. -/
def Detectors.boundary (before : Option Char) (s : Text) : Bool := before.any D.isWord != s.head?.any D.isWord

/-- `\bнапоминани`. -/
def remindersCue (before : Option Char) (s : Text) : Bool :=
  D.boundary before s && (literal "напоминани".toList s).isSome

/-- `\bзадач(?!ник|к)`. -/
def tasksCue (before : Option Char) (s : Text) : Bool :=
  D.boundary before s && (literal "задач".toList s).any fun rest =>
    (literal "ник".toList rest).isNone && (literal "к".toList rest).isNone

/-- `pat.search(t)`. -/
def cueMatches (text : Text) : ReadCue → Bool
  | .reminders => searchFrom (remindersCue D) none text
  | .tasks => searchFrom (tasksCue D) none text
  | cue => D.cue cue text

/-- `read_cue_domains`. -/
def readCueDomains (text : Text) : Finset String :=
  ((readCues.filter (cueMatches D text)).map ReadCue.domains).foldr (· ∪ ·) ∅

/-- `_LIST_TOKEN_RE` at the front of a text: what comes after the word. -/
def listToken (s : Text) : Option Text :=
  ((literal "список".toList s).or (literal "списк".toList s)).map (·.dropWhile D.isWord)

/-- `_LIST_TOKEN_RE.finditer`: what comes after each list; `skip` characters belong to the last one. -/
def listTails (skip : ℕ) : Text → List Text
  | [] => []
  | c :: s =>
    if 0 < skip then listTails (skip - 1) s
    else
      match listToken D (c :: s) with
      | some rest => rest :: listTails (s.length - rest.length) s
      | none => listTails 0 s

/-- `_LIST_QUALIFIER_TAIL_RE` and `_LIST_QUALIFIER_DOMAIN`: a word, whether it ends there, and its domain. -/
def listQualifiers : List (Text × Bool × String) :=
  [("задач".toList, false, "tasks"), ("дел".toList, true, "checklists"), ("покупок".toList, false, "shopping"),
    ("покупк".toList, false, "shopping"), ("напоминани".toList, false, "reminders")]

/-- The domain of the word that qualifies a list. -/
def listQualifier : Text → Option String
  | [] => none
  | c :: s =>
    if isSpace c then
      let s := s.dropWhile isSpace
      (listQualifiers.find? fun q => (literal q.1 s).any fun rest => !q.2.1 || D.boundary q.1.getLast? rest).map (·.2.2)
    else none

/-- `_LIST_AMBIGUOUS`. -/
def listAmbiguous : Finset String := {"checklists", "shopping"}

/-- `read_cue_groups`. -/
def readCueGroups (text : Text) : List (Finset String) :=
  let groups := (readCues.filter (cueMatches D text)).map ReadCue.domains
  if listAmbiguous ∉ groups then groups
  else
    let tails := (listTails D 0 text).map (listQualifier D)
    let qualified : List (Finset String) := tails.filterMap fun domain => domain.map fun domain => {domain}
    let ambiguousPresent := tails.any (·.isNone)
    groups.flatMap fun group =>
      if group = listAmbiguous then (if ambiguousPresent || qualified.isEmpty then [group] else []) ++ qualified
      else [group]

end Texts

/-! ### The policy -/

/-- How a verdict of the disambiguator is taken. -/
inductive DisambigKind where
  | subtract | add
  deriving DecidableEq

/-- What the policy rests on. -/
structure PolicySignals where
  writeCmd : Bool
  declarative : Bool
  readCues : Finset String
  stickyMemory : Bool
  turnContinuation : Finset String
  llmDomains : Finset String
  /-- Absent without a disambiguator. -/
  disambig : Option (Option DisambigKind × Finset String)
  deriving DecidableEq

/-- What `compute_unified_policy` returns. -/
structure UnifiedPolicy where
  allowedRead : Finset String
  allowedWrite : Finset String
  confirmWrite : Bool
  signals : PolicySignals
  deriving DecidableEq

/-- What a turn is judged by, the verdicts apart. -/
structure TurnInput where
  text : Text
  route : RouteResult
  baseWeb : Bool
  stickyMemoryWrite : Bool
  prevOpenDomains : Finset String
  deriving DecidableEq

section Policy

variable (D : Detectors) (turn : TurnInput)

/-- The series of the turn before goes on: no command for another domain. -/
def stickyApplied : Bool :=
  turn.stickyMemoryWrite && !(D.writeCommandSignal turn.text && decide ("memory" ∉ turn.route.allDomains))

/-- The open turn goes on: a message without a topic of its own. -/
def turnContinuation : Finset String :=
  if turn.route.allDomains = [] ∧ readCueDomains D turn.text = ∅ ∧ stickyApplied D turn = false then turn.prevOpenDomains
  else ∅

/-- `allowed_write`. -/
def allowedWrite : Finset String :=
  let command := if D.writeCommandSignal turn.text then (computeAllowedDomains turn.route none).2.erase "memory" else ∅
  let declared := if D.declarativeMemorySignal turn.text then insert "memory" command else command
  let sticky := if stickyApplied D turn then insert "memory" declared else declared
  sticky ∪ turnContinuation D turn

/-- The domains of a verdict, when it is sure. -/
def llmDomains (classified : Option DomainClassResult) : Finset String :=
  match classified with
  | some verdict => if verdict.confidence = .high then verdict.domains.toFinset else ∅
  | none => ∅

/-- `allowed_read` before the disambiguator. -/
def openedRead (classified : Option DomainClassResult) : Finset String :=
  (if turn.baseWeb then {"web"} else ∅) ∪ readCueDomains D turn.text ∪ allowedWrite D turn ∪ llmDomains classified

/-- The domains of the groups but one. -/
def otherGroups (groups : List (Finset String)) (i : ℕ) : Finset String := (groups.eraseIdx i).foldr (· ∪ ·) ∅

/-- A verdict reads a group that has several readings. -/
def ReadsGroup (verdict group : Finset String) : Prop := 1 < group.card ∧ verdict ∩ group ≠ ∅

instance (verdict group : Finset String) : Decidable (ReadsGroup verdict group) :=
  inferInstanceAs (Decidable (_ ∧ _))

/-- What a verdict takes from one group. -/
def takenFrom (groups : List (Finset String)) (verdict write : Finset String) (group : Finset String × ℕ) : Finset String :=
  if ReadsGroup verdict group.1 then ((group.1 \ verdict) \ write) \ otherGroups groups group.2 else ∅

/-- The subtraction, group by group. -/
def subtractGroups (groups : List (Finset String)) (verdict write read : Finset String) : Finset String :=
  groups.zipIdx.foldl (fun read group => read \ takenFrom groups verdict write group) read

/-- The verdict of the disambiguator is looked at. -/
def Decisive (route : RouteResult) (verdict : DomainClassResult) : Prop :=
  verdict.confidence = .high ∧ verdict.domains.length = 1 ∧ route.compoundByConnector = false ∧ route.crossIntent = none

instance (route : RouteResult) (verdict : DomainClassResult) : Decidable (Decisive route verdict) :=
  inferInstanceAs (Decidable (_ ∧ _ ∧ _ ∧ _))

/-- How the verdict is taken: a domain that nothing else has raised is not followed. -/
def disambigKind (disambiguator : Option DomainClassResult) : Option DisambigKind :=
  match disambiguator with
  | none => none
  | some verdict =>
    if Decisive turn.route verdict then
      if verdict.domains.toFinset ⊆ turn.route.allDomains.toFinset ∪ readCueDomains D turn.text then some .subtract
      else some .add
    else none

/-- `allowed_read`. -/
def allowedRead (classified disambiguator : Option DomainClassResult) : Finset String :=
  match disambiguator with
  | some verdict =>
    if disambigKind D turn (some verdict) = some .subtract then
      subtractGroups ((readCueGroups D turn.text).map (·.erase "web")) verdict.domains.toFinset (allowedWrite D turn)
        (openedRead D turn classified)
    else openedRead D turn classified
  | none => openedRead D turn classified

/-- `compute_unified_policy`. -/
def computeUnifiedPolicy (classified disambiguator : Option DomainClassResult) : UnifiedPolicy where
  allowedRead := allowedRead D turn classified disambiguator
  allowedWrite := allowedWrite D turn
  confirmWrite := true
  signals :=
    { writeCmd := D.writeCommandSignal turn.text
      declarative := D.declarativeMemorySignal turn.text
      readCues := readCueDomains D turn.text
      stickyMemory := stickyApplied D turn
      turnContinuation := turnContinuation D turn
      llmDomains := llmDomains classified
      disambig := disambiguator.map fun verdict =>
        (disambigKind D turn disambiguator, if Decisive turn.route verdict then verdict.domains.toFinset else ∅) }

end Policy

/-! ### Cues and groups -/

variable {s rest : Text} {group : Finset String}

section Cues

variable {D : Detectors} {text : Text}

theorem literal_cons {p : Char} {ps : List Char} (h : literal (p :: ps) s = some rest) :
    ∃ c s', s = c :: s' ∧ lowerChar c = p ∧ literal ps s' = some rest := by
  cases s with
  | nil => simp [literal] at h
  | cons c s' =>
    rw [literal] at h
    split at h
    next hc => exact ⟨c, s', rfl, hc, h⟩
    · cases h

theorem literal_suffix {word : List Char} (h : literal word s = some rest) : rest <:+ s := by
  induction word generalizing s with
  | nil => exact Option.some.inj h ▸ List.suffix_rfl
  | cons p ps ih =>
    obtain ⟨c, s', rfl, -, hrest⟩ := literal_cons h
    exact (ih hrest).trans (List.suffix_cons c s')

theorem searchFrom_here {pattern : Option Char → Text → Bool} {before : Option Char}
    (h : pattern before s = true) : searchFrom pattern before s = true := by
  cases s with
  | nil => exact h
  | cons c s => rw [searchFrom, h, Bool.true_or]

/-- A pattern that matches after a character of the text is found. -/
theorem searchFrom_after {pattern : Option Char → Text → Bool} {before : Option Char} {front : Text} {c : Char}
    (h : pattern (some c) s = true) : searchFrom pattern before (front ++ c :: s) = true := by
  induction front generalizing before with
  | nil => rw [List.nil_append, searchFrom, searchFrom_here h, Bool.or_true]
  | cons d front ih => rw [List.cons_append, searchFrom, ih, Bool.or_true]

theorem listToken_suffix (h : listToken D s = some rest) : rest <:+ s := by
  obtain ⟨tail, htail, rfl⟩ := Option.map_eq_some_iff.mp h
  refine (List.dropWhile_suffix _).trans ?_
  rcases Option.or_eq_some_iff.mp htail with hword | ⟨-, hword⟩ <;> exact literal_suffix hword

theorem listTails_suffix {skip : ℕ} (h : rest ∈ listTails D skip text) : rest <:+ text := by
  induction text generalizing skip with
  | nil => cases h
  | cons c s ih =>
    rw [listTails] at h
    split at h
    · exact (ih h).trans (List.suffix_cons c s)
    split at h
    next tail htail =>
      rcases List.mem_cons.mp h with rfl | h
      · exact listToken_suffix htail
      · exact (ih h).trans (List.suffix_cons c s)
    · exact (ih h).trans (List.suffix_cons c s)

theorem listQualifier_mem {domain : String} (h : listQualifier D s = some domain) :
    domain = "tasks" ∨ domain = "checklists" ∨ domain = "shopping" ∨ domain = "reminders" := by
  cases s with
  | nil => cases h
  | cons c s =>
    rw [listQualifier] at h
    split at h
    · obtain ⟨q, hq, rfl⟩ := Option.map_eq_some_iff.mp h
      have hmem := List.mem_of_find?_eq_some hq
      simp only [listQualifiers, List.mem_cons, List.not_mem_nil, or_false] at hmem
      rcases hmem with rfl | rfl | rfl | rfl | rfl <;> simp
    · cases h

/-- A list of reminders: white space, then the word. -/
theorem listQualifier_reminders (h : listQualifier D s = some "reminders") :
    ∃ front c rest, s = front ++ c :: rest ∧ isSpace c = true ∧ (literal "напоминани".toList rest).isSome := by
  cases s with
  | nil => cases h
  | cons c s =>
    rw [listQualifier] at h
    split at h
    next hc =>
      obtain ⟨q, hq, hdomain⟩ := Option.map_eq_some_iff.mp h
      have hmem := List.mem_of_find?_eq_some hq
      have hmatch := List.find?_some hq
      have hword : (literal "напоминани".toList (s.dropWhile isSpace)).isSome := by
        simp only [listQualifiers, List.mem_cons, List.not_mem_nil, or_false] at hmem
        rcases hmem with rfl | rfl | rfl | rfl | rfl
        · exact absurd hdomain (by decide)
        · exact absurd hdomain (by decide)
        · exact absurd hdomain (by decide)
        · exact absurd hdomain (by decide)
        · obtain ⟨rest, hrest, -⟩ := (Option.any_eq_true _ _).mp hmatch
          exact Option.isSome_iff_exists.mpr ⟨rest, hrest⟩
      -- the last of the white space stands before the word
      have hspaces : ∀ d ∈ c :: s.takeWhile isSpace, isSpace d = true := by
        intro d hd
        rcases List.mem_cons.mp hd with rfl | hd
        · exact hc
        · exact List.mem_takeWhile_imp hd
      obtain ⟨front, d, hfront⟩ := (List.eq_nil_or_concat (c :: s.takeWhile isSpace)).resolve_left (by simp)
      refine ⟨front, d, s.dropWhile isSpace, ?_, hspaces d (by simp [hfront]), hword⟩
      have happend := congrArg (· ++ s.dropWhile isSpace) hfront
      simpa using happend
    · cases h

theorem literal_reminders (h : (literal "напоминани".toList s).isSome) : ∃ c s', s = c :: s' ∧ lowerChar c = 'н' := by
  have hword : "напоминани".toList = 'н' :: "апоминани".toList := by decide
  rw [hword] at h
  obtain ⟨rest, hrest⟩ := Option.isSome_iff_exists.mp h
  obtain ⟨c, s', rfl, hc, -⟩ := literal_cons hrest
  exact ⟨c, s', rfl, hc⟩

/-- **A list of reminders is a cue for reminders**: the word stands after white space. -/
theorem reminders_agree (h : ∃ tail ∈ listTails D 0 text, listQualifier D tail = some "reminders") :
    cueMatches D text .reminders = true := by
  obtain ⟨tail, htail, hqualifier⟩ := h
  obtain ⟨pre, rfl⟩ := listTails_suffix htail
  obtain ⟨front, c, rest, rfl, hc, hword⟩ := listQualifier_reminders hqualifier
  have hhere : remindersCue D (some c) rest = true := by
    obtain ⟨d, rest', rfl, hd⟩ := literal_reminders hword
    have hletter : D.isWord d = true := D.isWord_letter d (by rw [hd]; decide) (by rw [hd]; decide)
    rw [remindersCue, hword, Bool.and_true]
    simp [Detectors.boundary, D.isWord_space c hc, hletter]
  rw [cueMatches, ← List.append_assoc]
  exact searchFrom_after hhere

theorem mem_union {groups : List (Finset String)} {domain : String} :
    domain ∈ groups.foldr (· ∪ ·) ∅ ↔ ∃ group ∈ groups, domain ∈ group := by
  induction groups with
  | nil => simp
  | cons group groups ih => simp [ih]

theorem ReadCue.domains_nonempty (cue : ReadCue) : cue.domains.Nonempty := by cases cue <;> decide

theorem ReadCue.web_not_mem (cue : ReadCue) : "web" ∉ cue.domains := by cases cue <;> decide

/-- A group is the group of a pattern that matches, or a domain that qualifies a list. -/
theorem readCueGroups_cases (h : group ∈ readCueGroups D text) :
    (∃ cue, cue ∈ readCues ∧ cueMatches D text cue = true ∧ group = cue.domains) ∨
      (listAmbiguous ∈ (readCues.filter (cueMatches D text)).map ReadCue.domains ∧
        ∃ tail ∈ listTails D 0 text, ∃ domain, listQualifier D tail = some domain ∧ group = {domain}) := by
  have hpattern : ∀ {g}, g ∈ (readCues.filter (cueMatches D text)).map ReadCue.domains →
      ∃ cue, cue ∈ readCues ∧ cueMatches D text cue = true ∧ g = cue.domains := by
    intro g hg
    obtain ⟨cue, hcue, rfl⟩ := List.mem_map.mp hg
    exact ⟨cue, (List.mem_filter.mp hcue).1, (List.mem_filter.mp hcue).2, rfl⟩
  simp only [readCueGroups] at h
  split at h
  · exact .inl (hpattern h)
  next hambiguous =>
    obtain ⟨g, hg, hgroup⟩ := List.mem_flatMap.mp h
    split at hgroup
    · rcases List.mem_append.mp hgroup with hgroup | hgroup
      · split at hgroup
        · exact .inl (hpattern (List.mem_singleton.mp hgroup ▸ hg))
        · cases hgroup
      · obtain ⟨qualifier, hqualifier, heq⟩ := List.mem_filterMap.mp hgroup
        obtain ⟨tail, htail, rfl⟩ := List.mem_map.mp hqualifier
        obtain ⟨domain, hdomain, rfl⟩ := Option.map_eq_some_iff.mp heq
        exact .inr ⟨not_not.mp hambiguous, tail, htail, domain, hdomain, rfl⟩
    · exact .inl (hpattern (List.mem_singleton.mp hgroup ▸ hg))

theorem mem_readCueDomains {domain : String} :
    domain ∈ readCueDomains D text ↔ ∃ cue ∈ readCues, cueMatches D text cue = true ∧ domain ∈ cue.domains := by
  simp only [readCueDomains, mem_union, List.mem_map, List.mem_filter]
  constructor
  · rintro ⟨_, ⟨cue, ⟨hcue, hmatch⟩, rfl⟩, hdomain⟩
    exact ⟨cue, hcue, hmatch, hdomain⟩
  · rintro ⟨cue, hcue, hmatch, hdomain⟩
    exact ⟨_, ⟨cue, ⟨hcue, hmatch⟩, rfl⟩, hdomain⟩

/-- **Groups and cues agree**, but for a list of tasks that is no cue for tasks. -/
theorem readCueGroups_subset (h : group ∈ readCueGroups D text)
    (htasks : group = {"tasks"} → "tasks" ∈ readCueDomains D text) : group ⊆ readCueDomains D text := by
  rcases readCueGroups_cases h with ⟨cue, hcue, hmatch, rfl⟩ | ⟨hambiguous, tail, htail, domain, hdomain, rfl⟩
  · exact fun domain hdomain => mem_readCueDomains.mpr ⟨cue, hcue, hmatch, hdomain⟩
  · have hlists : listAmbiguous ⊆ readCueDomains D text := by
      obtain ⟨cue, hcue, heq⟩ := List.mem_map.mp hambiguous
      obtain ⟨hmem, hmatch⟩ := List.mem_filter.mp hcue
      exact fun domain hdomain => mem_readCueDomains.mpr ⟨cue, hmem, hmatch, heq ▸ hdomain⟩
    rw [Finset.singleton_subset_iff]
    rcases listQualifier_mem hdomain with rfl | rfl | rfl | rfl
    · exact htasks rfl
    · exact hlists (by decide)
    · exact hlists (by decide)
    · exact mem_readCueDomains.mpr ⟨.reminders, by decide, reminders_agree ⟨tail, htail, hdomain⟩, by decide⟩

theorem readCueGroups_nonempty (h : group ∈ readCueGroups D text) : group.Nonempty ∧ "web" ∉ group := by
  rcases readCueGroups_cases h with ⟨cue, -, -, rfl⟩ | ⟨-, tail, -, domain, hdomain, rfl⟩
  · exact ⟨cue.domains_nonempty, cue.web_not_mem⟩
  · refine ⟨Finset.singleton_nonempty domain, ?_⟩
    rcases listQualifier_mem hdomain with rfl | rfl | rfl | rfl <;> decide

end Cues

/-! ### The subtraction -/

section Subtraction

variable {groups : List (Finset String)} {verdict write read : Finset String} {domain : String}

theorem mem_foldl_sdiff {α : Type*} (taken : α → Finset String) (steps : List α) :
    domain ∈ steps.foldl (fun read step => read \ taken step) read ↔ domain ∈ read ∧ ∀ step ∈ steps, domain ∉ taken step := by
  induction steps generalizing read with
  | nil => simp
  | cons step steps ih => simp [ih, and_assoc]

/-- The subtraction leaves what is taken from no group. -/
theorem mem_subtractGroups :
    domain ∈ subtractGroups groups verdict write read ↔
      domain ∈ read ∧ ∀ i (h : i < groups.length), domain ∉ takenFrom groups verdict write (groups[i], i) := by
  rw [subtractGroups, mem_foldl_sdiff]
  refine and_congr_right fun _ => ⟨fun h i hi => h _ (List.mem_zipIdx_iff_getElem?.mpr (List.getElem?_eq_getElem hi)), ?_⟩
  rintro h ⟨group, i⟩ hmem
  have hget : groups[i]? = some group := List.mem_zipIdx_iff_getElem?.mp hmem
  obtain ⟨hi, rfl⟩ := List.getElem?_eq_some_iff.mp hget
  exact h i hi

theorem mem_otherGroups {i : ℕ} :
    domain ∈ otherGroups groups i ↔ ∃ j, ∃ h : j < groups.length, j ≠ i ∧ domain ∈ groups[j] := by
  rw [otherGroups, mem_union]
  constructor
  · rintro ⟨group, hgroup, hdomain⟩
    obtain ⟨j, hne, hj⟩ := List.mem_eraseIdx_iff_getElem?.mp hgroup
    obtain ⟨hlt, rfl⟩ := List.getElem?_eq_some_iff.mp hj
    exact ⟨j, hlt, hne, hdomain⟩
  · rintro ⟨j, hlt, hne, hdomain⟩
    exact ⟨groups[j], List.mem_eraseIdx_iff_getElem?.mpr ⟨j, hne, List.getElem?_eq_getElem hlt⟩, hdomain⟩

/-- What is taken from a group: a domain of it that no other group has. -/
theorem mem_takenFrom {i : ℕ} (hi : i < groups.length) :
    domain ∈ takenFrom groups verdict write (groups[i], i) ↔
      ReadsGroup verdict groups[i] ∧ domain ∈ groups[i] ∧ domain ∉ verdict ∧ domain ∉ write ∧
        ∀ j (h : j < groups.length), domain ∈ groups[j] → j = i := by
  rw [takenFrom]
  split
  next hreads =>
    simp only [Finset.mem_sdiff, mem_otherGroups, hreads, true_and, and_assoc, not_exists, not_and]
    refine and_congr_right fun _ => and_congr_right fun _ => and_congr_right fun _ => forall_congr' fun j => ?_
    refine forall_congr' fun hj => ?_
    exact ⟨fun h hdomain => by_contra fun hne => h hne hdomain, fun h hne hdomain => hne (h hdomain)⟩
  next hreads => simp [hreads]

/-- **A group keeps a domain**: the one of the verdict, or one that a group that the verdict reads does not have alone. -/
theorem subtractGroups_keeps {i : ℕ} (hi : i < groups.length) (hne : groups[i].Nonempty) (hread : groups[i] ⊆ read) :
    ∃ domain ∈ groups[i], domain ∈ subtractGroups groups verdict write read := by
  by_cases hverdict : ReadsGroup verdict groups[i]
  · obtain ⟨domain, hdomain⟩ := Finset.nonempty_iff_ne_empty.mpr hverdict.2
    obtain ⟨hin, hgroup⟩ := Finset.mem_inter.mp hdomain
    refine ⟨domain, hgroup, mem_subtractGroups.mpr ⟨hread hgroup, fun j hj htaken => ?_⟩⟩
    exact ((mem_takenFrom hj).mp htaken).2.2.1 hin
  · obtain ⟨domain, hgroup⟩ := hne
    refine ⟨domain, hgroup, mem_subtractGroups.mpr ⟨hread hgroup, fun j hj htaken => ?_⟩⟩
    obtain ⟨hreads, -, -, -, honly⟩ := (mem_takenFrom hj).mp htaken
    obtain rfl := honly i hi hgroup
    exact hverdict hreads

end Subtraction

/-! ### What the policy guarantees -/

section Guarantees

variable (D : Detectors) (turn : TurnInput)

/-- What holds of the policy of a turn, whatever the verdicts. -/
structure PolicyGuarantees : Prop where
  /-- No verdict opens a write. -/
  write_alone : ∀ classified disambiguator, (computeUnifiedPolicy D turn classified disambiguator).allowedWrite =
    (computeUnifiedPolicy D turn none none).allowedWrite
  write_read : ∀ classified disambiguator, (computeUnifiedPolicy D turn classified disambiguator).allowedWrite ⊆
    (computeUnifiedPolicy D turn classified disambiguator).allowedRead
  /-- The disambiguator takes away only. -/
  takes : ∀ classified disambiguator, (computeUnifiedPolicy D turn classified disambiguator).allowedRead ⊆
    (computeUnifiedPolicy D turn classified none).allowedRead
  /-- What it takes may not be written, and one group alone asks for it, which has a reading by the verdict. -/
  taken : ∀ classified disambiguator, ∀ domain ∈ (computeUnifiedPolicy D turn classified none).allowedRead,
    domain ∉ (computeUnifiedPolicy D turn classified (some disambiguator)).allowedRead →
    domain ∉ allowedWrite D turn ∧ domain ∉ disambiguator.domains ∧
      ∃ i, ∃ h : i < (readCueGroups D turn.text).length, domain ∈ (readCueGroups D turn.text)[i] ∧
        ReadsGroup disambiguator.domains.toFinset (readCueGroups D turn.text)[i] ∧
        ∀ j (hj : j < (readCueGroups D turn.text).length), domain ∈ (readCueGroups D turn.text)[j] → j = i
  /-- A group keeps a domain, a list of tasks without a cue for tasks apart. -/
  keeps : ∀ classified disambiguator, ∀ group ∈ readCueGroups D turn.text,
    (group = {"tasks"} → "tasks" ∈ readCueDomains D turn.text) →
    ∃ domain ∈ group, domain ∈ (computeUnifiedPolicy D turn classified disambiguator).allowedRead

variable {D turn}

theorem erase_web (text : Text) : (readCueGroups D text).map (·.erase "web") = readCueGroups D text := by
  conv_rhs => rw [← List.map_id (readCueGroups D text)]
  exact List.map_congr_left fun group hgroup => Finset.erase_eq_of_notMem (readCueGroups_nonempty hgroup).2

theorem allowedRead_some (classified : Option DomainClassResult) (disambiguator : DomainClassResult) :
    allowedRead D turn classified (some disambiguator) =
      if disambigKind D turn (some disambiguator) = some .subtract then
        subtractGroups (readCueGroups D turn.text) disambiguator.domains.toFinset (allowedWrite D turn) (openedRead D turn classified)
      else openedRead D turn classified := by
  rw [allowedRead, erase_web]

theorem allowedRead_subset (classified disambiguator : Option DomainClassResult) :
    allowedRead D turn classified disambiguator ⊆ openedRead D turn classified := by
  cases disambiguator with
  | none => exact fun _ h => h
  | some verdict =>
    rw [allowedRead_some]
    split
    · exact fun _ h => (mem_subtractGroups.mp h).1
    · exact fun _ h => h

theorem allowedWrite_subset_openedRead (classified : Option DomainClassResult) :
    allowedWrite D turn ⊆ openedRead D turn classified :=
  fun _ h => Finset.mem_union_left _ (Finset.mem_union_right _ h)

theorem readCueDomains_subset_openedRead (classified : Option DomainClassResult) :
    readCueDomains D turn.text ⊆ openedRead D turn classified :=
  fun _ h => Finset.mem_union_left _ (Finset.mem_union_left _ (Finset.mem_union_right _ h))

/-- A domain that a verdict has taken is one that it has taken from a group. -/
theorem taken_from_group {classified : Option DomainClassResult} {disambiguator : DomainClassResult} {domain : String}
    (hread : domain ∈ openedRead D turn classified) (htaken : domain ∉ allowedRead D turn classified (some disambiguator)) :
    ∃ i, ∃ h : i < (readCueGroups D turn.text).length,
      domain ∈ takenFrom (readCueGroups D turn.text) disambiguator.domains.toFinset (allowedWrite D turn)
        ((readCueGroups D turn.text)[i], i) := by
  rw [allowedRead_some] at htaken
  split at htaken
  · rw [mem_subtractGroups] at htaken
    by_contra hnone
    refine htaken ⟨hread, fun i hi hmem => hnone ⟨i, hi, hmem⟩⟩
  · exact absurd hread htaken

/-- **The policy is safe**: no verdict writes, and the disambiguator takes only the other readings of one group. -/
theorem unified_policy_safe (D : Detectors) (turn : TurnInput) : PolicyGuarantees D turn where
  write_alone _ _ := rfl
  write_read classified disambiguator domain hwrite := by
    change domain ∈ allowedRead D turn classified disambiguator
    by_contra hout
    have hread := allowedWrite_subset_openedRead classified hwrite
    cases disambiguator with
    | none => exact hout hread
    | some verdict =>
      obtain ⟨i, hi, hmem⟩ := taken_from_group hread hout
      exact ((mem_takenFrom hi).mp hmem).2.2.2.1 hwrite
  takes classified disambiguator := allowedRead_subset classified disambiguator
  taken classified disambiguator domain hread hout := by
    obtain ⟨i, hi, hmem⟩ := taken_from_group hread hout
    obtain ⟨hreads, hgroup, hverdict, hwrite, honly⟩ := (mem_takenFrom hi).mp hmem
    exact ⟨hwrite, fun h => hverdict (List.mem_toFinset.mpr h), i, hi, hgroup, hreads, honly⟩
  keeps classified disambiguator group hgroup htasks := by
    have hread := (readCueGroups_subset hgroup htasks).trans (readCueDomains_subset_openedRead classified)
    have hne := (readCueGroups_nonempty hgroup).1
    change ∃ domain ∈ group, domain ∈ allowedRead D turn classified disambiguator
    cases disambiguator with
    | none => exact hne.imp fun domain hdomain => ⟨hdomain, hread hdomain⟩
    | some verdict =>
      rw [allowedRead_some]
      split
      · obtain ⟨i, hi, rfl⟩ := List.getElem_of_mem hgroup
        exact subtractGroups_keeps hi hne hread
      · exact hne.imp fun domain hdomain => ⟨hdomain, hread hdomain⟩

end Guarantees

/-! ### A verdict against a verdict -/

theorem not_isSpace_space (c : Char) (h : isSpace c = true) : (!isSpace c) = false := by
  rw [h]
  rfl

theorem not_isSpace_letter (c : Char) (hlow : 'а' ≤ lowerChar c) (hhigh : lowerChar c ≤ 'я') : (!isSpace c) = true := by
  by_contra hspace
  rw [Bool.not_eq_true, Bool.not_eq_false'] at hspace
  rw [lowerChar_space hspace] at hlow hhigh
  have hlow : 0x430 ≤ c.toNat := hlow
  have hhigh : c.toNat ≤ 0x44F := hhigh
  simp only [isSpace, Bool.or_eq_true, Bool.and_eq_true, decide_eq_true_eq, beq_iff_eq] at hspace
  omega

/-- The detectors of a text that names a list and nothing else. -/
def listDetectors : Detectors where
  writeCommandSignal _ := false
  declarativeMemorySignal _ := false
  cue cue _ := decide (cue = .lists)
  isWord c := !isSpace c
  isWord_space := not_isSpace_space
  isWord_letter := not_isSpace_letter

/-- «мой список кино», an open turn apart. -/
def listTurn : TurnInput where
  text := "мой список кино".toList
  route := { allDomains := [], compoundByConnector := false, crossIntent := none }
  baseWeb := true
  stickyMemoryWrite := false
  prevOpenDomains := ∅

/-- What one verdict has opened, the other one takes. -/
theorem opened_then_taken :
    ¬ ∀ (D : Detectors) (turn : TurnInput) (classified : Option DomainClassResult) (disambiguator : DomainClassResult),
      ∀ domain ∈ (computeUnifiedPolicy D turn classified none).allowedRead,
        domain ∉ (computeUnifiedPolicy D turn classified (some disambiguator)).allowedRead →
        domain ∉ allowedWrite D turn ∧ domain ∉ llmDomains classified := by
  intro h
  have htaken := h listDetectors listTurn (some ⟨["shopping"], .high⟩) ⟨["checklists"], .high⟩ "shopping" (by decide) (by decide)
  exact htaken.2 (by decide)

end Sreda.React
