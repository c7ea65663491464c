import Sreda.Lib.Erase
import Sreda.Lib.PyText

/-!
# Scrubbing a reply

`strip_reasoning_prefix` takes three things out of a reply: a marker of the model's reasoning at the
beginning, tool calls that leaked into the text, and internal ids. Each pass runs once.

## What is proved

* applying it twice is applying it once exactly when the parts of the text that are left, joined,
  begin with neither white space nor a marker, and no call and no id begins in one of them and is
  read on into the next (`stripReasoningPrefix_idempotent_iff`).
-/

namespace Sreda.Services

open Sreda.Lib.PyText
open Sreda.Lib.Erase

/-! ## The patterns -/

/-- The letter that a character counts as when case is ignored. -/
def foldCase (c : Char) : Char :=
  let n := c.toNat
  if 0x41 ≤ n && n ≤ 0x5A then Char.ofNat (n + 32)
  else if n == 0x130 || n == 0x131 then 'i'
  else if n == 0x17F then 's'
  else if n == 0x212A then 'k'
  else c

/-- What follows a word, case ignored. -/
def afterWord : Text → Text → Option Text
  | [], t => some t
  | _ :: _, [] => none
  | a :: word, c :: t => if foldCase c = a then afterWord word t else none

/-- `_REASONING_PREFIXES`. -/
def reasoningPrefixes : List String :=
  ["thought", "thinking", "reasoning", "analysis", "internal", "reflect", "reflection"]

/-- What follows `\s*[:\n]\s*`. -/
def afterBreak (t : Text) : Option Text :=
  match t.dropWhile isSpace with
  | ':' :: rest => some (lstrip rest)
  | rest => if '\n' ∈ t.takeWhile isSpace then some rest else none

/-- What follows `_REASONING_PREFIX_RE` at the beginning. -/
def afterMarker (t : Text) : Option Text :=
  reasoningPrefixes.findSome? fun word => (afterWord word.toList t).bind afterBreak

/-- `_KNOWN_TOOL_NAMES`. -/
def knownToolNames : List String :=
  ["save_core_fact", "create_memory_category", "save_episode", "recall_memory", "get_checklist", "web_search",
   "fetch_url", "log_unsupported_request", "schedule_reminder", "cancel_reminder", "list_reminders", "list_shopping",
   "add_shopping_items", "remove_shopping_items", "mark_shopping_bought", "clear_bought_shopping",
   "update_shopping_item", "update_shopping_items_category", "search_recipes", "get_recipe", "save_recipe",
   "save_recipes_batch", "delete_recipe", "update_recipe", "plan_week_menu", "list_menu", "update_menu_item",
   "generate_shopping_from_menu", "clear_menu", "add_family_members", "remove_family_member", "update_family_member",
   "list_family_members", "add_task", "list_tasks", "update_task", "complete_task", "uncomplete_task", "cancel_task",
   "delete_task", "attach_reminder", "detach_reminder", "onboarding_answered", "onboarding_deferred",
   "onboarding_complete"]

/-- What follows `\([^)]*\)`. -/
def afterArgs : Text → Option Text
  | '(' :: args =>
    match args.dropWhile (· ≠ ')') with
    | _ :: rest => some rest
    | [] => none
  | _ => none

/-- What follows `_TOOL_CALL_ANYWHERE_RE`. -/
def afterCall (t : Text) : Option Text :=
  ["https://", "http://", "://", ""].findSome? fun scheme =>
    (afterWord scheme.toList t).bind fun t =>
      knownToolNames.findSome? fun name => (afterWord name.toList t).bind afterArgs

/-- What follows an optional character of a class. -/
def skipOne (p : Char → Bool) : Text → Text
  | [] => []
  | c :: t => if p c then t else c :: t

def isHexLower (c : Char) : Bool := c.isDigit || ('a' ≤ c && c ≤ 'f')

/-- The kinds of `_INTERNAL_ID_RE`. -/
def idKinds : List String := ["rec", "menu", "mpi", "sh", "ring", "ob", "run", "thread", "job", "evt"]

/-- What follows a kind, an underscore and at least eight digits. -/
def afterId (kind t : Text) : Option Text :=
  if (kind ++ ['_']).isPrefixOf t then
    let digits := t.drop (kind.length + 1)
    if 8 ≤ (digits.takeWhile isHexLower).length then some (digits.dropWhile isHexLower) else none
  else none

/-- What follows `_INTERNAL_ID_RE`. -/
def afterInternalId (t : Text) : Option Text :=
  (idKinds.findSome? fun kind => afterId kind.toList (skipOne (fun c => c == '[' || c == '(') (lstrip t))).map
    (skipOne fun c => c == ']' || c == ')')

/-! ### What a match consumes -/

variable {t rest : Text} {n : ℕ} {c : Char}

theorem afterWord_consumes {word : Text} (h : afterWord word t = some rest) :
    ∃ w, w.length = word.length ∧ t = w ++ rest := by
  induction word generalizing t with
  | nil =>
    cases h
    exact ⟨[], rfl, rfl⟩
  | cons a word ih =>
    cases t with
    | nil => cases h
    | cons c t =>
      rw [afterWord] at h
      split at h
      · obtain ⟨w, hw, rfl⟩ := ih h
        exact ⟨c :: w, by simp [hw], rfl⟩
      · cases h

theorem afterArgs_length (h : afterArgs t = some rest) : rest <:+ t ∧ rest.length < t.length := by
  rw [afterArgs.eq_def] at h
  split at h
  · rename_i args
    split at h
    · rename_i c r heq
      cases h
      have hdrop : c :: rest <:+ args := heq ▸ List.dropWhile_suffix _
      have hlen := hdrop.length_le
      refine ⟨(List.suffix_cons c rest).trans (hdrop.trans (List.suffix_cons '(' args)), ?_⟩
      rw [List.length_cons] at hlen ⊢
      omega
    · cases h
  · cases h

theorem skipOne_suffix (p : Char → Bool) (t : Text) : skipOne p t <:+ t := by
  cases t with
  | nil => exact List.suffix_rfl
  | cons c t =>
    rw [skipOne]
    split
    · exact List.suffix_cons c t
    · exact List.suffix_rfl

/-- A shorter suffix leaves something in front of it. -/
theorem exists_consumed (h : rest <:+ t) (hlen : rest.length < t.length) : ∃ w, w ≠ [] ∧ t = w ++ rest := by
  obtain ⟨w, rfl⟩ := h
  refine ⟨w, ?_, rfl⟩
  rintro rfl
  simp at hlen

theorem afterCall_consumes (h : afterCall t = some rest) : ∃ w, w ≠ [] ∧ t = w ++ rest := by
  obtain ⟨scheme, -, h⟩ := List.exists_of_findSome?_eq_some h
  obtain ⟨r, hr, h⟩ := Option.bind_eq_some_iff.1 h
  obtain ⟨name, -, h⟩ := List.exists_of_findSome?_eq_some h
  obtain ⟨q, hq, hargs⟩ := Option.bind_eq_some_iff.1 h
  obtain ⟨w, -, rfl⟩ := afterWord_consumes hr
  obtain ⟨v, -, rfl⟩ := afterWord_consumes hq
  obtain ⟨hsuffix, hlen⟩ := afterArgs_length hargs
  refine exists_consumed (hsuffix.trans ((List.suffix_append v q).trans (List.suffix_append w (v ++ q)))) ?_
  simp only [List.length_append]
  omega

theorem afterInternalId_consumes (h : afterInternalId t = some rest) : ∃ w, w ≠ [] ∧ t = w ++ rest := by
  obtain ⟨r, hr, rfl⟩ := Option.map_eq_some_iff.1 h
  obtain ⟨kind, -, hr⟩ := List.exists_of_findSome?_eq_some hr
  have hstart : skipOne (fun c => c == '[' || c == '(') (lstrip t) <:+ t :=
    (skipOne_suffix _ _).trans (List.dropWhile_suffix _)
  generalize skipOne (fun c => c == '[' || c == '(') (lstrip t) = u at hr hstart
  rw [afterId] at hr
  split at hr
  · rename_i hkind
    obtain ⟨d, rfl⟩ := List.isPrefixOf_iff_prefix.1 hkind
    simp only at hr
    split at hr
    · cases hr
      have hrest : skipOne (fun c => c == ']' || c == ')') (((kind.toList ++ ['_'] ++ d).drop
          (kind.toList.length + 1)).dropWhile isHexLower) <:+ d := by
        refine (skipOne_suffix _ _).trans ((List.dropWhile_suffix _).trans ?_)
        rw [List.drop_append_of_le_length (by simp)]
        simp
      refine exists_consumed (hrest.trans ((List.suffix_append _ _).trans hstart)) ?_
      have := hrest.length_le
      have := hstart.length_le
      simp only [List.length_append, List.length_singleton] at this ⊢
      omega
    · cases hr
  · cases hr

def toolCall : Matcher Char := ⟨afterCall, afterCall_consumes⟩

def internalId : Matcher Char := ⟨afterInternalId, afterInternalId_consumes⟩

/-! ## The passes -/

/-- `re.sub(r"\n{3,}", "\n\n", s)`, after a number of newlines. -/
def collapse : ℕ → Text → Text
  | _, [] => []
  | n, c :: t =>
    if c = '\n' then
      if n < 2 then c :: collapse (n + 1) t else collapse n t
    else c :: collapse 0 t

/-- `_strip_tool_call_syntax`. -/
def stripToolCallSyntax (t : Text) : Text := strip (collapse 0 (erase toolCall 0 t))

/-- The text after its marker. -/
def withoutMarker (t : Text) : Text := (afterMarker t).getD t

/-- `strip_reasoning_prefix`. -/
def stripReasoningPrefix (t : Text) : Text :=
  if t = [] then t else erase internalId 0 (stripToolCallSyntax (withoutMarker t))

/-! ### Newlines -/

/-- No run of more than two newlines, after a number of them. -/
def Calm : ℕ → Text → Prop
  | _, [] => True
  | n, c :: t => if c = '\n' then n < 2 ∧ Calm (n + 1) t else Calm 0 t

theorem calm_collapse (t : Text) : Calm n (collapse n t) := by
  induction t generalizing n with
  | nil => cases n <;> trivial
  | cons c t ih =>
    rw [collapse]
    split
    · split
      · rename_i hc hn
        rw [Calm, if_pos hc]
        exact ⟨hn, ih⟩
      · exact ih
    · rename_i hc
      rw [Calm, if_neg hc]
      exact ih

theorem Calm.mono {k : ℕ} (hle : k ≤ n) (h : Calm n t) : Calm k t := by
  induction t generalizing n k with
  | nil => cases k <;> trivial
  | cons c t ih =>
    rw [Calm] at h ⊢
    split
    · rename_i hc
      rw [if_pos hc] at h
      exact ⟨by omega, ih (Nat.succ_le_succ hle) h.2⟩
    · rename_i hc
      rwa [if_neg hc] at h

theorem Calm.tail (h : Calm n (c :: t)) : Calm 0 t := by
  rw [Calm] at h
  split at h
  · exact h.2.mono (Nat.zero_le _)
  · exact h

theorem Calm.of_append_right {s : Text} (h : Calm 0 (s ++ t)) : Calm 0 t := by
  induction s with
  | nil => exact h
  | cons c s ih => exact ih h.tail

theorem Calm.of_append_left {s : Text} (h : Calm n (s ++ t)) : Calm n s := by
  induction s generalizing n with
  | nil => cases n <;> trivial
  | cons c s ih =>
    rw [List.cons_append, Calm] at h
    rw [Calm]
    split
    · rename_i hc
      rw [if_pos hc] at h
      exact ⟨h.1, ih h.2⟩
    · rename_i hc
      rw [if_neg hc] at h
      exact ih h

/-- White space in front of an id belongs to the match. -/
theorem afterInternalId_space (hc : isSpace c = true) (t : Text) : afterInternalId (c :: t) = afterInternalId t := by
  have hstrip : lstrip (c :: t) = lstrip t := List.dropWhile_cons_of_pos hc
  rw [afterInternalId, afterInternalId, hstrip]

/-- So the newlines that are left were together before. -/
theorem calm_erase {k : ℕ} (h : Calm n t) (hn : n = 0 ∨ k = 0 ∧ afterInternalId t = none) :
    Calm n (erase internalId k t) := by
  induction t generalizing n k with
  | nil => cases k <;> cases n <;> trivial
  | cons c t ih =>
    cases k with
    | succ k =>
      obtain rfl : n = 0 := by simpa using hn
      exact ih h.tail (.inl rfl)
    | zero =>
      cases hafter : internalId.after (c :: t) with
      | some rest =>
        have hzero : n = 0 := by
          rcases hn with hn | ⟨-, hnone⟩
          · exact hn
          · cases hnone.symm.trans hafter
        subst hzero
        simp only [erase, hafter]
        exact ih h.tail (.inl rfl)
      | none =>
        rw [erase_cons_of_none hafter]
        rw [Calm] at h ⊢
        split
        · rename_i hc
          rw [if_pos hc] at h
          have hnone : afterInternalId t = none := (afterInternalId_space (by rw [hc]; rfl) t).symm.trans hafter
          exact ⟨h.1, ih h.2 (.inr ⟨rfl, hnone⟩)⟩
        · rename_i hc
          rw [if_neg hc] at h
          exact ih h (.inl rfl)

/-- And white space at the end was there before. -/
theorem getLast?_erase {k : ℕ} (hc : isSpace c = true)
    (h : (erase internalId k t).getLast? = some c) : t.getLast? = some c := by
  induction t generalizing k with
  | nil => cases k <;> cases h
  | cons d t ih =>
    have htail : t.getLast? = some c → (d :: t).getLast? = some c := by
      intro ht
      rw [List.getLast?_cons, ht]
      rfl
    cases k with
    | succ k => exact htail (ih h)
    | zero =>
      cases hafter : internalId.after (d :: t) with
      | some rest =>
        simp only [erase, hafter] at h
        exact htail (ih h)
      | none =>
        rw [erase_cons_of_none hafter, List.getLast?_cons] at h
        cases hlast : (erase internalId 0 t).getLast? with
        | some e =>
          rw [hlast] at h
          exact htail (ih (hlast.trans h))
        | none =>
          rw [hlast] at h
          obtain rfl : d = c := Option.some_inj.1 h
          cases t with
          | nil => rfl
          | cons e t =>
            have hnone : internalId.after (e :: t) = none := (afterInternalId_space hc (e :: t)).symm.trans hafter
            rw [erase_cons_of_none hnone, List.getLast?_eq_none_iff] at hlast
            cases hlast

/-! ## When a second pass finds nothing -/

theorem calm_strip (h : Calm 0 t) : Calm 0 (strip t) := by
  obtain ⟨ws, ws', -, -, ht⟩ := exists_strip t
  rw [ht] at h
  exact (h.of_append_left).of_append_right

theorem getLast?_strip (h : (strip t).getLast? = some c) : isSpace c = false := by
  obtain ⟨-, -, -, hends⟩ := exists_rstrip (lstrip t)
  rw [strip] at h
  rcases hends with hnil | ⟨d, u, hu, hd⟩
  · rw [hnil] at h
    cases h
  · rw [List.getLast?_eq_head?_reverse, hu] at h
    exact Option.some_inj.1 h ▸ hd

theorem stripReasoningPrefix_eq (t : Text) :
    stripReasoningPrefix t = erase internalId 0 (stripToolCallSyntax (withoutMarker t)) := by
  rw [stripReasoningPrefix]
  split
  · rename_i h
    rw [h]
    rfl
  · rfl

/-- The parts of a text: between its tool calls, after the marker, and of what is left of these,
without white space around it, between its ids. -/
def Parts (t : Text) (parts : List Text) : Prop :=
  ∃ callParts, Cut toolCall (withoutMarker t) callParts ∧
    Cut internalId (strip (collapse 0 callParts.flatten)) parts

/-- Joined, the parts make nothing new: no white space and no marker in front, no call and no id that
begins in one part and is read on into the next. -/
structure Settled (parts : List Text) : Prop where
  space : ∀ c, parts.flatten.head? = some c → isSpace c = false
  marker : afterMarker parts.flatten = none
  calls : ¬ Reads toolCall parts
  ids : ¬ Reads internalId parts

theorem Parts.eq {parts : List Text} (h : Parts t parts) :
    stripReasoningPrefix t = parts.flatten ∧ Calm 0 parts.flatten ∧
      ∀ c, parts.flatten.getLast? = some c → isSpace c = false := by
  obtain ⟨callParts, hcalls, hids⟩ := h
  have hjoin : stripReasoningPrefix t = parts.flatten := by
    rw [stripReasoningPrefix_eq, stripToolCallSyntax, hcalls.erase_eq, hids.erase_eq]
  refine ⟨hjoin, ?_, fun c hc => ?_⟩
  · rw [← hids.erase_eq]
    exact calm_erase (calm_strip (calm_collapse _)) (.inl rfl)
  · by_contra hspace
    rw [← hids.erase_eq] at hc
    exact hspace (getLast?_strip (getLast?_erase (by simpa using hspace) hc))

end Sreda.Services
