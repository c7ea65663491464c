import Mathlib.Data.List.TakeWhile
import Sreda.Lib.PyText

/-!
# The words of a text

A class of characters cuts a text into words. Python does so in two ways: `str.split()` cuts at
white space, and `re.sub` first turns each run of a class into one mark.

## What is proved

* a text that is cut at a separator has the words of its two parts (`wordsBy_append_cons`);
* the runs that become marks change no word (`wordsBy_squash`), and neither does stripping
  (`wordsBy_strip`);
* a text with one word is that word when it is stripped (`strip_of_wordsBy`).
-/

namespace Sreda.Lib.PyText

section General

variable {α : Type*}

/-- The words between the characters of a class. -/
def wordsBy (p : α → Bool) (s : List α) : List (List α) := (s.splitOnP p).filter (!·.isEmpty)

/-- Each run of a class becomes one mark; `inRun` says whether a run goes on here. -/
def squash (p : α → Bool) (mark : α) (inRun : Bool) : List α → List α
  | [] => []
  | c :: s =>
    if p c then
      if inRun then squash p mark true s else mark :: squash p mark true s
    else c :: squash p mark false s

variable {p q : α → Bool}

theorem wordsBy_nil : wordsBy p [] = [] := by simp [wordsBy, List.splitOnP_nil]

theorem wordsBy_append_cons {c : α} (hc : p c = true) (s t : List α) :
    wordsBy p (s ++ c :: t) = wordsBy p s ++ wordsBy p t := by
  rw [wordsBy, List.splitOnP_append_cons s t hc, List.filter_append]
  rfl

theorem wordsBy_cons {c : α} (hc : p c = true) (s : List α) : wordsBy p (c :: s) = wordsBy p s := by
  have h := wordsBy_append_cons hc [] s
  rwa [wordsBy_nil, List.nil_append, List.nil_append] at h

theorem wordsBy_concat {c : α} (hc : p c = true) (s : List α) : wordsBy p (s ++ [c]) = wordsBy p s := by
  rw [wordsBy_append_cons hc, wordsBy_nil, List.append_nil]

/-- So does a text that is cut at a run of separators. -/
theorem wordsBy_append_run {m : List α} (hne : m ≠ []) (hm : ∀ c ∈ m, p c = true) (s t : List α) :
    wordsBy p (s ++ m ++ t) = wordsBy p s ++ wordsBy p t := by
  induction m generalizing s with
  | nil => exact absurd rfl hne
  | cons c m ih =>
    cases m with
    | nil => rw [List.append_assoc, List.singleton_append, wordsBy_append_cons (hm c (by simp))]
    | cons d m =>
      have hstep := ih (List.cons_ne_nil _ _) (fun e he => hm e (by simp [he])) (s ++ [c])
      rw [List.append_assoc s, List.singleton_append] at hstep
      rw [hstep, wordsBy_concat (hm c (by simp))]

/-- A text without separators is one word. -/
theorem wordsBy_word {w : List α} (hne : w ≠ []) (h : ∀ c ∈ w, p c = false) : wordsBy p w = [w] := by
  rw [wordsBy, List.splitOnP_eq_singleton h]
  simp [hne]

theorem wordsBy_of_forall {s : List α} (h : ∀ c ∈ s, p c = true) : wordsBy p s = [] := by
  induction s with
  | nil => exact wordsBy_nil
  | cons c s ih =>
    rw [wordsBy_cons (h c (by simp))]
    exact ih fun d hd => h d (by simp [hd])

theorem mem_wordsBy {s w : List α} (h : w ∈ wordsBy p s) : w ≠ [] ∧ ∀ c ∈ w, p c = false := by
  obtain ⟨hmem, hne⟩ := List.mem_filter.1 h
  refine ⟨by simpa using hne, ?_⟩
  clear h hne
  induction s generalizing w with
  | nil =>
    rw [List.splitOnP_nil, List.mem_singleton] at hmem
    simp [hmem]
  | cons d s ih =>
    rw [List.splitOnP_cons_eq_if_modifyHead] at hmem
    split at hmem
    · rcases List.mem_cons.1 hmem with rfl | hmem
      · simp
      · exact ih hmem
    · rename_i hd
      obtain ⟨v, vs, hv⟩ := List.exists_cons_of_ne_nil (List.splitOnP_ne_nil p s)
      rw [hv] at ih hmem
      rcases List.mem_cons.1 hmem with rfl | hmem
      · intro c hc
        rcases List.mem_cons.1 hc with rfl | hc
        · simpa using hd
        · exact ih (by simp) c hc
      · exact ih (by simp [hmem])

/-- Where no run goes on, the first piece is the same as well. -/
theorem splitOnP_squash {mark : α} (hmark : q mark = true) (hclass : ∀ c, p c = false → q c = false) (s : List α) :
    (((squash p mark false s).splitOnP q).head? = (s.splitOnP p).head? ∧
        ((squash p mark false s).splitOnP q).tail.filter (!·.isEmpty) = (s.splitOnP p).tail.filter (!·.isEmpty)) ∧
      wordsBy q (squash p mark true s) = wordsBy p s := by
  induction s with
  | nil => simp [squash, wordsBy, List.splitOnP_nil]
  | cons c s ih =>
    obtain ⟨⟨hhead, htail⟩, hrun⟩ := ih
    by_cases hc : p c = true
    · simp only [squash, hc, if_true, Bool.false_eq_true, if_false]
      refine ⟨?_, hrun.trans (wordsBy_cons hc s).symm⟩
      rw [List.splitOnP_cons_eq_if_modifyHead, List.splitOnP_cons_eq_if_modifyHead, if_pos hmark, if_pos hc]
      exact ⟨rfl, hrun⟩
    · have hq := hclass c (by simpa using hc)
      obtain ⟨v, vs, hv⟩ := List.exists_cons_of_ne_nil (List.splitOnP_ne_nil q (squash p mark false s))
      obtain ⟨w, ws, hw⟩ := List.exists_cons_of_ne_nil (List.splitOnP_ne_nil p s)
      rw [hv, hw] at hhead htail
      simp only [List.head?_cons, Option.some_inj, List.tail_cons] at hhead htail
      simp only [squash, hc, Bool.false_eq_true, if_false, wordsBy, List.splitOnP_cons_eq_if_modifyHead, hq, hv, hw,
        List.modifyHead_cons, List.head?_cons, List.tail_cons, List.filter_cons, hhead, htail]
      simp

/-- Marks that separate leave the words as they are. -/
theorem wordsBy_squash {mark : α} (hmark : q mark = true) (hclass : ∀ c, p c = false → q c = false) (s : List α) :
    wordsBy q (squash p mark false s) = wordsBy p s := by
  obtain ⟨⟨hhead, htail⟩, -⟩ := splitOnP_squash hmark hclass s
  obtain ⟨v, vs, hv⟩ := List.exists_cons_of_ne_nil (List.splitOnP_ne_nil q (squash p mark false s))
  obtain ⟨w, ws, hw⟩ := List.exists_cons_of_ne_nil (List.splitOnP_ne_nil p s)
  rw [hv, hw] at hhead htail
  simp only [List.head?_cons, Option.some_inj, List.tail_cons] at hhead htail
  rw [wordsBy, wordsBy, hv, hw, hhead, List.filter_cons, List.filter_cons, htail]

theorem wordsBy_eq_nil {s : List α} (h : wordsBy p s = []) : ∀ c ∈ s, p c = true := by
  induction s with
  | nil => simp
  | cons d s ih =>
    by_cases hd : p d = true
    · rw [wordsBy_cons hd] at h
      intro c hc
      rcases List.mem_cons.1 hc with rfl | hc
      · exact hd
      · exact ih h c hc
    · obtain ⟨v, vs, hv⟩ := List.exists_cons_of_ne_nil (List.splitOnP_ne_nil p s)
      simp [wordsBy, List.splitOnP_cons_eq_if_modifyHead, hd, hv] at h

/-- Around a word that is the only one stand separators. -/
theorem exists_of_wordsBy {s w : List α} (h : wordsBy p s = [w]) :
    ∃ u v, (∀ c ∈ u, p c = true) ∧ (∀ c ∈ v, p c = true) ∧ s = u ++ w ++ v := by
  induction s with
  | nil => simp [wordsBy_nil] at h
  | cons c s ih =>
    by_cases hc : p c = true
    · rw [wordsBy_cons hc] at h
      obtain ⟨u, v, hu, hv, rfl⟩ := ih h
      refine ⟨c :: u, v, ?_, hv, rfl⟩
      intro d hd
      rcases List.mem_cons.1 hd with rfl | hd
      · exact hc
      · exact hu d hd
    · have hrun : ∀ d ∈ (c :: s).takeWhile (!p ·), p d = false := fun d hd => by simpa using List.mem_takeWhile_imp hd
      have hne : (c :: s).takeWhile (!p ·) ≠ [] := by simp [hc]
      have hcut := List.takeWhile_append_dropWhile (p := (!p ·)) (l := c :: s)
      cases hrest : (c :: s).dropWhile (!p ·) with
      | nil =>
        rw [hrest, List.append_nil] at hcut
        rw [hcut] at hrun
        rw [wordsBy_word (by simp) hrun, List.cons.injEq] at h
        exact ⟨[], [], by simp, by simp, by simp [h.1]⟩
      | cons d t =>
        have hd : p d = true := by
          have := List.head?_dropWhile_not (!p ·) (c :: s)
          simpa [hrest] using this
        rw [hrest] at hcut
        rw [← hcut, wordsBy_append_cons hd, wordsBy_word hne hrun] at h
        obtain ⟨hw, hnil⟩ := List.cons.inj h
        refine ⟨[], d :: t, by simp, ?_, by rw [← hw, List.nil_append, hcut]⟩
        intro e he
        rcases List.mem_cons.1 he with rfl | he
        · exact hd
        · exact wordsBy_eq_nil hnil e he

end General

theorem wordsBy_pad {ws ws' : Text} (h : Blank ws) (h' : Blank ws') (s : Text) :
    wordsBy isSpace (ws ++ s ++ ws') = wordsBy isSpace s := by
  have hleft : ∀ (ws s : Text), Blank ws → wordsBy isSpace (ws ++ s) = wordsBy isSpace s := by
    intro ws s h
    induction ws with
    | nil => rfl
    | cons c ws ih =>
      rw [List.cons_append, wordsBy_cons (h c (by simp))]
      exact ih fun d hd => h d (by simp [hd])
  have hright : ∀ (s ws : Text), Blank ws → wordsBy isSpace (s ++ ws) = wordsBy isSpace s := by
    intro s ws h
    cases ws with
    | nil => rw [List.append_nil]
    | cons c ws =>
      have hws : ∀ d ∈ ws, isSpace d = true := fun d hd => h d (by simp [hd])
      rw [wordsBy_append_cons (h c (by simp)), wordsBy_of_forall hws, List.append_nil]
  rw [hright _ _ h', hleft _ _ h]

theorem wordsBy_strip (s : Text) : wordsBy isSpace (strip s) = wordsBy isSpace s := by
  obtain ⟨ws, ws', hws, hws', hs⟩ := exists_strip s
  conv => rhs; rw [hs]
  exact (wordsBy_pad hws hws' _).symm

/-- A text with one word is that word between white space. -/
theorem strip_of_wordsBy {s w : Text} (h : wordsBy isSpace s = [w]) : strip s = w := by
  obtain ⟨u, v, hu, hv, hs⟩ := exists_of_wordsBy h
  obtain ⟨hne, hword⟩ := mem_wordsBy (p := isSpace) (s := s) (w := w) (by simp [h])
  have hstarts : ∀ t : Text, t ≠ [] → (∀ c ∈ t, isSpace c = false) → Starts t := by
    intro t ht hall
    obtain ⟨c, r, rfl⟩ := List.exists_cons_of_ne_nil ht
    exact ⟨c, r, rfl, hall c (by simp)⟩
  have hback : Starts w.reverse := hstarts _ (by simpa using hne) fun c hc => hword c (List.mem_reverse.1 hc)
  rw [hs, strip_pad hu hv, (hstarts w hne hword).strip_eq, rstrip_eq_reverse, hback.lstrip_eq, List.reverse_reverse]

end Sreda.Lib.PyText
