import Sreda.Housewife.ReminderRows

/-!
# The overview of the checklists is read back

The reader of `list_checklists`: a title stands between two dots, and the counts after the
last dot tell where it ends, whatever it contains.

## What is proved

* a checklist on one line is read back (`readChecklist_line`);
* `parse_list_checklists` is honest about what `list_checklists` prints exactly when no title
  has a line break or some line of the print is no row (`checklists_honest_iff`).
-/

namespace Sreda.Housewife

open Lib.PyText Lib.Regex Lib.Regex.Re

/-- The checklist was read: the same id and counts, and the title up to surrounding white
space. -/
def ListChecklistsRow.IsRow (t : ListChecklistsRow) (cl : Checklist) : Prop :=
  t.checklistId = cl.id.text ∧ strip t.title = strip cl.title.text ∧ t.pendingCount = cl.pendingCount ∧
    t.doneCount = cl.doneCount ∧ t.totalCount = cl.totalCount

/-- The counts, after the last dot of a line. -/
structure Counts (s p d t : Text) : Prop where
  split : ∃ w₄ w₅ w₆ w₇ w₈ w₉ : Text, (Blank w₄ ∧ (w₅ ≠ [] ∧ Blank w₅) ∧ Blank w₆ ∧ (w₇ ≠ [] ∧ Blank w₇) ∧ Blank w₈ ∧
    (w₉ ≠ [] ∧ Blank w₉)) ∧
    s = w₄ ++ (p ++ (w₅ ++ ("pending,".toList ++ (w₆ ++ (d ++ (w₇ ++ ("done,".toList ++ (w₈ ++ (t ++
      (w₉ ++ "total".toList))))))))))
  p : p ≠ [] ∧ ∀ c ∈ p, isDecimal c = true
  d : d ≠ [] ∧ ∀ c ∈ d, isDecimal c = true
  t : t ≠ [] ∧ ∀ c ∈ t, isDecimal c = true

theorem Counts.not_mem {s p d t : Text} (h : Counts s p d t) : '·' ∉ s := by
  obtain ⟨w₄, w₅, w₆, w₇, w₈, w₉, ⟨h₄, h₅, h₆, h₇, h₈, h₉⟩, rfl⟩ := h.split
  have hsp : isSpace '·' = false := by decide
  have hdec : isDecimal '·' = false := by decide
  have h1 : '·' ∉ "pending,".toList := by decide
  have h2 : '·' ∉ "done,".toList := by decide
  have h3 : '·' ∉ "total".toList := by decide
  simp only [List.mem_append, not_or]
  exact ⟨not_mem_of_class h₄ hsp, not_mem_of_class h.p.2 hdec, not_mem_of_class h₅.2 hsp, h1, not_mem_of_class h₆ hsp,
    not_mem_of_class h.d.2 hdec, not_mem_of_class h₇.2 hsp, h2, not_mem_of_class h₈ hsp, not_mem_of_class h.t.2 hdec,
    not_mem_of_class h₉.2 hsp, h3⟩

theorem Counts.inj {s p d t p' d' t' : Text} (h : Counts s p d t) (h' : Counts s p' d' t') :
    p = p' ∧ d = d' ∧ t = t' := by
  obtain ⟨w₄, w₅, w₆, w₇, w₈, w₉, ⟨h₄, h₅, h₆, h₇, h₈, h₉⟩, hs⟩ := h.split
  obtain ⟨v₄, v₅, v₆, v₇, v₈, v₉, ⟨k₄, k₅, k₆, k₇, k₈, k₉⟩, hs'⟩ := h'.split
  have hout : ∀ {w : Text}, w ≠ [] ∧ Blank w → ∀ u, Outside isDecimal (w ++ u) := fun hw u =>
    (Outside.of_run hw.1 hw.2 fun _ hc => isDecimal_of_isSpace hc).append u
  have hp : Starts "pending,".toList := ⟨'p', "ending,".toList, rfl, by decide⟩
  have hd : Starts "done,".toList := ⟨'d', "one,".toList, rfl, by decide⟩
  obtain ⟨rfl, e₁⟩ := number_inj h₄ k₄ h.p.1 h'.p.1 h.p.2 h'.p.2 (hout h₅ _) (hout k₅ _) (hs.symm.trans hs')
  have e₂ := word_inj h₅.2 k₅.2 hp e₁
  obtain ⟨rfl, e₃⟩ := number_inj h₆ k₆ h.d.1 h'.d.1 h.d.2 h'.d.2 (hout h₇ _) (hout k₇ _) e₂
  have e₄ := word_inj h₇.2 k₇.2 hd e₃
  obtain ⟨rfl, -⟩ := number_inj h₈ k₈ h.t.1 h'.t.1 h.t.2 h'.t.2 (hout h₉ _) (hout k₉ _) e₄
  exact ⟨rfl, rfl, rfl⟩

theorem matches_countsRe {s : Text} {g : Groups} :
    countsRe.Matches s g ↔ ∃ p d t : Text, Counts s p d t ∧ g = [("p", p), ("d", d), ("t", t)] := by
  simp only [countsRe, cat, matches_lit_seq, matches_group_seq, matches_many_seq, matches_plus_seq, matches_plus,
    matches_lit]
  constructor
  · rintro ⟨w₄, _, h₁, hw₄, p, _, _, _, h₂, rfl, ⟨hp, hp', rfl⟩, w₅, _, h₃, hw₅, _, h₄, w₆, _, h₅, hw₆, d, _, _, _, h₆,
      rfl, ⟨hd, hd', rfl⟩, w₇, _, h₇, hw₇, _, h₈, w₈, _, h₉, hw₈, t, _, _, _, h₁₀, rfl, ⟨hn, hn', rfl⟩, w₉, _, h₁₁, hw₉,
      h₁₂, rfl⟩
    rw [h₂, h₃, h₄, h₅, h₆, h₇, h₈, h₉, h₁₀, h₁₁, h₁₂] at h₁
    exact ⟨p, d, t, ⟨⟨w₄, w₅, w₆, w₇, w₈, w₉, ⟨hw₄, hw₅, hw₆, hw₇, hw₈, hw₉⟩, h₁⟩, ⟨hp, hp'⟩, ⟨hd, hd'⟩, ⟨hn, hn'⟩⟩, rfl⟩
  · rintro ⟨p, d, t, hcounts, rfl⟩
    obtain ⟨w₄, w₅, w₆, w₇, w₈, w₉, ⟨hw₄, hw₅, hw₆, hw₇, hw₈, hw₉⟩, hs⟩ := hcounts.split
    exact ⟨w₄, _, hs, hw₄, p, _, [], _, rfl, rfl, ⟨hcounts.p.1, hcounts.p.2, rfl⟩,
      w₅, _, rfl, hw₅, _, rfl, w₆, _, rfl, hw₆, d, _, [], _, rfl, rfl, ⟨hcounts.d.1, hcounts.d.2, rfl⟩, w₇, _, rfl,
        hw₇, _,
      rfl, w₈, _, rfl, hw₈, t, _, [], _, rfl, rfl, ⟨hcounts.t.1, hcounts.t.2, rfl⟩, w₉, _, rfl, hw₉, rfl, rfl⟩

theorem matches_listChecklistsRowRe {s : Text} {g : Groups} :
    listChecklistsRowRe.Matches s g ↔ ∃ cid w₁ w₂ title w₃ counts p d t : Text,
      s = "[".toList ++ (cid ++ ("]".toList ++ (w₁ ++ ("·".toList ++ (w₂ ++ (title ++ (w₃ ++
        ("·".toList ++ counts)))))))) ∧
      (idRe "checklist_").Matches cid [] ∧ Blank w₁ ∧ Blank w₂ ∧ (title ≠ [] ∧ ∀ c ∈ title, dot c = true) ∧
      Blank w₃ ∧ Counts counts p d t ∧ g = [("cid", cid), ("title", title), ("p", p), ("d", d), ("t", t)] := by
  simp only [listChecklistsRowRe, cat, matches_lit_seq, matches_group_seq, matches_many_seq, matches_plus,
    matches_countsRe]
  constructor
  · rintro ⟨_, h₁, cid, _, _, _, h₂, rfl, hcid, _, h₃, w₁, _, h₄, hw₁, _, h₅, w₂, _, h₆, hw₂, title, _, _, _, h₇, rfl,
      ⟨ht, ht', rfl⟩, w₃, _, h₈, hw₃, counts, h₉, p, d, t, hcounts, rfl⟩
    obtain ⟨hex, -, -, -, rfl⟩ := matches_idRe.mp hcid
    rw [h₂, h₃, h₄, h₅, h₆, h₇, h₈, h₉] at h₁
    exact ⟨cid, w₁, w₂, title, w₃, _, p, d, t, h₁, hcid, hw₁, hw₂, ⟨ht, ht'⟩, hw₃, hcounts, rfl⟩
  · rintro ⟨cid, w₁, w₂, title, w₃, counts, p, d, t, hs, hcid, hw₁, hw₂, ⟨ht, ht'⟩, hw₃, hcounts, rfl⟩
    exact ⟨_, hs, cid, _, [], _, rfl, rfl, hcid, _, rfl, w₁, _, rfl, hw₁, _, rfl, w₂, _, rfl, hw₂, title, _, [], _, rfl,
      rfl, ⟨ht, ht', rfl⟩, w₃, _, rfl, hw₃, _, rfl, p, d, t, hcounts, rfl⟩

namespace Checklist

variable (cl : Checklist)

/-- The counts as they are printed. -/
def countsText : Text :=
  " ".toList ++ (digits cl.pendingCount ++ (" ".toList ++ ("pending,".toList ++ (" ".toList ++
    (digits cl.doneCount ++ (" ".toList ++ ("done,".toList ++ (" ".toList ++ (digits cl.totalCount ++
      (" ".toList ++ "total".toList))))))))))

theorem counts : Counts cl.countsText (digits cl.pendingCount) (digits cl.doneCount) (digits cl.totalCount) := by
  have hsp : Blank " ".toList := by decide
  have hsp' : " ".toList ≠ [] ∧ Blank " ".toList := ⟨by decide, hsp⟩
  exact ⟨⟨_, _, _, _, _, _, ⟨hsp, hsp', hsp, hsp', hsp, hsp'⟩, rfl⟩,
    ⟨digits_ne_nil _, fun c => isDecimal_of_mem_digits⟩, ⟨digits_ne_nil _, fun c => isDecimal_of_mem_digits⟩,
    ⟨digits_ne_nil _, fun c => isDecimal_of_mem_digits⟩⟩

theorem line_eq : cl.line = "[".toList ++ (cl.id.text ++ ("]".toList ++ (" ".toList ++ ("·".toList ++ (" ".toList ++
    (cl.title.text ++ (" ".toList ++ ("·".toList ++ cl.countsText)))))))) := by
  unfold line countsText
  simp only [List.append_assoc]
  rfl

theorem line_ends : Starts cl.line.reverse := by
  unfold line
  simp only [List.reverse_append]
  exact ⟨'l', _, rfl, by decide⟩

theorem digits_noBreak (n : ℕ) : NoBreak (digits n) := by
  intro c hc
  by_contra hb
  have := isSpace_of_isLineBreak (by simpa using hb)
  simp [isSpace_of_isDecimal (isDecimal_of_mem_digits hc)] at this

theorem line_noBreak (h : NoBreak cl.title.text) : NoBreak cl.line := by
  have hid : NoBreak cl.id.text := cl.id.noBreak_text (by decide)
  have h₁ : NoBreak "[".toList := by decide
  have h₂ : NoBreak "] · ".toList := by decide
  have h₃ : NoBreak " · ".toList := by decide
  have h₄ : NoBreak " pending, ".toList := by decide
  have h₅ : NoBreak " done, ".toList := by decide
  have h₆ : NoBreak " total".toList := by decide
  exact ((((((((((h₁.append hid).append h₂).append h).append h₃).append (digits_noBreak _)).append h₄).append
    (digits_noBreak _)).append h₅).append (digits_noBreak _)).append h₆)

theorem count_le : cl.pendingCount + cl.doneCount ≤ cl.totalCount := by
  unfold pendingCount doneCount totalCount
  induction cl.items with
  | nil => simp
  | cons it rest ih =>
    simp only [List.countP_cons, List.length_cons]
    cases it.status <;> simp <;> omega

end Checklist

/-- A stored title that is read back passes the check of its length. -/
theorem StoredText.strip_length {cap : ℕ} (s : StoredText cap) :
    1 ≤ (strip s.text).length ∧ (strip s.text).length ≤ cap := by
  refine ⟨List.length_pos_of_ne_nil ?_, Nat.le_trans (length_strip_le _) s.length_le⟩
  rw [Ne, strip_eq_nil_iff]
  exact s.starts.not_blank

/-- **A checklist on one line is read back.** -/
theorem readChecklist_line (cl : Checklist) (h : NoBreak cl.title.text) :
    ∃ t, readChecklist cl.line = some t ∧ t.IsRow cl := by
  have hsp : Blank " ".toList := by decide
  obtain ⟨g, hg, hmatch⟩ := fullMatch_of_matches (matches_listChecklistsRowRe.mpr ⟨cl.id.text, _, _, cl.title.text, _, _,
    _, _, _, cl.line_eq, cl.id.matches_text, hsp, hsp, ⟨cl.title.starts.ne_nil, dot_of_noBreak h⟩, hsp, cl.counts, rfl⟩)
  obtain ⟨cid, w₁, w₂, title, w₃, counts, p, d, t, hline, hcid, hw₁, hw₂, -, hw₃, hcounts, rfl⟩ :=
    matches_listChecklistsRowRe.mp hmatch
  rw [cl.line_eq] at hline
  -- the id has a fixed length, the first dot ends white space, the last dot begins the counts
  obtain ⟨rfl, e₁⟩ : cl.id.text = cid ∧ _ :=
    List.append_inj (List.append_cancel_left hline) (by
      obtain ⟨hex, rfl, hlen, -, -⟩ := matches_idRe.mp hcid
      simp [RowId.text, cl.id.length_eq, hlen])
  have hout : ∀ u : Text, Outside isSpace ("·".toList ++ u) := fun u => ⟨'·', u, rfl, by decide⟩
  have e₂ := List.append_cancel_left (run_inj hsp hw₁ (hout _) (hout _) (List.append_cancel_left e₁)).2
  have e₃ : (" ".toList ++ cl.title.text ++ " ".toList) ++ '·' :: cl.countsText =
      (w₂ ++ title ++ w₃) ++ '·' :: counts := by
    simpa using e₂
  obtain ⟨htitle, rfl⟩ := last_inj cl.counts.not_mem hcounts.not_mem e₃
  obtain ⟨rfl, rfl, rfl⟩ := cl.counts.inj hcounts
  have hstrip : strip title = strip cl.title.text := by
    calc strip title = strip (w₂ ++ title ++ w₃) := (strip_pad hw₂ hw₃ _).symm
      _ = strip (" ".toList ++ cl.title.text ++ " ".toList) := congrArg strip htitle.symm
      _ = strip cl.title.text := strip_pad hsp hsp _
  refine ⟨⟨cl.id.text, strip title, cl.pendingCount, cl.doneCount, cl.totalCount⟩, ?_, rfl, by rw [hstrip, strip_strip],
    rfl, rfl, rfl⟩
  have htool : toolId "checklist_" cl.id.text = some cl.id.text :=
    cl.id.toolId_text ⟨'c', "hecklist_".toList, rfl, by decide⟩
  obtain ⟨hpos, hlen⟩ := cl.title.strip_length
  have hlen' : 1 ≤ (strip title).length ∧ (strip title).length ≤ 500 := by
    rw [hstrip]
    omega
  simp [readChecklist, hg, captured, List.lookup, htool, hlen', toInt_digits, cl.count_le]

theorem checklist_readsBack_iff {cl : Checklist} {b : List Text} (h : RowLines cl.line b) :
    ReadsBack readChecklist ListChecklistsRow.IsRow cl b ↔ NoBreak cl.title.text := by
  constructor
  · rintro ⟨line, t, rfl, -, -⟩
    have hline : cl.line = ("[".toList ++ cl.id.text ++ "] · ".toList) ++ cl.title.text ++
        (" ".toList ++ ("·".toList ++ cl.countsText)) := by
      unfold Checklist.line Checklist.countsText
      simp only [List.append_assoc]
      rfl
    rw [hline] at h
    refine h.noBreak_between (fun hb => ?_) (fun hb => ?_)
    · exact absurd hb.of_append_left.of_append_left (by decide)
    · exact absurd hb.of_append_right.of_append_left (by decide)
  · intro hcl
    obtain ⟨t, ht, hsame⟩ := readChecklist_line cl hcl
    rw [RowLines.eq_self h (cl.line_noBreak hcl) cl.line_ends]
    exact ⟨_, t, rfl, ht, hsame⟩

/-- `parse_list_checklists` is honest about the checklists that are printed. -/
def ChecklistsHonest (rows : List Checklist) : Prop :=
  Honest ListChecklistsRow.IsRow rows (∃ cl ∈ rows, ¬ NoBreak cl.title.text)
    (parseListChecklists (listChecklists rows)).rows

/-- Some line is no row of the overview. -/
def ChecklistsUnread (text : Text) : Prop := ∃ line ∈ fullLines (strip text), readChecklist line = none

/-- **The reader of the overview is honest exactly when no title has a line break, or some
line is no row.** -/
theorem checklists_honest_iff (rows : List Checklist) :
    ChecklistsHonest rows ↔
      (∀ cl ∈ rows, NoBreak cl.title.text) ∨
        (∃ cl ∈ rows, ¬ NoBreak cl.title.text) ∧ ChecklistsUnread (listChecklists rows) :=
  honest_parseRows_iff listChecklists (by decide) (fun cl => ⟨_, cl.line_eq.trans rfl⟩) (by decide) (fun _ _ => rfl)
    (fun _ _ h => checklist_readsBack_iff h) rows

end Sreda.Housewife
