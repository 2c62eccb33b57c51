import SvgPlot.Text.Blank

/-!
# Collapsed text

Text whose only blanks are single spaces between characters that are none. Collapsing a text gives such a text, or
nothing if the text has no words (`isCollapsed_collapse`).
-/

namespace SvgPlot.Text

/-- There is something in the text, and every blank in it is a space with a character on either side that is no
blank. -/
structure IsCollapsed (cs : List Char) : Prop where
  ne_nil : cs ≠ []
  blank : ∀ before c after, cs = before ++ c :: after → isBlank c = true →
    c = ' ' ∧ (∃ b ∈ before.getLast?, isBlank b = false) ∧ ∃ a ∈ after.head?, isBlank a = false

/-! ## Words -/

theorem not_separates_of_mem_splitOnP {separates : Char → Bool} (cs : List Char) :
    ∀ piece ∈ cs.splitOnP separates, ∀ c ∈ piece, separates c = false := by
  induction cs with
  | nil => simp [List.splitOnP_nil]
  | cons c cs ih =>
    rw [List.splitOnP_cons_eq_if_modifyHead]
    by_cases hc : separates c = true
    · rw [if_pos hc]
      exact List.forall_mem_cons.2 ⟨by simp, ih⟩
    · rw [if_neg hc]
      cases hpieces : cs.splitOnP separates with
      | nil => simp
      | cons first others =>
        rw [hpieces] at ih
        obtain ⟨hfirst, hothers⟩ := List.forall_mem_cons.1 ih
        have hjoined : ∀ d ∈ c :: first, separates d = false :=
          List.forall_mem_cons.2 ⟨by simpa using hc, hfirst⟩
        exact List.forall_mem_cons.2 ⟨hjoined, hothers⟩

theorem not_separates_of_mem_fields {separates : Char → Bool} {cs field : List Char} (h : field ∈ fields separates cs) :
    ∀ c ∈ field, separates c = false :=
  not_separates_of_mem_splitOnP cs field (List.mem_filter.1 h).1

/-- A word: there is something in it, and nothing blank. -/
def IsWord (word : List Char) : Prop := word ≠ [] ∧ ∀ c ∈ word, isBlank c = false

theorem IsWord.exists_head {word : List Char} (h : IsWord word) (rest : List Char) :
    ∃ a ∈ (word ++ rest).head?, isBlank a = false := by
  obtain ⟨a, more, rfl⟩ := List.exists_cons_of_ne_nil h.1
  exact ⟨a, rfl, h.2 a List.mem_cons_self⟩

theorem IsWord.exists_getLast {word : List Char} (h : IsWord word) : ∃ b ∈ word.getLast?, isBlank b = false :=
  ⟨word.getLast h.1, List.getLast?_eq_some_getLast h.1, h.2 _ (List.getLast_mem h.1)⟩

/-! ## Words with spaces between them -/

theorem intercalate_cons_cons (word next : List Char) (words : List (List Char)) :
    [' '].intercalate (word :: next :: words) = word ++ ' ' :: [' '].intercalate (next :: words) := by
  simp [List.intercalate, List.intersperse]

theorem IsCollapsed.of_isWord {word : List Char} (h : IsWord word) : IsCollapsed word where
  ne_nil := h.1
  blank before c after hword hc := by
    have hmem : c ∈ word := by simp [hword]
    rw [h.2 c hmem] at hc
    cases hc

/-- A word, a space and text that is collapsed and does not begin with a blank. -/
theorem IsCollapsed.cons {word text : List Char} (hword : IsWord word) (htext : IsCollapsed text)
    (hhead : ∃ a ∈ text.head?, isBlank a = false) : IsCollapsed (word ++ ' ' :: text) where
  ne_nil := by simp
  blank before c after hsplit hc := by
    have hhere : ' ' = ' ' ∧ (∃ b ∈ word.getLast?, isBlank b = false) ∧ ∃ a ∈ text.head?, isBlank a = false :=
      ⟨rfl, hword.exists_getLast, hhead⟩
    rcases List.append_eq_append_iff.1 hsplit with ⟨more, rfl, hrest⟩ | ⟨more, rfl, hrest⟩
    · cases more with
      | nil =>
        -- the blank is the space between the two
        obtain ⟨rfl, rfl⟩ := List.cons.inj hrest
        rwa [List.append_nil]
      | cons space more =>
        obtain ⟨rfl, hinner⟩ := List.cons.inj hrest
        obtain ⟨hspace, ⟨b, hb, hlast⟩, hnext⟩ := htext.blank more c after hinner hc
        refine ⟨hspace, ⟨b, ?_, hlast⟩, hnext⟩
        have hmore : more ≠ [] := fun h => by simp [h] at hb
        obtain ⟨d, more, rfl⟩ := List.exists_cons_of_ne_nil hmore
        simpa using hb
    · cases more with
      | nil =>
        obtain ⟨rfl, rfl⟩ := List.cons.inj hrest
        rwa [List.append_nil] at hhere
      | cons d more =>
        -- there is no blank in the word
        obtain ⟨rfl, -⟩ := List.cons.inj hrest
        rw [hword.2 c (by simp)] at hc
        cases hc

/-- Words with one space between neighbours. -/
theorem isCollapsed_intercalate (words : List (List Char)) :
    (∀ word ∈ words, IsWord word) → words ≠ [] →
      IsCollapsed ([' '].intercalate words) ∧ ∃ a ∈ ([' '].intercalate words).head?, isBlank a = false := by
  induction words with
  | nil => exact fun _ h => absurd rfl h
  | cons word words ih =>
    intro hwords _
    obtain ⟨hword, hothers⟩ := List.forall_mem_cons.1 hwords
    cases words with
    | nil =>
      have hone : [' '].intercalate [word] = word := by simp [List.intercalate]
      have hhead := hword.exists_head []
      rw [List.append_nil] at hhead
      rw [hone]
      exact ⟨.of_isWord hword, hhead⟩
    | cons next words =>
      obtain ⟨htext, hhead⟩ := ih hothers (List.cons_ne_nil next words)
      rw [intercalate_cons_cons]
      exact ⟨.cons hword htext hhead, hword.exists_head _⟩

/-- Text that was collapsed is empty or has only single spaces between its words. -/
theorem isCollapsed_collapse {s : String} (h : (collapse s).isEmpty = false) : IsCollapsed (collapse s).toList := by
  have hne : fields isBlank s.toList ≠ [] := by
    intro hnil
    rw [collapse, hnil] at h
    simp [List.intercalate] at h
  have hwords : ∀ word ∈ fields isBlank s.toList, IsWord word := fun word hmem =>
    ⟨mem_fields hmem, not_separates_of_mem_fields hmem⟩
  rw [collapse, String.toList_ofList]
  exact (isCollapsed_intercalate _ hwords hne).1

end SvgPlot.Text
