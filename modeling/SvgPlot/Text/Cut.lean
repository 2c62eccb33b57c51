/-!
# Cutting at a character

The first place of a character in a text determines what stands before it and after it, and so does the last. Where a
text begins with one character again and again, it is determined how often and what comes then.
-/

namespace SvgPlot.Text

section

variable {α : Type} {stop : α} {before after before' after' : List α}

theorem append_cons_inj_of_first (h : stop ∉ before) (h' : stop ∉ before') :
    before ++ stop :: after = before' ++ stop :: after' ↔ before = before' ∧ after = after' := by
  constructor
  · intro heq
    induction before generalizing before' with
    | nil =>
      cases before' with
      | nil => exact ⟨rfl, (List.cons.inj heq).2⟩
      | cons c before' =>
        obtain ⟨rfl, -⟩ := List.cons.inj heq
        exact absurd List.mem_cons_self h'
    | cons c before ih =>
      cases before' with
      | nil =>
        obtain ⟨rfl, -⟩ := List.cons.inj heq
        exact absurd List.mem_cons_self h
      | cons c' before' =>
        obtain ⟨rfl, hrest⟩ := List.cons.inj heq
        obtain ⟨rfl, rfl⟩ := ih (List.not_mem_of_not_mem_cons h) (List.not_mem_of_not_mem_cons h') hrest
        exact ⟨rfl, rfl⟩
  · rintro ⟨rfl, rfl⟩
    rfl

theorem append_cons_inj_of_last (h : stop ∉ after) (h' : stop ∉ after') :
    before ++ stop :: after = before' ++ stop :: after' ↔ before = before' ∧ after = after' := by
  have hreverse : after.reverse ++ stop :: before.reverse = after'.reverse ++ stop :: before'.reverse ↔
      after.reverse = after'.reverse ∧ before.reverse = before'.reverse :=
    append_cons_inj_of_first (mt List.mem_reverse.1 h) (mt List.mem_reverse.1 h')
  rw [List.reverse_inj, List.reverse_inj, and_comm] at hreverse
  rw [← hreverse, ← List.reverse_inj]
  simp

theorem exists_last {text : List α} (h : stop ∈ text) :
    ∃ before after, text = before ++ stop :: after ∧ stop ∉ after := by
  obtain ⟨later, earlier, hreverse, hlater⟩ := List.eq_append_cons_of_mem (List.mem_reverse.2 h)
  refine ⟨earlier.reverse, later.reverse, ?_, mt List.mem_reverse.1 hlater⟩
  rw [← List.reverse_reverse text, hreverse]
  simp

theorem replicate_append_inj {count count' : Nat} (h : after.head? ≠ some stop) (h' : after'.head? ≠ some stop) :
    List.replicate count stop ++ after = List.replicate count' stop ++ after' ↔ count = count' ∧ after = after' := by
  constructor
  · intro heq
    induction count generalizing count' with
    | zero =>
      cases count' with
      | zero => exact ⟨rfl, heq⟩
      | succ count' =>
        rw [show after = _ from heq] at h
        exact absurd rfl h
    | succ count ih =>
      cases count' with
      | zero =>
        rw [show after' = _ from heq.symm] at h'
        exact absurd rfl h'
      | succ count' =>
        obtain ⟨rfl, hrest⟩ := ih (List.cons.inj heq).2
        exact ⟨rfl, hrest⟩
  · rintro ⟨rfl, rfl⟩
    rfl

/-- Texts that are put together with something between them have no other characters. -/
theorem mem_intercalate {separator : List α} {c : α} {parts : List (List α)}
    (h : c ∈ separator.intercalate parts) : c ∈ separator ∨ ∃ part ∈ parts, c ∈ part := by
  induction parts with
  | nil => cases h
  | cons part rest ih =>
    cases rest with
    | nil =>
      rw [List.intercalate_singleton] at h
      exact .inr ⟨part, List.mem_cons_self, h⟩
    | cons next rest =>
      rw [List.intercalate_cons_cons, List.append_assoc] at h
      rcases List.mem_append.1 h with h | h
      · exact .inr ⟨part, List.mem_cons_self, h⟩
      · rcases List.mem_append.1 h with h | h
        · exact .inl h
        · refine (ih h).imp_right ?_
          rintro ⟨other, hother, hmem⟩
          exact ⟨other, List.mem_cons_of_mem part hother, hmem⟩

end

end SvgPlot.Text
