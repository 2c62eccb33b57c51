import Mathlib.Algebra.Ring.Nat
import SvgPlot.Proofs.ShownMarks
import SvgPlot.Proofs.VisitedElements
import SvgPlot.Tally

/-!
# Counted marks

A tally is filled by a walk that is shown one mark after the other. `Tally.Counts` says that a tally is that of some
shapes; one more shape is one more in the tally (`Counts.add`). A walk shows the marks of a tree in document order
(`visit_counter`), so the tally of a tree is that of its marks, and the tally of what is below its root leaves out
exactly one mark.
-/

namespace SvgPlot

/-- The elements in a row of trees are those of each tree. -/
theorem Markup.Element.sizes_eq_sum (es : List Element) : sizes es = (es.map count).sum := by
  induction es with
  | nil => rfl
  | cons e rest ih => rw [sizes, List.map_cons, List.sum_cons, count_eq_size, ih]

theorem Shape.name_injective {a b : Shape} (h : a.name = b.name) : a = b := by
  have hsame := ofName?_name a
  rw [h, ofName?_name b] at hsame
  exact (Option.some.inj hsame).symm

namespace Tally

/-! ## One shape more -/

/-- A tally of some shapes: a sorted entry for each of them, with the number of times it comes up, and no others. -/
structure Counts (t : Tally) (shapes : List Shape) : Prop where
  sorted : t.entries.Pairwise fun a b => a.1.name < b.1.name
  mem_iff : ∀ shape, shape ∈ t.entries.map Prod.fst ↔ shape ∈ shapes
  pos : ∀ entry ∈ t.entries, 0 < entry.2
  count : ∀ shape, t.count shape = shapes.count shape
  total : t.total = shapes.length

theorem counts_empty : Counts empty [] where
  sorted := .nil
  mem_iff _ := Iff.rfl
  pos := List.forall_mem_nil _
  count _ := rfl
  total := rfl

section

variable {entries : List (Shape × Nat)} {added shape : Shape}

theorem mem_addTo_iff : shape ∈ (addTo added entries).map Prod.fst ↔ shape = added ∨ shape ∈ entries.map Prod.fst := by
  induction entries with
  | nil => simp [addTo]
  | cons head rest ih =>
    obtain ⟨s, n⟩ := head
    rw [addTo]
    split
    · rename_i hsame
      simp [hsame]
    · split
      · simp
      · simp only [List.map_cons, List.mem_cons, ih]
        exact or_left_comm

theorem sorted_addTo (h : entries.Pairwise fun a b => a.1.name < b.1.name) :
    (addTo added entries).Pairwise fun a b => a.1.name < b.1.name := by
  induction entries with
  | nil => exact List.pairwise_singleton ..
  | cons head rest ih =>
    obtain ⟨s, n⟩ := head
    obtain ⟨hhead, hrest⟩ := List.pairwise_cons.1 h
    rw [addTo]
    split
    · exact List.pairwise_cons.2 ⟨hhead, hrest⟩
    · rename_i hne
      split
      · rename_i hlt
        refine List.pairwise_cons.2 ⟨?_, h⟩
        exact List.forall_mem_cons.2 ⟨hlt, fun entry hentry => String.lt_trans hlt (hhead entry hentry)⟩
      · rename_i hlt
        refine List.pairwise_cons.2 ⟨fun entry hentry => ?_, ih hrest⟩
        rcases mem_addTo_iff.1 (List.mem_map_of_mem hentry) with hadded | hold
        · rw [hadded]
          exact Dictionary.lt_of_not_lt_of_ne hlt fun hname => hne (Shape.name_injective hname)
        · obtain ⟨old, hold, hsame⟩ := List.mem_map.1 hold
          rw [← hsame]
          exact hhead old hold

theorem pos_addTo (h : ∀ entry ∈ entries, 0 < entry.2) : ∀ entry ∈ addTo added entries, 0 < entry.2 := by
  induction entries with
  | nil => simp [addTo]
  | cons head rest ih =>
    obtain ⟨s, n⟩ := head
    obtain ⟨hhead, hrest⟩ := List.forall_mem_cons.1 h
    rw [addTo]
    split
    · exact List.forall_mem_cons.2 ⟨Nat.succ_pos n, hrest⟩
    · split
      · exact List.forall_mem_cons.2 ⟨Nat.one_pos, h⟩
      · exact List.forall_mem_cons.2 ⟨hhead, ih hrest⟩

theorem count_cons (s : Shape) (n : Nat) (rest : List (Shape × Nat)) (shape : Shape) :
    count ⟨(s, n) :: rest⟩ shape = if s = shape then n else count ⟨rest⟩ shape := by
  rw [count, List.find?_cons]
  by_cases h : s = shape
  · rw [if_pos h, beq_iff_eq.2 h]
    rfl
  · rw [if_neg h, beq_false_of_ne h]
    rfl

theorem count_eq_zero (h : shape ∉ entries.map Prod.fst) : count ⟨entries⟩ shape = 0 := by
  induction entries with
  | nil => rfl
  | cons head rest ih =>
    obtain ⟨s, n⟩ := head
    rw [List.map_cons, List.mem_cons, not_or] at h
    rw [count_cons, if_neg (Ne.symm h.1), ih h.2]

/-- A shape that comes before the first of the entries has none. -/
theorem notMem_of_lt {s : Shape} {n : Nat} {rest : List (Shape × Nat)}
    (h : ((s, n) :: rest).Pairwise fun a b => a.1.name < b.1.name) (hlt : shape.name < s.name) :
    shape ∉ ((s, n) :: rest).map Prod.fst := by
  intro hmem
  obtain ⟨entry, hentry, rfl⟩ := List.mem_map.1 hmem
  rcases List.mem_cons.1 hentry with rfl | hentry
  · exact String.lt_irrefl _ hlt
  · exact String.lt_irrefl _ (String.lt_trans hlt ((List.pairwise_cons.1 h).1 entry hentry))

theorem count_addTo (h : entries.Pairwise fun a b => a.1.name < b.1.name) :
    count ⟨addTo added entries⟩ shape = count ⟨entries⟩ shape + if added = shape then 1 else 0 := by
  induction entries with
  | nil =>
    rw [addTo, count_cons]
    exact (Nat.zero_add _).symm
  | cons head rest ih =>
    obtain ⟨s, n⟩ := head
    obtain ⟨hhead, hrest⟩ := List.pairwise_cons.1 h
    rw [addTo]
    split
    · rename_i hsame
      rw [count_cons, count_cons, hsame]
      split <;> rfl
    · rename_i hne
      split
      · rename_i hlt
        rw [count_cons]
        split
        · rename_i hshape
          subst hshape
          rw [count_eq_zero (notMem_of_lt h hlt)]
        · rfl
      · rw [count_cons, count_cons, ih hrest]
        split
        · rename_i hshape
          rw [if_neg fun hadded => hne (hadded.trans hshape.symm), Nat.add_zero]
        · rfl

theorem total_cons (entry : Shape × Nat) (rest : List (Shape × Nat)) :
    total ⟨entry :: rest⟩ = entry.2 + total ⟨rest⟩ := rfl

theorem total_addTo : total ⟨addTo added entries⟩ = total ⟨entries⟩ + 1 := by
  induction entries with
  | nil => rfl
  | cons head rest ih =>
    obtain ⟨s, n⟩ := head
    rw [addTo]
    split
    · rw [total_cons, total_cons, Nat.add_right_comm]
    · split
      · rw [total_cons, Nat.add_comm]
      · rw [total_cons, total_cons, ih, Nat.add_assoc]

end

theorem Counts.add {t : Tally} {shapes : List Shape} (h : Counts t shapes) (added : Shape) :
    Counts (t.add added) (shapes ++ [added]) where
  sorted := sorted_addTo h.sorted
  mem_iff shape := by
    rw [Tally.add, mem_addTo_iff, h.mem_iff, List.mem_append, List.mem_singleton, or_comm]
  pos := pos_addTo h.pos
  count shape := by
    rw [Tally.add, count_addTo h.sorted, List.count_append, List.count_singleton, ← h.count]
    simp only [beq_iff_eq]
  total := by
    rw [Tally.add, total_addTo, List.length_append, ← h.total, List.length_singleton]

theorem Counts.addAll {t : Tally} {shapes : List Shape} (h : Counts t shapes) (more : List Shape) :
    Counts (more.foldl Tally.add t) (shapes ++ more) := by
  induction more generalizing t shapes with
  | nil => rwa [List.append_nil]
  | cons shape more ih =>
    have hmore := ih (h.add shape)
    rwa [List.append_assoc] at hmore

/-! ## All marks of a tree -/

mutual

/-- Below the root a walk counts a mark and all that is in it. -/
theorem visit_counter (withRoot : Bool) : ∀ (mark : Mark) (depth : Nat) (t : Tally),
    (counter withRoot).visit (depth + 1) t mark = ⟨true, (mark.preorder.map Mark.shape).foldl add t⟩
  | ⟨shape, numbers, data, children⟩, depth, t => by
    rw [Visitor.visit_of_descend rfl (visitAll_counter withRoot children (depth + 1) _), Mark.preorder_eq]
    rfl

theorem visitAll_counter (withRoot : Bool) : ∀ (marks : List Mark) (depth : Nat) (t : Tally),
    (counter withRoot).visitAll (depth + 1) t marks = ⟨true, ((marks.flatMap Mark.preorder).map Mark.shape).foldl add t⟩
  | [], depth, t => by
    rw [Visitor.visitAll]
    rfl
  | mark :: rest, depth, t => by
    rw [Visitor.visitAll_cons (visit_counter withRoot mark depth t), visitAll_counter withRoot rest, List.flatMap_cons,
      List.map_append, List.foldl_append]

end

/-- A walk counts the marks below the root, and the root before them or not at all. -/
theorem walk_counter (withRoot : Bool) (root : Mark) :
    (counter withRoot).walk empty root =
      ((if withRoot then root.preorder else root.preorder.tail).map Mark.shape).foldl add empty := by
  rw [Visitor.walk_eq, Visitor.visit_of_descend rfl (visitAll_counter withRoot root.children 0 _), Mark.preorder_eq]
  cases withRoot <;> rfl

theorem counts_of (root : Mark) : Counts (of root) (root.preorder.map Mark.shape) := by
  rw [of, walk_counter]
  exact counts_empty.addAll _

theorem counts_below (root : Mark) : Counts (below root) (root.preorder.tail.map Mark.shape) := by
  rw [below, walk_counter]
  exact counts_empty.addAll _

/-- A walk with the root counts every mark of a tree once, a walk without it all but the root: the shape of the root is
counted once less, and every other as often. Entries are there for the shapes below the root only, and none is zero. The
elements of a tree are counted as those of its children and one more. -/
theorem counts_agree (root : Mark) :
    (∀ shape, (of root).count shape = (root.preorder.map Mark.shape).count shape) ∧ (of root).total = root.size ∧
    (∀ shape, (below root).count shape + (if root.shape = shape then 1 else 0) = (of root).count shape) ∧
    (below root).total + 1 = root.size ∧
    (∀ shape, shape ∈ (below root).entries.map Prod.fst ↔
      ∃ mark ∈ root.children.flatMap Mark.preorder, mark.shape = shape) ∧
    (∀ entry ∈ (below root).entries, entry.2 ≠ 0) ∧
    ∀ e : Markup.Element, e.count = 1 + (e.children.map Markup.Element.count).sum := by
  have hof := counts_of root
  have hbelow := counts_below root
  have hsize : (of root).total = root.size := by rw [hof.total, List.length_map, Mark.length_preorder]
  refine ⟨hof.count, hsize, fun shape => ?_, ?_, fun shape => ?_, fun entry hentry => ?_, fun e => ?_⟩
  · rw [hof.count, hbelow.count, Mark.preorder_eq, List.tail_cons, List.map_cons, List.count_cons]
    simp only [beq_iff_eq]
  · rw [← hsize, hof.total, hbelow.total, Mark.preorder_eq]
    rfl
  · rw [hbelow.mem_iff, Mark.preorder_eq, List.tail_cons, List.mem_map]
  · exact Nat.ne_of_gt (hbelow.pos entry hentry)
  · rw [e.count_eq_size, e.size_eq, Markup.Element.sizes_eq_sum]

/-- A root of a shape that comes up again below it. -/
theorem counts_agree_nested :
    let line : Mark := ⟨.line, [0, 0, 1, 1], none, []⟩
    let inner : Mark := ⟨.svg, [], none, [line]⟩
    let root : Mark := ⟨.svg, [], none, [⟨.group, [], none, [inner]⟩, line]⟩
    (of root).count .svg = 2 ∧ (below root).count .svg = 1 ∧ (below root).count .line = 2 ∧ (below root).total = 4 ∧
      .circle ∉ (below root).entries.map Prod.fst ∧ ∀ entry ∈ (below root).entries, entry.2 ≠ 0 := by
  intro line inner root
  obtain ⟨hof, -, hbelow, htotal, hmem, hpos, -⟩ := counts_agree root
  have htwo : (of root).count .svg = 2 := (hof .svg).trans rfl
  have hlines : (of root).count .line = 2 := (hof .line).trans rfl
  refine ⟨htwo, ?_, ?_, Nat.succ.inj (htotal.trans rfl), fun hcircle => ?_, hpos⟩
  · exact Nat.succ.inj ((hbelow .svg).trans htwo)
  · exact (hbelow .line).trans hlines
  · obtain ⟨mark, hmark, hshape⟩ := (hmem .circle).1 hcircle
    have hnone : ∀ mark ∈ root.children.flatMap Mark.preorder, mark.shape ≠ .circle := by
      simp [root, inner, line, Mark.preorder_eq]
    exact hnone mark hmark hshape

end Tally

end SvgPlot
