import SvgPlot.Traversal.Recursion

/-!
# What a walk shows

A walk does what the recursion on the tree does, for every visitor. The calls made to the visitor are the brackets of
the tree: each mark is entered, then come the calls for its children, then it is left at the same depth. The marks below
one that the visitor skipped are not shown at all, and nothing is shown or left any more once the visitor ends the walk.

* `Visitor.recorded` is a visitor that also keeps a record of the calls made to it.
* `Shown` says which calls are the brackets of a mark, with the answers the visitor gave.
* `visit_recorded` follows the recursion and adds the calls for one mark to the record.
-/

namespace SvgPlot

/-- One call of a visitor, with its answer if it has one. -/
inductive VisitorCall where
  | enter (mark : Mark) (depth : Nat) (answer : Step)
  | leave (mark : Mark) (depth : Nat)

mutual

/-- The calls that show a mark at some depth, and below it all that the visitor did not skip. If the walk does not go
on, they break off with the mark where the visitor ended it. -/
inductive Shown : (goesOn : Bool) → (depth : Nat) → Mark → List VisitorCall → Prop where
  | stopped (depth : Nat) (mark : Mark) : Shown false depth mark [.enter mark depth .stop]
  | skipped (depth : Nat) (mark : Mark) :
    Shown true depth mark [.enter mark depth .skipChildren, .leave mark depth]
  | descended {depth : Nat} {mark : Mark} {inside : List VisitorCall}
    (h : ShownAll true (depth + 1) mark.children inside) :
    Shown true depth mark (.enter mark depth .descend :: inside ++ [.leave mark depth])
  | stoppedInside {depth : Nat} {mark : Mark} {inside : List VisitorCall}
    (h : ShownAll false (depth + 1) mark.children inside) :
    Shown false depth mark (.enter mark depth .descend :: inside)

/-- The calls that show marks in a row, one after the other. -/
inductive ShownAll : (goesOn : Bool) → (depth : Nat) → List Mark → List VisitorCall → Prop where
  | nil (depth : Nat) : ShownAll true depth [] []
  | cons {goesOn : Bool} {depth : Nat} {mark : Mark} {rest : List Mark} {calls more : List VisitorCall}
    (h : Shown true depth mark calls) (hrest : ShownAll goesOn depth rest more) :
    ShownAll goesOn depth (mark :: rest) (calls ++ more)
  | stopped {depth : Nat} {mark : Mark} {rest : List Mark} {calls : List VisitorCall}
    (h : Shown false depth mark calls) : ShownAll false depth (mark :: rest) calls

end

namespace Visitor

variable {σ : Type}

/-- The visitor, with the calls made to it in the order they came. -/
def recorded (v : Visitor σ) : Visitor (σ × List VisitorCall) where
  enter s mark depth :=
    let (answer, state) := v.enter s.1 mark depth
    (answer, (state, s.2 ++ [.enter mark depth answer]))
  leave s mark depth := (v.leave s.1 mark depth, s.2 ++ [.leave mark depth])

/-- Whatever it is shown, the visitor does not end the walk. -/
def NeverStops (v : Visitor σ) : Prop := ∀ state mark depth, (v.enter state mark depth).1 ≠ .stop

/-! ## One mark -/

section

variable {v : Visitor σ} {state entered last : σ} {mark : Mark} {depth : Nat}

theorem visit_of_stop (h : v.enter state mark depth = (.stop, entered)) :
    v.visit depth state mark = ⟨false, entered⟩ := by
  obtain ⟨shape, numbers, data, children⟩ := mark
  simp only [visit, h]

theorem visit_of_skipChildren (h : v.enter state mark depth = (.skipChildren, entered)) :
    v.visit depth state mark = ⟨true, v.leave entered mark depth⟩ := by
  obtain ⟨shape, numbers, data, children⟩ := mark
  simp only [visit, h]

theorem visit_of_descend {goesOn : Bool} (h : v.enter state mark depth = (.descend, entered))
    (hall : v.visitAll (depth + 1) entered mark.children = ⟨goesOn, last⟩) :
    v.visit depth state mark = ⟨goesOn, if goesOn then v.leave last mark depth else last⟩ := by
  obtain ⟨shape, numbers, data, children⟩ := mark
  cases goesOn <;> simp [visit, h, hall]

theorem visitAll_cons_of_stop {rest : List Mark} (h : v.visit depth state mark = ⟨false, last⟩) :
    v.visitAll depth state (mark :: rest) = ⟨false, last⟩ := by
  rw [visitAll, h]

theorem visitAll_cons {rest : List Mark} (h : v.visit depth state mark = ⟨true, last⟩) :
    v.visitAll depth state (mark :: rest) = v.visitAll depth last rest := by
  rw [visitAll, h]

/-- The record grows by the call, and the visitor answers as before. -/
theorem enter_recorded (before : List VisitorCall) {answer : Step} (h : v.enter state mark depth = (answer, entered)) :
    v.recorded.enter (state, before) mark depth = (answer, (entered, before ++ [.enter mark depth answer])) := by
  simp only [recorded, h]

theorem leave_recorded (before : List VisitorCall) :
    v.recorded.leave (state, before) mark depth = (v.leave state mark depth, before ++ [.leave mark depth]) := rfl

end

/-! ## All marks -/

mutual

/-- Shown one mark, a visitor has the calls for that mark added to its record. -/
theorem visit_recorded (v : Visitor σ) : ∀ (mark : Mark) (depth : Nat) (state : σ) (before : List VisitorCall),
    ∃ goesOn calls last, Shown goesOn depth mark calls ∧ (v.NeverStops → goesOn = true) ∧
      v.visit depth state mark = ⟨goesOn, last⟩ ∧
      v.recorded.visit depth (state, before) mark = ⟨goesOn, (last, before ++ calls)⟩
  | ⟨shape, numbers, data, children⟩, depth, state, before => by
    rcases henter : v.enter state ⟨shape, numbers, data, children⟩ depth with ⟨answer, entered⟩
    have hrecorded := enter_recorded before henter
    cases answer with
    | stop =>
      refine ⟨false, _, entered, .stopped .., ?_, visit_of_stop henter, visit_of_stop hrecorded⟩
      intro hv
      exact (hv _ _ _ (congrArg Prod.fst henter)).elim
    | skipChildren =>
      refine ⟨true, _, _, .skipped .., fun _ => rfl, visit_of_skipChildren henter, ?_⟩
      rw [visit_of_skipChildren hrecorded, leave_recorded, List.append_assoc]
      rfl
    | descend =>
      obtain ⟨goesOn, inside, last, hinside, hv, hall, hallRecorded⟩ :=
        visitAll_recorded v children (depth + 1) entered (before ++ [.enter _ depth .descend])
      rw [visit_of_descend henter hall, visit_of_descend hrecorded hallRecorded]
      cases goesOn with
      | true => exact ⟨true, _, _, .descended hinside, hv, rfl, by simp [leave_recorded]⟩
      | false => exact ⟨false, _, _, .stoppedInside hinside, hv, rfl, by simp⟩

theorem visitAll_recorded (v : Visitor σ) :
    ∀ (marks : List Mark) (depth : Nat) (state : σ) (before : List VisitorCall),
      ∃ goesOn calls last, ShownAll goesOn depth marks calls ∧ (v.NeverStops → goesOn = true) ∧
        v.visitAll depth state marks = ⟨goesOn, last⟩ ∧
        v.recorded.visitAll depth (state, before) marks = ⟨goesOn, (last, before ++ calls)⟩
  | [], depth, state, before => by
    refine ⟨true, [], state, .nil depth, fun _ => rfl, by rw [visitAll], ?_⟩
    rw [visitAll, List.append_nil]
  | mark :: rest, depth, state, before => by
    obtain ⟨goesOn, calls, after, hcalls, hv, hvisit, hrecorded⟩ := visit_recorded v mark depth state before
    cases goesOn with
    | false =>
      exact ⟨false, calls, after, .stopped hcalls, hv, visitAll_cons_of_stop hvisit, visitAll_cons_of_stop hrecorded⟩
    | true =>
      obtain ⟨goesOn, more, last, hmore, hvRest, hrest, hrestRecorded⟩ :=
        visitAll_recorded v rest depth after (before ++ calls)
      refine ⟨goesOn, calls ++ more, last, .cons hcalls hmore, hvRest, ?_, ?_⟩
      · rw [visitAll_cons hvisit, hrest]
      · rw [visitAll_cons hrecorded, hrestRecorded, List.append_assoc]

end

theorem walk_eq (v : Visitor σ) (state : σ) (root : Mark) : v.walk state root = (v.visit 0 state root).state := by
  rw [walk, run_enter, Visit.proceed, run]
  exact ite_self _

/-- A walk leaves a visitor in the state that the recursion leaves it in. Every mark that is not below a skipped one is
shown by two calls, one before and one after the calls for the marks inside it, both with the depth of the mark, and
there are no other calls. If the visitor ends the walk, the calls break off there. -/
theorem walk_eq_visit (v : Visitor σ) (state : σ) (root : Mark) :
    v.walk state root = (v.visit 0 state root).state ∧
      ∃ goesOn calls, v.recorded.walk (state, []) root = (v.walk state root, calls) ∧ Shown goesOn 0 root calls ∧
        (v.NeverStops → goesOn = true) := by
  refine ⟨walk_eq v state root, ?_⟩
  obtain ⟨goesOn, calls, last, hcalls, hv, hvisit, hrecorded⟩ := visit_recorded v root 0 state []
  refine ⟨goesOn, calls, ?_, hcalls, hv⟩
  rw [walk_eq, walk_eq, hvisit, hrecorded, List.nil_append]

/-- A visitor that skips the second mark it is shown, whatever that is: the line inside the group is not shown. -/
theorem walk_eq_visit_skipping :
    let line : Mark := ⟨.line, [0, 0, 1, 1], none, []⟩
    let root : Mark := ⟨.svg, [], none, [⟨.group, [], none, [line]⟩, ⟨.path, [], some "M0 0", []⟩]⟩
    let v : Visitor Nat :=
      { enter := fun shown _ _ => (if shown = 1 then .skipChildren else .descend, shown + 1)
        leave := fun shown _ _ => shown }
    v.NeverStops ∧ ∃ calls, v.recorded.walk (0, []) root = (3, calls) ∧ Shown true 0 root calls := by
  intro line root v
  have hv : v.NeverStops := by
    intro shown mark depth
    show (if shown = 1 then Step.skipChildren else .descend) ≠ .stop
    split <;> simp
  obtain ⟨hwalk, goesOn, calls, hrecorded, hcalls, hgoesOn⟩ := walk_eq_visit v 0 root
  have hthree : v.walk 0 root = 3 := hwalk.trans rfl
  rw [hthree] at hrecorded
  rw [hgoesOn hv] at hcalls
  exact ⟨hv, calls, hrecorded, hcalls⟩

end Visitor

end SvgPlot
