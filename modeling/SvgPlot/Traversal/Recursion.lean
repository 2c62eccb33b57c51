import SvgPlot.Traversal

/-!
# Walks by recursion

A walk said by recursion on the tree. A list of tasks that begins with a mark does what the recursion does with that
mark, and then the other tasks (`run_enter`).
-/

namespace SvgPlot.Visitor

variable {σ : Type}

/-- The state of a visitor, and whether the walk goes on. -/
structure Visit (σ : Type) where
  goesOn : Bool
  state : σ

mutual

/-- Shows a visitor a mark, and what is below it as far as the visitor wants. -/
def visit (v : Visitor σ) (depth : Nat) (state : σ) : Mark → Visit σ
  | ⟨shape, numbers, data, children⟩ =>
    let mark : Mark := ⟨shape, numbers, data, children⟩
    match v.enter state mark depth with
    | (.stop, state) => ⟨false, state⟩
    | (.skipChildren, state) => ⟨true, v.leave state mark depth⟩
    | (.descend, state) =>
      match v.visitAll (depth + 1) state children with
      | ⟨false, state⟩ => ⟨false, state⟩
      | ⟨true, state⟩ => ⟨true, v.leave state mark depth⟩

/-- Shows a visitor marks that are all at one depth. -/
def visitAll (v : Visitor σ) (depth : Nat) (state : σ) : List Mark → Visit σ
  | [] => ⟨true, state⟩
  | mark :: rest =>
    match v.visit depth state mark with
    | ⟨false, state⟩ => ⟨false, state⟩
    | ⟨true, state⟩ => v.visitAll depth state rest

end

/-! ## The tasks do what the recursion says -/

/-- The other tasks, if the walk goes on. -/
def Visit.proceed (r : Visit σ) (v : Visitor σ) (tasks : List Task) : σ :=
  if r.goesOn then v.run r.state tasks else r.state

theorem run_leave (v : Visitor σ) (state : σ) (mark : Mark) (depth : Nat) (tasks : List Task) :
    v.run state (.leave mark depth :: tasks) = v.run (v.leave state mark depth) tasks := by
  rw [run]

mutual

theorem run_enter (v : Visitor σ) : ∀ (mark : Mark) (depth : Nat) (state : σ) (tasks : List Task),
    v.run state (.enter mark depth :: tasks) = (v.visit depth state mark).proceed v tasks
  | ⟨shape, numbers, data, children⟩, depth, state, tasks => by
    rw [run, visit]
    rcases v.enter state ⟨shape, numbers, data, children⟩ depth with ⟨_ | _ | _, state⟩
    · simp only
      rw [run_children v children]
      rcases v.visitAll (depth + 1) state children with ⟨_ | _, state⟩
      · rfl
      · exact run_leave ..
    · rfl
    · rfl

theorem run_children (v : Visitor σ) : ∀ (marks : List Mark) (depth : Nat) (state : σ) (tasks : List Task),
    v.run state (Task.children depth marks ++ tasks) = (v.visitAll depth state marks).proceed v tasks
  | [], depth, state, tasks => rfl
  | mark :: rest, depth, state, tasks => by
    have hcons : Task.children depth (mark :: rest) ++ tasks =
        .enter mark depth :: (Task.children depth rest ++ tasks) := rfl
    rw [hcons, run_enter v mark, visitAll]
    rcases v.visit depth state mark with ⟨_ | _, after⟩
    · rfl
    · exact run_children v rest depth after tasks

end

end SvgPlot.Visitor
