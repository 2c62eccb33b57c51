import SvgPlot.Mark

/-!
# Traversals

A visitor is shown the marks of a tree in document order, and each again after its children. It decides at every mark
whether to go on into the children, to pass them over, or to end everything. The walk keeps a list of what is still to
be done, so that the depth of a tree costs no call stack.
-/

namespace SvgPlot

/-- Where a walk goes from a mark. -/
inductive Step where
  | descend
  | skipChildren
  | stop
deriving Repr, DecidableEq

/-- `enter` is called before the children of a mark and `leave` after them, both with the depth of the mark. -/
structure Visitor (σ : Type) where
  enter : σ → Mark → (depth : Nat) → Step × σ
  leave : σ → Mark → (depth : Nat) → σ

/-- One thing that a walk still has to do. -/
inductive Task where
  | enter (mark : Mark) (depth : Nat)
  | leave (mark : Mark) (depth : Nat)

/-- A bound for the steps that a task takes. -/
def Task.work : Task → Nat
  | .enter mark _ => 2 * mark.size
  | .leave _ _ => 1

/-- A bound for the steps that a list of tasks takes. -/
def Task.workOf (tasks : List Task) : Nat := tasks.foldr (fun task n => task.work + n) 0

/-- The tasks for the children of a mark. -/
def Task.children (depth : Nat) (marks : List Mark) : List Task := marks.map fun mark => .enter mark depth

theorem Task.workOf_cons (task : Task) (tasks : List Task) : workOf (task :: tasks) = task.work + workOf tasks := rfl

theorem Task.workOf_children (depth : Nat) (marks : List Mark) :
    workOf (children depth marks) = 2 * Mark.sizes marks := by
  induction marks with
  | nil => rfl
  | cons mark rest ih =>
    rw [Mark.sizes, Nat.mul_add, ← ih]
    rfl

theorem Task.workOf_append (as bs : List Task) : workOf (as ++ bs) = workOf as + workOf bs := by
  induction as with
  | nil => exact (Nat.zero_add _).symm
  | cons task as ih => rw [List.cons_append, workOf_cons, workOf_cons, ih, Nat.add_assoc]

namespace Visitor

variable {σ : Type}

/-- Does all tasks, unless the visitor ends the walk. -/
def run (v : Visitor σ) (state : σ) : List Task → σ
  | [] => state
  | .leave mark depth :: tasks => v.run (v.leave state mark depth) tasks
  | .enter mark depth :: tasks =>
    match v.enter state mark depth with
    | (.stop, state) => state
    | (.skipChildren, state) => v.run (v.leave state mark depth) tasks
    | (.descend, state) => v.run state (Task.children (depth + 1) mark.children ++ .leave mark depth :: tasks)
termination_by tasks => Task.workOf tasks
decreasing_by
  · rw [Task.workOf_cons, Task.work]
    omega
  · have : 0 < mark.size := by cases mark; simp only [Mark.size]; omega
    rw [Task.workOf_cons, Task.work]
    omega
  · have : mark.size = 1 + Mark.sizes mark.children := by cases mark; simp only [Mark.size]
    simp only [Task.workOf_append, Task.workOf_children, Task.workOf_cons, Task.work]
    omega

/-- The state of the visitor after the walk through a tree, whose root is at depth 0. -/
def walk (v : Visitor σ) (state : σ) (root : Mark) : σ := v.run state [.enter root 0]

end Visitor

end SvgPlot
