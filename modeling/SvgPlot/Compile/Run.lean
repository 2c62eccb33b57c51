import SvgPlot.Compile.Opening

/-!
# Compiling a tree

The marks of a tree are made in document order: an element is opened, then its children if it came to a mark. The work
is done with a stack of marks whose children are still to come, so that the depth of a tree costs no call stack. No
element may lie deeper than the limit; the first one that does ends the run, and the notes up to there stay.
-/

namespace SvgPlot

open Markup (Element)

/-- An element lies deeper than this limit allows. -/
structure TooDeep where
  limit : Nat
deriving Repr, DecidableEq

/-- What was noted on the way, and what came of it. -/
structure Report (α : Type) where
  notes : List Note
  result : Except TooDeep α

namespace Report

variable {α β : Type}

def map (f : α → β) (r : Report α) : Report β := ⟨r.notes, r.result.map f⟩

/-- A report with notes from before it. -/
def after (notes : List Note) (r : Report α) : Report α := ⟨notes ++ r.notes, r.result⟩

end Report

/-- A mark whose children are still to come: those that came so far, newest first, and the elements that wait. -/
structure Frame where
  mark : Mark
  made : List Mark
  waiting : List Element

namespace Frame

/-- The mark with the children that came, after those it had before. -/
def finish (f : Frame) : Mark := { f.mark with children := f.mark.children ++ f.made.reverse }

def addChild (f : Frame) (m : Mark) : Frame := { f with made := m :: f.made }

/-- A bound for the steps that are left for a frame. -/
def work (f : Frame) : Nat := 1 + 2 * Element.sizes f.waiting

end Frame

/-- A run under way: the frames that are open, innermost first, the last one being the one that the run is for, and the
notes so far, newest first. The mark of `top` lies at `depth`. -/
structure Run where
  top : Frame
  below : List Frame
  notes : List Note
  depth : Nat
  depth_eq : depth = below.length + 1

/-- What a run comes to next. -/
inductive Turn where
  | goesOn (next : Run)
  | ends (result : Except TooDeep Mark)

namespace Run

/-- The run that completes one mark, at depth 1, with what comes of some elements. -/
def start (mark : Mark) (waiting : List Element) : Run := ⟨⟨mark, [], waiting⟩, [], [], 1, rfl⟩

/-- One step: a frame is finished, or the next element that waits in the innermost frame is opened. -/
def step (canvas : Canvas) (limit : Nat) (r : Run) : Turn :=
  match r.top.waiting with
  | [] =>
    match h : r.below with
    | [] => .ends (.ok r.top.finish)
    | outer :: below =>
      .goesOn ⟨outer.addChild r.top.finish, below, r.notes, r.depth - 1, by rw [r.depth_eq, h]; rfl⟩
  | e :: rest =>
    if limit ≤ r.depth then .ends (.error ⟨limit⟩)
    else
      match (openElement canvas e).mark with
      | none => .goesOn { r with top.waiting := rest, notes := (openElement canvas e).notes.reverse ++ r.notes }
      | some inner =>
        .goesOn ⟨⟨inner, [], e.children⟩, { r.top with waiting := rest } :: r.below,
          (openElement canvas e).notes.reverse ++ r.notes, r.depth + 1, by rw [r.depth_eq]; rfl⟩

section

variable {canvas : Canvas} {limit : Nat} {r next : Run}

/-- All that a step can do that is not the last. -/
theorem cases_of_goesOn (h : r.step canvas limit = .goesOn next) :
    (∃ outer, r.top.waiting = [] ∧ r.below = outer :: next.below ∧
      next.top = outer.addChild r.top.finish ∧ next.notes = r.notes) ∨
    ∃ e rest, r.top.waiting = e :: rest ∧ r.depth < limit ∧
      next.notes = (openElement canvas e).notes.reverse ++ r.notes ∧
      (((openElement canvas e).mark = none ∧ next.top = { r.top with waiting := rest } ∧ next.below = r.below) ∨
        ∃ inner, (openElement canvas e).mark = some inner ∧ next.top = ⟨inner, [], e.children⟩ ∧
          next.below = { r.top with waiting := rest } :: r.below) := by
  unfold step at h
  split at h
  · rename_i hwaiting
    split at h
    · cases h
    · rename_i outer below hbelow
      cases h
      exact .inl ⟨outer, hwaiting, hbelow, rfl, rfl⟩
  · rename_i e rest hwaiting
    split at h
    · cases h
    · rename_i hlimit
      refine .inr ⟨e, rest, hwaiting, Nat.lt_of_not_le hlimit, ?_⟩
      split at h
      · rename_i hmark
        cases h
        exact ⟨rfl, .inl ⟨hmark, rfl, rfl⟩⟩
      · rename_i inner hmark
        cases h
        exact ⟨rfl, .inr ⟨inner, hmark, rfl, rfl⟩⟩

/-- All that a last step can be. -/
theorem cases_of_ends {result : Except TooDeep Mark} (h : r.step canvas limit = .ends result) :
    (r.top.waiting = [] ∧ r.below = [] ∧ result = .ok r.top.finish) ∨
    ∃ e rest, r.top.waiting = e :: rest ∧ limit ≤ r.depth ∧ result = .error ⟨limit⟩ := by
  unfold step at h
  split at h
  · rename_i hwaiting
    split at h
    · rename_i hbelow
      cases h
      exact .inl ⟨hwaiting, hbelow, rfl⟩
    · cases h
  · rename_i e rest hwaiting
    split at h
    · rename_i hlimit
      cases h
      exact .inr ⟨e, rest, hwaiting, hlimit, rfl⟩
    · split at h <;> cases h

end

/-- A bound for the steps that are left. -/
def work (r : Run) : Nat := (r.top :: r.below).foldr (fun f n => f.work + n) 0

theorem work_lt_of_step {canvas : Canvas} {limit : Nat} {r next : Run} (h : r.step canvas limit = .goesOn next) :
    next.work < r.work := by
  simp only [work, List.foldr_cons]
  rcases cases_of_goesOn h with ⟨outer, hwaiting, hbelow, htop, _⟩ | ⟨e, rest, hwaiting, _, _, hopened⟩
  · rw [hbelow, htop]
    simp only [List.foldr_cons, Frame.work, Frame.addChild]
    omega
  · have hsize := Element.size_eq e
    rcases hopened with ⟨_, htop, hbelow⟩ | ⟨inner, _, htop, hbelow⟩
    · rw [htop, hbelow]
      simp only [Frame.work, hwaiting, Element.sizes]
      omega
    · rw [htop, hbelow]
      simp only [List.foldr_cons, Frame.work, hwaiting, Element.sizes]
      omega

/-- Steps until the run ends. -/
def complete (canvas : Canvas) (limit : Nat) (r : Run) : Report Mark :=
  match _h : r.step canvas limit with
  | .ends result => ⟨r.notes.reverse, result⟩
  | .goesOn next => next.complete canvas limit
termination_by r.work
decreasing_by exact work_lt_of_step _h

end Run

/-- The mark of an element that has been opened, with the marks of all below it. The element itself is at depth 1. -/
def runChildren (canvas : Canvas) (limit : Nat) (e : Element) (mark : Mark) : Report Mark :=
  (Run.start mark e.children).complete canvas limit

/-- The mark that a document is put in, whatever its root says. -/
def containerMark : Mark := ⟨.svg, [], none, []⟩

end SvgPlot
