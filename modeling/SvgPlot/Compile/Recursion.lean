import SvgPlot.Compile.Run

/-!
# Runs by recursion

The marks of a tree said by recursion on it, every element at its own depth. A run keeps its elements in a stack of
frames instead; `Run.outlook` says by the recursion what the frames still come to. No step changes the outlook, so a run
comes to what the recursion says (`runChildren_eq`).
-/

namespace SvgPlot

open Markup (Element)

theorem map_eq_ok_iff {ε α β : Type} {r : Except ε α} {f : α → β} {b : β} :
    r.map f = .ok b ↔ ∃ a, r = .ok a ∧ b = f a := by
  cases r <;> simp [Except.map, eq_comm]

namespace Report

variable {α β γ : Type}

/-- One report after another; a failure is the end. -/
def andThen (r : Report α) (next : α → Report β) : Report β :=
  match r.result with
  | .ok a => (next a).after r.notes
  | .error error => ⟨r.notes, .error error⟩

@[simp] theorem after_nil (r : Report α) : r.after [] = r := rfl

@[simp] theorem after_after (before notes : List Note) (r : Report α) :
    (r.after notes).after before = r.after (before ++ notes) := by
  simp only [after, List.append_assoc]

@[simp] theorem andThen_ok (notes : List Note) (a : α) (next : α → Report β) :
    (⟨notes, .ok a⟩ : Report α).andThen next = (next a).after notes := rfl

@[simp] theorem andThen_error (notes : List Note) (error : TooDeep) (next : α → Report β) :
    (⟨notes, .error error⟩ : Report α).andThen next = ⟨notes, .error error⟩ := rfl

theorem andThen_after (notes : List Note) (r : Report α) (next : α → Report β) :
    (r.after notes).andThen next = (r.andThen next).after notes := by
  rcases r with ⟨inner, error | a⟩
  · rfl
  · exact (after_after notes inner (next a)).symm

theorem result_andThen {r : Report α} {next : α → Report β} {b : β} :
    (r.andThen next).result = .ok b ↔ ∃ a, r.result = .ok a ∧ (next a).result = .ok b := by
  rcases r with ⟨notes, error | a⟩ <;> simp [andThen, after]

/-- The notes of two reports one after the other, of which the first is no failure. -/
theorem notes_andThen {r : Report α} {a : α} (h : r.result = .ok a) (next : α → Report β) :
    (r.andThen next).notes = r.notes ++ (next a).notes := by
  simp only [andThen, h, after]

theorem result_map {f : α → β} {r : Report α} {b : β} :
    (r.map f).result = .ok b ↔ ∃ a, r.result = .ok a ∧ b = f a := map_eq_ok_iff

theorem andThen_map (f : α → β) (r : Report α) (next : β → Report γ) :
    (r.map f).andThen next = r.andThen fun a => next (f a) := by
  rcases r with ⟨notes, error | a⟩ <;> rfl

theorem andThen_assoc (r : Report α) (next : α → Report β) (last : β → Report γ) :
    (r.andThen next).andThen last = r.andThen fun a => (next a).andThen last := by
  rcases r with ⟨notes, error | a⟩
  · rfl
  · exact andThen_after notes (next a) last

theorem andThen_pure (f : α → β) (r : Report α) : (r.andThen fun a => ⟨[], .ok (f a)⟩) = r.map f := by
  rcases r with ⟨notes, error | a⟩
  · rfl
  · simp [after, map, Except.map]

end Report

mutual

/-- The mark of an element at some depth, if it comes to one. -/
def drawn (canvas : Canvas) (limit depth : Nat) : Element → Report (Option Mark)
  | ⟨name, attributes, content, children⟩ =>
    if limit < depth then ⟨[], .error ⟨limit⟩⟩
    else
      let opening := openElement canvas ⟨name, attributes, content, children⟩
      match opening.mark with
      | none => ⟨opening.notes, .ok none⟩
      | some mark =>
        ((drawnAll canvas limit (depth + 1) children).map fun marks =>
          some { mark with children := mark.children ++ marks }).after opening.notes

/-- The marks of elements that are all at one depth. -/
def drawnAll (canvas : Canvas) (limit depth : Nat) : List Element → Report (List Mark)
  | [] => ⟨[], .ok []⟩
  | e :: rest =>
    (drawn canvas limit depth e).andThen fun mark =>
      (drawnAll canvas limit depth rest).map fun marks => mark.toList ++ marks

end

section

variable {canvas : Canvas} {limit depth : Nat} {e : Element}

theorem drawn_of_lt (h : limit < depth) : drawn canvas limit depth e = ⟨[], .error ⟨limit⟩⟩ := by
  obtain ⟨name, attributes, content, children⟩ := e
  rw [drawn, if_pos h]

theorem drawn_of_none (hdepth : depth ≤ limit) (hmark : (openElement canvas e).mark = none) :
    drawn canvas limit depth e = ⟨(openElement canvas e).notes, .ok none⟩ := by
  obtain ⟨name, attributes, content, children⟩ := e
  simp only [drawn, if_neg (Nat.not_lt.2 hdepth), hmark]

theorem drawn_of_some {mark : Mark} (hdepth : depth ≤ limit) (hmark : (openElement canvas e).mark = some mark) :
    drawn canvas limit depth e =
      ((drawnAll canvas limit (depth + 1) e.children).map fun marks =>
        some { mark with children := mark.children ++ marks }).after (openElement canvas e).notes := by
  obtain ⟨name, attributes, content, children⟩ := e
  simp only [drawn, if_neg (Nat.not_lt.2 hdepth), hmark]

end

/-! ## What the frames of a run still come to -/

/-- The mark of a frame when these marks have come of all that waited in it. -/
def Frame.complete (f : Frame) (marks : List Mark) : Mark :=
  { f.mark with children := f.mark.children ++ f.made.reverse ++ marks }

theorem Frame.complete_nil (f : Frame) : f.complete [] = f.finish := by
  simp only [complete, finish, List.append_nil]

theorem Frame.complete_addChild (f : Frame) (m : Mark) (marks : List Mark) :
    (f.addChild m).complete marks = f.complete (m :: marks) := by
  simp only [complete, addChild, List.reverse_cons, List.append_assoc, List.singleton_append]

/-- What frames come to, innermost first, when the mark inside them is finished. -/
def enclose (canvas : Canvas) (limit : Nat) (inner : Mark) : List Frame → Report Mark
  | [] => ⟨[], .ok inner⟩
  | f :: below =>
    (drawnAll canvas limit (below.length + 2) f.waiting).andThen fun marks =>
      enclose canvas limit (f.complete (inner :: marks)) below

/-- What a run comes to in the end, by the recursion on all elements that wait in its frames. -/
def Run.outlook (canvas : Canvas) (limit : Nat) (r : Run) : Report Mark :=
  ((drawnAll canvas limit (r.depth + 1) r.top.waiting).andThen fun marks =>
    enclose canvas limit (r.top.complete marks) r.below).after r.notes.reverse

section

variable {canvas : Canvas} {limit : Nat} {r next : Run}

/-- The outlook of a run in whose innermost frame nothing waits. -/
theorem Run.outlook_of_waiting_nil (h : r.top.waiting = []) :
    r.outlook canvas limit = (enclose canvas limit r.top.finish r.below).after r.notes.reverse := by
  simp only [outlook, h, drawnAll, Report.andThen_ok, Report.after_nil, Frame.complete_nil]

/-- The outlook of a run with its next element taken apart from those after it. -/
theorem Run.outlook_of_waiting_cons {e : Element} {rest : List Element} (h : r.top.waiting = e :: rest) :
    r.outlook canvas limit =
      ((drawn canvas limit (r.depth + 1) e).andThen fun mark =>
        (drawnAll canvas limit (r.depth + 1) rest).andThen fun marks =>
          enclose canvas limit (r.top.complete (mark.toList ++ marks)) r.below).after r.notes.reverse := by
  simp only [outlook, h, drawnAll, Report.andThen_assoc, Report.andThen_map]

/-- A step that is not the last does not change the outlook. -/
theorem Run.outlook_of_goesOn (h : r.step canvas limit = .goesOn next) :
    next.outlook canvas limit = r.outlook canvas limit := by
  rcases cases_of_goesOn h with ⟨outer, hwaiting, hbelow, htop, hnotes⟩ |
    ⟨e, rest, hwaiting, hdepth, hnotes, ⟨hmark, htop, hbelow⟩ | ⟨inner, hmark, htop, hbelow⟩⟩
  · -- the finished mark becomes a child of the frame around it
    rw [outlook_of_waiting_nil hwaiting, hbelow, outlook, next.depth_eq, hnotes, htop]
    simp only [enclose, Frame.complete_addChild]
    rfl
  · -- the element comes to no mark
    have hsame : next.depth = r.depth := by rw [next.depth_eq, r.depth_eq, hbelow]
    rw [outlook_of_waiting_cons hwaiting, drawn_of_none hdepth hmark, outlook, hsame, hnotes, htop, hbelow]
    simp only [Report.andThen_ok, Report.after_after, Option.toList_none, List.nil_append, List.reverse_append,
      List.reverse_reverse]
    rfl
  · -- the element comes to a mark, and its children are next
    have hdeeper : next.depth = r.depth + 1 := by rw [next.depth_eq, r.depth_eq, hbelow]; rfl
    rw [outlook_of_waiting_cons hwaiting, drawn_of_some hdepth hmark, outlook, hdeeper, hnotes, htop, hbelow]
    simp only [enclose, Report.andThen_after, Report.andThen_map, Report.after_after, Option.toList_some,
      List.reverse_append, List.reverse_reverse, r.depth_eq]
    simp only [Frame.complete, List.reverse_nil, List.append_nil, List.singleton_append]

/-- A last step ends the run as its outlook says. -/
theorem Run.outlook_of_ends {result : Except TooDeep Mark} (h : r.step canvas limit = .ends result) :
    r.outlook canvas limit = ⟨r.notes.reverse, result⟩ := by
  rcases cases_of_ends h with ⟨hwaiting, hbelow, rfl⟩ | ⟨e, rest, hwaiting, hdepth, rfl⟩
  · rw [outlook_of_waiting_nil hwaiting, hbelow]
    simp only [enclose, Report.after, List.append_nil]
  · rw [outlook_of_waiting_cons hwaiting, drawn_of_lt (Nat.lt_succ_of_le hdepth)]
    simp only [Report.andThen_error, Report.after, List.append_nil]

/-- A run comes to what the recursion says about its frames. -/
theorem Run.complete_eq_outlook (r : Run) : r.complete canvas limit = r.outlook canvas limit := by
  fun_induction Run.complete canvas limit r with
  | case1 r result h => exact (outlook_of_ends h).symm
  | case2 r next h ih => rw [ih, outlook_of_goesOn h]

end

/-- Completing a mark with what comes of an element's children is the recursion on them. -/
theorem runChildren_eq (canvas : Canvas) (limit : Nat) (e : Element) (mark : Mark) :
    runChildren canvas limit e mark =
      (drawnAll canvas limit 2 e.children).map fun marks => { mark with children := mark.children ++ marks } := by
  rw [runChildren, Run.complete_eq_outlook, Run.outlook]
  simp only [Run.start, enclose, Report.andThen_pure, List.reverse_nil, Report.after_nil, Frame.complete,
    List.append_nil]

end SvgPlot
