import SvgPlot.Proofs.DocumentOrder

/-!
# Visited elements

A compilation goes into an element only if the element comes to a mark of its own. So the elements it visits are those
that are reached through such elements.

* `Element.inside` are the elements below another one that have only elements of some kind between. `Element.reached`
  finds them by going into elements of that kind alone (`Element.inside_eq`).
* `Mark.preorder` lists the marks of a tree in document order.
* `drawn_eq_reached` says that a compilation that succeeds comes to the notes and the marks of the visited elements, one
  after the other. What is to be shown of a compilation is then to be shown of opening one element.
-/

namespace SvgPlot

namespace Markup.Element

/-! ## Elements below elements -/

/-- An element below another one, with those between the two, outermost first. -/
structure Descendant where
  between : List Element
  element : Element

mutual

/-- An element and all below it, in document order, when it lies below another one with these elements between. -/
def descendantsFrom (between : List Element) : Element → List Descendant
  | ⟨name, attributes, content, children⟩ =>
    ⟨between, ⟨name, attributes, content, children⟩⟩ ::
      descendantsOfAll (between ++ [⟨name, attributes, content, children⟩]) children

def descendantsOfAll (between : List Element) : List Element → List Descendant
  | [] => []
  | e :: rest => descendantsFrom between e ++ descendantsOfAll between rest

end

/-- All elements below an element, in document order. -/
def descendants (e : Element) : List Descendant := descendantsOfAll [] e.children

/-- The elements below an element that have only elements of some kind between. -/
def inside (through : Element → Bool) (e : Element) : List Element :=
  (e.descendants.filter fun d => d.between.all through).map Descendant.element

mutual

/-- An element and all below it that are reached through elements of some kind. -/
def reached (through : Element → Bool) : Element → List Element
  | ⟨name, attributes, content, children⟩ =>
    ⟨name, attributes, content, children⟩ ::
      if through ⟨name, attributes, content, children⟩ then reachedAll through children else []

def reachedAll (through : Element → Bool) : List Element → List Element
  | [] => []
  | e :: rest => e.reached through ++ reachedAll through rest

end

section

variable (through : Element → Bool)

theorem reached_eq (e : Element) :
    e.reached through = e :: if through e then reachedAll through e.children else [] := by
  obtain ⟨name, attributes, content, children⟩ := e
  rw [reached]

mutual

/-- Nothing is reached behind an element of another kind. -/
theorem filter_descendantsFrom : ∀ (e : Element) (between : List Element),
    ((descendantsFrom between e).filter fun d => d.between.all through).map Descendant.element =
      if between.all through then e.reached through else []
  | ⟨name, attributes, content, children⟩, between => by
    have hinner := filter_descendantsOfAll children (between ++ [⟨name, attributes, content, children⟩])
    rw [List.all_append, List.all_cons, List.all_nil, Bool.and_true] at hinner
    rw [descendantsFrom, List.filter_cons, reached_eq]
    by_cases hbetween : between.all through = true
    · rw [hbetween, Bool.true_and] at hinner
      simp only [hbetween, if_true, List.map_cons, hinner]
    · have hnone : between.all through = false := by simpa using hbetween
      rw [hnone, Bool.false_and] at hinner
      simpa [hnone] using hinner

theorem filter_descendantsOfAll : ∀ (es between : List Element),
    ((descendantsOfAll between es).filter fun d => d.between.all through).map Descendant.element =
      if between.all through then reachedAll through es else []
  | [], between => by simp [descendantsOfAll, reachedAll]
  | e :: rest, between => by
    rw [descendantsOfAll, List.filter_append, List.map_append, filter_descendantsFrom e, filter_descendantsOfAll rest,
      reachedAll]
    split <;> simp

end

/-- The elements below an element with only elements of some kind between are those that are reached through such
elements. -/
theorem inside_eq (e : Element) : e.inside through = reachedAll through e.children := by
  rw [inside, descendants, filter_descendantsOfAll, List.all_nil, if_pos rfl]

end

end Markup.Element

open Markup (Element)

/-! ## The marks of a tree -/

namespace Mark

/-- The marks of the tree, each before its children. -/
def preorder (m : Mark) : List Mark := m.rows.map Prod.snd

/-- A mark without its children. -/
def bare (m : Mark) : Mark := { m with children := [] }

theorem bare_of_children_nil {m : Mark} (h : m.children = []) : m.bare = m := by
  obtain ⟨shape, numbers, data, children⟩ := m
  subst h
  rfl

mutual

/-- Which marks come in a row does not depend on the depth that is counted from. -/
theorem map_snd_rowsOnto : ∀ (m : Mark) (depth : Nat) (tail : List (Nat × Mark)),
    (m.rowsOnto depth tail).map Prod.snd = m.preorder ++ tail.map Prod.snd
  | ⟨shape, numbers, data, children⟩, depth, tail => by
    rw [preorder, rows, rowsOnto, rowsOnto, List.map_cons, List.map_cons, map_snd_rowsOfAllOnto children (depth + 1),
      map_snd_rowsOfAllOnto children (0 + 1) []]
    simp only [List.map_nil, List.append_nil, List.cons_append]

theorem map_snd_rowsOfAllOnto : ∀ (ms : List Mark) (depth : Nat) (tail : List (Nat × Mark)),
    (rowsOfAllOnto depth tail ms).map Prod.snd = ms.flatMap preorder ++ tail.map Prod.snd
  | [], depth, tail => rfl
  | m :: rest, depth, tail => by
    rw [rowsOfAllOnto, map_snd_rowsOnto m, map_snd_rowsOfAllOnto rest, List.flatMap_cons, List.append_assoc]

end

theorem preorder_eq (m : Mark) : m.preorder = m :: m.children.flatMap preorder := by
  obtain ⟨shape, numbers, data, children⟩ := m
  rw [preorder, rows, rowsOnto, List.map_cons, map_snd_rowsOfAllOnto, List.map_nil, List.append_nil]

mutual

theorem length_preorder : ∀ m : Mark, m.preorder.length = m.size
  | ⟨shape, numbers, data, children⟩ => by
    rw [preorder_eq, List.length_cons, length_flatMap_preorder children, size, Nat.add_comm]

theorem length_flatMap_preorder : ∀ ms : List Mark, (ms.flatMap preorder).length = sizes ms
  | [] => rfl
  | m :: rest => by
    rw [List.flatMap_cons, List.length_append, length_preorder m, length_flatMap_preorder rest, sizes]

end

end Mark

/-! ## What is visited -/

section

variable (canvas : Canvas)

/-- An element comes to a mark of its own. -/
def opens (e : Element) : Bool := (openElement canvas e).mark.isSome

/-- An element comes to a mark if its name is that of a shape and nothing is wrong with it. -/
theorem mark_openElement_eq_some_iff {canvas : Canvas} {e : Element} {mark : Mark} :
    (openElement canvas e).mark = some mark ↔
      ∃ shape, Role.ofName e.name = .drawn shape ∧ shape.markOf canvas e = .ok mark := by
  unfold openElement
  cases hrole : Role.ofName e.name with
  | drawn shape =>
    simp only [Role.drawn.injEq, exists_eq_left', openShape]
    cases shape.markOf canvas e <;> simp
  | _ => simp

theorem children_of_openElement {canvas : Canvas} {e : Element} {mark : Mark}
    (h : (openElement canvas e).mark = some mark) : mark.children = [] := by
  obtain ⟨shape, -, hmark⟩ := mark_openElement_eq_some_iff.1 h
  exact children_of_markOf hmark

variable {limit : Nat}

mutual

/-- An element that compiles comes to the notes of the elements that are visited and to their marks. -/
theorem drawn_eq_reached : ∀ (e : Element) (depth : Nat) (mark : Option Mark),
    (drawn canvas limit depth e).result = .ok mark →
      (drawn canvas limit depth e).notes = (e.reached (opens canvas)).flatMap (fun x => (openElement canvas x).notes) ∧
        (mark.toList.flatMap Mark.preorder).map Mark.bare =
          (e.reached (opens canvas)).filterMap fun x => (openElement canvas x).mark
  | ⟨name, attributes, content, children⟩, depth, mark, h => by
    by_cases hdepth : limit < depth
    · rw [drawn_of_lt hdepth] at h
      cases h
    rw [Element.reached_eq]
    cases hopened : (openElement canvas ⟨name, attributes, content, children⟩).mark with
    | none =>
      have hclosed : opens canvas ⟨name, attributes, content, children⟩ = false := by rw [opens, hopened]; rfl
      rw [drawn_of_none (Nat.le_of_not_lt hdepth) hopened] at h ⊢
      cases h
      simp [hclosed, hopened]
    | some opened =>
      have hopen : opens canvas ⟨name, attributes, content, children⟩ = true := by rw [opens, hopened]; rfl
      rw [drawn_of_some (Nat.le_of_not_lt hdepth) hopened] at h ⊢
      obtain ⟨marks, hmarks, rfl⟩ := Report.result_map.1 h
      obtain ⟨hnotes, hinner⟩ := drawnAll_eq_reachedAll children (depth + 1) marks hmarks
      have hempty := children_of_openElement hopened
      rw [hopen, if_pos rfl]
      refine ⟨?_, ?_⟩
      · rw [List.flatMap_cons, ← hnotes]
        rfl
      · simp only [List.filterMap_cons, hopened, ← hinner, Option.toList_some, List.flatMap_singleton,
          Mark.preorder_eq ⟨_, _, _, _⟩, List.map_cons, hempty, List.nil_append]
        exact congrArg (· :: _) (Mark.bare_of_children_nil hempty)

theorem drawnAll_eq_reachedAll : ∀ (es : List Element) (depth : Nat) (marks : List Mark),
    (drawnAll canvas limit depth es).result = .ok marks →
      (drawnAll canvas limit depth es).notes =
          (Element.reachedAll (opens canvas) es).flatMap (fun x => (openElement canvas x).notes) ∧
        (marks.flatMap Mark.preorder).map Mark.bare =
          (Element.reachedAll (opens canvas) es).filterMap fun x => (openElement canvas x).mark
  | [], depth, marks, h => by
    rw [drawnAll] at h ⊢
    cases h
    exact ⟨rfl, rfl⟩
  | e :: rest, depth, marks, h => by
    rw [drawnAll] at h ⊢
    obtain ⟨mark, hmark, hrest⟩ := Report.result_andThen.1 h
    obtain ⟨others, hothers, rfl⟩ := Report.result_map.1 hrest
    obtain ⟨hnotes, hfirst⟩ := drawn_eq_reached e depth mark hmark
    obtain ⟨hmore, hsecond⟩ := drawnAll_eq_reachedAll rest depth others hothers
    rw [Element.reachedAll, List.flatMap_append, List.filterMap_append, Report.notes_andThen hmark, List.flatMap_append,
      List.map_append, hnotes, hfirst, hsecond, ← hmore]
    exact ⟨rfl, rfl⟩

end

end

end SvgPlot
