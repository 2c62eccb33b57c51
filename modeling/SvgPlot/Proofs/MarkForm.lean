import SvgPlot.Proofs.CollapsedText
import SvgPlot.Proofs.SessionCalls
import SvgPlot.Proofs.VisitedElements

/-!
# The form of marks

How many numbers a mark of each shape has, and which data (`Mark.IsFormed`). A mark that an element is opened with is
formed as its shape asks (`isFormed_of_markOf`): the numbers by the measures of its rule, the data by the payload. Since
all marks of a compilation are those of the elements it visits, all of them are.
-/

namespace SvgPlot

open Markup (Element)

/-! ## What a shape asks of its marks -/

namespace Shape

/-- The number of numbers in a mark of this shape. -/
def Takes (shape : Shape) (count : Nat) : Prop :=
  match shape with
  | svg | group | path => count = 0
  | text | textSpan => count = 2
  | circle => count = 3
  | line | ellipse | image => count = 4
  | rectangle => count = 5
  | polyline | polygon => count % 2 = 0

/-- The data of a mark of this shape. -/
def Carries (shape : Shape) (data : Option String) : Prop :=
  match shape with
  | path => data.isSome = true
  | image => True
  | text | textSpan => ∀ text ∈ data, Text.IsCollapsed text.toList
  | svg | group | line | circle | ellipse | rectangle | polyline | polygon => data = none

end Shape

/-- A mark has the numbers and the data that its shape asks for. -/
structure Mark.IsFormed (mark : Mark) : Prop where
  numbers : mark.shape.Takes mark.numbers.length
  data : mark.shape.Carries mark.data

/-! ## Numbers -/

theorem Canvas.length_positions (canvas : Canvas) (pairs : List (Length × Length)) :
    (canvas.positions pairs).length = 2 * pairs.length := by
  induction pairs with
  | nil => rfl
  | cons pair rest ih =>
    have hcons : canvas.positions (pair :: rest) =
        [canvas.across pair.1, canvas.above pair.2] ++ canvas.positions rest := rfl
    have htwo : [canvas.across pair.1, canvas.above pair.2].length = 2 := rfl
    rw [hcons, List.length_append, htwo, ih, List.length_cons]
    omega

/-- A list of coordinates gives an even number of numbers, every other quantity gives one. -/
theorem Canvas.length_measure {canvas : Canvas} {quantity : Quantity} {raw : String} {numbers : List Float}
    (h : canvas.measure quantity raw = .ok numbers) :
    if quantity = .points then numbers.length % 2 = 0 else numbers.length = 1 := by
  cases quantity with
  | points =>
    obtain ⟨pairs, -, rfl⟩ := map_eq_ok_iff.1 h
    simp [length_positions]
  | _ =>
    obtain ⟨length, -, rfl⟩ := map_eq_ok_iff.1 h
    rfl

section

variable {canvas : Canvas} {e : Element} {numbers : List Float}

theorem readMeasures_cons_eq_ok_iff {m : Shape.Measure} {rest : List Shape.Measure} :
    readMeasures canvas e (m :: rest) = .ok numbers ↔
      ∃ first more, canvas.measure m.quantity ((e.attributes.get? m.key).getD "0") = .ok first ∧
        readMeasures canvas e rest = .ok more ∧ numbers = first ++ more := by
  simp only [readMeasures]
  cases canvas.measure m.quantity ((e.attributes.get? m.key).getD "0") with
  | error error => simp
  | ok first => simp [map_eq_ok_iff]

/-- Measures that are no coordinate lists give one number each. -/
theorem length_readMeasures {measures : List Shape.Measure} (hsingle : ∀ m ∈ measures, m.quantity ≠ .points) :
    ∀ {numbers}, readMeasures canvas e measures = .ok numbers → numbers.length = measures.length := by
  induction measures with
  | nil =>
    intro numbers h
    cases h
    rfl
  | cons m rest ih =>
    intro numbers h
    obtain ⟨hm, hrest⟩ := List.forall_mem_cons.1 hsingle
    obtain ⟨first, more, hfirst, hmore, rfl⟩ := readMeasures_cons_eq_ok_iff.1 h
    have hone := Canvas.length_measure hfirst
    rw [if_neg hm] at hone
    rw [List.length_append, hone, ih hrest hmore, List.length_cons, Nat.add_comm]

/-- A coordinate list alone gives an even number of numbers. -/
theorem length_readMeasures_points {key : String} (h : readMeasures canvas e [⟨key, .points⟩] = .ok numbers) :
    numbers.length % 2 = 0 := by
  obtain ⟨first, more, hfirst, hmore, rfl⟩ := readMeasures_cons_eq_ok_iff.1 h
  cases hmore
  rw [List.append_nil]
  exact Canvas.length_measure hfirst

/-- The measures of a shape give as many numbers as the shape takes. -/
theorem takes_of_readMeasures {shape : Shape} (h : readMeasures canvas e shape.rule.measures = .ok numbers) :
    shape.Takes numbers.length := by
  cases shape with
  | polyline => exact length_readMeasures_points h
  | polygon => exact length_readMeasures_points h
  | _ => exact length_readMeasures (by decide) h

end

/-! ## Data -/

/-- An element that has all that its shape requires has the data that the shape carries. -/
theorem carries_readPayload {shape : Shape} {e : Element} (h : shape.rule.missing e.attributes.contains = []) :
    shape.Carries (readPayload e shape.rule.payload).1 := by
  have hcontent : ∀ text ∈ (readPayload e .content).1, Text.IsCollapsed text.toList := by
    intro text htext
    simp only [readPayload] at htext
    split at htext
    · exact absurd htext (Option.not_mem_none text)
    · rename_i hwords
      rw [← Option.mem_some.1 htext]
      exact Text.isCollapsed_collapse (by simpa using hwords)
  cases shape with
  | path =>
    have hthere : e.attributes.contains "d" = true := by simpa [Shape.rule, Shape.Rule.missing] using h
    show (["d"].findSome? e.attributes.get?).isSome = true
    obtain ⟨d, hd⟩ := Option.isSome_iff_exists.1 hthere
    simp [hd]
  | image => trivial
  | text => exact hcontent
  | textSpan => exact hcontent
  | _ => rfl

theorem isFormed_of_markOf {canvas : Canvas} {shape : Shape} {e : Element} {mark : Mark}
    (h : shape.markOf canvas e = .ok mark) : mark.IsFormed := by
  obtain ⟨hmissing, numbers, hnumbers, rfl⟩ := markOf_eq_ok_iff.1 h
  exact ⟨takes_of_readMeasures hnumbers, carries_readPayload hmissing⟩

/-! ## All marks of a compilation -/

/-- Whether a mark is formed does not depend on its children. -/
theorem Mark.isFormed_bare {mark : Mark} : mark.bare.IsFormed ↔ mark.IsFormed :=
  ⟨fun h => ⟨h.numbers, h.data⟩, fun h => ⟨h.numbers, h.data⟩⟩

theorem isFormed_of_drawnAll {canvas : Canvas} {limit depth : Nat} {es : List Element} {marks : List Mark}
    (h : (drawnAll canvas limit depth es).result = .ok marks) :
    ∀ mark ∈ marks.flatMap Mark.preorder, mark.IsFormed := by
  intro mark hmark
  obtain ⟨-, hmarks⟩ := drawnAll_eq_reachedAll canvas es depth marks h
  have hbare : mark.bare ∈ (marks.flatMap Mark.preorder).map Mark.bare := List.mem_map_of_mem hmark
  rw [hmarks] at hbare
  obtain ⟨e, -, hopened⟩ := List.mem_filterMap.1 hbare
  obtain ⟨shape, -, hmarkOf⟩ := mark_openElement_eq_some_iff.1 hopened
  exact Mark.isFormed_bare.1 (isFormed_of_markOf hmarkOf)

namespace Session

section

variable {σ : Type} [StyleSink σ]

/-- A mark that is formed stays so when it is completed, and what is put in it is formed. -/
theorem isFormed_of_convert {s : Session σ} {e : Element} {opened mark : Mark} (hopened : opened.IsFormed)
    (hempty : opened.children = []) (h : (s.convert e opened).2 = .ok mark) : ∀ m ∈ mark.preorder, m.IsFormed := by
  obtain ⟨marks, hmarks, rfl⟩ := convert_eq_ok_iff.1 h
  rw [Mark.preorder_eq, List.forall_mem_cons]
  refine ⟨⟨hopened.numbers, hopened.data⟩, ?_⟩
  rw [hempty, List.nil_append]
  exact isFormed_of_drawnAll hmarks

end

/-- Every mark that comes of a document or an element is formed as its shape asks. The mark of a document itself is a
plain `svg`, whatever the root of the document says. -/
theorem isFormed_of_result {σ : Type} [StyleSink σ] (s : Session σ) :
    (∀ root, s.compile.2 = .ok root →
      root.shape = .svg ∧ root.numbers = [] ∧ root.data = none ∧ ∀ mark ∈ root.preorder, mark.IsFormed) ∧
      ∀ e root, (s.compileElement e).2 = .ok (some root) → ∀ mark ∈ root.preorder, mark.IsFormed := by
  refine ⟨fun root h => ?_, fun e root h => ?_⟩
  · rw [result_compile] at h
    have hcontainer : containerMark.IsFormed := ⟨rfl, rfl⟩
    have hformed := isFormed_of_convert hcontainer rfl h
    obtain ⟨marks, -, rfl⟩ := convert_eq_ok_iff.1 h
    exact ⟨rfl, rfl, rfl, hformed⟩
  · obtain ⟨opened, hopened, hconvert⟩ := compileElement_eq_some_iff.1 h
    obtain ⟨shape, -, hmarkOf⟩ := mark_openElement_eq_some_iff.1 hopened
    exact isFormed_of_convert (isFormed_of_markOf hmarkOf) (children_of_openElement hopened) hconvert

/-- Text in a group, compiled with the document and alone. The root has data of its own, which are left out. -/
theorem isFormed_of_result_text :
    let words := (Element.named "text").addText " a \n b "
    let root := ((Element.named "svg").setAttribute "d" "M0 0").addChild ((Element.named "g").addChild words)
    let s : Session StyleSheet := ofRoot "" root Page.letter {} StyleSheet.empty
    (∃ svg group text, s.compile.2 = .ok svg ∧ svg.preorder = [svg, group, text] ∧ svg.data = none ∧
      text.data = some "a b" ∧ text.IsFormed) ∧
      ∃ text, (s.compileElement words).2 = .ok (some text) ∧ text.data = some "a b" ∧ text.IsFormed := by
  have hmarks (canvas : Canvas) : ∃ numbers,
      (openElement canvas ((Element.named "text").addText " a \n b ")).mark = some ⟨.text, numbers, some "a b", []⟩ ∧
        (drawnAll canvas 256 2 [(Element.named "g").addChild ((Element.named "text").addText " a \n b ")]).result =
          .ok [⟨.group, [], none, [⟨.text, numbers, some "a b", []⟩]⟩] := ⟨_, rfl, rfl⟩
  intro words root s
  obtain ⟨numbers, hopened, hdrawn⟩ := hmarks s.scene.canvas
  let text : Mark := ⟨.text, numbers, some "a b", []⟩
  let group : Mark := ⟨.group, [], none, [text]⟩
  have hcompile : s.compile.2 = .ok ⟨.svg, [], none, [group]⟩ := by
    rw [result_compile]
    exact convert_eq_ok_iff.2 ⟨[group], hdrawn, rfl⟩
  have halone : (s.compileElement words).2 = .ok (some text) :=
    compileElement_eq_some_iff.2 ⟨text, hopened, convert_eq_ok_iff.2 ⟨[], rfl, rfl⟩⟩
  obtain ⟨hdocument, helement⟩ := s.isFormed_of_result
  obtain ⟨-, -, hdata, hformed⟩ := hdocument _ hcompile
  refine ⟨⟨_, group, text, hcompile, rfl, hdata, rfl, ?_⟩, text, halone, rfl, ?_⟩
  · apply hformed
    exact .tail _ (.tail _ (.head _))
  · apply helement words text halone
    exact .head _

end Session

end SvgPlot
