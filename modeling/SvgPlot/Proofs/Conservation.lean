import SvgPlot.Proofs.SessionCalls
import SvgPlot.Proofs.VisitedElements

/-!
# No element is lost

Every element that a compilation visits comes to exactly one thing: a mark, a warning, style blocks, or nothing at all
(`counted_once`). So the marks and notes of a document that compiles can be counted against its elements.

* `Element.passes` says without a canvas whether an element comes to a mark (`opens_eq_passes`), and so which elements
  are visited.
* `Element.outerStyles` are the styles below an element that are not inside another style. They are what is looked for
  in definitions (`stylesInAll_eq`).
* `Session.compile_conserves` puts the counts of all visited elements together.
-/

namespace SvgPlot

open Markup (Element)

/-! ## Elements that come to marks -/

/-- A value can be read as this quantity. -/
def Quantity.accepts (quantity : Quantity) (raw : String) : Bool :=
  match quantity with
  | .points => (Length.readPairs raw).isOk
  | .x | .y | .width | .height | .length => (Length.read raw).isOk

/-- The element has all that the shape requires, and all measures of the shape can be read. -/
def Shape.accepts (shape : Shape) (e : Element) : Bool :=
  shape.rule.required.all e.attributes.contains &&
    shape.rule.measures.all fun m => m.quantity.accepts ((e.attributes.get? m.key).getD "0")

namespace Markup.Element

/-- The element is drawn, and nothing is wrong with it. -/
def passes (e : Element) : Bool :=
  match Role.ofName e.name with
  | .drawn shape => shape.accepts e
  | .style | .metadata | .definitions | .unknown => false

/-- The styles below an element that are not inside another style. -/
def outerStyles (e : Element) : List Element :=
  (e.inside fun x => x.name != styleName).filter fun x => x.name == styleName

end Markup.Element

theorem isOk_map {ε α β : Type} (f : α → β) (r : Except ε α) : (r.map f).isOk = r.isOk := by
  cases r <;> rfl

/-- Whether a value can be read does not depend on the canvas. -/
theorem Canvas.isOk_measure (canvas : Canvas) (quantity : Quantity) (raw : String) :
    (canvas.measure quantity raw).isOk = quantity.accepts raw := by
  cases quantity <;> exact isOk_map ..

theorem isOk_readMeasures (canvas : Canvas) (e : Element) (measures : List Shape.Measure) :
    (readMeasures canvas e measures).isOk =
      measures.all fun m => m.quantity.accepts ((e.attributes.get? m.key).getD "0") := by
  induction measures with
  | nil => rfl
  | cons m rest ih =>
    rw [readMeasures, List.all_cons, ← ih, ← canvas.isOk_measure]
    cases canvas.measure m.quantity ((e.attributes.get? m.key).getD "0") with
    | error error => rfl
    | ok numbers => exact isOk_map ..

theorem Shape.Rule.isEmpty_missing (rule : Rule) (present : String → Bool) :
    (rule.missing present).isEmpty = rule.required.all present := by
  rw [Bool.eq_iff_iff]
  simp [missing, List.filter_eq_nil_iff]

theorem isOk_markOf (canvas : Canvas) (shape : Shape) (e : Element) :
    (shape.markOf canvas e).isOk = shape.accepts e := by
  rw [Shape.accepts, ← isOk_readMeasures canvas, ← Shape.Rule.isEmpty_missing, Shape.markOf]
  cases shape.rule.missing e.attributes.contains with
  | nil => exact isOk_map ..
  | cons key keys => rfl

/-- Whether an element comes to a mark does not depend on the canvas. -/
theorem opens_eq_passes (canvas : Canvas) (e : Element) : opens canvas e = e.passes := by
  rw [opens, openElement, Element.passes]
  cases Role.ofName e.name with
  | drawn shape =>
    have hmark := isOk_markOf canvas shape e
    simp only [openShape, ← hmark]
    cases shape.markOf canvas e <;> rfl
  | _ => rfl

/-! ## Roles by name -/

namespace Role

variable {name : String}

theorem ofName_eq_style_iff : ofName name = .style ↔ name = "style" := by
  unfold ofName
  grind

theorem ofName_eq_metadata_iff : ofName name = .metadata ↔ name ∈ ["title", "desc", "metadata"] := by
  unfold ofName
  grind

theorem ofName_eq_definitions_iff : ofName name = .definitions ↔ name ∈ ["defs", "symbol"] := by
  unfold ofName
  grind

theorem name_of_ofName {shape : Shape} (h : ofName name = .drawn shape) : shape.name = name := by
  unfold ofName at h
  grind [Shape.name_of_ofName?]

end Role

/-! ## Styles in definitions -/

mutual

/-- The styles in an element are those that are reached without going into one. -/
theorem stylesIn_eq_reached : ∀ e : Element,
    stylesIn e = ((e.reached fun x => x.name != styleName).filter fun x => x.name == styleName).map styleText
  | ⟨name, attributes, content, children⟩ => by
    rw [stylesIn, Element.reached_eq, List.filter_cons]
    by_cases hname : name = styleName
    · simp [hname]
    · have hinner := stylesInAll_eq_reachedAll children
      simp [hname, hinner]

theorem stylesInAll_eq_reachedAll : ∀ es : List Element,
    stylesInAll es =
      ((Element.reachedAll (fun x => x.name != styleName) es).filter fun x => x.name == styleName).map styleText
  | [] => rfl
  | e :: rest => by
    rw [stylesInAll, stylesIn_eq_reached e, stylesInAll_eq_reachedAll rest, Element.reachedAll, List.filter_append,
      List.map_append]

end

theorem stylesInAll_eq (e : Element) : stylesInAll e.children = e.outerStyles.map styleText := by
  rw [stylesInAll_eq_reachedAll, Element.outerStyles, Element.inside_eq]

/-! ## What one element comes to -/

section

variable (canvas : Canvas) (e : Element)

/-- An element comes to a mark or a warning, or it is one of those that are not drawn. It is only one of these. -/
theorem counted_once :
    (if e.passes then 1 else 0) + (warningsOf (openElement canvas e).notes).length +
      (if Role.ofName e.name = .style then 1 else 0) + (if Role.ofName e.name = .metadata then 1 else 0) +
        (if Role.ofName e.name = .definitions then 1 else 0) = 1 := by
  rw [← opens_eq_passes canvas]
  unfold opens openElement
  cases Role.ofName e.name with
  | style => simp
  | metadata => simp [warningsOf, Note.warning?]
  | definitions => simp [warningsOf_pendingStyleNotes]
  | unknown => simp [warningsOf, Note.warning?]
  | drawn shape =>
    cases hmark : shape.markOf canvas e with
    | error warning => simp [openShape, hmark, warningsOf, Note.warning?]
    | ok mark => simp [openShape, hmark]

/-- A style gives its own block, definitions give those of their styles, and nothing else gives any. -/
theorem length_stylesOf_openElement :
    (stylesOf (openElement canvas e).notes).length = (if Role.ofName e.name = .style then 1 else 0) +
      if Role.ofName e.name = .definitions then e.outerStyles.length else 0 := by
  unfold openElement
  cases Role.ofName e.name with
  | style => simp
  | metadata => simp [stylesOf, Note.style?]
  | definitions => simp [stylesOf_pendingStyleNotes, stylesInAll_eq]
  | unknown => simp [stylesOf, Note.style?]
  | drawn shape =>
    cases hmark : shape.markOf canvas e with
    | error warning => simp [openShape, hmark, stylesOf, Note.style?]
    | ok mark => simp [openShape, hmark]

/-- An element that comes to a mark gives it its name. -/
theorem name_openElement :
    (openElement canvas e).mark.map (fun mark => mark.shape.name) = if e.passes then some e.name else none := by
  rw [← opens_eq_passes canvas, opens]
  cases hopened : (openElement canvas e).mark with
  | none => rfl
  | some mark =>
    obtain ⟨shape, hrole, hmark⟩ := mark_openElement_eq_some_iff.1 hopened
    obtain ⟨-, numbers, -, rfl⟩ := markOf_eq_ok_iff.1 hmark
    exact congrArg some (Role.name_of_ofName hrole)

end

/-! ## What many elements come to -/

section

variable (canvas : Canvas) (es : List Element)

theorem length_eq_counts :
    es.length = es.countP Element.passes + (warningsOf (es.flatMap fun e => (openElement canvas e).notes)).length +
      es.countP (fun e => Role.ofName e.name = .style) + es.countP (fun e => Role.ofName e.name = .metadata) +
        es.countP (fun e => Role.ofName e.name = .definitions) := by
  induction es with
  | nil => rfl
  | cons e rest ih =>
    have hone := counted_once canvas e
    simp only [List.length_cons, List.countP_cons, List.flatMap_cons, warningsOf_append, List.length_append,
      decide_eq_true_eq]
    omega

theorem length_stylesOf_flatMap :
    (stylesOf (es.flatMap fun e => (openElement canvas e).notes)).length =
      es.countP (fun e => Role.ofName e.name = .style) +
        ((es.filter fun e => Role.ofName e.name = .definitions).flatMap Element.outerStyles).length := by
  induction es with
  | nil => rfl
  | cons e rest ih =>
    have hone := length_stylesOf_openElement canvas e
    rw [List.flatMap_cons, stylesOf_append, List.length_append, hone, ih, List.countP_cons, List.filter_cons]
    by_cases hdefinitions : Role.ofName e.name = .definitions
    · simp only [hdefinitions, decide_true, if_true, List.flatMap_cons, List.length_append, decide_eq_true_eq]
      omega
    · simp only [hdefinitions, decide_false, Bool.false_eq_true, if_false, decide_eq_true_eq]
      omega

theorem map_name_filterMap_mark :
    (es.filterMap fun e => (openElement canvas e).mark).map (fun mark => mark.shape.name) =
      (es.filter Element.passes).map Element.name := by
  induction es with
  | nil => rfl
  | cons e rest ih =>
    have hone := name_openElement canvas e
    rw [List.filterMap_cons, List.filter_cons]
    by_cases hpass : e.passes = true
    · rw [if_pos hpass] at hone ⊢
      obtain ⟨mark, hopened, hname⟩ := Option.map_eq_some_iff.1 hone
      simp only [hopened, List.map_cons, hname, ih]
    · rw [if_neg hpass] at hone ⊢
      simp only [Option.map_eq_none_iff.1 hone, ih]

end

/-- What is below an element comes to the notes and the marks of the elements that are visited. -/
theorem drawnAll_eq_visited {canvas : Canvas} {limit depth : Nat} {e : Element} {marks : List Mark}
    (h : (drawnAll canvas limit depth e.children).result = .ok marks) :
    let visited := e.inside Element.passes
    (drawnAll canvas limit depth e.children).notes = visited.flatMap (fun x => (openElement canvas x).notes) ∧
      (marks.flatMap Mark.preorder).map Mark.bare = visited.filterMap fun x => (openElement canvas x).mark := by
  intro visited
  have hreached := drawnAll_eq_reachedAll canvas e.children depth marks h
  rwa [funext (opens_eq_passes canvas), ← Element.inside_eq] at hreached

namespace Session

section

variable {σ : Type} [StyleSink σ]

/-- When a document compiles, its marks and notes are those of the elements that were visited, in document order. After
the notes comes one for the log. -/
theorem compile_eq_visited {s : Session σ} {mark : Mark} (h : s.compile.2 = .ok mark) :
    let visited := s.scene.root.inside Element.passes
    mark.preorder.tail.map Mark.bare = visited.filterMap (fun e => (openElement s.scene.canvas e).mark) ∧
      ∃ closing, warningsOf closing = [] ∧ stylesOf closing = [] ∧
        s.compile.1 = s.record (visited.flatMap (fun e => (openElement s.scene.canvas e).notes) ++ closing) := by
  intro visited
  rw [result_compile] at h
  obtain ⟨marks, hmarks, rfl⟩ := convert_eq_ok_iff.1 h
  obtain ⟨hnotes, hbare⟩ := drawnAll_eq_visited hmarks
  refine ⟨?_, ?_⟩
  · rw [Mark.preorder_eq]
    exact hbare
  · obtain ⟨closing, hwarnings, hstyles, hrecord⟩ := s.exists_afterCall_eq_record .document
    refine ⟨closing, hwarnings, hstyles, ?_⟩
    rw [← hnotes]
    rw [Call.report, runChildren_eq] at hrecord
    exact hrecord

/-- When a document compiles, every element that was visited is accounted for. All that are drawn without a fault are in
the marks, in document order and once each; all others but the undrawn ones are warned about. A style that was visited
gives one block, definitions that were visited give one for each style that is not inside another. -/
theorem compile_conserves {s : Session σ} {mark : Mark} (h : s.compile.2 = .ok mark) :
    let visited := s.scene.root.inside Element.passes
    ∃ notes, s.compile.1 = s.record notes ∧
      visited.length = (mark.size - 1) + (warningsOf notes).length + visited.countP (fun e => e.name = "style") +
        visited.countP (fun e => e.name ∈ ["title", "desc", "metadata"]) +
          visited.countP (fun e => e.name ∈ ["defs", "symbol"]) ∧
      (stylesOf notes).length = visited.countP (fun e => e.name = "style") +
        ((visited.filter fun e => e.name ∈ ["defs", "symbol"]).flatMap Element.outerStyles).length ∧
      mark.preorder.tail.map (fun m => m.shape.name) = (visited.filter Element.passes).map Element.name := by
  intro visited
  obtain ⟨hbare, closing, hwarnings, hstyles, hrecord⟩ := compile_eq_visited h
  have hnames : mark.preorder.tail.map (fun m => m.shape.name) = (visited.filter Element.passes).map Element.name := by
    rw [← map_name_filterMap_mark s.scene.canvas, ← hbare, List.map_map]
    rfl
  have hsize : mark.size - 1 = visited.countP Element.passes := by
    have hlength := congrArg List.length hnames
    rwa [List.length_map, List.length_map, List.length_tail, Mark.length_preorder,
      ← List.countP_eq_length_filter] at hlength
  refine ⟨_, hrecord, ?_, ?_, hnames⟩
  · have hcounts := length_eq_counts s.scene.canvas visited
    simp only [Role.ofName_eq_style_iff, Role.ofName_eq_metadata_iff, Role.ofName_eq_definitions_iff] at hcounts
    rw [warningsOf_append, hwarnings, List.append_nil, hsize]
    exact hcounts
  · have hblocks := length_stylesOf_flatMap s.scene.canvas visited
    simp only [Role.ofName_eq_style_iff, Role.ofName_eq_definitions_iff] at hblocks
    rw [stylesOf_append, hstyles, List.append_nil]
    exact hblocks

end

/-- A document with an element of every kind. The rectangle has no sides, the unknown element hides a group, and of the
styles in the definitions one is inside another. -/
theorem compile_conserves_mixed :
    let style := (Element.named "style").addChild (Element.named "style")
    let definitions := ((Element.named "defs").addChild style).addChild ((Element.named "g").addChild style)
    let path := (Element.named "path").setAttribute "d" "M0 0"
    let blink := (Element.named "blink").addChild (Element.named "g")
    let group := (((Element.named "g").addChild (Element.named "rect")).addChild blink).addChild path
    let head := ((Element.named "svg").addChild style).addChild (Element.named "title")
    let root := (head.addChild definitions).addChild group
    let s : Session StyleSheet := ofRoot "" root Page.letter {} StyleSheet.empty
    root.inside Element.passes = [style, Element.named "title", definitions, group, Element.named "rect", blink, path] ∧
      ∃ mark notes, s.compile.2 = .ok mark ∧ s.compile.1 = s.record notes ∧
        (mark.size - 1) + (warningsOf notes).length = 4 ∧ (stylesOf notes).length = 3 ∧
        mark.preorder.tail.map (fun m => m.shape.name) = ["g", "path"] := by
  intro style definitions path blink group head root s
  have hvisited : root.inside Element.passes =
      [style, Element.named "title", definitions, group, Element.named "rect", blink, path] := rfl
  have hmarks (canvas : Canvas) : ∃ marks, (drawnAll canvas 256 2 root.children).result = .ok marks := ⟨_, rfl⟩
  obtain ⟨marks, hmarks⟩ := hmarks s.scene.canvas
  have hcompile : s.compile.2 = .ok { containerMark with children := containerMark.children ++ marks } := by
    rw [result_compile]
    exact convert_eq_ok_iff.2 ⟨marks, hmarks, rfl⟩
  obtain ⟨notes, hrecord, hcounts, hblocks, hnames⟩ := compile_conserves hcompile
  have hroot : s.scene.root = root := rfl
  rw [hroot, hvisited] at hcounts hblocks hnames
  have hseven : 7 = (Mark.size _ - 1) + (warningsOf notes).length + 1 + 1 + 1 := hcounts
  refine ⟨hvisited, _, notes, hcompile, hrecord, ?_, hblocks, hnames⟩
  omega

end Session

end SvgPlot
