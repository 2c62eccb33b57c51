import SvgPlot.Proofs.SessionHistory

/-!
# Element by element

Compiling a document comes to compiling the children of its root one by one: no child has a part in what comes of
another. The root itself, taken as an element, comes to the same as the document.

* `drawnAll_eq_of_forall` takes a row of elements apart into the elements, if none of them fails.
* `Call.report_element`, `Call.report_root` and `Call.report_document` are what the calls come to. A child lies one level
  deeper in the document than it does alone, which plays no part within the limit (`drawn_within`).
* `Session.Adds` says what a call has added to a session.
-/

namespace SvgPlot

open Markup

/-! ## Elements in a row -/

/-- Elements in a row of which none fails come to all their notes and all their marks, in order. -/
theorem drawnAll_eq_of_forall {canvas : Canvas} {limit depth : Nat} {es : List Element}
    {notes : Element → List Note} {marks : Element → Option Mark}
    (h : ∀ e ∈ es, drawn canvas limit depth e = ⟨notes e, .ok (marks e)⟩) :
    drawnAll canvas limit depth es = ⟨es.flatMap notes, .ok (es.filterMap marks)⟩ := by
  induction es with
  | nil => rw [drawnAll]; rfl
  | cons e rest ih =>
    obtain ⟨hfirst, hrest⟩ := List.forall_mem_cons.1 h
    rw [drawnAll, hfirst, ih hrest, Report.andThen_ok]
    cases hmark : marks e <;> simp [Report.after, Report.map, Except.map, hmark]

theorem Markup.Element.height_le_of_mem {es : List Element} {e : Element} (h : e ∈ es) : e.height ≤ heights es := by
  induction es with
  | nil => cases h
  | cons first rest ih =>
    rw [heights]
    rcases List.mem_cons.1 h with rfl | h
    · exact Nat.le_max_left ..
    · exact Nat.le_trans (ih h) (Nat.le_max_right ..)

namespace Session

/-! ## Calls as reports -/

/-- Asking for an element begins at depth 1. -/
theorem Call.report_element {scene : Scene} (h : 1 ≤ scene.settings.maxDepth) (e : Element) :
    (Call.element e).report scene = drawn scene.canvas scene.settings.maxDepth 1 e := by
  rw [Call.report]
  cases hmark : (openElement scene.canvas e).mark with
  | none => rw [drawn_of_none h hmark]
  | some mark =>
    rw [drawn_of_some h hmark]
    simp only [runChildren_eq]
    rcases drawnAll scene.canvas scene.settings.maxDepth 2 e.children with ⟨notes, error | marks⟩ <;> rfl

/-- An element with the name of a root comes to the container of a document, and there is nothing to note about it. -/
theorem openElement_root (canvas : Canvas) {e : Element} (h : e.name = Scene.rootName) :
    openElement canvas e = ⟨[], some containerMark⟩ := by
  have hrole : Role.ofName e.name = .drawn .svg := by rw [h]; decide
  rw [openElement, hrole]
  rfl

/-- Asking for the root is asking for the document. -/
theorem Call.report_root {scene : Scene} (h : scene.root.name = Scene.rootName) :
    (Call.element scene.root).report scene = Call.document.report scene := by
  simp only [Call.report, openElement_root scene.canvas h, Report.after_nil]

/-- A document comes to the container with all that its elements come to one by one. -/
theorem Call.report_document {scene : Scene} (h : scene.root.height ≤ scene.settings.maxDepth) :
    ∃ (notes : Element → List Note) (marks : Element → Option Mark),
      (∀ e ∈ scene.root.children, (Call.element e).report scene = ⟨notes e, .ok (marks e)⟩) ∧
        Call.document.report scene =
          ⟨scene.root.children.flatMap notes,
            .ok (some { containerMark with children := scene.root.children.filterMap marks })⟩ := by
  rw [Element.height_eq] at h
  have hroom : 1 ≤ scene.settings.maxDepth := by omega
  have hwithin : ∀ e ∈ scene.root.children, 2 + e.height ≤ scene.settings.maxDepth + 1 := by
    intro e he
    have := Element.height_le_of_mem he
    omega
  -- a child lies at depth 2 in the document and at depth 1 alone
  have hsame : ∀ e ∈ scene.root.children,
      drawn scene.canvas scene.settings.maxDepth 2 e = (Call.element e).report scene := by
    intro e he
    have := hwithin e he
    rw [Call.report_element hroom]
    exact drawn_within scene.canvas e 2 1 this (by omega)
  have hok : ∀ e ∈ scene.root.children, (Call.element e).report scene =
      ⟨((Call.element e).report scene).notes, .ok ((Call.element e).report scene).result.toOption.join⟩ := by
    intro e he
    obtain ⟨mark, hmark⟩ := result_drawn_isOk scene.canvas e 2 (hwithin e he)
    rw [hsame e he] at hmark
    rcases hreport : (Call.element e).report scene with ⟨notes, result⟩
    rw [hreport] at hmark
    subst hmark
    rfl
  refine ⟨_, _, hok, ?_⟩
  rw [Call.report, runChildren_eq, drawnAll_eq_of_forall fun e he => (hsame e he).trans (hok e he)]
  rfl

/-! ## What calls add -/

section

variable {σ : Type} [StyleSink σ]

/-- The session `later` is `s` with these warnings added and these style blocks given to the sink. -/
structure Adds (s later : Session σ) (warnings : List Warning) (blocks : List String) : Prop where
  warnings : later.warnings = s.warnings ++ warnings
  sink : later.sink = blocks.foldl StyleSink.add s.sink
  scene : later.scene = s.scene

theorem adds_afterCall (s : Session σ) (call : Call) :
    s.Adds (s.afterCall call) (warningsOf (call.report s.scene).notes) (stylesOf (call.report s.scene).notes) :=
  ⟨s.warnings_afterCall call, s.sink_afterCall call, s.scene_afterCall call⟩

/-- What was added to a session with a style sheet is one thing only. -/
theorem Adds.unique {s later : Session StyleSheet} {warnings warnings' : List Warning} {blocks blocks' : List String}
    (h : s.Adds later warnings blocks) (h' : s.Adds later warnings' blocks') :
    warnings = warnings' ∧ blocks = blocks' := by
  refine ⟨List.append_cancel_left (h.warnings.symm.trans h'.warnings), ?_⟩
  have hsinks := congrArg (fun sheet : StyleSheet => sheet.blocks.toList) (h.sink.symm.trans h'.sink)
  simp only [StyleSheet.toList_blocks_foldl_add] at hsinks
  exact List.append_cancel_left hsinks

/-- A call answers and adds what its report says. -/
theorem answer_and_adds_of_report {s : Session σ} {call : Call} {notes : List Note}
    {result : Except TooDeep (Option Mark)} (h : call.report s.scene = ⟨notes, result⟩) :
    s.answer call = result ∧ s.Adds (s.afterCall call) (warningsOf notes) (stylesOf notes) := by
  have hadds := s.adds_afterCall call
  rw [h] at hadds
  exact ⟨(s.answer_eq_report call).trans (congrArg Report.result h), hadds⟩

theorem warningsOf_flatMap (es : List Element) (notes : Element → List Note) :
    warningsOf (es.flatMap notes) = es.flatMap fun e => warningsOf (notes e) := List.filterMap_flatMap

theorem stylesOf_flatMap (es : List Element) (notes : Element → List Note) :
    stylesOf (es.flatMap notes) = es.flatMap fun e => stylesOf (notes e) := List.filterMap_flatMap

end

/-- A document comes to a container of what its elements come to one by one, with their warnings and style blocks in
order, and its root taken as an element comes to that container, too. What an element comes to depends on nothing that
was asked before. -/
theorem compile_eq_elements (markup : String) (page : Page) (settings : Settings) :
    ∃ (marks : Element → Option Mark) (told : Element → List Warning) (blocks : Element → List String),
      ∀ (σ : Type) [StyleSink σ] (sink : σ) (s : Session σ), start markup page settings sink = .ok s →
        ∀ calls : List Call,
          let t := s.after calls
          let es := t.scene.root.children
          let container : Mark := { containerMark with children := es.filterMap marks }
          (∀ e ∈ es, (t.compileElement e).2 = .ok (marks e) ∧ t.Adds (t.compileElement e).1 (told e) (blocks e)) ∧
          (t.compile.2 = .ok container ∧ t.Adds t.compile.1 (es.flatMap told) (es.flatMap blocks)) ∧
          (t.compileElement t.scene.root).2 = .ok (some container) ∧
            t.Adds (t.compileElement t.scene.root).1 (es.flatMap told) (es.flatMap blocks) := by
  cases hread : Element.read settings.maxDepth markup with
  | error error =>
    -- no session can be started
    refine ⟨fun _ => none, fun _ => [], fun _ => [], fun σ _ sink s hstart => ?_⟩
    obtain ⟨root, hroot, -⟩ := start_eq_ok_iff.1 hstart
    rw [hread] at hroot
    cases hroot
  | ok root =>
    let scene : Scene := (Scene.ofRoot markup root page settings).1
    have hwithin : scene.root.height ≤ scene.settings.maxDepth := Element.height_le_of_read hread
    obtain ⟨notes, marks, helements, hdocument⟩ := Call.report_document hwithin
    refine ⟨marks, fun e => warningsOf (notes e), fun e => stylesOf (notes e), fun σ _ sink s hstart calls => ?_⟩
    obtain ⟨hname, rfl⟩ := eq_ofRoot_of_start hread hstart
    intro t es container
    have hscene : t.scene = scene := scene_after ..
    rw [← hscene] at helements hdocument
    have hroot : t.scene.root.name = Scene.rootName := by rw [hscene]; exact hname
    refine ⟨fun e he => answer_and_adds_of_report (helements e he), ?_, ?_⟩
    · obtain ⟨hanswer, hadds⟩ := answer_and_adds_of_report hdocument
      obtain ⟨mark, hmark, hsome⟩ := map_eq_ok_iff.1 hanswer
      rw [warningsOf_flatMap, stylesOf_flatMap] at hadds
      exact ⟨hmark.trans (congrArg Except.ok (Option.some.inj hsome).symm), hadds⟩
    · obtain ⟨hanswer, hadds⟩ := answer_and_adds_of_report ((Call.report_root hroot).trans hdocument)
      rw [warningsOf_flatMap, stylesOf_flatMap] at hadds
      exact ⟨hanswer, hadds⟩

/-- A style, an unknown element and a group with a path in it, after the unknown element has been asked for alone. -/
theorem compile_eq_elements_mixed :
    let markup := "<svg d='M'><style>a</style><blink/><g><path d=''/></g></svg>"
    let blink := Element.named "blink"
    let style := (Element.named "style").addText "a"
    let group := (Element.named "g").addChild ((Element.named "path").setAttribute "d" "")
    let mark : Mark := ⟨.group, [], none, [⟨.path, [], some "", []⟩]⟩
    ∃ s, start markup Page.letter {} StyleSheet.empty = .ok s ∧ s.scene.root.children = [style, blink, group] ∧
      let t := s.after [.element blink]
      (t.compileElement group).2 = .ok (some mark) ∧
        t.compile.2 = .ok { containerMark with children := [mark] } ∧
        t.Adds t.compile.1 [.unknownElement "blink"] ["a"] ∧
        t.Adds (t.compileElement t.scene.root).1 [.unknownElement "blink"] ["a"] := by
  intro markup blink style group mark
  let root : Element := ⟨"svg", Dictionary.ofList [("d", "M")], [], [style, blink, group]⟩
  have hread : Element.read 256 markup = .ok root := by decide +kernel
  let s : Session StyleSheet := ofRoot markup root Page.letter {} StyleSheet.empty
  have hstart : start markup Page.letter {} StyleSheet.empty = .ok s := start_eq_ok_iff.2 ⟨root, hread, rfl, rfl⟩
  obtain ⟨marks, told, blocks, hall⟩ := compile_eq_elements markup Page.letter {}
  obtain ⟨helements, ⟨hmark, hadds⟩, -, hroot⟩ := hall _ _ s hstart [.element blink]
  let t : Session StyleSheet := s.after [.element blink]
  have hchildren : t.scene.root.children = [style, blink, group] := rfl
  rw [hchildren] at helements hmark hadds hroot
  have hknown : ∀ e ∈ [style, blink, group], ∀ notes mark, drawn t.scene.canvas 256 1 e = ⟨notes, .ok mark⟩ →
      marks e = mark ∧ told e = warningsOf notes ∧ blocks e = stylesOf notes := by
    intro e he notes mark hdrawn
    have hlimit : 1 ≤ t.scene.settings.maxDepth := by decide
    obtain ⟨hanswer, hsame⟩ := answer_and_adds_of_report ((Call.report_element hlimit e).trans hdrawn)
    obtain ⟨hmarks, helement⟩ := helements e he
    exact ⟨Except.ok.inj (hmarks.symm.trans hanswer), helement.unique hsame⟩
  obtain ⟨hnone, htold, hblocks⟩ := hknown style (by simp) [.style "a"] none rfl
  obtain ⟨hnone', htold', hblocks'⟩ := hknown blink (by simp) [.warning (.unknownElement "blink")] none rfl
  obtain ⟨hsome, htold'', hblocks''⟩ := hknown group (by simp) [] (some mark) rfl
  have hfilter : [style, blink, group].filterMap marks = [mark] := by simp [hnone, hnone', hsome]
  have htolds : [style, blink, group].flatMap told = [.unknownElement "blink"] := by
    simp only [List.flatMap_cons, htold, htold', htold'']
    rfl
  have hblockss : [style, blink, group].flatMap blocks = ["a"] := by
    simp only [List.flatMap_cons, hblocks, hblocks', hblocks'']
    rfl
  rw [htolds, hblockss] at hadds hroot
  rw [hfilter] at hmark
  exact ⟨s, hstart, rfl, (helements group (by simp)).1.trans (congrArg Except.ok hsome), hmark, hadds, hroot⟩

end Session

end SvgPlot
