import SvgPlot.Proofs.DocumentOrder

/-!
# Calls of a session

A session is started with a document and then asked for the document or for elements (`Session.Call`). Here is what it
holds at the start, and what one call does to it.

* `start_eq_ok_iff` says what a session that could be started holds.
* `Call.report` is what a call comes to by the scene alone. A session answers with its result and records its notes
  (`answer_eq_report`, `exists_afterCall_eq_record`); nothing else of it changes.
-/

namespace SvgPlot

open Markup (Element)

namespace Session

section

variable {σ : Type}

/-! ## Starting -/

/-- The session that a tree is compiled in: nothing is recorded yet but the notes about its canvas. -/
def ofRoot (markup : String) (root : Element) (page : Page) (settings : Settings) (sink : σ) : Session σ :=
  ⟨(Scene.ofRoot markup root page settings).1, (Scene.ofRoot markup root page settings).2, sink⟩

theorem start_eq_ok_iff {markup : String} {page : Page} {settings : Settings} {sink : σ} {s : Session σ} :
    start markup page settings sink = .ok s ↔
      ∃ root, Element.read settings.maxDepth markup = .ok root ∧ root.name = Scene.rootName ∧
        s = ofRoot markup root page settings sink := by
  unfold start Scene.of
  cases Element.read settings.maxDepth markup with
  | error error => simp [Except.map]
  | ok root =>
    by_cases hname : root.name = Scene.rootName
    · simp [hname, Except.map, ofRoot, eq_comm]
    · simp [hname, Except.map]

/-- A session can hold one tree only, if its text is read to that tree. -/
theorem eq_ofRoot_of_start {markup : String} {root : Element} {page : Page} {settings : Settings} {sink : σ}
    {s : Session σ} (hread : Element.read settings.maxDepth markup = .ok root)
    (h : start markup page settings sink = .ok s) :
    root.name = Scene.rootName ∧ s = ofRoot markup root page settings sink := by
  obtain ⟨other, hother, hname, rfl⟩ := start_eq_ok_iff.1 h
  obtain rfl := Except.ok.inj (hread.symm.trans hother)
  exact ⟨hname, rfl⟩

/-- A session that was started holds the tree of its text, read with its own limit. -/
theorem read_of_start {markup : String} {page : Page} {settings : Settings} {sink : σ} {s : Session σ}
    (h : start markup page settings sink = .ok s) :
    Element.read s.scene.settings.maxDepth markup = .ok s.scene.root := by
  obtain ⟨root, hread, -, rfl⟩ := start_eq_ok_iff.1 h
  exact hread

end

/-! ## One call -/

/-- What can be asked of a session. -/
inductive Call where
  /-- the whole document -/
  | document
  /-- one element, of the document or not -/
  | element (e : Element)

/-- What a call comes to on a scene, with the notes on the way. -/
def Call.report (scene : Scene) : Call → Report (Option Mark)
  | .document => (runChildren scene.canvas scene.settings.maxDepth scene.root containerMark).map some
  | .element e =>
    match (openElement scene.canvas e).mark with
    | none => ⟨(openElement scene.canvas e).notes, .ok none⟩
    | some mark =>
      ((runChildren scene.canvas scene.settings.maxDepth e mark).map some).after (openElement scene.canvas e).notes

section

variable {σ : Type} [StyleSink σ]

/-- The session after a call, whether or not it failed. -/
def afterCall (s : Session σ) : Call → Session σ
  | .document => s.compile.1
  | .element e => (s.compileElement e).1

/-- The session after calls in a row. -/
def after (s : Session σ) (calls : List Call) : Session σ := calls.foldl afterCall s

/-- What a call is answered with. A document comes to a mark if it comes to anything. -/
def answer (s : Session σ) : Call → Except TooDeep (Option Mark)
  | .document => s.compile.2.map some
  | .element e => (s.compileElement e).2

/-- What calls in a row are answered with. -/
def answers (s : Session σ) : List Call → List (Except TooDeep (Option Mark))
  | [] => []
  | call :: rest => s.answer call :: (s.afterCall call).answers rest

/-- A mark is completed with what comes of the children of its element. -/
theorem result_convert (s : Session σ) (e : Element) (mark : Mark) :
    (s.convert e mark).2 = (drawnAll s.scene.canvas s.scene.settings.maxDepth 2 e.children).result.map fun marks =>
      { mark with children := mark.children ++ marks } := by
  rw [convert, runChildren_eq]
  rfl

theorem convert_eq_ok_iff {s : Session σ} {e : Element} {opened mark : Mark} :
    (s.convert e opened).2 = .ok mark ↔
      ∃ marks, (drawnAll s.scene.canvas s.scene.settings.maxDepth 2 e.children).result = .ok marks ∧
        mark = { opened with children := opened.children ++ marks } := by
  rw [result_convert, map_eq_ok_iff]

theorem result_compile (s : Session σ) : s.compile.2 = (s.convert s.scene.root containerMark).2 := by
  rw [compile]
  rcases s.convert s.scene.root containerMark with ⟨next, error | mark⟩ <;> rfl

theorem compileElement_eq_some_iff {s : Session σ} {e : Element} {mark : Mark} :
    (s.compileElement e).2 = .ok (some mark) ↔
      ∃ opened, (openElement s.scene.canvas e).mark = some opened ∧ (s.convert e opened).2 = .ok mark := by
  simp only [compileElement]
  cases hopened : (openElement s.scene.canvas e).mark with
  | none => simp
  | some opened =>
    have hsame : ((s.record (openElement s.scene.canvas e).notes).convert e opened).2 = (s.convert e opened).2 := rfl
    simp [hsame, map_eq_ok_iff]

theorem record_record (s : Session σ) (notes more : List Note) :
    (s.record notes).record more = s.record (notes ++ more) := by
  simp only [record, List.append_assoc, stylesOf_append, List.foldl_append]

theorem answer_eq_report (s : Session σ) (call : Call) : s.answer call = (call.report s.scene).result := by
  cases call with
  | document =>
    simp only [answer, compile, convert, Call.report, Report.map]
    cases (runChildren s.scene.canvas s.scene.settings.maxDepth s.scene.root containerMark).result <;> rfl
  | element e =>
    simp only [answer, compileElement, convert, Call.report]
    cases (openElement s.scene.canvas e).mark <;> rfl

/-- A call records its notes. After the notes of a document the log is told how many there were, and that is neither a
warning nor a style block. -/
theorem exists_afterCall_eq_record (s : Session σ) (call : Call) :
    ∃ closing, warningsOf closing = [] ∧ stylesOf closing = [] ∧
      s.afterCall call = s.record ((call.report s.scene).notes ++ closing) := by
  cases call with
  | document =>
    simp only [afterCall, compile, convert, Call.report, Report.map]
    cases (runChildren s.scene.canvas s.scene.settings.maxDepth s.scene.root containerMark).result with
    | error error => exact ⟨[], rfl, rfl, by rw [List.append_nil]⟩
    | ok mark => exact ⟨_, rfl, rfl, record_record ..⟩
  | element e =>
    refine ⟨[], rfl, rfl, ?_⟩
    simp only [afterCall, compileElement, convert, Call.report, List.append_nil]
    cases (openElement s.scene.canvas e).mark with
    | none => rfl
    | some mark => exact record_record ..

theorem scene_afterCall (s : Session σ) (call : Call) : (s.afterCall call).scene = s.scene := by
  obtain ⟨closing, -, -, hrecord⟩ := s.exists_afterCall_eq_record call
  rw [hrecord]
  rfl

/-- No call changes what is compiled or how. -/
theorem scene_after (s : Session σ) (calls : List Call) : (s.after calls).scene = s.scene := by
  induction calls generalizing s with
  | nil => rfl
  | cons call rest ih => exact (ih (s.afterCall call)).trans (scene_afterCall s call)

end

end Session

end SvgPlot
