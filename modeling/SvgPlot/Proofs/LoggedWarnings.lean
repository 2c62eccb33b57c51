import SvgPlot.Proofs.Conservation
import SvgPlot.Proofs.LimitChange

/-!
# Warnings in the log

A warning is noted once, and the list of warnings and the log are both views of the notes. So they say the same, however
many other lines come between.

* `warningsIn_logOf` says that the lines that warn are the warnings, if those about kept references are left out. Their
  text tells these apart (`Warning.isKept_message`, `KeptReference.isKept_message`).
* `debugIn_visited` says which elements the other lines are about.
* `Trace.after` is what one note does to the log and to the warnings; a warning is the one note that does something to
  both, and at once. All that warns does so by such a note (`trace_openElement`, `trace_side`), and the log and the
  warnings of a document are what its notes come to one by one (`Compiler.trace_of_compile`).
* `Session.notes_compile` lists the notes of a document that compiles. `Compiler.compileLogged_views` looks at them in
  both ways.
-/

namespace SvgPlot

open Markup (Element)

/-! ## Lines of the log -/

/-- The line is about a reference that was kept as it was written. -/
def LogLine.isKept (line : LogLine) : Bool :=
  line.level == .warn && "Keeping ".toList.isPrefixOf line.text.toList

/-- What the lines of a log warn about, but for references that were kept. -/
def warningsIn (log : List LogLine) : List String :=
  (log.filter fun line => line.level == .warn && !line.isKept).map LogLine.text

/-- What the lines of a log say that are no warnings. -/
def debugIn (log : List LogLine) : List String := (log.filter fun line => line.level == .debug).map LogLine.text

theorem Warning.exists_message_eq (w : Warning) :
    ∃ first ∈ ["Unknown tag: ", "Must have attributes ", "Invalid value '"], ∃ rest, w.message = first ++ rest := by
  cases w with
  | unknownElement element => exact ⟨_, .head _, element, rfl⟩
  | missingAttributes keys element =>
    refine ⟨_, .tail _ (.head _), ", ".intercalate keys ++ (" on tag " ++ element), ?_⟩
    simp only [← String.append_assoc]
    rfl
  | invalidValue raw key element reason =>
    refine ⟨_, .tail _ (.tail _ (.head _)),
      raw ++ ("' for attribute " ++ (key ++ (" on tag " ++ (element ++ (": " ++ reason.message))))), ?_⟩
    simp only [← String.append_assoc]
    rfl

theorem Markup.KeptReference.exists_message_eq (reference : KeptReference) :
    ∃ rest, reference.message = "Keeping " ++ rest := by
  cases reference with
  | unterminated text =>
    refine ⟨"unterminated reference as written: " ++ text, ?_⟩
    simp only [← String.append_assoc]
    rfl
  | undecodable reference fault =>
    refine ⟨"undecodable reference " ++ (reference ++ (" as written: " ++ fault.message)), ?_⟩
    simp only [← String.append_assoc]
    rfl

/-- No warning begins as the lines about kept references do. -/
theorem Warning.isKept_message (w : Warning) : LogLine.isKept ⟨.warn, w.message⟩ = false := by
  obtain ⟨first, hfirst, rest, hmessage⟩ := w.exists_message_eq
  rw [LogLine.isKept, hmessage, String.toList_append]
  simp only [List.mem_cons, List.not_mem_nil, or_false] at hfirst
  rcases hfirst with rfl | rfl | rfl <;> rfl

theorem Markup.KeptReference.isKept_message (reference : KeptReference) :
    LogLine.isKept ⟨.warn, reference.message⟩ = true := by
  obtain ⟨rest, hmessage⟩ := reference.exists_message_eq
  rw [LogLine.isKept, hmessage, String.toList_append]
  rfl

/-! ## Notes in the log -/

@[simp] theorem logOf_append (as bs : List Note) : logOf (as ++ bs) = logOf as ++ logOf bs := List.filterMap_append ..

@[simp] theorem debugIn_append (as bs : List LogLine) : debugIn (as ++ bs) = debugIn as ++ debugIn bs := by
  rw [debugIn, List.filter_append, List.map_append]
  rfl

/-- The lines that warn are the warnings, in order. -/
theorem warningsIn_logOf (notes : List Note) : warningsIn (logOf notes) = (warningsOf notes).map Warning.message := by
  induction notes with
  | nil => rfl
  | cons n rest ih =>
    unfold warningsIn logOf warningsOf at ih ⊢
    cases n with
    | warning w =>
      simp only [List.filterMap_cons, Note.logLine?, Note.warning?, List.filter_cons, w.isKept_message, List.map_cons,
        ← ih]
      rfl
    | kept reference =>
      simp only [List.filterMap_cons, Note.logLine?, Note.warning?, List.filter_cons, reference.isKept_message, ← ih]
      rfl
    | _ => exact ih

/-! ## The effects of notes -/

/-- The log and the warnings, as they have become so far. -/
structure Trace where
  log : List LogLine
  warnings : List String

/-- What a note adds. A warning is logged, and the same text is kept as a warning. -/
def Trace.after (t : Trace) : Note → Trace
  | .warning w => ⟨t.log ++ [⟨.warn, w.message⟩], t.warnings ++ [w.message]⟩
  | note => { t with log := t.log ++ note.logLine?.toList }

/-- One by one, notes come to the two views of them. -/
theorem foldl_after (notes : List Note) (t : Trace) :
    notes.foldl Trace.after t = ⟨t.log ++ logOf notes, t.warnings ++ (warningsOf notes).map Warning.message⟩ := by
  induction notes generalizing t with
  | nil => simp [logOf, warningsOf]
  | cons note rest ih =>
    rw [List.foldl_cons, ih]
    cases note <;>
      simp [Trace.after, logOf, warningsOf, Note.logLine?, Note.warning?, List.filterMap_cons, List.append_assoc]

/-- An element that is warned about has nothing else noted about it. -/
theorem notes_openElement (canvas : Canvas) (e : Element) :
    (∃ w, (openElement canvas e).notes = [.warning w]) ∨ warningsOf (openElement canvas e).notes = [] := by
  rw [openElement]
  cases Role.ofName e.name with
  | style => exact .inr (warningsOf_styleNotes e)
  | metadata => exact .inr rfl
  | definitions => exact .inr (warningsOf_pendingStyleNotes e.children)
  | unknown => exact .inl ⟨_, rfl⟩
  | drawn shape =>
    simp only [openShape]
    cases shape.markOf canvas e with
    | error warning => exact .inl ⟨warning, rfl⟩
    | ok mark => exact .inr (warningsOf_kept _)

/-- Opening an element warns in both ways or in neither. -/
theorem trace_openElement (canvas : Canvas) (e : Element) (t : Trace) :
    let opened := (openElement canvas e).notes.foldl Trace.after t
    (∃ w : Warning, opened = ⟨t.log ++ [⟨.warn, w.message⟩], t.warnings ++ [w.message]⟩) ∨
      opened.warnings = t.warnings ∧ ∃ lines, opened.log = t.log ++ lines ∧ warningsIn lines = [] := by
  intro opened
  have hopened : opened = _ := foldl_after (openElement canvas e).notes t
  rcases notes_openElement canvas e with ⟨w, hnotes⟩ | hnone
  · refine .inl ⟨w, ?_⟩
    rw [hopened, hnotes]
    rfl
  · rw [hopened, hnone]
    refine .inr ⟨List.append_nil _, _, rfl, ?_⟩
    rw [warningsIn_logOf, hnone]
    rfl

/-- So does settling a side of the canvas. -/
theorem trace_side (root : Element) (key : String) (pageSide : Float) (t : Trace) :
    let settled := ((Scene.side root key pageSide).2.map Note.warning).foldl Trace.after t
    (∃ w : Warning, settled = ⟨t.log ++ [⟨.warn, w.message⟩], t.warnings ++ [w.message]⟩) ∨ settled = t := by
  intro settled
  have hside : (Scene.side root key pageSide).2 = [] ∨ ∃ w, (Scene.side root key pageSide).2 = [w] := by
    rw [Scene.side]
    split
    · exact .inl rfl
    · split
      · split
        · exact .inl rfl
        · exact .inr ⟨_, rfl⟩
      · exact .inr ⟨_, rfl⟩
  rcases hside with hside | ⟨w, hside⟩
  · exact .inr (by simp only [settled, hside]; rfl)
  · exact .inl ⟨w, by simp only [settled, hside]; rfl⟩

/-! ## Parts of the log -/

theorem warningsOf_warnings (warnings : List Warning) : warningsOf (warnings.map Note.warning) = warnings := by
  induction warnings with
  | nil => rfl
  | cons w rest ih => exact congrArg (w :: ·) ih

theorem debugIn_warnings (warnings : List Warning) : debugIn (logOf (warnings.map Note.warning)) = [] := by
  induction warnings with
  | nil => rfl
  | cons w rest ih => exact ih

theorem debugIn_kept (kept : List Markup.KeptReference) : debugIn (logOf (kept.map Note.kept)) = [] := by
  induction kept with
  | nil => rfl
  | cons reference rest ih => exact ih

theorem debugIn_styleNotes (e : Element) : debugIn (logOf (styleNotes e)) = [] := by
  rw [styleNotes, logOf_append, debugIn_append, debugIn_kept]
  rfl

theorem debugIn_pendingStyleNotes (pending : List Element) : debugIn (logOf (pendingStyleNotes pending)) = [] := by
  fun_induction pendingStyleNotes pending with
  | case1 => rfl
  | case2 e pending hstyle ih => rw [logOf_append, debugIn_append, debugIn_styleNotes, ih, List.nil_append]
  | case3 e pending hstyle ih => exact ih

/-- Only metadata is passed over with a line that is no warning. -/
theorem debugIn_openElement (canvas : Canvas) (e : Element) :
    debugIn (logOf (openElement canvas e).notes) =
      if Role.ofName e.name = .metadata then [s!"Skipping <{e.name}>"] else [] := by
  rw [openElement]
  cases hrole : Role.ofName e.name with
  | style => exact debugIn_styleNotes e
  | metadata => rfl
  | definitions => exact debugIn_pendingStyleNotes e.children
  | unknown => rfl
  | drawn shape =>
    simp only [openShape]
    cases shape.markOf canvas e with
    | error warning => rfl
    | ok mark => exact debugIn_kept _

theorem debugIn_visited (canvas : Canvas) (es : List Element) :
    debugIn (logOf (es.flatMap fun e => (openElement canvas e).notes)) =
      (es.filter fun e => Role.ofName e.name = .metadata).map fun e => s!"Skipping <{e.name}>" := by
  induction es with
  | nil => rfl
  | cons e rest ih =>
    rw [List.flatMap_cons, logOf_append, debugIn_append, debugIn_openElement, ih, List.filter_cons]
    by_cases hrole : Role.ofName e.name = .metadata
    · rw [if_pos hrole, if_pos (decide_eq_true hrole)]
      rfl
    · rw [if_neg hrole, if_neg (mt of_decide_eq_true hrole)]
      rfl

/-! ## All notes of a document -/

namespace Session

theorem scene_ofRoot {σ : Type} (markup : String) (root : Element) (page : Page) (settings : Settings) (sink : σ) :
    let s := ofRoot markup root page settings sink
    s.scene.root = root ∧ s.scene.settings = settings := ⟨rfl, rfl⟩

/-- At first there are the warnings about the canvas and a note of it. -/
theorem notes_ofRoot {σ : Type} (markup : String) (root : Element) (page : Page) (settings : Settings) (sink : σ) :
    let s := ofRoot markup root page settings sink
    s.notes = (Scene.canvasOf root page).2.map Note.warning ++ [.settled s.scene.canvas root.size] := by
  rw [← root.count_eq_size]
  rfl

/-- A session starts with the warnings about the width of the canvas, then those about its height. -/
theorem warnings_ofRoot {σ : Type} (markup : String) (root : Element) (page : Page) (settings : Settings) (sink : σ) :
    (ofRoot markup root page settings sink).warnings =
      (Scene.side root "width" page.width).2 ++ (Scene.side root "height" page.height).2 := by
  rw [warnings, notes_ofRoot, warningsOf_append, warningsOf_warnings]
  exact List.append_nil _

theorem warnings_compile {σ : Type} [StyleSink σ] (s : Session σ) :
    s.compile.1.warnings = (s.convert s.scene.root containerMark).1.warnings := by
  rw [compile]
  rcases s.convert s.scene.root containerMark with ⟨next, error | mark⟩
  · rfl
  · exact (warnings_record ..).trans (List.append_nil _)

/-- A session on a document that compiles has the notes it began with, those of the visited elements, and one about how
many marks and warnings there are. -/
theorem notes_compile {σ : Type} [StyleSink σ] {s : Session σ} {mark : Mark} (h : s.compile.2 = .ok mark) :
    s.compile.1.notes =
      s.notes ++ (s.scene.root.inside Element.passes).flatMap (fun e => (openElement s.scene.canvas e).notes) ++
        [.finished mark.size s.compile.1.warnings.length] := by
  have hconvert := h
  rw [result_compile] at hconvert
  obtain ⟨marks, hmarks, -⟩ := convert_eq_ok_iff.1 hconvert
  obtain ⟨hnotes, -⟩ := drawnAll_eq_visited hmarks
  have hrecord : (s.convert s.scene.root containerMark).1.notes =
      s.notes ++ (s.scene.root.inside Element.passes).flatMap fun e => (openElement s.scene.canvas e).notes := by
    rw [← hnotes, convert, runChildren_eq]
    rfl
  have hlast : s.compile.1 = (s.convert s.scene.root containerMark).1.record
      [.finished mark.size (s.convert s.scene.root containerMark).1.warnings.length] := by
    rw [compile, ← Prod.eta (s.convert s.scene.root containerMark), hconvert]
  rw [warnings_compile, ← hrecord, hlast]
  rfl

theorem debugIn_ofRoot {σ : Type} (markup : String) (root : Element) (page : Page) (settings : Settings) (sink : σ) :
    let s := ofRoot markup root page settings sink
    let size := s!"{Decimal.plain s.scene.canvas.width}x{Decimal.plain s.scene.canvas.height}pt"
    debugIn (logOf s.notes) = [s!"Resolved canvas {size} for {root.size} elements"] := by
  intro s size
  rw [notes_ofRoot, logOf_append, debugIn_append, debugIn_warnings]
  rfl

/-- The last line of the log of a document counts its marks and warnings. -/
theorem logOf_compile {σ : Type} [StyleSink σ] {s : Session σ} {mark : Mark} (h : s.compile.2 = .ok mark) :
    logOf s.compile.1.notes =
      logOf s.notes ++
        logOf ((s.scene.root.inside Element.passes).flatMap fun e => (openElement s.scene.canvas e).notes) ++
        [⟨.debug, s!"Parsed {mark.size} instructions with {s.compile.1.warnings.length} warnings"⟩] := by
  rw [notes_compile h, logOf_append, logOf_append]
  rfl

end Session

namespace Compiler

theorem compileLogged_of_start {c : Compiler} {markup : String} {s : Session StyleSheet}
    (h : Session.start markup c.page c.settings StyleSheet.empty = .ok s) :
    (c.compileLogged markup).1 = logOf s.compile.1.notes := by
  simp only [compileLogged, h]

/-- The log and the warnings of a document are made together: by the notes about its canvas, then by those of the
elements that are visited, and last by one about the whole. -/
theorem trace_of_compile {c : Compiler} {markup : String} {plot : Plot} (h : c.compile markup = .ok plot) :
    ∃ root, Element.read c.settings.maxDepth markup = .ok root ∧
      ((Scene.canvasOf root c.page).2.map Note.warning ++ [Note.settled plot.canvas root.size] ++
        (root.inside Element.passes).flatMap (fun e => (openElement plot.canvas e).notes) ++
        [Note.finished plot.root.size plot.warnings.length]).foldl Trace.after ⟨[], []⟩ =
          ⟨(c.compileLogged markup).1, plot.warnings⟩ := by
  obtain ⟨s, mark, hstart, hmark, rfl⟩ := compile_eq_ok_iff.1 h
  obtain ⟨root, hread, -, hs⟩ := Session.start_eq_ok_iff.1 hstart
  have hscene : s.compile.1.scene = s.scene := s.scene_afterCall .document
  have hnotes := Session.notes_compile hmark
  have hbegun := Session.notes_ofRoot markup root c.page c.settings StyleSheet.empty
  rw [← hs] at hbegun
  have hroot : s.scene.root = root := by rw [hs]; rfl
  refine ⟨root, hread, ?_⟩
  rw [hroot, hbegun] at hnotes
  rw [compileLogged_of_start hstart, foldl_after]
  simp only [Plot.ofSession, hscene, List.length_map, List.nil_append, ← hnotes]
  rfl

/-- A document that compiles is logged with its warnings as they are in the plot. All else in the log but the kept
references are a line about the canvas, one for each metadata element that was visited, in document order, and last one
that counts the marks and the warnings of the plot. Of a document that does not compile nothing is logged. -/
theorem compileLogged_views (c : Compiler) (markup : String) :
    let log := (c.compileLogged markup).1
    (∀ plot, c.compile markup = .ok plot →
      ∃ root, Element.read c.settings.maxDepth markup = .ok root ∧
        let size := s!"{Decimal.plain plot.canvas.width}x{Decimal.plain plot.canvas.height}pt"
        let metadata := (root.inside Element.passes).filter fun e => e.name ∈ ["title", "desc", "metadata"]
        let last := s!"Parsed {plot.root.size} instructions with {plot.warnings.length} warnings"
        warningsIn log = plot.warnings ∧
          debugIn log =
            s!"Resolved canvas {size} for {root.size} elements" :: metadata.map (fun e => s!"Skipping <{e.name}>") ++
              [last] ∧
          log.getLast? = some ⟨.debug, last⟩) ∧
      ∀ error, c.compile markup = .error error → log = [] := by
  intro log
  refine ⟨fun plot hplot => ?_, fun error herror => ?_⟩
  · obtain ⟨s, mark, hstart, hmark, rfl⟩ := compile_eq_ok_iff.1 hplot
    have hlog : log = logOf s.compile.1.notes := compileLogged_of_start hstart
    have hscene : s.compile.1.scene = s.scene := s.scene_afterCall .document
    obtain ⟨root, hread, -, hs⟩ := Session.start_eq_ok_iff.1 hstart
    have hroot : s.scene.root = root := by rw [hs]; rfl
    have hbegun := Session.debugIn_ofRoot markup root c.page c.settings StyleSheet.empty
    rw [← hs] at hbegun
    refine ⟨root, hread, ?_⟩
    intro size metadata last
    have hlast : s!"Parsed {mark.size} instructions with {s.compile.1.warnings.length} warnings" = last := by
      simp only [last, Plot.ofSession, List.length_map]
    have hlines := Session.logOf_compile hmark
    rw [hroot, hlast, ← hlog] at hlines
    refine ⟨?_, ?_, ?_⟩
    · rw [hlog, warningsIn_logOf]
      rfl
    · rw [hlines, debugIn_append, debugIn_append, hbegun, debugIn_visited]
      simp only [Role.ofName_eq_metadata_iff, size, Plot.ofSession, hscene]
      rfl
    · rw [hlines, List.getLast?_concat]
  · cases hstart : Session.start markup c.page c.settings StyleSheet.empty with
    | error reason => simp only [log, compileLogged, hstart]
    | ok s =>
      obtain ⟨mark, hmark⟩ := s.compile_isOk (Element.height_le_of_read (Session.read_of_start hstart))
      have hplot := compile_eq_ok_iff.2 ⟨s, mark, hstart, hmark, rfl⟩
      cases herror.symm.trans hplot

/-- A root with a bad width and an unknown element are warned about in both ways. The reference that was kept is in the
log only. -/
theorem compileLogged_views_mixed :
    let markup := "<svg width='wide'><title/><style>&x;</style><blink/><g><desc/></g></svg>"
    let warnings :=
      ["Invalid value 'wide' for attribute width on tag svg: invalid number 'wide'", "Unknown tag: blink"]
    let log := (({} : Compiler).compileLogged markup).1
    ∃ plot, ({} : Compiler).compile markup = .ok plot ∧ plot.warnings = warnings ∧ warningsIn log = warnings ∧
      (debugIn log).tail = ["Skipping <title>", "Skipping <desc>", "Parsed 2 instructions with 2 warnings"] ∧
      (∃ line ∈ log, line.isKept = true) ∧ (({} : Compiler).compileLogged "<g/>").1 = [] := by
  intro markup warnings log
  let style := (Element.named "style").addText "&x;"
  let group := (Element.named "g").addChild (Element.named "desc")
  let root : Element := ⟨"svg", Dictionary.ofList [("width", "wide")], [],
    [Element.named "title", style, Element.named "blink", group]⟩
  let mark : Mark := ⟨.svg, [], none, [⟨.group, [], none, []⟩]⟩
  have hread : Element.read 256 markup = .ok root := by decide +kernel
  obtain ⟨s, hs⟩ : ∃ s : Session StyleSheet, s = .ofRoot markup root Page.letter {} StyleSheet.empty := ⟨_, rfl⟩
  have hstart : Session.start markup Page.letter {} StyleSheet.empty = .ok s :=
    Session.start_eq_ok_iff.2 ⟨root, hread, rfl, hs⟩
  have hscene : s.scene.root = root ∧ s.scene.settings = {} := by
    rw [hs]
    exact Session.scene_ofRoot ..
  have hbegun : s.warnings = [.invalidValue "wide" "width" "svg" (.length (.notANumber "wide"))] := by
    have hcanvas (page : Page) : (Scene.canvasOf root page).2 =
        [.invalidValue "wide" "width" "svg" (.length (.notANumber "wide"))] := rfl
    rw [hs, Session.warnings, Session.notes_ofRoot, hcanvas]
    rfl
  -- the rest of the warnings and the mark by the recursion
  have haccount (canvas : Canvas) := account_drawnAll canvas 256 root.children 2
  have hresult (canvas : Canvas) : (drawnAll canvas 256 2 root.children).result = .ok mark.children :=
    (congrArg Account.result (haccount canvas)).trans rfl
  have htold (canvas : Canvas) : warningsOf (drawnAll canvas 256 2 root.children).notes = [.unknownElement "blink"] :=
    (congrArg Account.warnings (haccount canvas)).trans rfl
  have hmark : s.compile.2 = .ok mark := by
    rw [Session.result_compile, Session.result_convert, hscene.1, hscene.2]
    exact congrArg (Except.map _) (hresult s.scene.canvas)
  have hadded : s.compile.1.warnings =
      s.warnings ++ warningsOf (drawnAll s.scene.canvas 256 2 root.children).notes := by
    rw [Session.warnings_compile, Session.convert, runChildren_eq, hscene.1, hscene.2]
    exact Session.warnings_record ..
  obtain ⟨plot, hplot⟩ : ∃ plot, plot = Plot.ofSession s.compile.1 mark := ⟨_, rfl⟩
  have hcompile : ({} : Compiler).compile markup = .ok plot := compile_eq_ok_iff.2 ⟨s, mark, hstart, hmark, hplot⟩
  have hwarnings : plot.warnings = warnings := by
    rw [hplot, Plot.ofSession, hadded, hbegun, htold]
    rfl
  have hsize : plot.root.size = 2 := by rw [hplot]; rfl
  have hmetadata : (root.inside Element.passes).filter (fun e => e.name ∈ ["title", "desc", "metadata"]) =
      [Element.named "title", Element.named "desc"] := rfl
  obtain ⟨root', hread', hlogged, hdebug, -⟩ := (compileLogged_views {} markup).1 plot hcompile
  obtain rfl : root = root' := Except.ok.inj (hread.symm.trans hread')
  refine ⟨plot, hcompile, hwarnings, hlogged.trans hwarnings, ?_, ?_, ?_⟩
  · rw [hdebug, hwarnings, hsize, hmetadata, List.cons_append, List.tail_cons]
    decide +kernel
  · let reference : Markup.KeptReference := .undecodable "&x;" (.unknown 1 2 "x")
    have hkept : (Markup.PlainText.of style.content).kept = [reference] := by decide +kernel
    have hnote : Note.kept reference ∈ (openElement s.scene.canvas style).notes := by
      show _ ∈ styleNotes style
      rw [styleNotes, hkept]
      exact List.mem_append_left _ (List.mem_singleton_self _)
    have hstyle : style ∈ s.scene.root.inside Element.passes := by
      rw [hscene.1]
      exact .tail _ (.head _)
    refine ⟨⟨.warn, reference.message⟩, ?_, reference.isKept_message⟩
    have hlog : log = logOf s.compile.1.notes := compileLogged_of_start hstart
    rw [hlog, Session.notes_compile hmark]
    refine List.mem_filterMap.2 ⟨.kept reference, ?_, rfl⟩
    exact List.mem_append_left _ (List.mem_append_right _ (List.mem_flatMap.2 ⟨style, hstyle, hnote⟩))
  · have hgroup : Element.read 256 "<g/>" = .ok (Element.named "g") := by decide +kernel
    refine (compileLogged_views {} "<g/>").2 (.notSvg "g") ?_
    simp [compile, compileLogged, Session.start, Scene.of, hgroup, Except.map, Scene.rootName, Element.named]

end Compiler

end SvgPlot
