import SvgPlot.Proofs.ElementByElement
import SvgPlot.Proofs.LimitChange
import SvgPlot.Proofs.MarkForm

/-!
# Another page

A document is compiled for two pages. The page has a part in the size of the canvas, and the canvas in the numbers of the
marks, but in nothing else.

* `Mark.zeroed` takes the numbers away and keeps how many there are. `zeroed_drawn` says that an element comes to the same
  on two canvases but for them, with the same notes.
* `Scene.StatesSide` is a side of the canvas that a root gives without the page. A document whose root gives both is on
  the same canvas for every page (`canvasOf_eq_of_states`).
* `Session.withPage` puts another page into a session. Compiling commutes with it.
-/

namespace SvgPlot

open Markup (Element)

/-- Two results are the same up to what a function keeps if they fail alike, or what is kept is the same. -/
theorem map_eq_map_iff {ε α β : Type} {r r' : Except ε α} {f : α → β} :
    r.map f = r'.map f ↔
      (∃ error, r = .error error ∧ r' = .error error) ∨ ∃ a a', r = .ok a ∧ r' = .ok a' ∧ f a = f a' := by
  cases r <;> cases r' <;> simp [Except.map, eq_comm]

namespace Report

variable {α β γ : Type}

theorem map_map (f : α → β) (g : β → γ) (r : Report α) : (r.map f).map g = r.map fun a => g (f a) := by
  rcases r with ⟨notes, error | a⟩ <;> rfl

theorem map_after (f : α → β) (notes : List Note) (r : Report α) : (r.after notes).map f = (r.map f).after notes := rfl

theorem map_andThen (f : β → γ) (r : Report α) (next : α → Report β) :
    (r.andThen next).map f = r.andThen fun a => (next a).map f := by
  rcases r with ⟨notes, error | a⟩ <;> rfl

end Report

/-! ## Marks without their numbers -/

/-- As many zeros as there are numbers. -/
def zeros (numbers : List Float) : List Float := List.replicate numbers.length 0.0

theorem zeros_append (numbers more : List Float) : zeros (numbers ++ more) = zeros numbers ++ zeros more := by
  rw [zeros, List.length_append, ← List.replicate_append_replicate, zeros, zeros]

/-- Values that are read alike and give equally many numbers. -/
theorem zeros_map_map {ε α : Type} {r : Except ε α} {f g : α → List Float} (h : ∀ x, (f x).length = (g x).length) :
    (r.map f).map zeros = (r.map g).map zeros := by
  cases r with
  | error error => rfl
  | ok x => simp only [Except.map, zeros, h]

namespace Mark

mutual

/-- The tree with a zero for every number: the marks, their data, and how many numbers each of them has. -/
def zeroed : Mark → Mark
  | ⟨shape, numbers, data, children⟩ => ⟨shape, zeros numbers, data, zeroedAll children⟩

def zeroedAll : List Mark → List Mark
  | [] => []
  | m :: rest => m.zeroed :: zeroedAll rest

end

theorem zeroed_eq (m : Mark) : m.zeroed = ⟨m.shape, zeros m.numbers, m.data, zeroedAll m.children⟩ := by
  obtain ⟨shape, numbers, data, children⟩ := m
  rw [zeroed]

theorem zeroedAll_append (ms rest : List Mark) : zeroedAll (ms ++ rest) = zeroedAll ms ++ zeroedAll rest := by
  induction ms with
  | nil => rfl
  | cons m ms ih => simp only [List.cons_append, zeroedAll, ih]

theorem zeroedAll_toList (mark : Option Mark) : zeroedAll mark.toList = (mark.map zeroed).toList := by
  cases mark <;> rfl

/-- A mark with more children. -/
theorem zeroed_append (m : Mark) (marks : List Mark) :
    zeroed { m with children := m.children ++ marks } =
      { m.zeroed with children := m.zeroed.children ++ zeroedAll marks } := by
  simp only [zeroed_eq, zeroedAll_append]

end Mark

/-! ## One element on two canvases -/

section

variable (a b : Canvas)

/-- Whether a value can be read, what is wrong with it and how many numbers it gives does not depend on the canvas. -/
theorem zeros_measure (quantity : Quantity) (raw : String) :
    (a.measure quantity raw).map zeros = (b.measure quantity raw).map zeros := by
  have hsingle (f g : Length → Float) :
      ((Length.read raw).map fun length => [f length]).map zeros =
        ((Length.read raw).map fun length => [g length]).map zeros :=
    zeros_map_map fun _ => rfl
  cases quantity with
  | points => exact zeros_map_map fun pairs => by rw [Canvas.length_positions, Canvas.length_positions]
  | x => exact hsingle a.across b.across
  | y => exact hsingle a.above b.above
  | width => exact hsingle a.across b.across
  | height => exact hsingle a.along b.along
  | length => exact hsingle a.across b.across

theorem zeros_readMeasures (e : Element) (measures : List Shape.Measure) :
    (readMeasures a e measures).map zeros = (readMeasures b e measures).map zeros := by
  induction measures with
  | nil => rfl
  | cons m rest ih =>
    simp only [readMeasures]
    rcases map_eq_map_iff.1 (zeros_measure a b m.quantity ((e.attributes.get? m.key).getD "0")) with
      ⟨error, ha, hb⟩ | ⟨first, first', ha, hb, hfirst⟩
    · simp only [ha, hb]
    · simp only [ha, hb]
      rcases map_eq_map_iff.1 ih with ⟨error, ha, hb⟩ | ⟨more, more', ha, hb, hmore⟩
      · simp only [ha, hb]
        rfl
      · rw [ha, hb]
        simp only [Except.map, zeros_append, hfirst, hmore]

theorem zeroed_markOf (shape : Shape) (e : Element) :
    (shape.markOf a e).map Mark.zeroed = (shape.markOf b e).map Mark.zeroed := by
  unfold Shape.markOf
  cases shape.rule.missing e.attributes.contains with
  | cons key keys => rfl
  | nil =>
    rcases map_eq_map_iff.1 (zeros_readMeasures a b e shape.rule.measures) with
      ⟨error, ha, hb⟩ | ⟨numbers, numbers', ha, hb, hnumbers⟩
    · simp only [ha, hb, Except.map]
    · simp only [ha, hb, Except.map, Mark.zeroed, hnumbers]

/-- An element is opened with the same notes, and with the same mark but for the numbers. -/
theorem zeroed_openElement (e : Element) :
    (openElement a e).notes = (openElement b e).notes ∧
      (openElement a e).mark.map Mark.zeroed = (openElement b e).mark.map Mark.zeroed := by
  unfold openElement
  cases Role.ofName e.name with
  | drawn shape =>
    simp only [openShape]
    rcases map_eq_map_iff.1 (zeroed_markOf a b shape e) with ⟨warning, ha, hb⟩ | ⟨mark, mark', ha, hb, hmark⟩
    · simp only [ha, hb, and_self]
    · simp only [ha, hb, Option.map_some, hmark, and_self]
  | _ => exact ⟨rfl, rfl⟩

variable (limit : Nat)

mutual

/-- On two canvases an element comes to the same but for the numbers, or fails on both; the notes are the same. -/
theorem zeroed_drawn : ∀ (e : Element) (depth : Nat),
    (drawn a limit depth e).map (Option.map Mark.zeroed) = (drawn b limit depth e).map (Option.map Mark.zeroed)
  | ⟨name, attributes, content, children⟩, depth => by
    by_cases hdepth : limit < depth
    · rw [drawn_of_lt hdepth, drawn_of_lt hdepth]
    have hroom : depth ≤ limit := Nat.le_of_not_lt hdepth
    obtain ⟨hnotes, hmarks⟩ := zeroed_openElement a b ⟨name, attributes, content, children⟩
    cases ha : (openElement a ⟨name, attributes, content, children⟩).mark with
    | none =>
      rw [ha, Option.map_none, eq_comm, Option.map_eq_none_iff] at hmarks
      rw [drawn_of_none hroom ha, drawn_of_none hroom hmarks, hnotes]
    | some mark =>
      rw [ha, Option.map_some, eq_comm, Option.map_eq_some_iff] at hmarks
      obtain ⟨mark', hb, hmark⟩ := hmarks
      have hchildren := zeroed_drawnAll children (depth + 1)
      -- what comes of the children without its numbers decides what the whole is without them
      have hwhole : ∀ (canvas : Canvas) (m : Mark),
          ((drawnAll canvas limit (depth + 1) children).map fun marks =>
              some { m with children := m.children ++ marks }).map (Option.map Mark.zeroed) =
            ((drawnAll canvas limit (depth + 1) children).map Mark.zeroedAll).map fun marks =>
              some { m.zeroed with children := m.zeroed.children ++ marks } := by
        intro canvas m
        simp only [Report.map_map, Option.map_some, Mark.zeroed_append]
      rw [drawn_of_some hroom ha, drawn_of_some hroom hb, hnotes, Report.map_after, Report.map_after, hwhole, hwhole,
        hchildren, hmark]

theorem zeroed_drawnAll : ∀ (es : List Element) (depth : Nat),
    (drawnAll a limit depth es).map Mark.zeroedAll = (drawnAll b limit depth es).map Mark.zeroedAll
  | [], depth => rfl
  | e :: rest, depth => by
    have hfirst := zeroed_drawn e depth
    have hrest := zeroed_drawnAll rest depth
    have hrow : ∀ canvas : Canvas, (drawnAll canvas limit depth (e :: rest)).map Mark.zeroedAll =
        ((drawn canvas limit depth e).map (Option.map Mark.zeroed)).andThen fun mark =>
          ((drawnAll canvas limit depth rest).map Mark.zeroedAll).map fun marks => mark.toList ++ marks := by
      intro canvas
      simp only [drawnAll, Report.map_andThen, Report.map_map, Report.andThen_map, Mark.zeroedAll_append,
        Mark.zeroedAll_toList]
    rw [hrow a, hrow b, hfirst, hrest]

end

end

/-! ## The canvas of a root -/

theorem LengthUnit.toPoints_of_ne_percent {unit : LengthUnit} (h : unit ≠ .percent) (value reference other : Float) :
    unit.toPoints value reference = unit.toPoints value other := by
  cases unit with
  | percent => exact absurd rfl h
  | _ => rfl

namespace Scene

/-- A root gives a side of its canvas by itself: a length that is no percentage, and comes to a positive number. -/
def StatesSide (root : Element) (key : String) (pageSide : Float) : Prop :=
  ∃ raw length, root.attributes.get? key = some raw ∧ Length.read raw = .ok length ∧ length.unit ≠ .percent ∧
    0.0 < length.toPoints pageSide

/-- Such a side is the same on every page, and there is nothing to warn about. -/
theorem side_eq_of_states {root : Element} {key : String} {pageSide : Float} (h : StatesSide root key pageSide)
    (other : Float) : side root key other = side root key pageSide := by
  obtain ⟨raw, length, hraw, hlength, hunit, hpositive⟩ := h
  have hsame : length.toPoints other = length.toPoints pageSide :=
    LengthUnit.toPoints_of_ne_percent hunit length.value other pageSide
  simp only [side, hraw, Length.resolve, hlength, Except.map, hsame, if_pos hpositive]

theorem canvasOf_eq_of_states {root : Element} {page : Page} (hwidth : StatesSide root "width" page.width)
    (hheight : StatesSide root "height" page.height) (other : Page) : canvasOf root other = canvasOf root page := by
  simp only [canvasOf, side_eq_of_states hwidth other.width, side_eq_of_states hheight other.height]

end Scene

/-! ## Sessions and plots -/

namespace Session

section

variable {σ : Type}

/-- Whether a session can be started, and what keeps it from being started, does not depend on the page. -/
theorem start_eq_error_of_page {markup : String} {page : Page} {settings : Settings} {sink : σ} {error : Error}
    (h : start markup page settings sink = .error error) (other : Page) :
    start markup other settings sink = .error error := by
  unfold start Scene.of at h ⊢
  cases hread : Element.read settings.maxDepth markup with
  | error fault =>
    rw [hread] at h
    exact h
  | ok root =>
    rw [hread] at h
    by_cases hname : root.name = Scene.rootName
    · simp [hname, Except.map] at h
    · simpa [hname] using h

/-- The session with another page. -/
def withPage (s : Session σ) (page : Page) : Session σ := { s with scene := { s.scene with page } }

/-- If the canvas is the same for another page, so is all the rest. -/
theorem ofRoot_eq_withPage {markup : String} {root : Element} {page other : Page} {settings : Settings} {sink : σ}
    (h : Scene.canvasOf root other = Scene.canvasOf root page) :
    ofRoot markup root other settings sink = (ofRoot markup root page settings sink).withPage other := by
  simp only [ofRoot, Scene.ofRoot, h, withPage]

variable [StyleSink σ]

theorem compile_withPage (s : Session σ) (page : Page) :
    (s.withPage page).compile = (s.compile.1.withPage page, s.compile.2) := by
  have hconvert : (s.withPage page).convert (s.withPage page).scene.root containerMark =
      ((s.convert s.scene.root containerMark).1.withPage page, (s.convert s.scene.root containerMark).2) := rfl
  rw [compile, compile, hconvert]
  rcases s.convert s.scene.root containerMark with ⟨next, error | mark⟩
  · rfl
  · rfl

end

/-- On scenes with one root and one limit a document comes to the same but for the numbers. -/
theorem Call.zeroed_report {scene other : Scene} (hroot : scene.root = other.root)
    (hlimit : scene.settings.maxDepth = other.settings.maxDepth) :
    (Call.document.report scene).map (Option.map Mark.zeroed) =
      (Call.document.report other).map (Option.map Mark.zeroed) := by
  have hchildren := zeroed_drawnAll scene.canvas other.canvas other.settings.maxDepth other.root.children 2
  simp only [Call.report, runChildren_eq, Report.map_map, hroot, hlimit, Option.map_some, Mark.zeroed_append]
  have hmap := congrArg (Report.map fun marks : List Mark =>
    some { containerMark.zeroed with children := containerMark.zeroed.children ++ marks }) hchildren
  simp only [Report.map_map] at hmap
  exact hmap

theorem Call.notes_report {scene other : Scene} (hroot : scene.root = other.root)
    (hlimit : scene.settings.maxDepth = other.settings.maxDepth) :
    (Call.document.report scene).notes = (Call.document.report other).notes := by
  exact (congrArg Report.notes (Call.zeroed_report hroot hlimit) :)

/-- A document whose tree can be compiled comes to the same marks but for their numbers on both scenes. -/
theorem zeroed_of_compile {σ : Type} [StyleSink σ] {s t : Session σ} {a b : Mark} (hroot : s.scene.root = t.scene.root)
    (hlimit : s.scene.settings.maxDepth = t.scene.settings.maxDepth) (ha : s.compile.2 = .ok a)
    (hb : t.compile.2 = .ok b) : a.zeroed = b.zeroed := by
  have hsame := congrArg Report.result (Call.zeroed_report hroot hlimit)
  have hanswer : (Call.document.report s.scene).result = .ok (some a) := by
    rw [← answer_eq_report, answer, ha]
    rfl
  have hanswer' : (Call.document.report t.scene).result = .ok (some b) := by
    rw [← answer_eq_report, answer, hb]
    rfl
  simp only [Report.map, hanswer, hanswer', Except.map, Option.map_some] at hsame
  exact Option.some.inj (Except.ok.inj hsame)

/-- A document whose root gives both sides of the canvas by itself comes to one plot on both pages. -/
theorem exists_compile_of_states {markup : String} {settings : Settings} {page : Page} {root : Element}
    (hread : Element.read settings.maxDepth markup = .ok root) (hname : root.name = Scene.rootName)
    (hwidth : Scene.StatesSide root "width" page.width) (hheight : Scene.StatesSide root "height" page.height)
    (other : Page) :
    ∃ plot, (⟨page, settings⟩ : Compiler).compile markup = .ok plot ∧
      (⟨other, settings⟩ : Compiler).compile markup = .ok plot := by
  let s : Session StyleSheet := ofRoot markup root page settings StyleSheet.empty
  obtain ⟨mark, hmark⟩ := s.compile_isOk (Element.height_le_of_read hread)
  have hother : ofRoot markup root other settings StyleSheet.empty = s.withPage other :=
    ofRoot_eq_withPage (Scene.canvasOf_eq_of_states hwidth hheight other)
  have hcompile := s.compile_withPage other
  refine ⟨Plot.ofSession s.compile.1 mark, ?_, ?_⟩
  · exact Compiler.compile_eq_ok_iff.2 ⟨s, mark, start_eq_ok_iff.2 ⟨root, hread, hname, rfl⟩, hmark, rfl⟩
  · refine Compiler.compile_eq_ok_iff.2 ⟨s.withPage other, mark, ?_, ?_, ?_⟩
    · exact start_eq_ok_iff.2 ⟨root, hread, hname, hother.symm⟩
    · rw [hcompile]
      exact hmark
    · rw [hcompile]
      rfl

/-- The page has a part in nothing but the numbers. Markup that makes no session makes none for every page, for the same
reason. A document comes to the same marks but for their numbers, and to the same warnings and style blocks. If its root
gives both sides of the canvas by itself, the whole plot is the same. -/
theorem compile_on_pages (markup : String) (settings : Settings) (p q : Page) :
    (∃ (told : List Warning) (blocks : List String), ∀ (σ : Type) [StyleSink σ] (sink : σ),
      (∀ error, start markup p settings sink = .error error ↔ start markup q settings sink = .error error) ∧
      ∀ s t, start markup p settings sink = .ok s → start markup q settings sink = .ok t →
        (∃ a b, s.compile.2 = .ok a ∧ t.compile.2 = .ok b ∧ a.zeroed = b.zeroed) ∧
          s.Adds s.compile.1 told blocks ∧ t.Adds t.compile.1 told blocks) ∧
    ∀ root, Element.read settings.maxDepth markup = .ok root → root.name = Scene.rootName →
      Scene.StatesSide root "width" p.width → Scene.StatesSide root "height" p.height →
        ∃ plot, (⟨p, settings⟩ : Compiler).compile markup = .ok plot ∧
          (⟨q, settings⟩ : Compiler).compile markup = .ok plot := by
  refine ⟨?_, fun root hread hname hwidth hheight => ?_⟩
  · have herrors : ∀ (σ : Type) (sink : σ) error,
        start markup p settings sink = .error error ↔ start markup q settings sink = .error error :=
      fun σ sink error => ⟨fun h => start_eq_error_of_page h q, fun h => start_eq_error_of_page h p⟩
    cases hread : Element.read settings.maxDepth markup with
    | error fault =>
      refine ⟨[], [], fun σ _ sink => ⟨herrors σ sink, fun s t hs => ?_⟩⟩
      obtain ⟨root, hroot, -⟩ := start_eq_ok_iff.1 hs
      rw [hread] at hroot
      cases hroot
    | ok root =>
      let told := (Call.document.report (Scene.ofRoot markup root p settings).1).notes
      refine ⟨warningsOf told, stylesOf told, fun σ _ sink => ⟨herrors σ sink, fun s t hs ht => ?_⟩⟩
      have hwithin : root.height ≤ settings.maxDepth := Element.height_le_of_read hread
      obtain ⟨-, rfl⟩ := eq_ofRoot_of_start hread hs
      obtain ⟨-, rfl⟩ := eq_ofRoot_of_start hread ht
      obtain ⟨a, ha⟩ := (ofRoot markup root p settings sink).compile_isOk hwithin
      obtain ⟨b, hb⟩ := (ofRoot markup root q settings sink).compile_isOk hwithin
      have hroot : (ofRoot markup root p settings sink).scene.root = (ofRoot markup root q settings sink).scene.root := rfl
      have hlimit : (ofRoot markup root p settings sink).scene.settings.maxDepth =
          (ofRoot markup root q settings sink).scene.settings.maxDepth := rfl
      have hnotes : told = (Call.document.report (ofRoot markup root q settings sink).scene).notes :=
        Call.notes_report hroot hlimit
      refine ⟨⟨a, b, ha, hb, zeroed_of_compile hroot hlimit ha hb⟩, adds_afterCall _ .document, ?_⟩
      rw [hnotes]
      exact adds_afterCall _ .document
  · exact exists_compile_of_states hread hname hwidth hheight q

/-- A line across half of the canvas and an unknown element: first on a canvas that is the page, then on one that is given
by the root. -/
theorem compile_on_pages_line :
    let onPage := "<svg><line x2='50%'/><blink/></svg>"
    let onCanvas := "<svg width='9' height='1in'><line x2='50%'/><blink/></svg>"
    let root := ((((Element.named "svg").setAttribute "width" "9").setAttribute "height" "1in").addChild
      ((Element.named "line").setAttribute "x2" "50%")).addChild (Element.named "blink")
    (∃ s t a b told blocks,
      start onPage Page.letter {} StyleSheet.empty = .ok s ∧ start onPage Page.a4 {} StyleSheet.empty = .ok t ∧
        s.compile.2 = .ok a ∧ t.compile.2 = .ok b ∧ a.zeroed = b.zeroed ∧
          s.Adds s.compile.1 told blocks ∧ t.Adds t.compile.1 told blocks) ∧
    Element.read 256 onCanvas = .ok root ∧ root.name = Scene.rootName ∧
      Scene.StatesSide root "width" Page.letter.width ∧ Scene.StatesSide root "height" Page.letter.height ∧
        ∃ plot, (⟨Page.letter, {}⟩ : Compiler).compile onCanvas = .ok plot ∧
          (⟨Page.a4, {}⟩ : Compiler).compile onCanvas = .ok plot := by
  intro onPage onCanvas root
  refine ⟨?_, ?_⟩
  · let page := ((Element.named "svg").addChild ((Element.named "line").setAttribute "x2" "50%")).addChild
      (Element.named "blink")
    have hread : Element.read 256 onPage = .ok page := by decide +kernel
    have hletter : start onPage Page.letter {} StyleSheet.empty =
        .ok (ofRoot onPage page Page.letter {} StyleSheet.empty) := start_eq_ok_iff.2 ⟨page, hread, rfl, rfl⟩
    have ha4 : start onPage Page.a4 {} StyleSheet.empty = .ok (ofRoot onPage page Page.a4 {} StyleSheet.empty) :=
      start_eq_ok_iff.2 ⟨page, hread, rfl, rfl⟩
    obtain ⟨⟨told, blocks, hall⟩, -⟩ := compile_on_pages onPage {} Page.letter Page.a4
    obtain ⟨-, hpair⟩ := hall StyleSheet StyleSheet.empty
    obtain ⟨⟨a, b, ha, hb, hzeroed⟩, hadds, hadds'⟩ := hpair _ _ hletter ha4
    exact ⟨_, _, a, b, told, blocks, hletter, ha4, ha, hb, hzeroed, hadds, hadds'⟩
  · have hread : Element.read 256 onCanvas = .ok root := by decide +kernel
    have hwidth : Scene.StatesSide root "width" Page.letter.width :=
      ⟨"9", _, rfl, rfl, by decide, by decide +kernel⟩
    have hheight : Scene.StatesSide root "height" Page.letter.height :=
      ⟨"1in", _, rfl, rfl, by decide, by decide +kernel⟩
    exact ⟨hread, rfl, hwidth, hheight, (compile_on_pages onCanvas {} Page.letter Page.a4).2 root hread rfl hwidth hheight⟩

end Session

end SvgPlot
