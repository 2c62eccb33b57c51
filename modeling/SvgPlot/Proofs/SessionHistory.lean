import SvgPlot.Proofs.DepthLimit

/-!
# The history of a session

A session can be asked for its document and for elements as often as one likes. What it has recorded plays no part in
what it answers, and what it records is added to what it has recorded.

* `warnings_afterCall` and `sink_afterCall` say what one call adds.
* `warnings_after`, `sink_after` and `answers_eq_map` carry this over to calls in a row, by induction on the calls. That
  the scene stays as it is (`scene_afterCall`) keeps the induction going.
-/

namespace SvgPlot

open Markup

/-! ## What sinks hold -/

namespace StyleSheet

/-- A style sheet keeps the blocks in the order they came. -/
theorem toList_blocks_foldl_add (blocks : List String) (sheet : StyleSheet) :
    (blocks.foldl StyleSink.add sheet).blocks.toList = sheet.blocks.toList ++ blocks := by
  induction blocks generalizing sheet with
  | nil => simp
  | cons block rest ih =>
    have hpush : (StyleSink.add sheet block).blocks.toList = sheet.blocks.toList ++ [block] := Array.toList_push
    rw [List.foldl_cons, ih, hpush, List.append_assoc]
    rfl

end StyleSheet

namespace Session

/-! ## One call -/

section

variable {σ : Type} [StyleSink σ]

theorem warnings_afterCall (s : Session σ) (call : Call) :
    (s.afterCall call).warnings = s.warnings ++ warningsOf (call.report s.scene).notes := by
  obtain ⟨closing, hwarnings, -, hrecord⟩ := s.exists_afterCall_eq_record call
  rw [hrecord, warnings_record, warningsOf_append, hwarnings, List.append_nil]

theorem sink_afterCall (s : Session σ) (call : Call) :
    (s.afterCall call).sink = (stylesOf (call.report s.scene).notes).foldl StyleSink.add s.sink := by
  obtain ⟨closing, -, hstyles, hrecord⟩ := s.exists_afterCall_eq_record call
  rw [hrecord, record, stylesOf_append, hstyles, List.append_nil]

/-! ## Calls in a row -/

theorem answers_eq_map (s : Session σ) (calls : List Call) :
    s.answers calls = calls.map fun call => (call.report s.scene).result := by
  induction calls generalizing s with
  | nil => rfl
  | cons call rest ih => rw [answers, ih, scene_afterCall, answer_eq_report, List.map_cons]

theorem warnings_after (s : Session σ) (calls : List Call) :
    (s.after calls).warnings = s.warnings ++ calls.flatMap fun call => warningsOf (call.report s.scene).notes := by
  induction calls generalizing s with
  | nil => exact (List.append_nil _).symm
  | cons call rest ih =>
    have hstep : s.after (call :: rest) = (s.afterCall call).after rest := rfl
    rw [hstep, ih, scene_afterCall, warnings_afterCall, List.append_assoc, List.flatMap_cons]

theorem sink_after (s : Session σ) (calls : List Call) :
    (s.after calls).sink =
      (calls.flatMap fun call => stylesOf (call.report s.scene).notes).foldl StyleSink.add s.sink := by
  induction calls generalizing s with
  | nil => rfl
  | cons call rest ih =>
    have hstep : s.after (call :: rest) = (s.afterCall call).after rest := rfl
    rw [hstep, ih, scene_afterCall, sink_afterCall, List.flatMap_cons, List.foldl_append]

end

/-- Every call is answered as in a new session of the same document. The warnings of a session are those about its
canvas and then those of the calls, its sink has taken the style blocks of the calls, and what a call adds to either is
what it adds to that new session. -/
theorem calls_eq_alone {σ : Type} [StyleSink σ] {markup : String} {page : Page} {settings : Settings} {sink : σ}
    {s : Session σ} (h : start markup page settings sink = .ok s) :
    ∃ (alone : Session StyleSheet) (told : Call → List Warning) (blocks : Call → List String),
      start markup page settings StyleSheet.empty = .ok alone ∧
      (∀ call, (alone.afterCall call).warnings = alone.warnings ++ told call ∧
        (alone.afterCall call).sink.blocks.toList = blocks call) ∧
      ∀ calls : List Call,
        s.answers calls = calls.map alone.answer ∧
        (s.after calls).warnings = s.warnings ++ calls.flatMap told ∧
        (s.after calls).sink = (calls.flatMap blocks).foldl StyleSink.add sink ∧
        (s.after calls).scene = s.scene := by
  obtain ⟨root, hread, hname, rfl⟩ := start_eq_ok_iff.1 h
  let alone : Session StyleSheet := ofRoot markup root page settings StyleSheet.empty
  refine ⟨alone, fun call => warningsOf (call.report alone.scene).notes,
    fun call => stylesOf (call.report alone.scene).notes, start_eq_ok_iff.2 ⟨root, hread, hname, rfl⟩, ?_, ?_⟩
  · intro call
    refine ⟨alone.warnings_afterCall call, ?_⟩
    rw [sink_afterCall, StyleSheet.toList_blocks_foldl_add]
    rfl
  · intro calls
    refine ⟨?_, warnings_after .., sink_after .., scene_after ..⟩
    rw [answers_eq_map]
    exact List.map_congr_left fun call _ => (alone.answer_eq_report call).symm

/-- A call that fails between two others: both unknown elements are warned about, and a group within a group is too deep
for this session. -/
theorem calls_eq_alone_failing :
    let blink := Call.element (Element.named "blink")
    let nested := Call.element ((Element.named "g").addChild (Element.named "g"))
    let settings : Settings := { maxDepth := 1 }
    ∃ s, start "<svg/>" Page.letter settings StyleSheet.empty = .ok s ∧
      s.answers [blink, nested, blink] = [.ok none, .error ⟨1⟩, .ok none] ∧
      (s.after [blink, nested, blink]).warnings = [.unknownElement "blink", .unknownElement "blink"] := by
  intro blink nested settings
  have hreading : Reading.of (withoutMark "<svg/>".toList) = ⟨[.empty ⟨"svg".toList, []⟩], none⟩ := by
    show readTokens [] [] ('<' :: "svg/>".toList) = _
    rw [@readTokens_of_next _ [] _ _ _ [] (.empty ⟨"svg".toList, []⟩) rfl rfl, readTokens]
    rfl
  have hread : Element.read 1 "<svg/>" = .ok ⟨"svg", Dictionary.empty, [], []⟩ := by
    refine Element.read_eq_ok_iff.2 ⟨by rw [hreading], ?_⟩
    rw [hreading]
    refine Growth.grow_empty_eq_ok_iff.2 ⟨by decide, _, Tag.readAttributes_of_nil _, ?_⟩
    rw [Growth.growAttached_nil, Growth.grow_nil_eq_ok_iff]
    exact ⟨rfl, rfl⟩
  let s : Session StyleSheet := ofRoot "<svg/>" ⟨"svg", Dictionary.empty, [], []⟩ Page.letter settings StyleSheet.empty
  have hstart : start "<svg/>" Page.letter settings StyleSheet.empty = .ok s :=
    start_eq_ok_iff.2 ⟨_, hread, rfl, rfl⟩
  obtain ⟨alone, told, blocks, halone, hone, hall⟩ := calls_eq_alone hstart
  obtain rfl : s = alone := Except.ok.inj (hstart.symm.trans halone)
  obtain ⟨hanswers, hwarnings, -, -⟩ := hall [blink, nested, blink]
  have hblink : blink.report s.scene = ⟨[.warning (.unknownElement "blink")], .ok none⟩ := rfl
  have hnested : nested.report s.scene = ⟨[], .error ⟨1⟩⟩ := by
    have hmark : (openElement s.scene.canvas ((Element.named "g").addChild (Element.named "g"))).mark =
        some ⟨.group, [], none, []⟩ := rfl
    simp only [nested, Call.report, hmark, runChildren_eq]
    show (Report.map some (Report.map _ (drawnAll s.scene.canvas 1 2 [Element.named "g"]))).after [] = _
    rw [drawnAll, drawn_of_lt (by decide)]
    rfl
  have htold : ∀ call, told call = warningsOf (call.report s.scene).notes := fun call =>
    List.append_cancel_left ((hone call).1.symm.trans (s.warnings_afterCall call))
  refine ⟨s, hstart, ?_, ?_⟩
  · simp only [hanswers, List.map_cons, List.map_nil, answer_eq_report, hblink, hnested]
  · simp only [hwarnings, List.flatMap_cons, List.flatMap_nil, htold, hblink, hnested]
    rfl

end Session

end SvgPlot
