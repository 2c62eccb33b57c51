import SvgPlot.Proofs.SessionHistory

/-!
# Style sinks

A session answers and warns alike whatever sink it was given, and the sink takes one style block after the other, those
that a style sheet would hold in the end.

* `Session.outcome` is what comes of a session. `outcome_eq` reduces it to that of a session with an empty style sheet.
* `Run.handOver` lets a run give every block to the sink as soon as its element is opened. A session records the notes
  of a call when the call is over; `Call.handOver_eq` says that its sink cannot tell, whether or not the call fails.
-/

namespace SvgPlot

open Markup (Element)

/-! ## What the sinks at hand keep -/

theorem foldl_add_list (blocks held : List String) : blocks.foldl StyleSink.add held = held ++ blocks := by
  induction blocks generalizing held with
  | nil => exact (List.append_nil held).symm
  | cons block rest ih =>
    rw [List.foldl_cons, ih]
    exact List.append_assoc held [block] rest

theorem StyleSheet.foldl_add (blocks : Array String) (sheet : StyleSheet) :
    blocks.toList.foldl StyleSink.add sheet = ⟨sheet.blocks ++ blocks⟩ := by
  have hblocks := toList_blocks_foldl_add blocks.toList sheet
  rw [← Array.toList_append] at hblocks
  exact congrArg StyleSheet.mk (Array.toList_inj.1 hblocks)

theorem Borrowed.foldl_add {σ : Type} [StyleSink σ] (blocks : List String) (target : σ) :
    blocks.foldl StyleSink.add (⟨target⟩ : Borrowed σ) = ⟨blocks.foldl StyleSink.add target⟩ := by
  induction blocks generalizing target with
  | nil => rfl
  | cons block rest ih => exact ih (StyleSink.add target block)

/-! ## Blocks that are handed over at once -/

/-- The notes that a run makes with its next step. -/
def Run.nextNotes (canvas : Canvas) (r : Run) : List Note :=
  match r.top.waiting with
  | [] => []
  | e :: _ => (openElement canvas e).notes

theorem Run.notes_of_goesOn {canvas : Canvas} {limit : Nat} {r next : Run} (h : r.step canvas limit = .goesOn next) :
    next.notes = (r.nextNotes canvas).reverse ++ r.notes := by
  rcases cases_of_goesOn h with ⟨outer, hwaiting, -, -, hnotes⟩ | ⟨e, rest, hwaiting, -, hnotes, -⟩
  · rw [hnotes, nextNotes, hwaiting]
    rfl
  · rw [hnotes, nextNotes, hwaiting]

section

variable {σ : Type} [StyleSink σ]

/-- The sink after a run that hands over the blocks of an element when it opens the element. -/
def Run.handOver (canvas : Canvas) (limit : Nat) (sink : σ) (r : Run) : σ :=
  match _h : r.step canvas limit with
  | .ends _ => sink
  | .goesOn next => next.handOver canvas limit ((stylesOf (r.nextNotes canvas)).foldl StyleSink.add sink)
termination_by r.work
decreasing_by exact work_lt_of_step _h

/-- A run has handed over the blocks among the notes it has made since. -/
theorem Run.exists_notes_complete (canvas : Canvas) (limit : Nat) (r : Run) :
    ∃ later, (r.complete canvas limit).notes = r.notes.reverse ++ later ∧
      ∀ sink : σ, r.handOver canvas limit sink = (stylesOf later).foldl StyleSink.add sink := by
  fun_induction Run.complete canvas limit r with
  | case1 r result h =>
    refine ⟨[], (List.append_nil _).symm, ?_⟩
    intro sink
    rw [handOver]
    split
    · rfl
    · rename_i next hnext
      rw [h] at hnext
      cases hnext
  | case2 r next h ih =>
    obtain ⟨later, hnotes, hsink⟩ := ih
    refine ⟨r.nextNotes canvas ++ later, ?_, ?_⟩
    · rw [hnotes, notes_of_goesOn h, List.reverse_append, List.reverse_reverse, List.append_assoc]
    · intro sink
      rw [handOver, stylesOf_append, List.foldl_append, ← hsink]
      split
      · rename_i hends
        rw [h] at hends
        cases hends
      · rename_i other hother
        obtain rfl := Turn.goesOn.inj (h.symm.trans hother)
        rfl

theorem Run.handOver_start (canvas : Canvas) (limit : Nat) (e : Element) (mark : Mark) (sink : σ) :
    (Run.start mark e.children).handOver canvas limit sink =
      (stylesOf (runChildren canvas limit e mark).notes).foldl StyleSink.add sink := by
  obtain ⟨later, hnotes, hsink⟩ := Run.exists_notes_complete (σ := σ) canvas limit (Run.start mark e.children)
  rw [runChildren, hnotes, hsink]
  rfl

namespace Session

/-- The sink after a call that hands over every block at once. -/
def Call.handOver (scene : Scene) (sink : σ) : Call → σ
  | .document =>
    (Run.start containerMark scene.root.children).handOver scene.canvas scene.settings.maxDepth sink
  | .element e =>
    let sink := (stylesOf (openElement scene.canvas e).notes).foldl StyleSink.add sink
    match (openElement scene.canvas e).mark with
    | none => sink
    | some mark => (Run.start mark e.children).handOver scene.canvas scene.settings.maxDepth sink

theorem Call.handOver_eq (scene : Scene) (sink : σ) (call : Call) :
    call.handOver scene sink = (stylesOf (call.report scene).notes).foldl StyleSink.add sink := by
  cases call with
  | document => exact Run.handOver_start ..
  | element e =>
    rw [handOver, report]
    cases (openElement scene.canvas e).mark with
    | none => rfl
    | some mark =>
      show (Run.start mark e.children).handOver scene.canvas scene.settings.maxDepth _ =
        (stylesOf ((openElement scene.canvas e).notes ++
          (runChildren scene.canvas scene.settings.maxDepth e mark).notes)).foldl StyleSink.add sink
      rw [Run.handOver_start, stylesOf_append, List.foldl_append]

theorem sink_after_eq_handOver (s : Session σ) (calls : List Call) :
    (s.after calls).sink = calls.foldl (Call.handOver s.scene) s.sink := by
  rw [sink_after, List.foldl_flatMap]
  congr 1
  funext sink call
  exact (call.handOver_eq s.scene sink).symm

/-! ## Sessions with any sink -/

/-- What a session has come to after some calls. -/
structure Outcome (σ : Type) where
  answers : List (Except TooDeep (Option Mark))
  warnings : List Warning
  sink : σ

/-- What comes of a session that is started and then asked, or why it cannot be started. -/
def outcome (markup : String) (page : Page) (settings : Settings) (sink : σ) (calls : List Call) :
    Except Error (Outcome σ) :=
  (start markup page settings sink).map fun s => ⟨s.answers calls, (s.after calls).warnings, (s.after calls).sink⟩

/-- The outcome with any sink is that with an empty style sheet but for the sink: it takes the blocks of the sheet. -/
theorem outcome_eq (markup : String) (page : Page) (settings : Settings) (sink : σ) (calls : List Call) :
    outcome markup page settings sink calls =
      (outcome markup page settings StyleSheet.empty calls).map fun o =>
        ⟨o.answers, o.warnings, o.sink.blocks.toList.foldl StyleSink.add sink⟩ := by
  rw [outcome, outcome, start, start]
  cases Scene.of markup page settings with
  | error error => rfl
  | ok found =>
    obtain ⟨scene, notes⟩ := found
    simp only [Except.map, answers_eq_map, warnings_after, sink_after, StyleSheet.toList_blocks_foldl_add]
    rfl

end Session

end

namespace Session

/-- The sink plays no part in what a session answers or warns about, or in whether it can be started. It takes the
blocks that an empty style sheet would hold in the end, one by one and in that order, each of them as soon as its
element is opened; so lists, style sheets and borrowed style sheets hold these blocks after those they held before. -/
theorem outcome_eq_of_sink (markup : String) (page : Page) (settings : Settings) (calls : List Call) :
    (∀ (σ : Type) [StyleSink σ] (sink : σ),
      outcome markup page settings sink calls =
        (outcome markup page settings StyleSheet.empty calls).map (fun o =>
          ⟨o.answers, o.warnings, o.sink.blocks.toList.foldl StyleSink.add sink⟩) ∧
      (start markup page settings sink).map (fun s => (s.after calls).sink) =
        (start markup page settings sink).map fun s => calls.foldl (Call.handOver s.scene) sink) ∧
    (∀ held : List String,
      outcome markup page settings held calls =
        (outcome markup page settings StyleSheet.empty calls).map fun o =>
          ⟨o.answers, o.warnings, held ++ o.sink.blocks.toList⟩) ∧
    ∀ held : StyleSheet,
      outcome markup page settings held calls =
        (outcome markup page settings StyleSheet.empty calls).map (fun o =>
          ⟨o.answers, o.warnings, ⟨held.blocks ++ o.sink.blocks⟩⟩) ∧
      outcome markup page settings (Borrowed.mk held) calls =
        (outcome markup page settings StyleSheet.empty calls).map fun o =>
          ⟨o.answers, o.warnings, ⟨⟨held.blocks ++ o.sink.blocks⟩⟩⟩ := by
  refine ⟨?_, ?_, ?_⟩
  · intro σ _ sink
    refine ⟨outcome_eq .., ?_⟩
    cases hstart : start markup page settings sink with
    | error error => rfl
    | ok s =>
      obtain ⟨root, -, -, rfl⟩ := start_eq_ok_iff.1 hstart
      exact congrArg Except.ok (sink_after_eq_handOver _ calls)
  · intro held
    rw [outcome_eq]
    simp only [foldl_add_list]
  · intro held
    rw [outcome_eq, outcome_eq _ _ _ (Borrowed.mk held)]
    simp only [Borrowed.foldl_add, StyleSheet.foldl_add, and_self]

end Session

end SvgPlot
