import SvgPlot.Compile.Recursion
import SvgPlot.Session

/-!
# Compiling in document order

What compiling an element comes to, said once more without notes and frames: the marks or the failure, the warnings and
the style blocks, each by recursion on the elements in document order.

* `outline` is that recursion, one case for each role of an element.
* `stylesIn` looks for styles in definitions; `stylesOf_pendingStyleNotes` ties it to the list of pending elements.
* `account_drawn` says that notes, read as warnings and style blocks, come to the outline.
* At the end this is carried over to a session, whatever was recorded in it before.
-/

namespace SvgPlot

open Markup (Element PlainText)

/-- What came of a compilation, with its warnings and style blocks in order. -/
structure Account (α : Type) where
  result : Except TooDeep α
  warnings : List Warning
  styles : List String

namespace Account

variable {α β : Type}

def map (f : α → β) (a : Account α) : Account β := ⟨a.result.map f, a.warnings, a.styles⟩

/-- One after the other; a failure is the end. -/
def andThen (a : Account α) (next : α → Account β) : Account β :=
  match a.result with
  | .ok x => ⟨(next x).result, a.warnings ++ (next x).warnings, a.styles ++ (next x).styles⟩
  | .error error => ⟨.error error, a.warnings, a.styles⟩

end Account

/-- The block of a style element. -/
def styleText (e : Element) : String := (PlainText.of e.content).toString

mutual

/-- The blocks of the styles in an element, which may be a style itself; nothing is looked for inside a style. -/
def stylesIn : Element → List String
  | ⟨name, attributes, content, children⟩ =>
    if name = styleName then [styleText ⟨name, attributes, content, children⟩] else stylesInAll children

def stylesInAll : List Element → List String
  | [] => []
  | e :: rest => stylesIn e ++ stylesInAll rest

end

mutual

/-- What an element at some depth comes to. -/
def outline (canvas : Canvas) (limit depth : Nat) : Element → Account (Option Mark)
  | ⟨name, attributes, content, children⟩ =>
    let e : Element := ⟨name, attributes, content, children⟩
    if limit < depth then ⟨.error ⟨limit⟩, [], []⟩
    else
      match Role.ofName name with
      | .style => ⟨.ok none, [], [styleText e]⟩
      | .metadata => ⟨.ok none, [], []⟩
      | .definitions => ⟨.ok none, [], stylesInAll children⟩
      | .unknown => ⟨.ok none, [.unknownElement name], []⟩
      | .drawn shape =>
        match shape.markOf canvas e with
        | .error warning => ⟨.ok none, [warning], []⟩
        | .ok mark =>
          (outlineAll canvas limit (depth + 1) children).map fun marks => some { mark with children := marks }

/-- What elements come to that are all at one depth: their marks in order. -/
def outlineAll (canvas : Canvas) (limit depth : Nat) : List Element → Account (List Mark)
  | [] => ⟨.ok [], [], []⟩
  | e :: rest =>
    (outline canvas limit depth e).andThen fun mark =>
      (outlineAll canvas limit depth rest).map fun marks => mark.toList ++ marks

end

/-! ## Notes as warnings and style blocks -/

@[simp] theorem warningsOf_append (as bs : List Note) : warningsOf (as ++ bs) = warningsOf as ++ warningsOf bs :=
  List.filterMap_append ..

@[simp] theorem stylesOf_append (as bs : List Note) : stylesOf (as ++ bs) = stylesOf as ++ stylesOf bs :=
  List.filterMap_append ..

@[simp] theorem warningsOf_kept (kept : List Markup.KeptReference) : warningsOf (kept.map Note.kept) = [] := by
  simp [warningsOf, Note.warning?]

@[simp] theorem stylesOf_kept (kept : List Markup.KeptReference) : stylesOf (kept.map Note.kept) = [] := by
  simp [stylesOf, Note.style?]

@[simp] theorem warningsOf_styleNotes (e : Element) : warningsOf (styleNotes e) = [] := by
  rw [styleNotes, warningsOf_append, warningsOf_kept]
  rfl

@[simp] theorem stylesOf_styleNotes (e : Element) : stylesOf (styleNotes e) = [styleText e] := by
  rw [styleNotes, stylesOf_append, stylesOf_kept]
  rfl

theorem warningsOf_pendingStyleNotes (pending : List Element) : warningsOf (pendingStyleNotes pending) = [] := by
  fun_induction pendingStyleNotes pending with
  | case1 => rfl
  | case2 e pending hstyle ih => rw [warningsOf_append, warningsOf_styleNotes, ih, List.nil_append]
  | case3 e pending hstyle ih => exact ih

theorem stylesInAll_append (es rest : List Element) :
    stylesInAll (es ++ rest) = stylesInAll es ++ stylesInAll rest := by
  induction es with
  | nil => simp only [List.nil_append, stylesInAll]
  | cons e es ih => simp only [List.cons_append, stylesInAll, ih, List.append_assoc]

theorem stylesIn_eq (e : Element) :
    stylesIn e = if e.name = styleName then [styleText e] else stylesInAll e.children := by
  obtain ⟨name, attributes, content, children⟩ := e
  rw [stylesIn]

/-- The elements that are pending are searched in document order. -/
theorem stylesOf_pendingStyleNotes (pending : List Element) :
    stylesOf (pendingStyleNotes pending) = stylesInAll pending := by
  fun_induction pendingStyleNotes pending with
  | case1 => rfl
  | case2 e pending hstyle ih =>
    rw [stylesOf_append, stylesOf_styleNotes, ih, stylesInAll, stylesIn_eq, if_pos hstyle]
  | case3 e pending hstyle ih => rw [ih, stylesInAll_append, stylesInAll, stylesIn_eq, if_neg hstyle]

/-! ## Reports as accounts -/

/-- A report with its notes read as warnings and style blocks. -/
def Report.account {α : Type} (r : Report α) : Account α := ⟨r.result, warningsOf r.notes, stylesOf r.notes⟩

section

variable {α β : Type}

theorem Report.account_map (f : α → β) (r : Report α) : (r.map f).account = r.account.map f := rfl

theorem Report.account_andThen (r : Report α) (next : α → Report β) :
    (r.andThen next).account = r.account.andThen fun a => (next a).account := by
  rcases r with ⟨notes, error | a⟩
  · rfl
  · simp only [andThen_ok, account, after, Account.andThen, warningsOf_append, stylesOf_append]

end

/-- An element comes to a mark if it has all that its shape requires and all its numbers can be read. -/
theorem markOf_eq_ok_iff {canvas : Canvas} {shape : Shape} {e : Element} {mark : Mark} :
    shape.markOf canvas e = .ok mark ↔
      shape.rule.missing e.attributes.contains = [] ∧
        ∃ numbers, readMeasures canvas e shape.rule.measures = .ok numbers ∧
          mark = ⟨shape, numbers, (readPayload e shape.rule.payload).1, []⟩ := by
  unfold Shape.markOf
  cases shape.rule.missing e.attributes.contains with
  | nil => simp [map_eq_ok_iff]
  | cons key keys => simp

/-- The mark that an element is opened with has no children yet. -/
theorem children_of_markOf {canvas : Canvas} {shape : Shape} {e : Element} {mark : Mark}
    (h : shape.markOf canvas e = .ok mark) : mark.children = [] := by
  obtain ⟨-, numbers, -, rfl⟩ := markOf_eq_ok_iff.1 h
  rfl

section

variable (canvas : Canvas) (limit : Nat)

mutual

/-- Reading the notes of the recursion gives the outline of an element. -/
theorem account_drawn : ∀ (e : Element) (depth : Nat),
    (drawn canvas limit depth e).account = outline canvas limit depth e
  | ⟨name, attributes, content, children⟩, depth => by
    rw [drawn, outline]
    split
    · rfl
    · have hinner := account_drawnAll children (depth + 1)
      simp only [openElement]
      cases Role.ofName name with
      | style => simp only [Report.account, warningsOf_styleNotes, stylesOf_styleNotes]
      | metadata => rfl
      | definitions => simp only [Report.account, warningsOf_pendingStyleNotes, stylesOf_pendingStyleNotes]
      | unknown => rfl
      | drawn shape =>
        simp only [openShape]
        cases hmark : shape.markOf canvas ⟨name, attributes, content, children⟩ with
        | error warning => rfl
        | ok mark =>
          rw [← hinner]
          simp only [Report.account, Report.after, Report.map, Account.map, warningsOf_append, stylesOf_append,
            warningsOf_kept, stylesOf_kept, List.nil_append, children_of_markOf hmark]

theorem account_drawnAll : ∀ (es : List Element) (depth : Nat),
    (drawnAll canvas limit depth es).account = outlineAll canvas limit depth es
  | [], depth => rfl
  | e :: rest, depth => by
    rw [drawnAll, outlineAll, Report.account_andThen, account_drawn e depth]
    simp only [Report.account_map, account_drawnAll rest depth]

end

end

/-! ## Sessions -/

namespace Session

variable {σ : Type} [StyleSink σ]

@[simp] theorem warnings_record (s : Session σ) (notes : List Note) :
    (s.record notes).warnings = s.warnings ++ warningsOf notes := warningsOf_append ..

/-- Completing a mark comes to the outline of the children, which are at depth 2: the marks of the outline come after
the children that the mark has, or the run fails as the outline does, and in both cases its warnings and style blocks
are recorded after all that were recorded before. -/
theorem convert_eq_outline (s : Session σ) (e : Element) (mark : Mark) :
    let told := outlineAll s.scene.canvas s.scene.settings.maxDepth 2 e.children
    (s.convert e mark).2 = told.result.map (fun marks => { mark with children := mark.children ++ marks }) ∧
      (s.convert e mark).1.warnings = s.warnings ++ told.warnings ∧
      (s.convert e mark).1.sink = told.styles.foldl StyleSink.add s.sink ∧
      (s.convert e mark).1.scene = s.scene := by
  have haccount := account_drawnAll s.scene.canvas s.scene.settings.maxDepth e.children 2
  simp only [convert, runChildren_eq, ← haccount]
  exact ⟨rfl, warnings_record .., rfl, rfl⟩

end Session

end SvgPlot
