import SvgPlot.Proofs.ContentForm
import SvgPlot.Proofs.SessionCalls

/-!
# References that are kept

A compilation notes every reference that it leaves as it was written. Normal content leaves none for lack of its end
(`PlainText.unterminated_notMem_kept`), so no note of the kind comes from a tree that was read: not from opening an
element (`closedNotes_openElement`), not from a run, whether or not it is stopped (`closedNotes_drawn`), and not from
any calls of a session (`Session.closedNotes_after`).
-/

namespace SvgPlot

open Markup (Element NormalContent PlainText)

/-- No note tells of a reference without its end. -/
def ClosedNotes (notes : List Note) : Prop := ∀ written, Note.kept (.unterminated written) ∉ notes

theorem closedNotes_append {as bs : List Note} : ClosedNotes (as ++ bs) ↔ ClosedNotes as ∧ ClosedNotes bs := by
  simp only [ClosedNotes, List.mem_append, not_or, forall_and]

/-! ## Opening elements -/

theorem closedNotes_kept {content : List Markup.Content} (h : NormalContent content) :
    ClosedNotes ((PlainText.of content).kept.map Note.kept) := by
  intro written hmem
  obtain ⟨reference, hreference, heq⟩ := List.mem_map.1 hmem
  obtain rfl := Note.kept.inj heq
  exact PlainText.unterminated_notMem_kept h written hreference

theorem closedNotes_styleNotes {e : Element} (h : e.IsNormal) : ClosedNotes (styleNotes e) :=
  closedNotes_append.2 ⟨closedNotes_kept (Element.isNormal_iff.1 h).1, by simp [ClosedNotes]⟩

theorem closedNotes_pendingStyleNotes {pending : List Element} (h : ∀ e ∈ pending, e.IsNormal) :
    ClosedNotes (pendingStyleNotes pending) := by
  fun_induction pendingStyleNotes pending with
  | case1 => exact fun _ => List.not_mem_nil
  | case2 e pending hstyle ih =>
    obtain ⟨hfirst, hrest⟩ := List.forall_mem_cons.1 h
    exact closedNotes_append.2 ⟨closedNotes_styleNotes hfirst, ih hrest⟩
  | case3 e pending hstyle ih =>
    obtain ⟨hfirst, hrest⟩ := List.forall_mem_cons.1 h
    exact ih (List.forall_mem_append.2 ⟨(Element.isNormal_iff.1 hfirst).2, hrest⟩)

theorem closedNotes_openElement (canvas : Canvas) {e : Element} (h : e.IsNormal) :
    ClosedNotes (openElement canvas e).notes := by
  obtain ⟨hcontent, hchildren⟩ := Element.isNormal_iff.1 h
  rw [openElement]
  cases Role.ofName e.name with
  | style => exact closedNotes_styleNotes h
  | metadata => simp [ClosedNotes]
  | definitions => exact closedNotes_pendingStyleNotes hchildren
  | unknown => simp [ClosedNotes]
  | drawn shape =>
    simp only [openShape]
    cases shape.markOf canvas e with
    | error warning => simp [ClosedNotes]
    | ok mark =>
      cases hpayload : shape.rule.payload with
      | content => exact closedNotes_kept hcontent
      | _ => simp [ClosedNotes, readPayload]

/-! ## Runs -/

section

variable {α β : Type}

theorem closedNotes_andThen {r : Report α} {next : α → Report β} (h : ClosedNotes r.notes)
    (hnext : ∀ a, ClosedNotes (next a).notes) : ClosedNotes (r.andThen next).notes := by
  cases hresult : r.result with
  | error error =>
    simp only [Report.andThen, hresult]
    exact h
  | ok a =>
    rw [Report.notes_andThen hresult]
    exact closedNotes_append.2 ⟨h, hnext a⟩

end

section

variable (canvas : Canvas) (limit : Nat)

mutual

/-- A run through a tree, at whatever depth it begins and wherever it is stopped. -/
theorem closedNotes_drawn : ∀ (e : Element) (depth : Nat), e.IsNormal →
    ClosedNotes (drawn canvas limit depth e).notes
  | ⟨name, attributes, content, children⟩, depth, h => by
    rcases Nat.lt_or_ge limit depth with hdeep | hdepth
    · rw [drawn_of_lt hdeep]
      exact fun _ => List.not_mem_nil
    · have hopened := closedNotes_openElement canvas h
      cases hmark : (openElement canvas ⟨name, attributes, content, children⟩).mark with
      | none =>
        rw [drawn_of_none hdepth hmark]
        exact hopened
      | some mark =>
        rw [drawn_of_some hdepth hmark]
        exact closedNotes_append.2 ⟨hopened, closedNotes_drawnAll children (depth + 1) (Element.isNormal_iff.1 h).2⟩

theorem closedNotes_drawnAll : ∀ (es : List Element) (depth : Nat), (∀ e ∈ es, e.IsNormal) →
    ClosedNotes (drawnAll canvas limit depth es).notes
  | [], depth, _ => fun _ => List.not_mem_nil
  | e :: rest, depth, h => by
    obtain ⟨hfirst, hrest⟩ := List.forall_mem_cons.1 h
    rw [drawnAll]
    exact closedNotes_andThen (closedNotes_drawn e depth hfirst) fun _ => closedNotes_drawnAll rest depth hrest

end

theorem closedNotes_runChildren {e : Element} (h : e.IsNormal) (mark : Mark) :
    ClosedNotes (runChildren canvas limit e mark).notes := by
  rw [runChildren_eq]
  exact closedNotes_drawnAll canvas limit e.children 2 (Element.isNormal_iff.1 h).2

end

/-! ## Sessions -/

namespace Session

variable {σ : Type} [StyleSink σ]

theorem closedNotes_afterCall {s : Session σ} {call : Call} (hs : ClosedNotes s.notes)
    (hroot : s.scene.root.IsNormal) (hcall : ∀ e, call = .element e → e.IsNormal) :
    ClosedNotes (s.afterCall call).notes := by
  cases call with
  | document =>
    have hrun := closedNotes_runChildren s.scene.canvas s.scene.settings.maxDepth hroot containerMark
    have hboth := closedNotes_append.2 ⟨hs, hrun⟩
    simp only [afterCall, compile, convert]
    cases (runChildren s.scene.canvas s.scene.settings.maxDepth s.scene.root containerMark).result with
    | error error => exact hboth
    | ok mark => exact closedNotes_append.2 ⟨hboth, by simp [ClosedNotes]⟩
  | element e =>
    have hopened := closedNotes_append.2 ⟨hs, closedNotes_openElement s.scene.canvas (hcall e rfl)⟩
    simp only [afterCall, compileElement]
    cases (openElement s.scene.canvas e).mark with
    | none => exact hopened
    | some mark =>
      exact closedNotes_append.2
        ⟨hopened, closedNotes_runChildren s.scene.canvas s.scene.settings.maxDepth (hcall e rfl) mark⟩

/-- Calls in a row on a tree with normal content, each for the whole of it or for an element with normal content. -/
theorem closedNotes_calls {calls : List Call} : ∀ {s : Session σ}, ClosedNotes s.notes → s.scene.root.IsNormal →
    (∀ e, .element e ∈ calls → e.IsNormal) → ClosedNotes (s.after calls).notes := by
  induction calls with
  | nil => exact fun hs _ _ => hs
  | cons call rest ih =>
    intro s hs hroot hcalls
    have hcall (e : Element) (he : call = .element e) : e.IsNormal := hcalls e (he ▸ List.mem_cons_self)
    have hsame : (s.afterCall call).scene.root.IsNormal := by
      rw [scene_afterCall]
      exact hroot
    exact ih (closedNotes_afterCall hs hroot hcall) hsame fun e he => hcalls e (List.mem_cons_of_mem call he)

/-- However a document is compiled, in whole or by elements of its tree, and even if that is stopped, no reference is
kept for lack of its end. -/
theorem closedNotes_after {markup : String} {page : Page} {settings : Settings} {sink : σ} {s : Session σ}
    (h : start markup page settings sink = .ok s) {calls : List Call}
    (hcalls : ∀ e, .element e ∈ calls → e ∈ s.scene.root.preorder) : ClosedNotes (s.after calls).notes := by
  have hroot : s.scene.root.IsNormal := Element.isNormal_of_read (read_of_start h)
  have hbegun : ClosedNotes s.notes := by
    obtain ⟨root, -, -, rfl⟩ := start_eq_ok_iff.1 h
    simp [ClosedNotes, ofRoot, Scene.ofRoot]
  exact closedNotes_calls hbegun hroot fun e he => hroot.of_mem_preorder (hcalls e he)

end Session

end SvgPlot
