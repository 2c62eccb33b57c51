import SvgPlot.Plot
import SvgPlot.Proofs.SessionCalls
import SvgPlot.Proofs.TokenTree

/-!
# The depth limit

A text is read with a limit for the depth of its elements, and its tree is compiled with the same limit. Both count from
the root at depth 1.

* `Growth.height_of_grow` says that a tree is as high as the deepest tag it was read from lies deep, so that a tree that
  was read is within the limit (`Element.height_le_of_read`).
* `result_drawn_isOk` says that compiling an element within the limit does not fail, `drawn_within` that neither the limit
  nor the depth at which it begins plays a part in what it comes to.
* A session keeps its tree and its limit whatever is asked of it (`Session.scene_after`), so that a session that could
  be started compiles its document.
-/

namespace SvgPlot

namespace Markup

namespace OpenElement

theorem height_close (e : OpenElement) : e.close.height = 1 + Element.heights e.children.reverse := rfl

/-- The height of an element with one more child. -/
theorem height_close_addChild (e : OpenElement) (child : Element) :
    (e.addChild child).close.height = max e.close.height (1 + child.height) := by
  rw [height_close, height_close, addChild, List.reverse_cons, Element.heights_append, Element.heights, Element.heights]
  omega

theorem height_close_addContents (e : OpenElement) (content : List Content) :
    (e.addContents content).close.height = e.close.height := by
  rw [height_close, height_close, children_addContents]

end OpenElement

namespace Growth

/-- No element among the open ones, their children and the root lies deeper than this. -/
def Fits (depth : Nat) : List OpenElement → Option Element → Prop
  | [], root => ∀ e ∈ root, e.height ≤ depth
  | top :: below, root => below.length + top.close.height ≤ depth ∧ Fits depth below root

section

variable {limit : Nat} {stack : List OpenElement} {root : Option Element} {rest : List Token} {t : Element}

theorem fits_begun {depth : Nat} {tag : Tag} {attributes : Dictionary} :
    Fits depth (.begun tag attributes :: stack) root ↔ stack.length + 1 ≤ depth ∧ Fits depth stack root := Iff.rfl

theorem fits_addContents {depth : Nat} {content : List Content} :
    Fits depth (stack.modifyHead (·.addContents content)) root ↔ Fits depth stack root := by
  cases stack with
  | nil => rfl
  | cons top below => simp only [List.modifyHead_cons, Fits, OpenElement.height_close_addContents]

/-- A complete element is attached under all that are open. -/
theorem exists_of_growAttached {e : Element} (h : growAttached limit stack root e rest = .ok t) :
    ∃ stack' root', stack'.length = stack.length ∧ (of stack' root').grow limit rest = .ok t ∧
      ∀ depth, Fits depth stack' root' ↔ stack.length + e.height ≤ depth ∧ Fits depth stack root := by
  cases stack with
  | cons top below =>
    refine ⟨top.addChild e :: below, root, rfl, h, fun depth => ?_⟩
    have hheight : below.length + (top.addChild e).close.height ≤ depth ↔
        below.length + 1 + e.height ≤ depth ∧ below.length + top.close.height ≤ depth := by
      rw [OpenElement.height_close_addChild]
      omega
    rw [Fits, Fits, hheight, List.length_cons, and_assoc]
  | nil =>
    cases root with
    | some e' => cases h
    | none => exact ⟨[], some e, rfl, h, fun depth => by simp [Fits]⟩

/-- No tag that was taken in is deeper than the limit, and how high the tree is can be told from the tags that are left
and the elements there are already. -/
theorem height_of_grow : ∀ (tokens : List Token) {stack : List OpenElement} {root : Option Element},
    (of stack root).grow limit tokens = .ok t →
      (∀ d ∈ depthsFrom stack.length tokens, d ≤ limit) ∧
        ∀ depth, t.height ≤ depth ↔ (∀ d ∈ depthsFrom stack.length tokens, d ≤ depth) ∧ Fits depth stack root
  | [], stack, root, h => by
    obtain ⟨rfl, rfl⟩ := grow_nil_eq_ok_iff.1 h
    simp [depthsFrom, Fits]
  | token :: rest, stack, root, h => by
    rcases token.cases_tag with ⟨tag, rfl⟩ | ⟨tag, rfl⟩ | ⟨name, rfl⟩ | hinner
    · obtain ⟨hlt, -, attributes, -, hgrow⟩ := grow_opening_eq_ok_iff.1 h
      obtain ⟨hdepths, hheight⟩ := height_of_grow rest hgrow
      rw [depthsFrom_of_tag rfl]
      refine ⟨List.forall_mem_cons.2 ⟨hlt, hdepths⟩, fun depth => ?_⟩
      rw [hheight, fits_begun, List.forall_mem_cons, and_left_comm, and_assoc]
      rfl
    · -- the element is attached at once, and it is as deep as its tag
      obtain ⟨hlt, attributes, -, hattached⟩ := grow_empty_eq_ok_iff.1 h
      obtain ⟨stack', root', hlength, hgrow, hfits⟩ := exists_of_growAttached hattached
      obtain ⟨hdepths, hheight⟩ := height_of_grow rest hgrow
      rw [hlength] at hdepths hheight
      rw [depthsFrom_of_tag rfl]
      refine ⟨List.forall_mem_cons.2 ⟨hlt, hdepths⟩, fun depth => ?_⟩
      rw [hheight, hfits, List.forall_mem_cons, and_left_comm, and_assoc]
      rfl
    · -- what the innermost element has held counts for the one around it
      obtain ⟨next, hstep, -⟩ := grow_cons_eq_ok_iff.1 h
      obtain ⟨top, below, rfl, -⟩ := step_closing_eq_ok_iff.1 hstep
      obtain ⟨stack', root', hlength, hgrow, hfits⟩ := exists_of_growAttached (grow_closing_cons.1 h)
      obtain ⟨hdepths, hheight⟩ := height_of_grow rest hgrow
      rw [hlength] at hdepths hheight
      refine ⟨hdepths, fun depth => ?_⟩
      rw [hheight, hfits]
      rfl
    · rw [grow_of_isInner hinner] at h
      obtain ⟨hdepths, hheight⟩ := height_of_grow rest h
      rw [List.length_modifyHead] at hdepths hheight
      rw [depthsFrom_of_isInner hinner]
      refine ⟨hdepths, fun depth => ?_⟩
      rw [hheight, fits_addContents]

end

end Growth

/-- A tree that was read is not higher than the reader had room for. -/
theorem Element.height_le_of_read {limit : Nat} {markup : String} {t : Element}
    (h : Element.read limit markup = .ok t) : t.height ≤ limit := by
  obtain ⟨-, htokens⟩ := read_eq_ok_iff.1 h
  obtain ⟨hdepths, hheight⟩ := Growth.height_of_grow _ htokens
  exact (hheight limit).2 ⟨hdepths, fun e he => by cases he⟩

end Markup

open Markup

/-! ## Compiling within the limit -/

section

variable (canvas : Canvas) {limit : Nat}

mutual

/-- An element fails to compile only if something in it lies below the limit. -/
theorem result_drawn_isOk : ∀ (e : Element) (depth : Nat), depth + e.height ≤ limit + 1 →
    ∃ mark, (drawn canvas limit depth e).result = .ok mark
  | ⟨name, attributes, content, children⟩, depth, h => by
    rw [Element.height] at h
    have hdepth : depth ≤ limit := by omega
    cases hmark : (openElement canvas ⟨name, attributes, content, children⟩).mark with
    | none =>
      rw [drawn_of_none hdepth hmark]
      exact ⟨none, rfl⟩
    | some mark =>
      have hroom : depth + 1 + Element.heights children ≤ limit + 1 := by omega
      obtain ⟨marks, hmarks⟩ := result_drawnAll_isOk children (depth + 1) hroom
      rw [drawn_of_some hdepth hmark]
      simp only [Report.after, Report.map, hmarks]
      exact ⟨_, rfl⟩

theorem result_drawnAll_isOk : ∀ (es : List Element) (depth : Nat), depth + Element.heights es ≤ limit + 1 →
    ∃ marks, (drawnAll canvas limit depth es).result = .ok marks
  | [], depth, _ => ⟨[], rfl⟩
  | e :: rest, depth, h => by
    rw [Element.heights] at h
    obtain ⟨mark, hmark⟩ := result_drawn_isOk e depth (by omega)
    obtain ⟨marks, hmarks⟩ := result_drawnAll_isOk rest depth (by omega)
    refine ⟨mark.toList ++ marks, Report.result_andThen.2 ⟨mark, hmark, ?_⟩⟩
    simp only [Report.map, hmarks]
    rfl

end

variable {other : Nat}

mutual

/-- An element that lies within two limits comes to the same under both, wherever its depth is counted from. -/
theorem drawn_within : ∀ (e : Element) (depth depth' : Nat),
    depth + e.height ≤ limit + 1 → depth' + e.height ≤ other + 1 →
      drawn canvas limit depth e = drawn canvas other depth' e
  | ⟨name, attributes, content, children⟩, depth, depth', h, h' => by
    rw [Element.height] at h h'
    have hdepth : depth ≤ limit := by omega
    have hdepth' : depth' ≤ other := by omega
    cases hmark : (openElement canvas ⟨name, attributes, content, children⟩).mark with
    | none => rw [drawn_of_none hdepth hmark, drawn_of_none hdepth' hmark]
    | some mark =>
      have hchildren := drawnAll_within children (depth + 1) (depth' + 1) (by omega) (by omega)
      rw [drawn_of_some hdepth hmark, drawn_of_some hdepth' hmark, hchildren]

theorem drawnAll_within : ∀ (es : List Element) (depth depth' : Nat),
    depth + Element.heights es ≤ limit + 1 → depth' + Element.heights es ≤ other + 1 →
      drawnAll canvas limit depth es = drawnAll canvas other depth' es
  | [], depth, depth', _, _ => by rw [drawnAll, drawnAll]
  | e :: rest, depth, depth', h, h' => by
    rw [Element.heights] at h h'
    have hfirst := drawn_within e depth depth' (by omega) (by omega)
    have hrest := drawnAll_within rest depth depth' (by omega) (by omega)
    rw [drawnAll, drawnAll, hfirst, hrest]

end

end

/-! ## Sessions -/

namespace Session

section

variable {σ : Type} [StyleSink σ]

/-- Nothing in an element within the limit keeps its mark from being completed. -/
theorem convert_isOk (s : Session σ) {e : Element} (h : e.height ≤ s.scene.settings.maxDepth) (mark : Mark) :
    ∃ completed, (s.convert e mark).2 = .ok completed := by
  rw [Element.height_eq] at h
  have hroom : 2 + Element.heights e.children ≤ s.scene.settings.maxDepth + 1 := by omega
  obtain ⟨marks, hmarks⟩ := result_drawnAll_isOk s.scene.canvas e.children 2 hroom
  rw [result_convert, hmarks]
  exact ⟨_, rfl⟩

theorem compile_isOk (s : Session σ) (h : s.scene.root.height ≤ s.scene.settings.maxDepth) :
    ∃ mark, s.compile.2 = .ok mark := by
  rw [result_compile]
  exact s.convert_isOk h containerMark

end

/-- A session that could be started compiles its document, whatever was asked of it before. So a plot fails only where a
session cannot be started, and for the same reason. -/
theorem compile_after_start :
    (∀ (σ : Type) [StyleSink σ] (markup : String) (page : Page) (settings : Settings) (sink : σ) (s : Session σ),
      start markup page settings sink = .ok s →
        ∀ calls : List Call, ∃ mark, (s.after calls).compile.2 = .ok mark) ∧
      ∀ (c : Compiler) (markup : String) (error : Error),
        c.compile markup = .error error ↔ start markup c.page c.settings StyleSheet.empty = .error error := by
  have hcompiles : ∀ (σ : Type) [StyleSink σ] (markup : String) (page : Page) (settings : Settings) (sink : σ)
      (s : Session σ), start markup page settings sink = .ok s →
        ∀ calls : List Call, ∃ mark, (s.after calls).compile.2 = .ok mark := by
    intro σ _ markup page settings sink s hstart calls
    apply compile_isOk
    rw [scene_after]
    exact Element.height_le_of_read (read_of_start hstart)
  refine ⟨hcompiles, fun c markup error => ?_⟩
  rw [Compiler.compile, Compiler.compileLogged]
  cases hstart : start markup c.page c.settings StyleSheet.empty with
  | error reason => simp
  | ok s =>
    obtain ⟨mark, hmark⟩ := hcompiles _ _ _ _ _ s hstart []
    have hok : s.compile.2 = .ok mark := hmark
    simp [hok]

/-- A document as deep as the limit allows, of which an element and the whole have been compiled before. -/
theorem compile_after_start_deep :
    let settings : Settings := { maxDepth := 2 }
    ∃ s, start "<svg><g/></svg>" Page.letter settings StyleSheet.empty = .ok s ∧
      ∃ mark, (s.after [.element (Element.named "blink"), .document]).compile.2 = .ok mark := by
  intro settings
  have hnone (name : List Char) : (⟨name, []⟩ : Tag).readAttributes = .ok Dictionary.empty :=
    Tag.readAttributes_eq_ok_iff.2 ⟨[], [], splitAttributes_of_nil rfl, by decide, rfl, rfl⟩
  have hreading : Reading.of (withoutMark "<svg><g/></svg>".toList) =
      ⟨[.opening ⟨"svg".toList, []⟩, .empty ⟨['g'], []⟩, .closing "svg".toList], none⟩ := by
    show readTokens [] [] ('<' :: "svg><g/></svg>".toList) = _
    rw [@readTokens_of_next _ _ _ _ _ "<g/></svg>".toList (.opening ⟨"svg".toList, []⟩) rfl rfl]
    show readTokens _ _ ('<' :: "g/></svg>".toList) = _
    rw [@readTokens_of_next _ _ _ _ _ "</svg>".toList (.empty ⟨['g'], []⟩) rfl rfl]
    show readTokens _ _ ('<' :: "/svg>".toList) = _
    rw [@readTokens_of_next _ [] _ _ _ [] (.closing "svg".toList) rfl rfl, readTokens]
    rfl
  have hread : Element.read settings.maxDepth "<svg><g/></svg>" =
      .ok ⟨"svg", Dictionary.empty, [], [⟨"g", Dictionary.empty, [], []⟩]⟩ := by
    refine Element.read_eq_ok_iff.2 ⟨by rw [hreading], ?_⟩
    rw [hreading]
    refine Growth.grow_opening_eq_ok_iff.2 ⟨by decide, fun _ => rfl, _, hnone _, ?_⟩
    refine Growth.grow_empty_eq_ok_iff.2 ⟨by decide, _, hnone _, ?_⟩
    rw [Growth.growAttached_cons, Growth.grow_closing_cons, Growth.growAttached_nil, Growth.grow_nil_eq_ok_iff]
    exact ⟨rfl, rfl⟩
  have hstart : ∃ s, start "<svg><g/></svg>" Page.letter settings StyleSheet.empty = .ok s := by
    simp [start, Scene.of, hread, Scene.rootName, Except.map]
  obtain ⟨s, hs⟩ := hstart
  exact ⟨s, hs, compile_after_start.1 _ _ _ _ _ s hs _⟩

end Session

end SvgPlot
