import SvgPlot.Proofs.DepthLimit

/-!
# Another depth limit

A compilation that succeeds is done again with other settings. Of the settings only the depth limit counts, and it
counts in one way: an element below it ends the compilation at once.

* The reader goes on as before up to the first tag below the new limit (`Growth.run_of_run`), so a text that was read is
  read to the same tree or is too deep, and which of the two the height of its tree says (`Element.read_of_read`).
* A tree within two limits comes to the same under both (`drawn_within`).
* `Session.withSettings` puts other settings into a session. Starting and compiling commute with it.
-/

namespace SvgPlot

namespace Markup

namespace Growth

section

variable {limit other : Nat} {stack : List OpenElement} {root : Option Element} {token : Token} {next : Growth}

/-- Whatever else is wrong with a tag that lies below the limit, its depth is found first. -/
theorem step_of_tag_of_le {tag : Tag} (htag : token.tag? = some tag) (hdeep : other ≤ stack.length) :
    (of stack root).step other token = .error (.tooDeep other) := by
  have hdepth : other ≤ (of stack root).depth := hdeep
  rcases token.cases_tag with ⟨tag, rfl⟩ | ⟨tag, rfl⟩ | ⟨name, rfl⟩ | hinner
  · simp only [step, if_pos hdepth]
  · simp only [step, if_pos hdepth]
  · cases htag
  · cases token <;> first | exact hinner.elim | cases htag

/-- A step that was taken under one limit is taken under every limit that its tag lies within. -/
theorem step_of_step (hstep : (of stack root).step limit token = .ok next)
    (hroom : token.tag?.isSome = true → stack.length < other) : (of stack root).step other token = .ok next := by
  rcases token.cases_tag with ⟨tag, rfl⟩ | ⟨tag, rfl⟩ | ⟨name, rfl⟩ | hinner
  · obtain ⟨-, hnext⟩ := step_opening_eq_ok_iff.1 hstep
    exact step_opening_eq_ok_iff.2 ⟨hroom rfl, hnext⟩
  · obtain ⟨-, hnext⟩ := step_empty_eq_ok_iff.1 hstep
    exact step_empty_eq_ok_iff.2 ⟨hroom rfl, hnext⟩
  · exact step_closing_eq_ok_iff.2 (step_closing_eq_ok_iff.1 hstep)
  · rw [step_of_isInner hinner] at hstep ⊢
    exact hstep

/-- Tokens that were taken in under one limit are taken in the same way under another one, or the first of their
elements that lies below it is where they end. -/
theorem run_of_run (other : Nat) {tokens : List Token} :
    ∀ {g last : Growth}, g.run limit tokens = .ok last →
      g.run other tokens =
        if ∀ d ∈ depthsFrom g.stack.length tokens, d ≤ other then .ok last else .error (.tooDeep other) := by
  induction tokens with
  | nil =>
    intro g last h
    cases h
    simp [run, depthsFrom, pure, Except.pure]
  | cons token rest ih =>
    intro g last h
    simp only [run, List.foldlM_cons] at h ⊢
    obtain ⟨middle, hstep, hrun⟩ := bind_eq_ok_iff.1 h
    have hlevel : middle.stack.length = token.levelAfter g.stack.length := length_stack_of_step hstep
    by_cases hroom : token.tag?.isSome = true → g.stack.length < other
    · have hsame : g.step other token = .ok middle := by
        rw [g.eq_of] at hstep ⊢
        exact step_of_step hstep hroom
      have hdepths : (∀ d ∈ depthsFrom g.stack.length (token :: rest), d ≤ other) ↔
          ∀ d ∈ depthsFrom middle.stack.length rest, d ≤ other := by
        rw [depthsFrom, ← hlevel]
        cases htag : token.tag? with
        | none => simp
        | some tag =>
          have hlt : g.stack.length < other := hroom (by rw [htag]; rfl)
          simp only [Option.isSome_some, if_true, List.singleton_append, List.forall_mem_cons]
          exact and_iff_right hlt
      rw [hsame]
      simp only [hdepths]
      exact ih hrun
    · obtain ⟨htag, hdeep⟩ := Classical.not_imp.1 hroom
      obtain ⟨tag, htag⟩ := Option.isSome_iff_exists.1 htag
      have hend : g.step other token = .error (.tooDeep other) := by
        rw [g.eq_of]
        exact step_of_tag_of_le htag (Nat.le_of_not_lt hdeep)
      have hnot : ¬∀ d ∈ depthsFrom g.stack.length (token :: rest), d ≤ other := by
        rw [depthsFrom_of_tag htag, List.forall_mem_cons]
        exact fun hall => hdeep hall.1
      rw [hend, if_neg hnot]
      rfl

end

end Growth

/-- A text that was read under one limit is read to the same tree under every limit that the tree is within. Under every
other one it is too deep, whatever follows the first element that is. -/
theorem Element.read_of_read {limit : Nat} {markup : String} {t : Element}
    (h : Element.read limit markup = .ok t) (other : Nat) :
    Element.read other markup = if t.height ≤ other then .ok t else .error (.tooDeep other) := by
  obtain ⟨hstop, htokens⟩ := read_eq_ok_iff.1 h
  obtain ⟨-, hheight⟩ := Growth.height_of_grow _ htokens
  obtain ⟨g, hrun, hfinish⟩ := bind_eq_ok_iff.1 htokens
  have hfits : t.height ≤ other ↔
      ∀ d ∈ depthsFrom 0 (Reading.of (withoutMark markup.toList)).tokens, d ≤ other := by
    rw [hheight other]
    exact and_iff_left fun e he => by cases he
  have hother := Growth.run_of_run other hrun
  simp only [read, hstop, hfits]
  by_cases hroom : ∀ d ∈ depthsFrom 0 (Reading.of (withoutMark markup.toList)).tokens, d ≤ other
  · have hall : Growth.start.run other (Reading.of (withoutMark markup.toList)).tokens = .ok g :=
      hother.trans (if_pos hroom)
    rw [hall, if_pos hroom]
    exact hfinish
  · have hend : Growth.start.run other (Reading.of (withoutMark markup.toList)).tokens = .error (.tooDeep other) :=
      hother.trans (if_neg hroom)
    rw [hend, if_neg hroom]
    rfl

end Markup

open Markup

/-! ## Sessions and plots -/

namespace Session

section

variable {σ : Type}

/-- The session with other settings. -/
def withSettings (s : Session σ) (settings : Settings) : Session σ :=
  { s with scene := { s.scene with settings } }

/-- Whether a session can be started with other settings, too, is up to the height of its tree alone. -/
theorem start_of_start {markup : String} {page : Page} {settings : Settings} {sink : σ} {s : Session σ}
    (h : start markup page settings sink = .ok s) (other : Settings) :
    start markup page other sink =
      if s.scene.root.height ≤ other.maxDepth then .ok (s.withSettings other)
      else .error (.tooDeep other.maxDepth) := by
  obtain ⟨root, hread, hname, rfl⟩ := start_eq_ok_iff.1 h
  have hother := Element.read_of_read hread other.maxDepth
  show _ = if root.height ≤ other.maxDepth then _ else _
  by_cases hroom : root.height ≤ other.maxDepth
  · rw [if_pos hroom] at hother ⊢
    exact start_eq_ok_iff.2 ⟨root, hother, hname, rfl⟩
  · rw [if_neg hroom] at hother ⊢
    simp only [start, Scene.of, hother]
    rfl

variable [StyleSink σ]

theorem convert_withSettings (s : Session σ) (settings : Settings) {e : Element} (mark : Mark)
    (h : e.height ≤ s.scene.settings.maxDepth) (h' : e.height ≤ settings.maxDepth) :
    (s.withSettings settings).convert e mark = ((s.convert e mark).1.withSettings settings, (s.convert e mark).2) := by
  rw [Element.height_eq] at h h'
  have hroom : 2 + Element.heights e.children ≤ s.scene.settings.maxDepth + 1 := by omega
  have hroom' : 2 + Element.heights e.children ≤ settings.maxDepth + 1 := by omega
  have hreport : runChildren (s.withSettings settings).scene.canvas (s.withSettings settings).scene.settings.maxDepth
      e mark = runChildren s.scene.canvas s.scene.settings.maxDepth e mark := by
    rw [runChildren_eq, runChildren_eq, drawnAll_within s.scene.canvas e.children 2 2 hroom hroom']
    rfl
  rw [convert, convert, hreport]
  rfl

/-- A session whose tree is within both limits compiles it in the same way with other settings. -/
theorem compile_withSettings (s : Session σ) (settings : Settings)
    (h : s.scene.root.height ≤ s.scene.settings.maxDepth) (h' : s.scene.root.height ≤ settings.maxDepth) :
    (s.withSettings settings).compile = (s.compile.1.withSettings settings, s.compile.2) := by
  have hconvert : (s.withSettings settings).convert (s.withSettings settings).scene.root containerMark =
      ((s.convert s.scene.root containerMark).1.withSettings settings, (s.convert s.scene.root containerMark).2) :=
    s.convert_withSettings settings containerMark h h'
  rw [compile, compile, hconvert]
  rcases s.convert s.scene.root containerMark with ⟨next, error | mark⟩
  · rfl
  · rfl

end

end Session

namespace Compiler

/-- A plot is what a session that could be started comes to. -/
theorem compile_eq_ok_iff {c : Compiler} {markup : String} {plot : Plot} :
    c.compile markup = .ok plot ↔
      ∃ s mark, Session.start markup c.page c.settings StyleSheet.empty = .ok s ∧ s.compile.2 = .ok mark ∧
        plot = Plot.ofSession s.compile.1 mark := by
  rw [compile, compileLogged]
  cases Session.start markup c.page c.settings StyleSheet.empty with
  | error error => simp
  | ok s =>
    rcases hcompile : s.compile with ⟨last, error | mark⟩
    · simp [hcompile]
    · simp [hcompile, eq_comm]

/-- A document that makes a plot makes the same plot with all settings whose limit its tree is within, and is too deep
for all others. -/
theorem compile_of_compile {c : Compiler} {markup : String} {plot : Plot} (h : c.compile markup = .ok plot) :
    ∃ root, Element.read c.settings.maxDepth markup = .ok root ∧
      ∀ settings : Settings, compile ⟨c.page, settings⟩ markup =
        if root.height ≤ settings.maxDepth then .ok plot else .error (.tooDeep settings.maxDepth) := by
  obtain ⟨s, mark, hstart, hmark, rfl⟩ := compile_eq_ok_iff.1 h
  obtain ⟨root, hread, -, hs⟩ := Session.start_eq_ok_iff.1 hstart
  have hroot : s.scene.root = root := by rw [hs]; rfl
  have hwithin : s.scene.root.height ≤ s.scene.settings.maxDepth :=
    Element.height_le_of_read (Session.read_of_start hstart)
  refine ⟨root, hread, fun settings => ?_⟩
  have hother := Session.start_of_start hstart settings
  rw [hroot] at hother
  by_cases hroom : root.height ≤ settings.maxDepth
  · rw [if_pos hroom] at hother ⊢
    have hcompile := s.compile_withSettings settings hwithin (hroot ▸ hroom)
    refine compile_eq_ok_iff.2 ⟨s.withSettings settings, mark, hother, ?_, ?_⟩
    · rw [hcompile]
      exact hmark
    · rw [hcompile]
      rfl
  · rw [if_neg hroom] at hother ⊢
    rw [compile, compileLogged, hother]

/-- Definitions are not drawn, but the elements in them count: this document is three elements deep. -/
theorem compile_of_compile_definitions :
    ∃ plot, (⟨Page.a4, { maxDepth := 3 }⟩ : Compiler).compile "<svg><defs><g/></defs></svg>" = .ok plot ∧
      (⟨Page.a4, { maxDepth := 4 }⟩ : Compiler).compile "<svg><defs><g/></defs></svg>" = .ok plot ∧
      (⟨Page.a4, { maxDepth := 2 }⟩ : Compiler).compile "<svg><defs><g/></defs></svg>" = .error (.tooDeep 2) := by
  have hreading : Reading.of (withoutMark "<svg><defs><g/></defs></svg>".toList) =
      ⟨[.opening ⟨"svg".toList, []⟩, .opening ⟨"defs".toList, []⟩, .empty ⟨['g'], []⟩, .closing "defs".toList,
        .closing "svg".toList], none⟩ := by
    show readTokens [] [] ('<' :: "svg><defs><g/></defs></svg>".toList) = _
    rw [@readTokens_of_next _ _ _ _ _ "<defs><g/></defs></svg>".toList (.opening ⟨"svg".toList, []⟩) rfl rfl]
    show readTokens _ _ ('<' :: "defs><g/></defs></svg>".toList) = _
    rw [@readTokens_of_next _ _ _ _ _ "<g/></defs></svg>".toList (.opening ⟨"defs".toList, []⟩) rfl rfl]
    show readTokens _ _ ('<' :: "g/></defs></svg>".toList) = _
    rw [@readTokens_of_next _ _ _ _ _ "</defs></svg>".toList (.empty ⟨['g'], []⟩) rfl rfl]
    show readTokens _ _ ('<' :: "/defs></svg>".toList) = _
    rw [@readTokens_of_next _ ["svg".toList] _ _ _ "</svg>".toList (.closing "defs".toList) rfl rfl]
    show readTokens _ _ ('<' :: "/svg>".toList) = _
    rw [@readTokens_of_next _ [] _ _ _ [] (.closing "svg".toList) rfl rfl, readTokens]
    rfl
  let root : Element := (Element.named "svg").addChild ((Element.named "defs").addChild (Element.named "g"))
  have hread : Element.read 3 "<svg><defs><g/></defs></svg>" = .ok root := by
    refine Element.read_eq_ok_iff.2 ⟨by rw [hreading], ?_⟩
    rw [hreading]
    refine Growth.grow_opening_eq_ok_iff.2 ⟨by decide, fun _ => rfl, _, Tag.readAttributes_of_nil _, ?_⟩
    refine Growth.grow_opening_eq_ok_iff.2 ⟨by decide, fun _ => rfl, _, Tag.readAttributes_of_nil _, ?_⟩
    refine Growth.grow_empty_eq_ok_iff.2 ⟨by decide, _, Tag.readAttributes_of_nil _, ?_⟩
    rw [Growth.growAttached_cons, Growth.grow_closing_cons, Growth.growAttached_cons, Growth.grow_closing_cons,
      Growth.growAttached_nil, Growth.grow_nil_eq_ok_iff]
    exact ⟨rfl, rfl⟩
  let s : Session StyleSheet := .ofRoot "<svg><defs><g/></defs></svg>" root Page.a4 { maxDepth := 3 } StyleSheet.empty
  obtain ⟨mark, hmark⟩ := s.compile_isOk (by decide)
  have hplot : (⟨Page.a4, { maxDepth := 3 }⟩ : Compiler).compile "<svg><defs><g/></defs></svg>" =
      .ok (Plot.ofSession s.compile.1 mark) :=
    compile_eq_ok_iff.2 ⟨s, mark, Session.start_eq_ok_iff.2 ⟨root, hread, rfl, rfl⟩, hmark, rfl⟩
  obtain ⟨root', hread', hall⟩ := compile_of_compile hplot
  obtain rfl : root = root' := Except.ok.inj (hread.symm.trans hread')
  exact ⟨_, hplot, hall { maxDepth := 4 }, hall { maxDepth := 2 }⟩

end Compiler

end SvgPlot
