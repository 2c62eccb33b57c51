import SvgPlot.Proofs.CanonicalMarkup
import SvgPlot.Proofs.LimitChange
import SvgPlot.Proofs.PlotExchange

/-!
# The depth of plots and of their JSON

Markup may be 256 elements deep by default. JSON is read to 127 levels, and a plot with 63 levels of marks has that
many. So there are documents whose plots cannot be read from their own JSON.

* `levels_le_of_drawn` says that a mark has no more levels than the element it came of.
* `nestedDocument` is a document of groups in one another, whose plot has a level for each of them and for the root
  (`compile_nestedDocument`).
-/

namespace SvgPlot

open Json (ReadsBack)
open Markup (Element Writes WritesAll)

/-! ## Levels of marks and of elements -/

theorem Mark.levelsOfAll_append (ms rest : List Mark) :
    levelsOfAll (ms ++ rest) = max (levelsOfAll ms) (levelsOfAll rest) := by
  induction ms with
  | nil => rw [List.nil_append, levelsOfAll, Nat.zero_max]
  | cons m ms ih => rw [List.cons_append, levelsOfAll, levelsOfAll, ih, Nat.max_assoc]

section

variable {canvas : Canvas} {limit : Nat}

mutual

/-- A mark has no more levels than the element it came of. -/
theorem levels_le_of_drawn (depth : Nat) (e : Element) {mark : Option Mark}
    (h : (drawn canvas limit depth e).result = .ok mark) : Mark.levelsOfAll mark.toList ≤ e.height := by
  obtain ⟨name, attributes, content, children⟩ := e
  have hdepth : depth ≤ limit := by
    refine Nat.le_of_not_lt fun hlt => ?_
    rw [drawn_of_lt hlt] at h
    cases h
  cases hopened : (openElement canvas ⟨name, attributes, content, children⟩).mark with
  | none =>
    rw [drawn_of_none hdepth hopened] at h
    cases h
    exact Nat.zero_le _
  | some opened =>
    rw [drawn_of_some hdepth hopened] at h
    obtain ⟨marks, hmarks, rfl⟩ := Report.result_map.1 h
    have hle := levels_le_of_drawnAll (depth + 1) children hmarks
    rw [Element.height, Option.toList_some, Mark.levelsOfAll, Mark.levels_eq, children_of_openElement hopened,
      List.nil_append, Mark.levelsOfAll, Nat.max_zero]
    exact Nat.add_le_add_left hle 1

theorem levels_le_of_drawnAll (depth : Nat) (es : List Element) {marks : List Mark}
    (h : (drawnAll canvas limit depth es).result = .ok marks) : Mark.levelsOfAll marks ≤ Element.heights es := by
  cases es with
  | nil =>
    cases h
    exact Nat.le_refl _
  | cons e rest =>
    obtain ⟨mark, hmark, hrest⟩ := Report.result_andThen.1 h
    obtain ⟨others, hothers, rfl⟩ := Report.result_map.1 hrest
    have hfirst := levels_le_of_drawn depth e hmark
    have hmore := levels_le_of_drawnAll depth rest hothers
    rw [Mark.levelsOfAll_append, Element.heights]
    omega

end

end

/-- The root of a plot has no more levels than the root of its document. -/
theorem Session.levels_le_of_compile {σ : Type} [StyleSink σ] {s : Session σ} {mark : Mark}
    (h : s.compile.2 = .ok mark) : mark.levels ≤ s.scene.root.height := by
  rw [result_compile] at h
  obtain ⟨marks, hmarks, rfl⟩ := convert_eq_ok_iff.1 h
  have hle := levels_le_of_drawnAll 2 s.scene.root.children hmarks
  rw [Mark.levels_eq, Element.height_eq]
  exact Nat.add_le_add_left hle 1

/-! ## Groups in one another -/

def nestedElements : Nat → List Element
  | 0 => []
  | count + 1 => [⟨"g", Dictionary.empty, [], nestedElements count⟩]

def nestedText : Nat → List Char
  | 0 => []
  | count + 1 => "<g>".toList ++ (nestedText count ++ "</g>".toList)

def nestedMarks : Nat → List Mark
  | 0 => []
  | count + 1 => [⟨.group, [], none, nestedMarks count⟩]

/-- A document with some groups in one another. -/
def nestedDocument (count : Nat) : String := String.ofList ("<svg>".toList ++ (nestedText count ++ "</svg>".toList))

def nestedRoot (count : Nat) : Element := ⟨"svg", Dictionary.empty, [], nestedElements count⟩

theorem writesAll_nestedElements (count : Nat) : WritesAll (nestedElements count) (nestedText count) := by
  induction count with
  | zero => exact .nil
  | succ count ih =>
    have hgroup := WritesAll.cons (@Writes.tags "g" Dictionary.empty [] [] _ _ .nil ih) .nil
    rw [List.append_nil] at hgroup
    exact hgroup

theorem isWritable_nestedElements (count : Nat) : ∀ e ∈ nestedElements count, e.IsWritable := by
  induction count with
  | zero => exact nofun
  | succ count ih =>
    rintro _ (_ | ⟨_, ⟨⟩⟩)
    exact ⟨by decide, by decide, nofun, .nil, ih⟩

theorem heights_nestedElements (count : Nat) : Element.heights (nestedElements count) = count := by
  induction count with
  | zero => rfl
  | succ count ih =>
    rw [nestedElements, Element.heights, Element.height, ih, Element.heights, Nat.max_zero, Nat.add_comm]

theorem levelsOfAll_nestedMarks (count : Nat) : Mark.levelsOfAll (nestedMarks count) = count := by
  induction count with
  | zero => rfl
  | succ count ih => rw [nestedMarks, Mark.levelsOfAll, Mark.levels, ih, Mark.levelsOfAll, Nat.max_zero, Nat.add_comm]

theorem numbers_nestedMarks (count : Nat) :
    ((nestedMarks count).flatMap Mark.preorder).flatMap Mark.numbers = [] := by
  induction count with
  | zero => rfl
  | succ count ih =>
    rw [nestedMarks, List.flatMap_cons, Mark.preorder_eq, List.flatMap_nil, List.append_nil, List.flatMap_cons, ih,
      List.append_nil]

/-- The document is read as its groups, if there is room for all of them. -/
theorem read_nestedDocument {count limit : Nat} (h : count < limit) :
    Element.read limit (nestedDocument count) = .ok (nestedRoot count) := by
  have hwritable : (nestedRoot count).IsWritable :=
    ⟨by decide, by decide, nofun, .nil, isWritable_nestedElements count⟩
  have hwrites : Writes (nestedRoot count) ("<svg>".toList ++ (nestedText count ++ "</svg>".toList)) :=
    @Writes.tags "svg" Dictionary.empty [] [] _ _ .nil (writesAll_nestedElements count)
  have hheight : (nestedRoot count).height = 1 + count := by rw [nestedRoot, Element.height, heights_nestedElements]
  show Element.read limit (String.ofList ("<svg>".toList ++ (nestedText count ++ "</svg>".toList))) = _
  generalize "<svg>".toList ++ (nestedText count ++ "</svg>".toList) = text at hwrites
  obtain ⟨tokens, hspells, hreads⟩ := Markup.exists_spells_of_writes _ hwritable hwrites
  obtain ⟨rest, rfl⟩ := hwrites.exists_cons
  have hreading : Markup.Reading.of (Markup.withoutMark (String.ofList ('<' :: rest)).toList) = ⟨tokens, none⟩ := by
    have hall := hreads [] [] [] trivial
    rw [List.append_nil, List.append_nil, Markup.readTokens, List.reverse_reverse] at hall
    rw [String.toList_ofList]
    exact hall
  rw [Element.read_eq_ok_iff, hreading]
  refine ⟨rfl, ?_⟩
  have hattached : Markup.Growth.growAttached limit [] none (nestedRoot count) [] = .ok (nestedRoot count) := by
    rw [Markup.Growth.growAttached_nil]
    exact Markup.Growth.grow_nil_eq_ok_iff.2 ⟨rfl, rfl⟩
  have hroom : ([] : List Markup.OpenElement).length + (nestedRoot count).height ≤ limit := by
    rw [hheight, List.length_nil]
    omega
  have hgrown := Markup.Growth.grow_of_spells _ hspells hroom (fun _ => rfl) hattached
  rwa [List.append_nil] at hgrown

/-- All groups of the document are drawn. -/
theorem drawnAll_nestedElements (canvas : Canvas) {limit : Nat} (count depth : Nat) (h : depth + count ≤ limit + 1) :
    (drawnAll canvas limit depth (nestedElements count)).result = .ok (nestedMarks count) := by
  induction count generalizing depth with
  | zero => rfl
  | succ count ih =>
    have hopened : (openElement canvas ⟨"g", Dictionary.empty, [], nestedElements count⟩).mark =
        some ⟨.group, [], none, []⟩ := rfl
    refine Report.result_andThen.2 ⟨some ⟨.group, [], none, nestedMarks count⟩, ?_, rfl⟩
    rw [drawn_of_some (by omega) hopened]
    exact Report.result_map.2 ⟨nestedMarks count, ih (depth + 1) (by omega), rfl⟩

/-- The plot of the document, on a letter page with default settings. -/
theorem compile_nestedDocument {count : Nat} (h : count < 256) :
    ∃ plot, ({} : Compiler).compile (nestedDocument count) = .ok plot ∧ plot.numbers = [612.0, 792.0] ∧
      plot.root.levels = count + 1 := by
  let s : Session StyleSheet :=
    Session.ofRoot (nestedDocument count) (nestedRoot count) Page.letter {} StyleSheet.empty
  have hstart : Session.start (nestedDocument count) Page.letter {} StyleSheet.empty = .ok s :=
    Session.start_eq_ok_iff.2 ⟨nestedRoot count, read_nestedDocument h, rfl, rfl⟩
  have hmark : s.compile.2 = .ok ⟨.svg, [], none, nestedMarks count⟩ := by
    rw [Session.result_compile]
    exact Session.convert_eq_ok_iff.2 ⟨_, drawnAll_nestedElements _ count 2 (show 2 + count ≤ 256 + 1 by omega), rfl⟩
  have hscene : s.compile.1.scene = s.scene := s.scene_afterCall .document
  refine ⟨_, Compiler.compile_eq_ok_iff.2 ⟨s, _, hstart, hmark, rfl⟩, ?_, ?_⟩
  · rw [Plot.numbers, Plot.ofSession, hscene, Mark.preorder_eq, List.flatMap_cons, numbers_nestedMarks]
    rfl
  · rw [Plot.ofSession, Mark.levels, levelsOfAll_nestedMarks, Nat.add_comm]

/-! ## Plots from their own JSON -/

namespace Compiler

/-- A plot is read from its own JSON if its marks have at most 63 levels, and not otherwise. They have no more levels
than the elements of the document, for which the settings have a limit of their own. -/
theorem readsBack_compile {c : Compiler} {markup : String} {plot : Plot} (h : c.compile markup = .ok plot)
    (hnumbers : ∀ x ∈ plot.numbers, ReadsBack x) :
    Plot.read? (plot.json .compact) = (if plot.root.levels ≤ 63 then some plot else none) ∧
      ∃ root, Element.read c.settings.maxDepth markup = .ok root ∧ plot.root.levels ≤ root.height ∧
        root.height ≤ c.settings.maxDepth := by
  obtain ⟨s, mark, hstart, hmark, rfl⟩ := compile_eq_ok_iff.1 h
  obtain ⟨root, hread, -, hs⟩ := Session.start_eq_ok_iff.1 hstart
  have hroot : s.scene.root = root := by rw [hs]; rfl
  refine ⟨?_, root, hread, hroot ▸ Session.levels_le_of_compile hmark, Element.height_le_of_read hread⟩
  rw [Plot.read?_json_eq, Plot.ofJson?_toJson _ hnumbers, Plot.nesting_toJson]
  have hiff : 1 + 2 * (Plot.ofSession s.compile.1 mark).root.levels ≤ jsonRoom ↔
      (Plot.ofSession s.compile.1 mark).root.levels ≤ 63 := by
    unfold jsonRoom
    omega
  simp only [hiff]

/-- As many groups as can be read back, and numbers of the page that can be. -/
theorem readsBack_compile_nested : ∃ plot, ({} : Compiler).compile (nestedDocument 62) = .ok plot ∧
    (∀ x ∈ plot.numbers, ReadsBack x) ∧ Plot.read? (plot.json .compact) = some plot := by
  obtain ⟨plot, hplot, hpage, hlevels⟩ := compile_nestedDocument (show 62 < 256 by decide)
  have hnumbers : ∀ x ∈ plot.numbers, ReadsBack x := by
    rw [hpage]
    decide +kernel
  obtain ⟨hread, -⟩ := readsBack_compile hplot hnumbers
  rw [if_pos (by omega)] at hread
  exact ⟨plot, hplot, hnumbers, hread⟩

/-- With one group more the plot is made, but it cannot be read from its JSON. -/
theorem not_readsBack_nested : ∃ plot, ({} : Compiler).compile (nestedDocument 63) = .ok plot ∧
    (∀ x ∈ plot.numbers, ReadsBack x) ∧ Plot.read? (plot.json .compact) = none := by
  obtain ⟨plot, hplot, hpage, hlevels⟩ := compile_nestedDocument (show 63 < 256 by decide)
  have hnumbers : ∀ x ∈ plot.numbers, ReadsBack x := by
    rw [hpage]
    decide +kernel
  refine ⟨plot, hplot, hnumbers, ?_⟩
  rw [Plot.read?_json_eq, Plot.ofJson?_toJson plot hnumbers, Plot.nesting_toJson, hlevels]
  rfl

end Compiler

end SvgPlot
