import SvgPlot.Proofs.ElementByElement
import SvgPlot.Proofs.LimitChange
import SvgPlot.Proofs.UnreadInput

/-!
# Runs that are stopped

An element below the depth limit ends a run, and what was noted before stays.

* `Report.Begins` relates a report to one that goes on where it was stopped.
* `Element.cut` takes away what lies too deep in an element.
* `begins_drawn_cut` compares a run with one that may go deeper, on an element of which only what is too deep for the
  first was taken away.
* `drawn_isError_iff` says which elements stop a run.
-/

namespace SvgPlot

open Markup (Element)

/-! ## Reports that begin others -/

namespace Report

variable {α α' β : Type} {view : Note → Option β} {r whole : Report α}

/-- What a view shows of a report is the beginning of what it shows of the whole. If the report is no failure it is the
whole, result included. -/
structure Begins (view : Note → Option β) (r whole : Report α) : Prop where
  notes : r.notes.filterMap view <+: whole.notes.filterMap view
  of_ok : ∀ a, r.result = .ok a → whole.result = .ok a ∧ whole.notes.filterMap view = r.notes.filterMap view

/-- A run that fails before there is anything to note begins every other. -/
theorem begins_of_error (error : TooDeep) (whole : Report α) : Begins view ⟨[], .error error⟩ whole :=
  ⟨List.nil_prefix, fun a h => by cases h⟩

theorem begins_of_eq {notes notes' : List Note} (h : notes'.filterMap view = notes.filterMap view)
    (result : Except TooDeep α) : Begins view ⟨notes, result⟩ ⟨notes', result⟩ :=
  ⟨h ▸ List.prefix_refl _, fun _ hresult => ⟨hresult, h⟩⟩

theorem Begins.map (h : r.Begins view whole) (f : α → α') : (r.map f).Begins view (whole.map f) := by
  refine ⟨h.notes, fun b hb => ?_⟩
  obtain ⟨a, ha, rfl⟩ := result_map.1 hb
  obtain ⟨hresult, hnotes⟩ := h.of_ok a ha
  exact ⟨result_map.2 ⟨a, hresult, rfl⟩, hnotes⟩

theorem Begins.after {notes notes' : List Note} (hsame : notes'.filterMap view = notes.filterMap view)
    (h : r.Begins view whole) : (r.after notes).Begins view (whole.after notes') := by
  refine ⟨?_, fun a ha => ?_⟩
  · rw [Report.after, Report.after, List.filterMap_append, List.filterMap_append, hsame]
    exact (List.prefix_append_right_inj _).2 h.notes
  · obtain ⟨hresult, hnotes⟩ := h.of_ok a ha
    refine ⟨hresult, ?_⟩
    rw [Report.after, Report.after, List.filterMap_append, List.filterMap_append, hsame, hnotes]

theorem notes_prefix_andThen (r : Report α) (next : α → Report α') : r.notes <+: (r.andThen next).notes := by
  rcases r with ⟨notes, error | a⟩
  · exact List.prefix_refl _
  · exact List.prefix_append ..

theorem Begins.andThen {next next' : α → Report α'} (h : r.Begins view whole)
    (hnext : ∀ a, (next a).Begins view (next' a)) : (r.andThen next).Begins view (whole.andThen next') := by
  rcases r with ⟨notes, error | a⟩
  · rw [andThen_error]
    exact ⟨h.notes.trans ((notes_prefix_andThen whole next').filterMap view), fun a ha => by cases ha⟩
  · obtain ⟨hresult, hnotes⟩ := h.of_ok a rfl
    rcases whole with ⟨notes', result⟩
    obtain rfl : result = .ok a := hresult
    exact (hnext a).after hnotes

theorem result_map_eq_error {f : α → α'} {error : TooDeep} :
    (r.map f).result = .error error ↔ r.result = .error error := by
  rcases r with ⟨notes, result | a⟩ <;> simp [map, Except.map]

/-- The first failure of two is the failure of both. -/
theorem result_andThen_eq_error {next : α → Report α'} {error : TooDeep} (h : (r.andThen next).result = .error error) :
    r.result = .error error ∨ ∃ a, (next a).result = .error error := by
  rcases r with ⟨notes, result | a⟩
  · exact .inl (congrArg Except.error (Except.error.inj h))
  · exact .inr ⟨a, h⟩

/-- A report that begins another does so in every view. -/
theorem Begins.of_some (h : r.Begins some whole) (view : Note → Option β) : r.Begins view whole := by
  have hnotes := h.notes
  rw [List.filterMap_some, List.filterMap_some] at hnotes
  refine ⟨hnotes.filterMap view, fun a ha => ?_⟩
  obtain ⟨hresult, hsame⟩ := h.of_ok a ha
  rw [List.filterMap_some, List.filterMap_some] at hsame
  exact ⟨hresult, by rw [hsame]⟩

end Report

/-! ## Elements cut at a depth -/

namespace Markup.Element

mutual

/-- The element without all that lies deeper than so many levels, the element itself being on the first. Where an
element has a spared name, all that is in it is kept. -/
def cut (spared : List String) (levels : Nat) : Element → Element
  | ⟨name, attributes, content, children⟩ =>
    ⟨name, attributes, content, if name ∈ spared then children else cutAll spared (levels - 1) children⟩

def cutAll (spared : List String) (levels : Nat) : List Element → List Element
  | [] => []
  | e :: rest => if levels = 0 then [] else e.cut spared levels :: cutAll spared levels rest

end

variable (spared : List String)

theorem cut_eq (levels : Nat) (e : Element) :
    e.cut spared levels =
      { e with children := if e.name ∈ spared then e.children else cutAll spared (levels - 1) e.children } := by
  obtain ⟨name, attributes, content, children⟩ := e
  rw [cut]

mutual

/-- Nothing is taken away from an element that has no more levels. -/
theorem cut_of_height_le : ∀ (e : Element) (levels : Nat), e.height ≤ levels → e.cut spared levels = e
  | ⟨name, attributes, content, children⟩, levels, h => by
    rw [height] at h
    rw [cut, cutAll_of_heights_le children (levels - 1) (by omega), ite_self]

theorem cutAll_of_heights_le : ∀ (es : List Element) (levels : Nat), heights es ≤ levels → cutAll spared levels es = es
  | [], levels, _ => rfl
  | e :: rest, levels, h => by
    rw [heights] at h
    have hpos : levels ≠ 0 := by
      have := height_eq e
      omega
    rw [cutAll, if_neg hpos, cut_of_height_le e levels (by omega), cutAll_of_heights_le rest levels (by omega)]

end

/-- An element and all below it, in document order, each with those above it. The first one is at depth 1, so that one
with `n` above it is at depth `n + 1`. -/
def lineage (e : Element) : List Descendant := descendantsFrom [] e

mutual

/-- Nothing need be spared that lies within the levels anyway. -/
theorem cut_eq_cut : ∀ (e : Element) (between : List Element) (levels : Nat),
    (∀ d ∈ descendantsFrom between e, d.element.name ∈ spared →
      d.between.length + d.element.height ≤ between.length + levels) → e.cut spared levels = e.cut [] levels
  | ⟨name, attributes, content, children⟩, between, levels, h => by
    rw [descendantsFrom, List.forall_mem_cons] at h
    obtain ⟨hself, hinner⟩ := h
    by_cases hname : name ∈ spared
    · have hheight : height ⟨name, attributes, content, children⟩ ≤ levels := Nat.le_of_add_le_add_left (hself hname)
      rw [cut_of_height_le spared _ _ hheight, cut_of_height_le [] _ _ hheight]
    · have hchildren : cutAll spared (levels - 1) children = cutAll [] (levels - 1) children := by
        refine cutAll_eq_cutAll children (between ++ [⟨name, attributes, content, children⟩]) _ fun d hd hspared => ?_
        have hbound := hinner d hd hspared
        rw [List.length_append, List.length_singleton]
        omega
      rw [cut, cut, if_neg hname, if_neg List.not_mem_nil, hchildren]

theorem cutAll_eq_cutAll : ∀ (es between : List Element) (levels : Nat),
    (∀ d ∈ descendantsOfAll between es, d.element.name ∈ spared →
      d.between.length + d.element.height ≤ between.length + levels) → cutAll spared levels es = cutAll [] levels es
  | [], between, levels, _ => rfl
  | e :: rest, between, levels, h => by
    rw [descendantsOfAll, List.forall_mem_append] at h
    rw [cutAll, cutAll, cut_eq_cut e between levels h.1, cutAll_eq_cutAll rest between levels h.2]

end

end Markup.Element

/-! ## Opening cut elements -/

section

variable {canvas : Canvas} {e : Element}

/-- An element that holds no definitions is opened without its children. -/
theorem openElement_withChildren (h : Role.ofName e.name ≠ .definitions) (children : List Element) :
    openElement canvas { e with children } = openElement canvas e := by
  rw [openElement, openElement]
  cases hrole : Role.ofName e.name with
  | definitions => exact absurd hrole h
  | drawn shape =>
    have hmeasures : readMeasures canvas { e with children } shape.rule.measures =
        readMeasures canvas e shape.rule.measures := by
      apply readMeasures_congr
      · rfl
      · exact fun _ _ => rfl
    have hpayload : readPayload { e with children } shape.rule.payload = readPayload e shape.rule.payload := by
      cases shape.rule.payload <;> rfl
    simp only [openShape, Shape.markOf, hmeasures, hpayload]
  | _ => rfl

theorem openElement_cut {spared : List String} (h : Role.ofName e.name = .definitions → e.name ∈ spared)
    (levels : Nat) : openElement canvas (e.cut spared levels) = openElement canvas e := by
  by_cases hrole : Role.ofName e.name = .definitions
  · obtain ⟨name, attributes, content, children⟩ := e
    rw [Element.cut, if_pos (h hrole)]
  · rw [Element.cut_eq]
    exact openElement_withChildren hrole _

/-- What lies in an element has no part in whether it comes to a mark, nor in what is wrong with it. -/
theorem mark_and_warnings_cut (canvas : Canvas) (spared : List String) (levels : Nat) (e : Element) :
    (openElement canvas (e.cut spared levels)).mark = (openElement canvas e).mark ∧
      warningsOf (openElement canvas (e.cut spared levels)).notes = warningsOf (openElement canvas e).notes := by
  rw [Element.cut_eq]
  by_cases hrole : Role.ofName e.name = .definitions
  · simp only [openElement, hrole, warningsOf_pendingStyleNotes, and_self]
  · rw [openElement_withChildren hrole]
    exact ⟨rfl, rfl⟩

end

/-! ## Runs with more room -/

section

variable {β : Type} {view : Note → Option β} {canvas : Canvas} {spared : List String} {limit other : Nat}

mutual

/-- A run begins every run with a limit that is no smaller and on an element that is cut no higher than the first limit,
if the view does not tell a cut element from a whole one when it is opened. -/
theorem begins_drawn_cut (hle : limit ≤ other) (hspared : ∀ name ∈ spared, Role.ofName name = .definitions)
    (hopen : ∀ e levels, (openElement canvas (Element.cut spared levels e)).notes.filterMap view =
      (openElement canvas e).notes.filterMap view) :
    ∀ (e : Element) (depth levels : Nat), limit < depth + levels →
      (drawn canvas limit depth e).Begins view (drawn canvas other depth (e.cut spared levels))
  | ⟨name, attributes, content, children⟩, depth, levels, hroom => by
    rcases Nat.lt_or_ge limit depth with hdeep | hdepth
    · rw [drawn_of_lt hdeep]
      exact Report.begins_of_error ..
    have hdepth' : depth ≤ other := Nat.le_trans hdepth hle
    have hsame := hopen ⟨name, attributes, content, children⟩ levels
    obtain ⟨hmarks, -⟩ := mark_and_warnings_cut canvas spared levels ⟨name, attributes, content, children⟩
    cases hmark : (openElement canvas ⟨name, attributes, content, children⟩).mark with
    | none =>
      rw [drawn_of_none hdepth hmark, drawn_of_none hdepth' (hmarks.trans hmark)]
      exact Report.begins_of_eq hsame _
    | some mark =>
      have hkept : name ∉ spared := by
        intro hmem
        obtain ⟨shape, hrole, -⟩ := mark_openElement_eq_some_iff.1 hmark
        rw [hspared name hmem] at hrole
        cases hrole
      have hchildren := begins_drawnAll_cut hle hspared hopen children (depth + 1) (levels - 1) (by omega)
      rw [drawn_of_some hdepth hmark, drawn_of_some hdepth' (hmarks.trans hmark)]
      refine Report.Begins.after hsame (Report.Begins.map ?_ _)
      rw [Element.cut, if_neg hkept]
      exact hchildren

theorem begins_drawnAll_cut (hle : limit ≤ other) (hspared : ∀ name ∈ spared, Role.ofName name = .definitions)
    (hopen : ∀ e levels, (openElement canvas (Element.cut spared levels e)).notes.filterMap view =
      (openElement canvas e).notes.filterMap view) :
    ∀ (es : List Element) (depth levels : Nat), limit < depth + levels →
      (drawnAll canvas limit depth es).Begins view (drawnAll canvas other depth (Element.cutAll spared levels es))
  | [], depth, levels, _ => by
    rw [Element.cutAll, drawnAll, drawnAll]
    exact Report.begins_of_eq rfl _
  | e :: rest, depth, levels, hroom => by
    rcases Nat.eq_zero_or_pos levels with rfl | hpos
    · -- there is nothing left where the run is stopped
      have hdeep : limit < depth := hroom
      rw [drawnAll, drawn_of_lt hdeep]
      exact Report.begins_of_error ..
    · have hfirst := begins_drawn_cut hle hspared hopen e depth levels hroom
      have hrest := begins_drawnAll_cut hle hspared hopen rest depth levels hroom
      rw [Element.cutAll, if_neg (Nat.ne_of_gt hpos), drawnAll, drawnAll]
      exact hfirst.andThen fun mark => hrest.map _

end

end

/-- A run begins every run with a limit that is no smaller and on an element of which nothing was taken away that lies
within the first limit or in definitions. -/
theorem begins_drawn_cut_outside {limit other : Nat} (canvas : Canvas) (hle : limit ≤ other) (e : Element)
    (depth levels : Nat) (hroom : limit < depth + levels) :
    (drawn canvas limit depth e).Begins some (drawn canvas other depth (e.cut ["defs", "symbol"] levels)) := by
  refine begins_drawn_cut hle (fun name => Role.ofName_eq_definitions_iff.2) (fun x n => ?_) e depth levels hroom
  rw [openElement_cut Role.ofName_eq_definitions_iff.1]

/-- A run begins every run with a limit that is no smaller. -/
theorem begins_drawn {limit other : Nat} (canvas : Canvas) (hle : limit ≤ other) (depth : Nat) (e : Element) :
    (drawn canvas limit depth e).Begins some (drawn canvas other depth e) := by
  have hroom : limit < depth + (limit + e.height) := by
    have := e.height_eq
    omega
  have hcut := begins_drawn_cut_outside canvas hle e depth (limit + e.height) hroom
  rwa [Element.cut_of_height_le _ _ _ (Nat.le_add_left ..)] at hcut

/-! ## Where a run is stopped -/

/-- What lies below an element of another kind has it above. -/
theorem Markup.Element.not_all_of_mem {through : Element → Bool} {es between : List Element} {d : Descendant}
    (hbetween : ¬between.all through = true) (hd : d ∈ descendantsOfAll between es) :
    ¬d.between.all through = true := by
  have hnone := filter_descendantsOfAll through es between
  rw [if_neg hbetween, List.map_eq_nil_iff, List.filter_eq_nil_iff] at hnone
  exact hnone d hd

section

variable (canvas : Canvas) (limit : Nat)

mutual

theorem error_of_drawn : ∀ (e : Element) (depth : Nat) (error : TooDeep),
    (drawn canvas limit depth e).result = .error error → error = ⟨limit⟩
  | ⟨name, attributes, content, children⟩, depth, error, h => by
    rcases Nat.lt_or_ge limit depth with hdeep | hdepth
    · rw [drawn_of_lt hdeep] at h
      exact (Except.error.inj h).symm
    cases hmark : (openElement canvas ⟨name, attributes, content, children⟩).mark with
    | none =>
      rw [drawn_of_none hdepth hmark] at h
      cases h
    | some mark =>
      rw [drawn_of_some hdepth hmark] at h
      exact error_of_drawnAll children (depth + 1) error (Report.result_map_eq_error.1 h)

theorem error_of_drawnAll : ∀ (es : List Element) (depth : Nat) (error : TooDeep),
    (drawnAll canvas limit depth es).result = .error error → error = ⟨limit⟩
  | [], depth, error, h => by
    rw [drawnAll] at h
    cases h
  | e :: rest, depth, error, h => by
    rw [drawnAll] at h
    rcases Report.result_andThen_eq_error h with hfirst | ⟨mark, hrest⟩
    · exact error_of_drawn e depth error hfirst
    · exact error_of_drawnAll rest depth error (Report.result_map_eq_error.1 hrest)

end

mutual

/-- A run comes to its end if and only if no element that it reaches lies too deep. -/
theorem drawn_isOk_iff : ∀ (e : Element) (between : List Element), between.all Element.passes = true →
    ((∃ mark, (drawn canvas limit (between.length + 1) e).result = .ok mark) ↔
      ∀ d ∈ Element.descendantsFrom between e, d.between.all Element.passes = true → d.between.length + 1 ≤ limit)
  | ⟨name, attributes, content, children⟩, between, hbetween => by
    rw [Element.descendantsFrom, List.forall_mem_cons]
    rcases Nat.lt_or_ge limit (between.length + 1) with hdeep | hdepth
    · rw [drawn_of_lt hdeep]
      refine iff_of_false (fun ⟨mark, hmark⟩ => by cases hmark) fun h => ?_
      exact absurd (h.1 hbetween) (Nat.not_le.2 hdeep)
    rw [and_iff_right fun _ => hdepth]
    cases hmark : (openElement canvas ⟨name, attributes, content, children⟩).mark with
    | none =>
      -- nothing below it is reached
      rw [drawn_of_none hdepth hmark]
      refine iff_of_true ⟨none, rfl⟩ fun d hd hall => ?_
      have hclosed : ¬(between ++ [(⟨name, attributes, content, children⟩ : Element)]).all Element.passes = true := by
        rw [List.all_append, List.all_cons, ← opens_eq_passes canvas, opens, hmark]
        simp
      exact absurd hall (Element.not_all_of_mem hclosed hd)
    | some mark =>
      have hinner : (between ++ [(⟨name, attributes, content, children⟩ : Element)]).all Element.passes = true := by
        rw [List.all_append, hbetween, List.all_cons, passes_of_mark hmark]
        rfl
      have hchildren := drawnAll_isOk_iff children _ hinner
      rw [List.length_append, List.length_singleton] at hchildren
      rw [← hchildren, drawn_of_some hdepth hmark]
      show (∃ result, (Report.map _ _).result = .ok result) ↔ _
      simp only [Report.result_map]
      exact ⟨fun ⟨_, marks, hmarks, _⟩ => ⟨marks, hmarks⟩, fun ⟨marks, hmarks⟩ => ⟨_, marks, hmarks, rfl⟩⟩

theorem drawnAll_isOk_iff : ∀ (es between : List Element), between.all Element.passes = true →
    ((∃ marks, (drawnAll canvas limit (between.length + 1) es).result = .ok marks) ↔
      ∀ d ∈ Element.descendantsOfAll between es, d.between.all Element.passes = true → d.between.length + 1 ≤ limit)
  | [], between, _ => iff_of_true ⟨[], rfl⟩ fun d hd => by cases hd
  | e :: rest, between, hbetween => by
    rw [Element.descendantsOfAll, List.forall_mem_append, ← drawn_isOk_iff e between hbetween,
      ← drawnAll_isOk_iff rest between hbetween, drawnAll]
    simp only [Report.result_andThen, Report.result_map]
    exact ⟨fun ⟨_, mark, hmark, marks, hmarks, _⟩ => ⟨⟨mark, hmark⟩, marks, hmarks⟩,
      fun ⟨⟨mark, hmark⟩, marks, hmarks⟩ => ⟨_, mark, hmark, marks, hmarks, rfl⟩⟩

end

end

/-- A run is stopped if and only if it reaches an element that lies too deep. -/
theorem drawn_isError_iff (canvas : Canvas) (limit : Nat) (e : Element) :
    (∃ error, (drawn canvas limit 1 e).result = .error error) ↔
      ∃ d ∈ e.lineage, limit < d.between.length + 1 ∧ d.between.all Element.passes = true := by
  have hnot : (∃ error, (drawn canvas limit 1 e).result = .error error) ↔
      ¬∃ mark, (drawn canvas limit 1 e).result = .ok mark := by
    cases (drawn canvas limit 1 e).result <;> simp
  have hok := drawn_isOk_iff canvas limit e [] rfl
  rw [List.length_nil, Nat.zero_add] at hok
  rw [hnot, hok]
  simp only [Element.lineage, Classical.not_forall, Nat.not_le, exists_prop, and_comm]

namespace Session

/-- A session compiles an element as the recursion does from depth 1 on. -/
theorem compileElement_eq_drawn {σ : Type} [StyleSink σ] (s : Session σ) (h : 1 ≤ s.scene.settings.maxDepth)
    (e : Element) :
    (s.compileElement e).2 = (drawn s.scene.canvas s.scene.settings.maxDepth 1 e).result ∧
      s.Adds (s.compileElement e).1 (warningsOf (drawn s.scene.canvas s.scene.settings.maxDepth 1 e).notes)
        (stylesOf (drawn s.scene.canvas s.scene.settings.maxDepth 1 e).notes) :=
  answer_and_adds_of_report (Call.report_element h e)

/-- No warning is about an element below the limit, and no style block is from one, but for those in definitions: these
are searched as deep as they go. An element whose definitions lie within the limit comes to no block from below it
either. -/
theorem adds_cut {σ : Type} [StyleSink σ] (s : Session σ) (h : 1 ≤ s.scene.settings.maxDepth) (e : Element) :
    let limit := s.scene.settings.maxDepth
    ∃ (told : Element → List Warning) (blocks : Element → List String),
      (∀ x, s.Adds (s.compileElement x).1 (told x) (blocks x)) ∧
        told e <+: told (e.cut [] limit) ∧
        blocks e <+: blocks (e.cut ["defs", "symbol"] limit) ∧
        ((∀ d ∈ e.lineage, d.element.name ∈ ["defs", "symbol"] → d.between.length + d.element.height ≤ limit) →
          blocks e <+: blocks (e.cut [] limit)) := by
  intro limit
  let notes (x : Element) : List Note := (drawn s.scene.canvas limit 1 x).notes
  have hroom : limit < 1 + limit := by omega
  have hwarnings : warningsOf (notes e) <+: warningsOf (notes (e.cut [] limit)) := by
    refine (begins_drawn_cut (Nat.le_refl _) (fun _ h => by cases h) (fun x levels => ?_) e 1 limit hroom).notes
    exact (mark_and_warnings_cut s.scene.canvas [] levels x).2
  have hstyles : stylesOf (notes e) <+: stylesOf (notes (e.cut ["defs", "symbol"] limit)) :=
    ((begins_drawn_cut_outside s.scene.canvas (Nat.le_refl _) e 1 limit hroom).of_some Note.style?).notes
  refine ⟨fun x => warningsOf (notes x), fun x => stylesOf (notes x), fun x => (s.compileElement_eq_drawn h x).2,
    hwarnings, hstyles, fun hwithin => ?_⟩
  have hsame : e.cut ["defs", "symbol"] limit = e.cut [] limit := by
    refine Element.cut_eq_cut _ e [] limit fun d hd hname => ?_
    rw [List.length_nil, Nat.zero_add]
    exact hwithin d hd hname
  rwa [hsame] at hstyles

/-- A group with an unknown element, a style and definitions, in which the innermost style is too deep. -/
theorem adds_cut_mixed :
    let style (text : String) := (Element.named "style").addText text
    let group (es : List Element) : Element := ⟨"g", Dictionary.empty, [], es⟩
    let definitions := (Element.named "defs").addChild (style "b")
    let e := group [Element.named "blink", style "a", definitions, group [group [style "c"]]]
    ∃ s : Session StyleSheet, start "<svg/>" Page.letter { maxDepth := 3 } StyleSheet.empty = .ok s ∧
      ∃ (told : Element → List Warning) (blocks : Element → List String),
        (∀ x, s.Adds (s.compileElement x).1 (told x) (blocks x)) ∧
          told e = [.unknownElement "blink"] ∧ blocks e = ["a", "b"] ∧
          told e <+: told (e.cut [] 3) ∧ blocks e <+: blocks (e.cut [] 3) := by
  intro style group definitions e
  have hread : Element.read 3 "<svg/>" = .ok (Element.named "svg") := by decide +kernel
  let s : Session StyleSheet := ofRoot "<svg/>" (Element.named "svg") Page.letter { maxDepth := 3 } StyleSheet.empty
  have hstart : start "<svg/>" Page.letter { maxDepth := 3 } StyleSheet.empty = .ok s :=
    start_eq_ok_iff.2 ⟨_, hread, rfl, rfl⟩
  obtain ⟨told, blocks, hadds, hwarnings, -, hstyles⟩ := s.adds_cut (by decide) e
  have haccount : (drawn s.scene.canvas 3 1 e).account = ⟨.error ⟨3⟩, [.unknownElement "blink"], ["a", "b"]⟩ := by
    rw [account_drawn]
    rfl
  obtain ⟨htold, hblocks⟩ := (hadds e).unique (s.compileElement_eq_drawn (by decide) e).2
  refine ⟨s, hstart, told, blocks, hadds, htold.trans (congrArg Account.warnings haccount),
    hblocks.trans (congrArg Account.styles haccount), hwarnings, hstyles ?_⟩
  -- the definitions and the style in them are at the depths 2 and 3
  have hwithin : e.lineage.all (fun d =>
      d.element.name ∈ ["defs", "symbol"] → d.between.length + d.element.height ≤ 3) = true := by decide
  exact fun d hd => of_decide_eq_true (List.all_eq_true.1 hwithin d hd)

/-- Definitions are searched below the limit. Cut at the limit, these hold no style. -/
theorem blocks_definitions_below_limit :
    let style := (Element.named "style").addText "a{}"
    let definitions := (Element.named "defs").addChild ((Element.named "g").addChild style)
    ∃ s : Session StyleSheet, start "<svg/>" Page.letter { maxDepth := 2 } StyleSheet.empty = .ok s ∧
      (s.compileElement definitions).1.sink.blocks.toList = ["a{}"] ∧
      (s.compileElement (definitions.cut [] 2)).1.sink.blocks.toList = [] := by
  intro style definitions
  have hread : Element.read 2 "<svg/>" = .ok (Element.named "svg") := by decide +kernel
  let s : Session StyleSheet := ofRoot "<svg/>" (Element.named "svg") Page.letter { maxDepth := 2 } StyleSheet.empty
  have hstart : start "<svg/>" Page.letter { maxDepth := 2 } StyleSheet.empty = .ok s :=
    start_eq_ok_iff.2 ⟨_, hread, rfl, rfl⟩
  have hblocks (x : Element) : (s.compileElement x).1.sink.blocks.toList = (outline s.scene.canvas 2 1 x).styles := by
    rw [(s.compileElement_eq_drawn (by decide) x).2.sink, StyleSheet.toList_blocks_foldl_add, ← account_drawn]
    rfl
  exact ⟨s, hstart, (hblocks _).trans rfl, (hblocks _).trans rfl⟩

/-- A smaller limit only stops the compilation of an element earlier. If it is not stopped, it comes to the same under
both limits. If it is, all that was recorded is the beginning of what is recorded under the larger one. It is stopped
just if an element below the limit has only elements above it that come to marks. -/
theorem compileElement_of_le {σ : Type} [StyleSink σ] {markup : String} {page : Page} {settings other : Settings}
    {sink : σ} {s t : Session σ} (hs : start markup page settings sink = .ok s)
    (ht : start markup page other sink = .ok t) (hle : settings.maxDepth ≤ other.maxDepth) (e : Element) :
    ∃ told blocks told' blocks',
      s.Adds (s.compileElement e).1 told blocks ∧ t.Adds (t.compileElement e).1 told' blocks' ∧
        (∀ mark, (s.compileElement e).2 = .ok mark →
          (t.compileElement e).2 = .ok mark ∧ told' = told ∧ blocks' = blocks) ∧
        (∀ error, (s.compileElement e).2 = .error error →
          error = ⟨settings.maxDepth⟩ ∧ told <+: told' ∧ blocks <+: blocks') ∧
        ((∃ error, (s.compileElement e).2 = .error error) ↔
          ∃ d ∈ e.lineage, settings.maxDepth < d.between.length + 1 ∧ d.between.all Element.passes = true) := by
  obtain rfl : s.scene.settings = settings := by
    obtain ⟨root, -, -, rfl⟩ := start_eq_ok_iff.1 hs
    rfl
  obtain rfl : s.withSettings other = t := by
    have hother := start_of_start hs other
    rw [ht] at hother
    split at hother
    · exact (Except.ok.inj hother).symm
    · cases hother
  have hpos : 1 ≤ s.scene.settings.maxDepth := by
    have hheight := Element.height_le_of_read (read_of_start hs)
    have := s.scene.root.height_eq
    omega
  obtain ⟨hresult, hadds⟩ := s.compileElement_eq_drawn hpos e
  obtain ⟨hresult', hadds'⟩ := (s.withSettings other).compileElement_eq_drawn (Nat.le_trans hpos hle) e
  have hbegins := begins_drawn s.scene.canvas hle 1 e
  refine ⟨_, _, _, _, hadds, hadds', fun mark hmark => ?_, fun error herror => ?_, ?_⟩
  · obtain ⟨hsame, hnotes⟩ := hbegins.of_ok mark (hresult.symm.trans hmark)
    rw [List.filterMap_some, List.filterMap_some] at hnotes
    exact ⟨hresult'.trans hsame, congrArg warningsOf hnotes, congrArg stylesOf hnotes⟩
  · rw [hresult] at herror
    exact ⟨error_of_drawn _ _ e 1 error herror, (hbegins.of_some Note.warning?).notes,
      (hbegins.of_some Note.style?).notes⟩
  · rw [hresult]
    exact drawn_isError_iff ..

/-- Two levels are too few for the element in the inner group, three are enough. -/
theorem compileElement_of_le_stopped :
    let style (text : String) := (Element.named "style").addText text
    let group (es : List Element) : Element := ⟨"g", Dictionary.empty, [], es⟩
    let e := group [Element.named "blink", style "a", group [Element.named "marquee"], style "b"]
    ∃ s t : Session StyleSheet,
      start "<svg/>" Page.letter { maxDepth := 2 } StyleSheet.empty = .ok s ∧
        start "<svg/>" Page.letter { maxDepth := 3 } StyleSheet.empty = .ok t ∧
        (s.compileElement e).2 = .error ⟨2⟩ ∧
        (t.compileElement e).2 = .ok (some ⟨.group, [], none, [⟨.group, [], none, []⟩]⟩) ∧
        ∃ told blocks told' blocks',
          s.Adds (s.compileElement e).1 told blocks ∧ t.Adds (t.compileElement e).1 told' blocks' ∧
            told = [.unknownElement "blink"] ∧ blocks = ["a"] ∧ told <+: told' ∧ blocks <+: blocks' ∧
            ∃ d ∈ e.lineage, 2 < d.between.length + 1 ∧ d.between.all Element.passes = true := by
  intro style group e
  let session (levels : Nat) : Session StyleSheet :=
    ofRoot "<svg/>" (Element.named "svg") Page.letter { maxDepth := levels } StyleSheet.empty
  have hs : start "<svg/>" Page.letter { maxDepth := 2 } StyleSheet.empty = .ok (session 2) :=
    start_eq_ok_iff.2 ⟨_, by decide +kernel, rfl, rfl⟩
  have ht : start "<svg/>" Page.letter { maxDepth := 3 } StyleSheet.empty = .ok (session 3) :=
    start_eq_ok_iff.2 ⟨_, by decide +kernel, rfl, rfl⟩
  have haccount : (drawn (session 2).scene.canvas 2 1 e).account = ⟨.error ⟨2⟩, [.unknownElement "blink"], ["a"]⟩ := by
    rw [account_drawn]
    rfl
  have haccount' : (drawn (session 3).scene.canvas 3 1 e).account =
      ⟨.ok (some ⟨.group, [], none, [⟨.group, [], none, []⟩]⟩),
        [.unknownElement "blink", .unknownElement "marquee"], ["a", "b"]⟩ := by
    rw [account_drawn]
    rfl
  obtain ⟨hresult, hknown⟩ := (session 2).compileElement_eq_drawn (by decide) e
  obtain ⟨hresult', -⟩ := (session 3).compileElement_eq_drawn (by decide) e
  replace hresult := hresult.trans (congrArg Account.result haccount)
  obtain ⟨told, blocks, told', blocks', hadds, hadds', -, hstopped, hiff⟩ := compileElement_of_le hs ht (by decide) e
  obtain ⟨-, hwarnings, hblocks⟩ := hstopped _ hresult
  obtain ⟨htold, hstyles⟩ := hadds.unique hknown
  exact ⟨session 2, session 3, hs, ht, hresult, hresult'.trans (congrArg Account.result haccount'), told, blocks, told',
    blocks', hadds, hadds', htold.trans (congrArg Account.warnings haccount),
    hstyles.trans (congrArg Account.styles haccount), hwarnings, hblocks, hiff.1 ⟨_, hresult⟩⟩

end Session

end SvgPlot
