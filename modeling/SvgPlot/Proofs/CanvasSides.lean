import SvgPlot.Proofs.FloatRange
import SvgPlot.Proofs.LoggedWarnings
import SvgPlot.Proofs.OpenedShapes

/-!
# The size of the canvas

A root may say how wide and how high its canvas is. What it says is taken if it comes to a number more than zero;
otherwise the side of the page stands in, with a warning if there was anything to take.

* `Canvas.TakesPercentages` says what the percentages in a value come to on a canvas.
* `Scene.Settles` says how a side is settled and what is told about it. It holds for every root (`Scene.settles_side`).
* `Session.start_settles` puts both together: percentages of the root are taken of the sides of the page, those below
  the root of the sides of the canvas.
-/

namespace SvgPlot

open Markup (Element)

/-! ## Percentages -/

/-- The text is read as a percentage. -/
def Length.IsPercentage (raw : String) (n : Float) : Prop := read raw = .ok ⟨n, .percent⟩

theorem Length.IsPercentage.resolve_eq {raw : String} {n : Float} (h : IsPercentage raw n) (reference : Float) :
    Length.resolve raw reference = .ok (n / 100.0 * reference) := by
  rw [Length.resolve, h]
  rfl

namespace Canvas

/-- The percentages in a value come to shares of the sides of the canvas: of its width for horizontal quantities, and
for lengths that belong to neither axis, of its height for vertical ones, turned around for positions. -/
def TakesPercentages (canvas : Canvas) (raw : String) (value : List Float) : Quantity → Prop
  | .x | .width | .length => ∀ n, Length.IsPercentage raw n → value = [n / 100.0 * canvas.width]
  | .y => ∀ n, Length.IsPercentage raw n → value = [canvas.height - n / 100.0 * canvas.height]
  | .height => ∀ n, Length.IsPercentage raw n → value = [n / 100.0 * canvas.height]
  | .points => ∀ tokens, Length.Lists tokens raw → ∀ place token n, tokens[place]? = some token →
    Length.IsPercentage token n →
      value[place]? = some (if place % 2 = 0 then n / 100.0 * canvas.width
        else canvas.height - n / 100.0 * canvas.height)

section

variable {canvas : Canvas} {raw : String}

theorem coordinate_percentage {token : String} {n : Float} (h : Length.IsPercentage token n) (place : Nat) :
    canvas.coordinate place token = .ok (if place % 2 = 0 then n / 100.0 * canvas.width
      else canvas.height - n / 100.0 * canvas.height) := by
  rw [coordinate, h.resolve_eq, h.resolve_eq]
  split
  · rfl
  · rfl

/-- A text lists its tokens in one way. -/
theorem lists_unique {tokens others : List String} (h : Length.Lists tokens raw) (hothers : Length.Lists others raw) :
    tokens = others := by
  have hfields := (Text.fields_of_spread h).symm.trans (Text.fields_of_spread hothers)
  exact List.map_injective_iff.2 (fun _ _ => String.toList_inj.1) hfields

theorem takesPercentages_of_gives {quantity : Quantity} {value : List Float} (h : canvas.Gives raw quantity value) :
    canvas.TakesPercentages raw value quantity := by
  have hnumber {reference number n : Float} (hresolve : Length.resolve raw reference = .ok number)
      (hn : Length.IsPercentage raw n) : number = n / 100.0 * reference :=
    Except.ok.inj (hresolve.symm.trans (hn.resolve_eq reference))
  cases h with
  | @ofWidth _ number hquantity hresolve =>
    have hshare : ∀ n, Length.IsPercentage raw n → [number] = [n / 100.0 * canvas.width] := fun n hn => by
      rw [hnumber hresolve hn]
    simp only [List.mem_cons, List.not_mem_nil, or_false] at hquantity
    rcases hquantity with rfl | rfl | rfl
    · exact hshare
    · exact hshare
    · exact hshare
  | ofHeight hresolve =>
    intro n hn
    rw [hnumber hresolve hn]
  | turned hresolve =>
    intro n hn
    rw [hnumber hresolve hn]
  | listed hlists heven hlength hplaces =>
    intro tokens hthere place token n htoken hn
    rw [lists_unique hthere hlists] at htoken
    obtain ⟨number, hcoordinate, hget⟩ := hplaces place token htoken
    rw [hget, Except.ok.inj (hcoordinate.symm.trans (coordinate_percentage hn place))]

end

end Canvas

/-- The numbers of a mark that an element is opened with are those of its measures, with percentages taken of the
canvas. -/
theorem exists_values_of_openElement {canvas : Canvas} {e : Element} {mark : Mark}
    (h : (openElement canvas e).mark = some mark) :
    ∃ values, mark.numbers = values.flatten ∧
      List.Forall₂ (fun m value => canvas.TakesPercentages (e.valueOf m.key) value m.quantity)
        mark.shape.rule.measures values := by
  obtain ⟨shape, -, hmark⟩ := mark_openElement_eq_some_iff.1 h
  obtain ⟨-, numbers, hnumbers, rfl⟩ := markOf_eq_ok_iff.1 hmark
  obtain ⟨values, hvalues, rfl⟩ := readMeasures_eq_ok_iff.1 hnumbers
  exact ⟨values, rfl, hvalues.imp fun _ _ => Canvas.takesPercentages_of_gives⟩

/-! ## One side -/

namespace Scene

/-- The root gives a size for a side of the canvas: what it says comes to a number more than zero. -/
def Sizes (root : Element) (key : String) (pageSide size : Float) : Prop :=
  ∃ raw, root.attributes.get? key = some raw ∧ Length.resolve raw pageSide = .ok size ∧ 0.0 < size

/-- What the root says about a side of the canvas is refused for a reason. -/
def Refuses (root : Element) (key : String) (pageSide : Float) (raw reason : String) : Prop :=
  root.attributes.get? key = some raw ∧
    ((∃ size, Length.resolve raw pageSide = .ok size ∧ ¬0.0 < size ∧ reason = "must be positive") ∨
      ∃ error, Length.resolve raw pageSide = .error error ∧ reason = error.message)

/-- How a side of the canvas is settled, and what is told about it. -/
structure Settles (root : Element) (key : String) (pageSide side : Float) (told : List String) : Prop where
  given : ∀ size, Sizes root key pageSide size → side = size
  otherwise : (∀ size, ¬Sizes root key pageSide size) → side = pageSide
  percentage : ∀ raw n, root.attributes.get? key = some raw → Length.IsPercentage raw n →
    0.0 < n / 100.0 * pageSide → side = n / 100.0 * pageSide
  refused : ∀ raw reason, Refuses root key pageSide raw reason →
    told = [s!"Invalid value '{raw}' for attribute {key} on tag {rootName}: {reason}"]
  silent : (∀ raw reason, ¬Refuses root key pageSide raw reason) → told = []
  pos : 0.0 < side
  number : side.isNaN = false

section

variable {root : Element} {key : String} {pageSide : Float}

theorem side_of_none (h : root.attributes.get? key = none) : side root key pageSide = (pageSide, []) := by
  simp only [side, h]

theorem side_of_sizes {size : Float} (h : Sizes root key pageSide size) : side root key pageSide = (size, []) := by
  obtain ⟨raw, hraw, hresolve, hpos⟩ := h
  simp only [side, hraw, hresolve, if_pos hpos]

theorem side_of_refuses {raw reason : String} (h : Refuses root key pageSide raw reason) :
    (side root key pageSide).1 = pageSide ∧ (side root key pageSide).2.map Warning.message =
      [s!"Invalid value '{raw}' for attribute {key} on tag {rootName}: {reason}"] := by
  obtain ⟨hraw, ⟨size, hresolve, hpos, rfl⟩ | ⟨error, hresolve, rfl⟩⟩ := h
  · simp only [side, hraw, hresolve, if_neg hpos, true_and]
    rfl
  · simp only [side, hraw, hresolve, true_and]
    rfl

/-- A root gives a size for a side, or says nothing about it, or what it says is refused. -/
theorem side_trichotomy (root : Element) (key : String) (pageSide : Float) :
    (∃ size, Sizes root key pageSide size) ∨ root.attributes.get? key = none ∨
      ∃ raw reason, Refuses root key pageSide raw reason := by
  cases hraw : root.attributes.get? key with
  | none => exact .inr (.inl rfl)
  | some raw =>
    cases hresolve : Length.resolve raw pageSide with
    | error error => exact .inr (.inr ⟨raw, _, hraw, .inr ⟨error, hresolve, rfl⟩⟩)
    | ok size =>
      by_cases hpos : 0.0 < size
      · exact .inl ⟨size, raw, hraw, hresolve, hpos⟩
      · exact .inr (.inr ⟨raw, _, hraw, .inl ⟨size, hresolve, hpos, rfl⟩⟩)

theorem pos_side (root : Element) (key : String) (h : 0.0 < pageSide) : 0.0 < (side root key pageSide).1 := by
  obtain ⟨size, hsize⟩ | hnone | ⟨raw, reason, hrefuses⟩ := side_trichotomy root key pageSide
  · rw [side_of_sizes hsize]
    obtain ⟨raw, -, -, hpos⟩ := hsize
    exact hpos
  · rwa [side_of_none hnone]
  · rwa [(side_of_refuses hrefuses).1]

theorem settles_side (hpage : 0.0 < pageSide) :
    Settles root key pageSide (side root key pageSide).1 ((side root key pageSide).2.map Warning.message) where
  given size h := congrArg Prod.fst (side_of_sizes h)
  otherwise h := by
    obtain ⟨size, hsize⟩ | hnone | ⟨raw, reason, hrefuses⟩ := side_trichotomy root key pageSide
    · exact absurd hsize (h size)
    · rw [side_of_none hnone]
    · exact (side_of_refuses hrefuses).1
  percentage raw n hraw hn hpos := congrArg Prod.fst (side_of_sizes ⟨raw, hraw, hn.resolve_eq pageSide, hpos⟩)
  refused raw reason h := (side_of_refuses h).2
  silent h := by
    obtain ⟨size, hsize⟩ | hnone | ⟨raw, reason, hrefuses⟩ := side_trichotomy root key pageSide
    · rw [side_of_sizes hsize]
      rfl
    · rw [side_of_none hnone]
      rfl
    · exact absurd hrefuses (h raw reason)
  pos := pos_side root key hpage
  number := Decimal.isNaN_of_pos (pos_side root key hpage)

end

end Scene

/-! ## Both sides -/

namespace Session

/-- A document with an `svg` root is never refused for its size. On an admitted page both sides of its canvas are
settled, the first warnings are about the width and then the height, and the percentages inside the root are taken of
the canvas. -/
theorem start_settles {σ : Type} [StyleSink σ] {markup : String} {settings : Settings} {root : Element}
    (hread : Element.read settings.maxDepth markup = .ok root) (hname : root.name = Scene.rootName) {page : Page}
    (hpage : page.IsAdmitted) (sink : σ) :
    ∃ (s : Session σ) (aboutWidth aboutHeight : List String), start markup page settings sink = .ok s ∧
      Scene.Settles root "width" page.width s.scene.canvas.width aboutWidth ∧
      Scene.Settles root "height" page.height s.scene.canvas.height aboutHeight ∧
      s.warnings.map Warning.message = aboutWidth ++ aboutHeight ∧
      (∀ mark, s.compile.2 = .ok mark →
        mark.preorder.tail.map Mark.bare =
          (root.inside Element.passes).filterMap fun e => (openElement s.scene.canvas e).mark) ∧
      ∀ e mark, (openElement s.scene.canvas e).mark = some mark →
        ∃ values, mark.numbers = values.flatten ∧
          List.Forall₂ (fun m value => s.scene.canvas.TakesPercentages (e.valueOf m.key) value m.quantity)
            mark.shape.rule.measures values := by
  refine ⟨ofRoot markup root page settings sink, _, _, start_eq_ok_iff.2 ⟨root, hread, hname, rfl⟩,
    Scene.settles_side hpage.1.2, Scene.settles_side hpage.2.2, ?_, fun mark hmark => (compile_eq_visited hmark).1,
    fun e mark => exists_values_of_openElement⟩
  rw [warnings_ofRoot, List.map_append]

/-- A width that is no number, and half the height: only the height is taken. -/
theorem start_settles_half :
    let markup := "<svg width='wide' height='50%'><line x1='10%' y1='10%'/></svg>"
    ∃ s : Session StyleSheet, start markup Page.letter {} StyleSheet.empty = .ok s ∧ s.scene.canvas = ⟨612.0, 396.0⟩ ∧
      s.warnings.map Warning.message = ["Invalid value 'wide' for attribute width on tag svg: invalid number 'wide'"] ∧
      ∃ e mark rest, e ∈ s.scene.root.inside Element.passes ∧ (openElement s.scene.canvas e).mark = some mark ∧
        mark.numbers = 61.2 :: 356.4 :: rest := by
  intro markup
  let line : Element := ⟨"line", Dictionary.ofList [("x1", "10%"), ("y1", "10%")], [], []⟩
  let root : Element := ⟨"svg", Dictionary.ofList [("width", "wide"), ("height", "50%")], [], [line]⟩
  have hread : Element.read 256 markup = .ok root := by decide +kernel
  obtain ⟨s, aboutWidth, aboutHeight, hstart, hwidth, hheight, hwarnings, -, hopened⟩ :=
    @start_settles StyleSheet _ markup {} root hread rfl Page.letter Page.isAdmitted_letter StyleSheet.empty
  have hwide : Length.resolve "wide" 612.0 = .error (.notANumber "wide") := by decide +kernel
  have hunsized : ∀ size, ¬Scene.Sizes root "width" 612.0 size := by
    rintro size ⟨raw, hraw, hresolve, -⟩
    obtain rfl : "wide" = raw := Option.some.inj hraw
    cases hwide.symm.trans hresolve
  have hcanvas : s.scene.canvas = ⟨612.0, 396.0⟩ := by
    have hhalf : Length.IsPercentage "50%" 50.0 := by
      unfold Length.IsPercentage
      decide +kernel
    have hsides : s.scene.canvas.width = 612.0 ∧ s.scene.canvas.height = 50.0 / 100.0 * 792.0 :=
      ⟨hwidth.otherwise hunsized, hheight.percentage "50%" 50.0 rfl hhalf (by decide +kernel)⟩
    have hpoints : (50.0 / 100.0 * 792.0 : Float) = 396.0 := by decide +kernel
    rw [← hpoints, ← hsides.1, ← hsides.2]
  have htold : s.warnings.map Warning.message =
      ["Invalid value 'wide' for attribute width on tag svg: invalid number 'wide'"] := by
    rw [hwarnings, hwidth.refused "wide" _ ⟨rfl, .inr ⟨_, hwide, rfl⟩⟩, hheight.silent ?_, List.append_nil]
    · decide +kernel
    · rintro raw reason ⟨hraw, hcause⟩
      obtain rfl : "50%" = raw := Option.some.inj hraw
      have hresolved : Length.resolve "50%" Page.letter.height = .ok 396.0 := by decide +kernel
      rcases hcause with ⟨size, hresolve, hpos, -⟩ | ⟨error, hresolve, -⟩
      · cases hresolved.symm.trans hresolve
        exact hpos (by decide +kernel)
      · cases hresolved.symm.trans hresolve
  have hroot : s.scene.root = root := by
    obtain ⟨root', hread', -, hs⟩ := start_eq_ok_iff.1 hstart
    rw [hs]
    exact Except.ok.inj (hread'.symm.trans hread)
  have hinside : line ∈ s.scene.root.inside Element.passes := by
    rw [hroot]
    exact List.mem_singleton_self line
  have hshape : (openElement s.scene.canvas line).mark.map Mark.shape = some .line := by
    rw [hcanvas]
    decide +kernel
  obtain ⟨mark, hmark, hshape⟩ := Option.map_eq_some_iff.1 hshape
  obtain ⟨values, hnumbers, hvalues⟩ := hopened line mark hmark
  have htenth : Length.IsPercentage "10%" 10.0 := by
    unfold Length.IsPercentage
    decide +kernel
  rw [hshape, hcanvas] at hvalues
  cases hvalues with
  | cons hx htail => cases htail with
    | @cons _ _ _ others hy _ =>
      have hacross : (10.0 / 100.0 * 612.0 : Float) = 61.2 := by decide +kernel
      have habove : (396.0 - 10.0 / 100.0 * 396.0 : Float) = 356.4 := by decide +kernel
      refine ⟨s, hstart, hcanvas, htold, line, mark, others.flatten, hinside, hmark, ?_⟩
      rw [hnumbers, hx 10.0 htenth, hy 10.0 htenth, hacross, habove]
      simp only [List.flatten_cons, List.cons_append, List.nil_append]

end Session

end SvgPlot
