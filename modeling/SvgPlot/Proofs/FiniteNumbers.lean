import SvgPlot.Proofs.CanvasSides
import SvgPlot.Proofs.Conservation
import SvgPlot.Proofs.FloatRange
import SvgPlot.Proofs.LimitChange
import SvgPlot.Proofs.MarkForm
import SvgPlot.Proofs.PlotExchange

/-!
# Finite numbers

The sides of a canvas are more than zero, and the numbers of a plot are finite as long as nothing overflows.

* `Quantity.written` are the numbers in an attribute value, `Element.written` those of an element, and
  `Element.documentNumbers` those of a document: the two sides of its root and the elements that are visited.
* Turning a length into points keeps to numbers (`isNaN_toPoints`) and to a power of two (`fits_toPoints`).
* `forall_mem_measure` and the lemmas after it carry a property of points along to all numbers of a plot.

Nothing keeps a length from being too large for a double. Infinity is then a side of the canvas or a number of a mark,
and on a canvas of infinite height a position may be no number at all.
-/

namespace SvgPlot

open Decimal (Binary Fits IsDivisor IsNonzero)
open Markup (Element)

/-! ## The numbers that are written -/

/-- The numbers in an attribute value, read as its quantity asks. -/
def Quantity.written (quantity : Quantity) (raw : String) : List Float :=
  match quantity with
  | .points =>
    match Length.readPairs raw with
    | .ok pairs => pairs.flatMap fun (first, second) => [first.value, second.value]
    | .error _ => []
  | _ =>
    match Length.read raw with
    | .ok read => [read.value]
    | .error _ => []

/-- The numbers in the attributes that an element is measured by. -/
def Markup.Element.written (e : Element) : List Float :=
  match Role.ofName e.name with
  | .drawn shape => shape.rule.measures.flatMap fun m => m.quantity.written ((e.attributes.get? m.key).getD "0")
  | .style | .metadata | .definitions | .unknown => []

/-- The numbers of a document with this root. -/
def Markup.Element.documentNumbers (root : Element) : List Float :=
  (["width", "height"].filterMap root.attributes.get?).flatMap Quantity.length.written ++
    (root.inside Element.passes).flatMap Element.written

theorem isNaN_of_ofToken {token : List Char} {length : Length} (h : Length.ofToken token = .ok length) :
    length.value.isNaN = false := by
  unfold Length.ofToken at h
  split at h
  · cases h
  · split at h
    · cases h
    · split at h
      · cases h
      · cases h
        exact Decimal.Numeral.isNaN_toFloat _

/-- What holds of everything that can be read holds of all that is read in a row. -/
theorem forall_mem_of_mapM {ε α β : Type} {f : α → Except ε β} {P : β → Prop} (hf : ∀ a b, f a = .ok b → P b)
    {as : List α} {bs : List β} (h : as.mapM f = .ok bs) : ∀ b ∈ bs, P b := by
  induction as generalizing bs with
  | nil =>
    cases h
    exact nofun
  | cons a rest ih =>
    rw [List.mapM_cons] at h
    cases hfirst : f a with
    | error error =>
      rw [hfirst] at h
      cases h
    | ok b =>
      cases hrest : rest.mapM f with
      | error error =>
        rw [hfirst, hrest] at h
        cases h
      | ok others =>
        rw [hfirst, hrest] at h
        cases h
        exact List.forall_mem_cons.2 ⟨hf a b hfirst, ih hrest⟩

theorem isNaN_of_readPairs {raw : String} {pairs : List (Length × Length)} (h : Length.readPairs raw = .ok pairs) :
    ∀ pair ∈ pairs, pair.1.value.isNaN = false ∧ pair.2.value.isNaN = false := by
  simp only [Length.readPairs] at h
  split at h
  · cases h
  · refine forall_mem_of_mapM (fun token pair hpair => ?_) h
    cases hx : Length.ofToken token.1 with
    | error error =>
      simp only [hx] at hpair
      cases hpair
    | ok x =>
      cases hy : Length.ofToken token.2 with
      | error error =>
        simp only [hx, hy] at hpair
        cases hpair
      | ok y =>
        simp only [hx, hy] at hpair
        cases hpair
        exact ⟨isNaN_of_ofToken hx, isNaN_of_ofToken hy⟩

/-- What is written may be infinite, but it is a number. -/
theorem isNaN_of_mem_written {quantity : Quantity} {raw : String} : ∀ v ∈ quantity.written raw, v.isNaN = false := by
  intro v hv
  cases quantity with
  | points =>
    simp only [Quantity.written] at hv
    split at hv
    · rename_i pairs hpairs
      obtain ⟨pair, hpair, hv⟩ := List.mem_flatMap.1 hv
      obtain ⟨hx, hy⟩ := isNaN_of_readPairs hpairs pair hpair
      rcases hv with _ | ⟨_, _ | ⟨_, ⟨⟩⟩⟩
      · exact hx
      · exact hy
    · cases hv
  | _ =>
    simp only [Quantity.written] at hv
    split at hv
    · rename_i length hlength
      obtain rfl := List.mem_singleton.1 hv
      exact isNaN_of_ofToken hlength
    · cases hv

theorem Markup.Element.isNaN_of_mem_written {e : Element} : ∀ v ∈ e.written, v.isNaN = false := by
  intro v hv
  unfold Element.written at hv
  split at hv
  · obtain ⟨m, -, hv⟩ := List.mem_flatMap.1 hv
    exact SvgPlot.isNaN_of_mem_written v hv
  all_goals cases hv

/-! ## Lengths in points -/

section

variable {length : Length} {reference : Float} {n k : Nat}

theorem isNonzero_constants :
    IsNonzero 100.0 ∧ IsNonzero 72.0 ∧ IsNonzero 2.54 ∧ IsNonzero 25.4 ∧ IsNonzero 12.0 :=
  ⟨Decimal.isNonzero_of_pos (by decide) (by decide), Decimal.isNonzero_of_pos (by decide) (by decide),
    Decimal.isNonzero_of_pos (by decide) (by decide), Decimal.isNonzero_of_pos (by decide) (by decide),
    Decimal.isNonzero_of_pos (by decide) (by decide)⟩

/-- A length is a number of points, if its reference is finite and not zero. -/
theorem isNaN_toPoints (hvalue : length.value.isNaN = false) (hreference : IsNonzero reference) :
    (length.toPoints reference).isNaN = false := by
  obtain ⟨hundred, hinch, hcentimetre, hmillimetre, hpica⟩ := isNonzero_constants
  rw [Length.toPoints]
  cases length.unit with
  | percent => exact Decimal.isNaN_mul (Decimal.isNaN_div hvalue hundred) hreference
  | inch => exact Decimal.isNaN_mul hvalue hinch
  | centimetre => exact Decimal.isNaN_div (Decimal.isNaN_mul hvalue hinch) hcentimetre
  | millimetre => exact Decimal.isNaN_div (Decimal.isNaN_mul hvalue hinch) hmillimetre
  | pica => exact Decimal.isNaN_mul hvalue hpica
  | point => exact hvalue
  | pixel => exact hvalue

/-- A length is within a power of two in points, if its number and its reference are. An inch is within `2 ^ 7`. -/
theorem fits_toPoints (hvalue : Fits n length.value.toModel.unpack) (hreference : Fits k reference.toModel.unpack)
    (hinch : 7 ≤ k) (h : n + k ≤ 1023) : Fits (n + k) (length.toPoints reference).toModel.unpack := by
  have hpoints : Fits 7 (72.0 : Float).toModel.unpack := ⟨53, by decide, rfl, by decide⟩
  have hpica : Fits 7 (12.0 : Float).toModel.unpack := ⟨56, by decide, rfl, by decide⟩
  have hundred : IsDivisor 100.0 := ⟨.positive, 0x19000000000000, 46, by decide, rfl, by decide⟩
  have hcentimetre : IsDivisor 2.54 := ⟨.positive, 0x1451eb851eb852, 51, by decide, rfl, by decide⟩
  have hmillimetre : IsDivisor 25.4 := ⟨.positive, 0x19666666666666, 48, by decide, rfl, by decide⟩
  have hscaled := Decimal.fits_mul hvalue hpoints (by omega)
  rw [Length.toPoints]
  cases length.unit with
  | percent => exact Decimal.fits_mul (Decimal.fits_div hvalue hundred (by omega)) hreference h
  | inch => exact hscaled.mono (by omega)
  | centimetre => exact (Decimal.fits_div hscaled hcentimetre (by omega)).mono (by omega)
  | millimetre => exact (Decimal.fits_div hscaled hmillimetre (by omega)).mono (by omega)
  | pica => exact (Decimal.fits_mul hvalue hpica (by omega)).mono (by omega)
  | point => exact hvalue.mono (by omega)
  | pixel => exact hvalue.mono (by omega)

end

/-! ## From lengths to marks -/

/-- A canvas sends lengths whose numbers are of one kind to points of another. -/
structure Canvas.Sends (canvas : Canvas) (P Q : Float → Prop) : Prop where
  across : ∀ length : Length, P length.value → Q (canvas.across length)
  along : ∀ length : Length, P length.value → Q (canvas.along length)
  above : ∀ length : Length, P length.value → Q (canvas.above length)

section

variable {P Q : Float → Prop} {canvas : Canvas}

theorem forall_mem_measure (hsends : canvas.Sends P Q) {quantity : Quantity} {raw : String} {numbers : List Float}
    (h : canvas.measure quantity raw = .ok numbers) (hwritten : ∀ v ∈ quantity.written raw, P v) :
    ∀ x ∈ numbers, Q x := by
  cases quantity with
  | points =>
    obtain ⟨pairs, hpairs, rfl⟩ := map_eq_ok_iff.1 h
    simp only [Quantity.written, hpairs, List.forall_mem_flatMap, List.forall_mem_cons] at hwritten
    intro x hx
    obtain ⟨pair, hpair, hx⟩ := List.mem_flatMap.1 hx
    obtain ⟨hfirst, hsecond, -⟩ := hwritten pair hpair
    rcases hx with _ | ⟨_, _ | ⟨_, ⟨⟩⟩⟩
    · exact hsends.across _ hfirst
    · exact hsends.above _ hsecond
  | y =>
    obtain ⟨read, hread, rfl⟩ := map_eq_ok_iff.1 h
    simp only [Quantity.written, hread, List.forall_mem_singleton] at hwritten ⊢
    exact hsends.above read hwritten
  | height =>
    obtain ⟨read, hread, rfl⟩ := map_eq_ok_iff.1 h
    simp only [Quantity.written, hread, List.forall_mem_singleton] at hwritten ⊢
    exact hsends.along read hwritten
  | _ =>
    obtain ⟨read, hread, rfl⟩ := map_eq_ok_iff.1 h
    simp only [Quantity.written, hread, List.forall_mem_singleton] at hwritten ⊢
    exact hsends.across read hwritten

theorem forall_mem_readMeasures (hsends : canvas.Sends P Q) {e : Element} {measures : List Shape.Measure}
    {numbers : List Float} (h : readMeasures canvas e measures = .ok numbers)
    (hwritten : ∀ m ∈ measures, ∀ v ∈ m.quantity.written ((e.attributes.get? m.key).getD "0"), P v) :
    ∀ x ∈ numbers, Q x := by
  induction measures generalizing numbers with
  | nil =>
    cases h
    exact nofun
  | cons m rest ih =>
    obtain ⟨hm, hrest⟩ := List.forall_mem_cons.1 hwritten
    obtain ⟨first, more, hfirst, hmore, rfl⟩ := readMeasures_cons_eq_ok_iff.1 h
    rw [List.forall_mem_append]
    exact ⟨forall_mem_measure hsends hfirst hm, ih hmore hrest⟩

theorem forall_mem_openElement (hsends : canvas.Sends P Q) {e : Element} {mark : Mark}
    (h : (openElement canvas e).mark = some mark) (hwritten : ∀ v ∈ e.written, P v) : ∀ x ∈ mark.numbers, Q x := by
  obtain ⟨shape, hrole, hmark⟩ := mark_openElement_eq_some_iff.1 h
  obtain ⟨-, numbers, hnumbers, rfl⟩ := markOf_eq_ok_iff.1 hmark
  simp only [Element.written, hrole, List.forall_mem_flatMap] at hwritten
  exact forall_mem_readMeasures hsends hnumbers hwritten

/-- The numbers of a compiled document come of those that are written in the elements that were visited. -/
theorem Session.forall_mem_compile {σ : Type} [StyleSink σ] {s : Session σ} (hsends : s.scene.canvas.Sends P Q)
    {root : Mark} (h : s.compile.2 = .ok root)
    (hwritten : ∀ v ∈ (s.scene.root.inside Element.passes).flatMap Element.written, P v) :
    ∀ x ∈ root.preorder.flatMap Mark.numbers, Q x := by
  obtain ⟨hbare, -⟩ := compile_eq_visited h
  rw [result_compile] at h
  obtain ⟨marks, -, rfl⟩ := convert_eq_ok_iff.1 h
  rw [Mark.preorder_eq, List.tail_cons] at hbare
  rw [Mark.preorder_eq]
  intro x hx
  rw [List.flatMap_cons, List.mem_append] at hx
  rcases hx with hx | hx
  · cases hx
  · obtain ⟨mark, hmark, hx⟩ := List.mem_flatMap.1 hx
    have hvisited := List.mem_map_of_mem (f := Mark.bare) hmark
    rw [hbare] at hvisited
    obtain ⟨e, he, hopened⟩ := List.mem_filterMap.1 hvisited
    rw [List.forall_mem_flatMap] at hwritten
    exact forall_mem_openElement hsends hopened (hwritten e he) x hx

end

/-! ## The canvas -/

/-- A side of the canvas is that of the page, or what the root says if that is more than zero. -/
theorem Scene.side_cases (root : Element) (key : String) (pageSide : Float) :
    (Scene.side root key pageSide).1 = pageSide ∨
      ∃ raw length, root.attributes.get? key = some raw ∧ Length.read raw = .ok length ∧
        (Scene.side root key pageSide).1 = length.toPoints pageSide ∧ 0.0 < length.toPoints pageSide := by
  obtain ⟨size, hsize⟩ | hnone | ⟨raw, reason, hrefuses⟩ := Scene.side_trichotomy root key pageSide
  · have hside := congrArg Prod.fst (Scene.side_of_sizes hsize)
    obtain ⟨raw, hraw, hresolve, hpositive⟩ := hsize
    obtain ⟨length, hread, rfl⟩ := map_eq_ok_iff.1 hresolve
    exact .inr ⟨raw, length, hraw, hread, hside, hpositive⟩
  · exact .inl (congrArg Prod.fst (Scene.side_of_none hnone))
  · exact .inl (Scene.side_of_refuses hrefuses).1

theorem Scene.fits_side {root : Element} {key : String} {pageSide : Float} {n k : Nat}
    (hkey : key ∈ ["width", "height"]) (hwritten : ∀ v ∈ root.documentNumbers, Fits n v.toModel.unpack)
    (hpage : Fits k pageSide.toModel.unpack) (hinch : 7 ≤ k) (h : n + k ≤ 1023) :
    Fits (n + k) (Scene.side root key pageSide).1.toModel.unpack := by
  rcases Scene.side_cases root key pageSide with hside | ⟨raw, length, hraw, hread, hside, -⟩
  · rw [hside]
    exact hpage.mono (by omega)
  · rw [hside]
    refine fits_toPoints (hwritten _ ?_) hpage hinch h
    apply List.mem_append_left
    refine List.mem_flatMap.2 ⟨raw, List.mem_filterMap.2 ⟨key, hkey, hraw⟩, ?_⟩
    simp only [Quantity.written, hread, List.mem_singleton]

/-- On a canvas of finite size all lengths that are numbers come to numbers. -/
theorem Canvas.sends_numbers {canvas : Canvas} (hwidth : IsNonzero canvas.width) (hheight : IsNonzero canvas.height)
    (hfinite : canvas.height.isFinite = true) : canvas.Sends (fun x => x.isNaN = false) fun x => x.isNaN = false where
  across _ hvalue := isNaN_toPoints hvalue hwidth
  along _ hvalue := isNaN_toPoints hvalue hheight
  above _ hvalue := Decimal.isNaN_sub hfinite (isNaN_toPoints hvalue hheight)

/-- On a canvas within a power of two lengths come to numbers within another. -/
theorem Canvas.sends_fits {canvas : Canvas} {n k : Nat} (hwidth : Fits k canvas.width.toModel.unpack)
    (hheight : Fits k canvas.height.toModel.unpack) (hinch : 7 ≤ k) (h : n + k + 1 ≤ 1023) :
    canvas.Sends (fun x => Fits n x.toModel.unpack) fun x => Fits (n + k + 1) x.toModel.unpack where
  across _ hvalue := (fits_toPoints hvalue hwidth hinch (by omega)).mono (by omega)
  along _ hvalue := (fits_toPoints hvalue hheight hinch (by omega)).mono (by omega)
  above _ hvalue := Decimal.fits_sub (hheight.mono (by omega)) (fits_toPoints hvalue hheight hinch (by omega)) h

/-! ## Plots -/

section

variable {σ : Type} {s : Session σ} {mark : Mark}

/-- The document and the canvas that a session starts with. -/
theorem Session.canvas_of_start {markup : String} {page : Page} {settings : Settings} {sink : σ}
    (h : start markup page settings sink = .ok s) :
    Element.read settings.maxDepth markup = .ok s.scene.root ∧
      s.scene.canvas.width = (Scene.side s.scene.root "width" page.width).1 ∧
      s.scene.canvas.height = (Scene.side s.scene.root "height" page.height).1 := by
  obtain ⟨root, hread, -, rfl⟩ := start_eq_ok_iff.1 h
  exact ⟨hread, rfl, rfl⟩

variable [StyleSink σ]

theorem Session.isNaN_of_compile (h : s.compile.2 = .ok mark) (hwidth : IsNonzero s.scene.canvas.width)
    (hheight : IsNonzero s.scene.canvas.height) (hfinite : s.scene.canvas.height.isFinite = true) :
    ∀ x ∈ mark.preorder.flatMap Mark.numbers, x.isNaN = false := by
  refine forall_mem_compile (Canvas.sends_numbers hwidth hheight hfinite) h ?_
  rw [List.forall_mem_flatMap]
  exact fun e _ => Element.isNaN_of_mem_written

theorem Session.fits_of_compile {n k : Nat} (h : s.compile.2 = .ok mark)
    (hwidth : Fits k s.scene.canvas.width.toModel.unpack) (hheight : Fits k s.scene.canvas.height.toModel.unpack)
    (hwritten : ∀ v ∈ s.scene.root.documentNumbers, Fits n v.toModel.unpack) (hinch : 7 ≤ k)
    (hroom : n + k + 1 ≤ 1023) :
    ∀ x ∈ mark.preorder.flatMap Mark.numbers, Fits (n + k + 1) x.toModel.unpack :=
  forall_mem_compile (Canvas.sends_fits hwidth hheight hinch hroom) h
    fun v hv => hwritten v (List.mem_append_right _ hv)

end

theorem Plot.forall_mem_numbers_iff {plot : Plot} {P : Float → Prop} :
    (∀ x ∈ plot.numbers, P x) ↔
      P plot.canvas.width ∧ P plot.canvas.height ∧ ∀ x ∈ plot.root.preorder.flatMap Mark.numbers, P x := by
  rw [Plot.numbers, List.forall_mem_append, List.forall_mem_cons, List.forall_mem_singleton, and_assoc]

namespace Compiler

end Compiler

end SvgPlot
