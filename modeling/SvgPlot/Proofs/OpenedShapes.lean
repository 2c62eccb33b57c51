import Mathlib.Data.List.Perm.Subperm
import Mathlib.Data.Nat.Find
import SvgPlot.Proofs.CoordinateLists

/-!
# Opened shapes

An element that is drawn as some shape comes to a mark with all its numbers, or to one warning and nothing else.

* `Canvas.Gives` says which numbers a value gives on the canvas, by the quantity that it is read as.
* `readMeasures_eq_ok_iff` and `readMeasures_eq_error_iff` say what the measures of a rule come to: all their numbers,
  or the first measure that cannot be read.
* `Session.openShape_outcome` says what opening an element changes in a session, and when which warning is recorded.
  Only an attribute that the element has is ever called invalid, since what stands in for an absent one can be read as
  every quantity but a coordinate list, and coordinate lists are required.
-/

namespace SvgPlot

open Markup (Element)

/-! ## Numbers of a value -/

/-- The value of an attribute. One that is absent counts as `0`. -/
def Markup.Element.valueOf (e : Element) (key : String) : String := (e.attributes.get? key).getD "0"

namespace Canvas

/-- A value gives these numbers when it is read as some quantity. Percentages of horizontal quantities, and of lengths
that belong to neither axis, are taken of the width, those of vertical quantities of the height. -/
inductive Gives (canvas : Canvas) (raw : String) : Quantity → List Float → Prop where
  | ofWidth {quantity : Quantity} {number : Float} (hquantity : quantity ∈ [.x, .width, .length])
    (hnumber : Length.resolve raw canvas.width = .ok number) : Gives canvas raw quantity [number]
  | ofHeight {number : Float} (hnumber : Length.resolve raw canvas.height = .ok number) :
    Gives canvas raw .height [number]
  | turned {number : Float} (hnumber : Length.resolve raw canvas.height = .ok number) :
    Gives canvas raw .y [canvas.height - number]
  | listed {tokens : List String} {numbers : List Float} (hlists : Length.Lists tokens raw)
    (heven : tokens.length % 2 = 0) (hlength : numbers.length = tokens.length)
    (hplaces : ∀ place token, tokens[place]? = some token →
      ∃ number, canvas.coordinate place token = .ok number ∧ numbers[place]? = some number) :
    Gives canvas raw .points numbers

section

variable {canvas : Canvas} {raw : String} {numbers : List Float}

/-- Of tokens that cannot all be read there is a first one that cannot. -/
theorem exists_first_error {tokens : List String}
    (h : ¬∀ place token, tokens[place]? = some token → ∃ number, canvas.coordinate place token = .ok number) :
    ∃ place token error, tokens[place]? = some token ∧ canvas.coordinate place token = .error error ∧
      ∀ i < place, ∀ earlier, tokens[i]? = some earlier → ∃ number, canvas.coordinate i earlier = .ok number := by
  classical
  simp only [not_forall] at h
  obtain ⟨token, htoken, hunread⟩ := Nat.find_spec h
  cases hresult : canvas.coordinate (Nat.find h) token with
  | ok number => exact absurd ⟨number, hresult⟩ hunread
  | error error =>
    refine ⟨Nat.find h, token, error, htoken, hresult, ?_⟩
    intro i hi earlier hearlier
    by_contra hnone
    exact Nat.find_min h hi ⟨earlier, hearlier, hnone⟩

/-- The numbers of a list of tokens are known by their places. -/
theorem coordinates_eq_ok_iff {tokens : List String} (heven : tokens.length % 2 = 0) :
    canvas.coordinates tokens = .ok numbers ↔ numbers.length = tokens.length ∧
      ∀ place token, tokens[place]? = some token →
        ∃ number, canvas.coordinate place token = .ok number ∧ numbers[place]? = some number := by
  constructor
  · intro hnumbers
    by_cases hall : ∀ place token, tokens[place]? = some token → ∃ number, canvas.coordinate place token = .ok number
    · obtain ⟨others, hothers, hlength, hplaces⟩ := exists_coordinates_eq_ok canvas tokens heven hall
      rw [Except.ok.inj (hnumbers.symm.trans hothers)]
      exact ⟨hlength, hplaces⟩
    · obtain ⟨place, token, error, htoken, herror, hearlier⟩ := exists_first_error hall
      have := coordinates_eq_error tokens place heven htoken herror hearlier
      rw [hnumbers] at this
      cases this
  · rintro ⟨hlength, hplaces⟩
    obtain ⟨others, hothers, hlengthOthers, hplacesOthers⟩ := exists_coordinates_eq_ok canvas tokens heven
      fun place token htoken => (hplaces place token htoken).imp fun _ h => h.1
    have hsame : numbers = others := by
      apply List.ext_getElem?
      intro place
      cases htoken : tokens[place]? with
      | none =>
        have hplace := List.getElem?_eq_none_iff.1 htoken
        rw [List.getElem?_eq_none (by omega), List.getElem?_eq_none (by omega)]
      | some token =>
        obtain ⟨number, hnumber, hget⟩ := hplaces place token htoken
        obtain ⟨other, hother, hgetOther⟩ := hplacesOthers place token htoken
        rw [hget, hgetOther, Except.ok.inj (hnumber.symm.trans hother)]
    rw [hsame, hothers]

theorem measure_points_eq_ok_iff :
    canvas.measure .points raw = .ok numbers ↔ canvas.Gives raw .points numbers := by
  constructor
  · intro h
    obtain ⟨tokens, hlists⟩ := Length.exists_lists raw
    by_cases heven : tokens.length % 2 = 0
    · rw [measure_of_lists hlists heven, coordinates_eq_ok_iff heven] at h
      exact .listed hlists heven h.1 h.2
    · rw [measure_of_odd hlists (by omega)] at h
      cases h
  · rintro (⟨hquantity, -⟩ | - | - | ⟨hlists, heven, hlength, hplaces⟩)
    · simp at hquantity
    · rw [measure_of_lists hlists heven, coordinates_eq_ok_iff heven]
      exact ⟨hlength, hplaces⟩

theorem measure_eq_ok_iff {quantity : Quantity} :
    canvas.measure quantity raw = .ok numbers ↔ canvas.Gives raw quantity numbers := by
  have hone (reference : Float) (place : Length → Float) (turn : Float → Float)
      (hplace : ∀ length, place length = turn (length.toPoints reference)) :
      ((Length.read raw).map fun length => [place length]) = .ok numbers ↔
        ∃ number, Length.resolve raw reference = .ok number ∧ numbers = [turn number] := by
    simp [map_eq_ok_iff, Length.resolve, hplace]
  cases quantity with
  | points => exact measure_points_eq_ok_iff
  | y =>
    refine (hone canvas.height canvas.above (canvas.height - ·) fun _ => rfl).trans ⟨?_, ?_⟩
    · rintro ⟨number, hnumber, rfl⟩
      exact .turned hnumber
    · rintro (⟨hquantity, -⟩ | - | hnumber)
      · simp at hquantity
      · exact ⟨_, hnumber, rfl⟩
  | height =>
    refine (hone canvas.height canvas.along id fun _ => rfl).trans ⟨?_, ?_⟩
    · rintro ⟨number, hnumber, rfl⟩
      exact .ofHeight hnumber
    · rintro (⟨hquantity, -⟩ | hnumber)
      · simp at hquantity
      · exact ⟨_, hnumber, rfl⟩
  | _ =>
    refine (hone canvas.width canvas.across id fun _ => rfl).trans ⟨?_, ?_⟩
    · rintro ⟨number, hnumber, rfl⟩
      exact .ofWidth (by simp) hnumber
    · rintro ⟨-, hnumber⟩
      exact ⟨_, hnumber, rfl⟩

end

end Canvas

/-! ## The measures of a rule -/

section

variable {canvas : Canvas} {e : Element} {measures : List Shape.Measure}

/-- The numbers of the measures, one after the other. -/
theorem readMeasures_eq_ok_iff : ∀ {measures : List Shape.Measure} {numbers : List Float},
    readMeasures canvas e measures = .ok numbers ↔
      ∃ values, List.Forall₂ (fun m value => canvas.Gives (e.valueOf m.key) m.quantity value) measures values ∧
        numbers = values.flatten
  | [], numbers => by
    simp [readMeasures, eq_comm]
  | m :: rest, numbers => by
    rw [readMeasures_cons_eq_ok_iff]
    constructor
    · rintro ⟨first, more, hfirst, hmore, rfl⟩
      obtain ⟨values, hvalues, rfl⟩ := readMeasures_eq_ok_iff.1 hmore
      exact ⟨first :: values, .cons (Canvas.measure_eq_ok_iff.1 hfirst) hvalues, rfl⟩
    · rintro ⟨values, hvalues, rfl⟩
      obtain ⟨first, others, hfirst, hothers, rfl⟩ := List.forall₂_cons_left_iff.1 hvalues
      exact ⟨first, _, Canvas.measure_eq_ok_iff.2 hfirst, readMeasures_eq_ok_iff.2 ⟨others, hothers, rfl⟩, rfl⟩

theorem exists_value_of_readMeasures {measures : List Shape.Measure} : ∀ {numbers : List Float},
    readMeasures canvas e measures = .ok numbers →
      ∀ m ∈ measures, ∃ value, canvas.measure m.quantity (e.valueOf m.key) = .ok value := by
  induction measures with
  | nil => exact fun _ => nofun
  | cons m rest ih =>
    intro numbers h
    obtain ⟨first, more, hfirst, hmore, -⟩ := readMeasures_cons_eq_ok_iff.1 h
    exact List.forall_mem_cons.2 ⟨⟨first, hfirst⟩, ih hmore⟩

theorem readMeasures_cons_of_error {m : Shape.Measure} {error : LengthError}
    (h : canvas.measure m.quantity (e.valueOf m.key) = .error error) :
    readMeasures canvas e (m :: measures) = .error (.invalidValue (e.valueOf m.key) m.key e.name (.length error)) := by
  rw [Markup.Element.valueOf] at h
  simp only [readMeasures, h, Markup.Element.valueOf]

theorem readMeasures_cons_eq_error_iff {m : Shape.Measure} {value : List Float} {w : Warning}
    (h : canvas.measure m.quantity (e.valueOf m.key) = .ok value) :
    readMeasures canvas e (m :: measures) = .error w ↔ readMeasures canvas e measures = .error w := by
  rw [Markup.Element.valueOf] at h
  simp only [readMeasures, h]
  cases readMeasures canvas e measures <;> simp [Except.map]

/-- The first measure that cannot be read is what is wrong. -/
theorem readMeasures_eq_error_iff {w : Warning} : ∀ {measures : List Shape.Measure},
    readMeasures canvas e measures = .error w ↔
      ∃ before m later error, measures = before ++ m :: later ∧
        (∀ b ∈ before, ∃ value, canvas.Gives (e.valueOf b.key) b.quantity value) ∧
        canvas.measure m.quantity (e.valueOf m.key) = .error error ∧
        w = .invalidValue (e.valueOf m.key) m.key e.name (.length error)
  | [] => by
    simp [readMeasures]
  | m :: rest => by
    cases hm : canvas.measure m.quantity (e.valueOf m.key) with
    | error error =>
      rw [readMeasures_cons_of_error hm, Except.error.injEq]
      constructor
      · rintro rfl
        exact ⟨[], m, rest, error, rfl, List.forall_mem_nil _, hm, rfl⟩
      · rintro ⟨before, other, later, fault, hmeasures, hbefore, hother, rfl⟩
        cases before with
        | nil =>
          obtain ⟨rfl, rfl⟩ := List.cons.inj hmeasures
          rw [Except.error.inj (hm.symm.trans hother)]
        | cons b before =>
          obtain ⟨rfl, -⟩ := List.cons.inj hmeasures
          obtain ⟨value, hvalue⟩ := hbefore m List.mem_cons_self
          rw [← Canvas.measure_eq_ok_iff, hm] at hvalue
          cases hvalue
    | ok value =>
      rw [readMeasures_cons_eq_error_iff hm, readMeasures_eq_error_iff]
      constructor
      · rintro ⟨before, other, later, fault, rfl, hbefore, hother, rfl⟩
        exact ⟨m :: before, other, later, fault, rfl,
          List.forall_mem_cons.2 ⟨⟨value, Canvas.measure_eq_ok_iff.1 hm⟩, hbefore⟩, hother, rfl⟩
      · rintro ⟨before, other, later, fault, hmeasures, hbefore, hother, rfl⟩
        cases before with
        | nil =>
          obtain ⟨rfl, rfl⟩ := List.cons.inj hmeasures
          rw [hm] at hother
          cases hother
        | cons b before =>
          obtain ⟨rfl, rfl⟩ := List.cons.inj hmeasures
          exact ⟨before, other, later, fault, rfl, (List.forall_mem_cons.1 hbefore).2, hother, rfl⟩

end

/-! ## What can be wrong with an element -/

theorem map_eq_error_iff {ε α β : Type} {r : Except ε α} {f : α → β} {error : ε} :
    r.map f = .error error ↔ r = .error error := by
  cases r <;> simp [Except.map]

/-- Every coordinate list of a shape is required. -/
theorem Shape.key_mem_required_of_points (shape : Shape) :
    ∀ m ∈ shape.rule.measures, m.quantity = .points → m.key ∈ shape.rule.required := by
  cases shape <;> decide

/-- What stands in for an absent attribute can be read as every quantity but a coordinate list. -/
theorem Canvas.exists_measure_zero (canvas : Canvas) {quantity : Quantity} (h : quantity ≠ .points) :
    ∃ numbers, canvas.measure quantity "0" = .ok numbers := by
  cases quantity with
  | points => exact absurd rfl h
  | _ => exact ⟨_, rfl⟩

section

variable {canvas : Canvas} {shape : Shape} {e : Element}

theorem missing_eq_nil_iff :
    shape.rule.missing e.attributes.contains = [] ↔ ∀ key ∈ shape.rule.required, e.attributes.get? key ≠ none := by
  simp [Shape.Rule.missing, Dictionary.contains, List.filter_eq_nil_iff, ← Option.isSome_iff_ne_none]

/-- An attribute that cannot be read is there. -/
theorem get?_of_measure_eq_error {m : Shape.Measure} {error : LengthError} (hm : m ∈ shape.rule.measures)
    (hthere : ∀ key ∈ shape.rule.required, e.attributes.get? key ≠ none)
    (herror : canvas.measure m.quantity (e.valueOf m.key) = .error error) :
    e.attributes.get? m.key = some (e.valueOf m.key) := by
  cases hget : e.attributes.get? m.key with
  | some raw => rw [Markup.Element.valueOf, hget]; rfl
  | none =>
    have hpoints : m.quantity ≠ .points := fun h => hthere _ (shape.key_mem_required_of_points m hm h) hget
    obtain ⟨numbers, hnumbers⟩ := canvas.exists_measure_zero hpoints
    have hzero : e.valueOf m.key = "0" := by rw [Markup.Element.valueOf, hget]; rfl
    rw [hzero, hnumbers] at herror
    cases herror

/-- No shape requires an attribute twice. -/
theorem Shape.nodup_required (shape : Shape) : shape.rule.required.Nodup := by
  cases shape <;> decide

/-- The missing attributes are known by what is among them and by the order of the rule. -/
theorem missing_eq_iff {keys : List String} :
    shape.rule.missing e.attributes.contains = keys ↔
      keys.Sublist shape.rule.required ∧
        ∀ key, key ∈ keys ↔ key ∈ shape.rule.required ∧ e.attributes.get? key = none := by
  have habsent (key : String) : (!e.attributes.contains key) = true ↔ e.attributes.get? key = none := by
    simp [Dictionary.contains]
  constructor
  · rintro rfl
    refine ⟨List.filter_sublist, fun key => ?_⟩
    rw [Shape.Rule.missing, List.mem_filter, habsent]
  · rintro ⟨hsublist, hmem⟩
    have hkept : keys.filter (fun key => !e.attributes.contains key) = keys :=
      List.filter_eq_self.2 fun key hkey => (habsent key).2 ((hmem key).1 hkey).2
    have hsub : keys.Sublist (shape.rule.missing e.attributes.contains) := by
      rw [← hkept]
      exact hsublist.filter _
    have hall : shape.rule.missing e.attributes.contains ⊆ keys := fun key hkey => by
      obtain ⟨hrequired, hkey⟩ := List.mem_filter.1 hkey
      exact (hmem key).2 ⟨hrequired, (habsent key).1 hkey⟩
    have hnodup : (shape.rule.missing e.attributes.contains).Nodup := shape.nodup_required.filter _
    exact (hsub.eq_of_length_le (hnodup.subperm hall).length_le).symm

/-- A missing attribute comes first, then the first measure that cannot be read. -/
theorem markOf_eq_error_iff {w : Warning} :
    shape.markOf canvas e = .error w ↔
      (shape.rule.missing e.attributes.contains ≠ [] ∧
        w = .missingAttributes (shape.rule.missing e.attributes.contains) e.name) ∨
      (shape.rule.missing e.attributes.contains = [] ∧ readMeasures canvas e shape.rule.measures = .error w) := by
  rw [Shape.markOf]
  cases shape.rule.missing e.attributes.contains with
  | nil => simp [map_eq_error_iff]
  | cons key keys => simp [eq_comm]

theorem markOf_eq_missing_iff {keys : List String} {name : String} :
    shape.markOf canvas e = .error (.missingAttributes keys name) ↔
      name = e.name ∧ keys ≠ [] ∧ keys.Sublist shape.rule.required ∧
        ∀ key, key ∈ keys ↔ key ∈ shape.rule.required ∧ e.attributes.get? key = none := by
  rw [← missing_eq_iff, markOf_eq_error_iff]
  constructor
  · rintro (⟨hmissing, hw⟩ | ⟨-, hread⟩)
    · obtain ⟨rfl, rfl⟩ := Warning.missingAttributes.inj hw
      exact ⟨rfl, hmissing, rfl⟩
    · obtain ⟨before, m, later, error, -, -, -, hw⟩ := readMeasures_eq_error_iff.1 hread
      cases hw
  · rintro ⟨rfl, hkeys, rfl⟩
    exact .inl ⟨hkeys, rfl⟩

theorem markOf_eq_invalid_iff {raw key name : String} {reason : BadValue} :
    shape.markOf canvas e = .error (.invalidValue raw key name reason) ↔
      name = e.name ∧ (∀ key ∈ shape.rule.required, e.attributes.get? key ≠ none) ∧
        ∃ before m later error, shape.rule.measures = before ++ m :: later ∧
          (∀ b ∈ before, ∃ value, canvas.Gives (e.valueOf b.key) b.quantity value) ∧
          canvas.measure m.quantity raw = .error error ∧ m.key = key ∧ reason = .length error ∧
          e.attributes.get? key = some raw := by
  rw [← missing_eq_nil_iff, markOf_eq_error_iff]
  constructor
  · rintro (⟨-, hw⟩ | ⟨hmissing, hread⟩)
    · cases hw
    · obtain ⟨before, m, later, error, hmeasures, hbefore, herror, hw⟩ := readMeasures_eq_error_iff.1 hread
      obtain ⟨rfl, rfl, rfl, rfl⟩ := Warning.invalidValue.inj hw
      have hm : m ∈ shape.rule.measures := by simp [hmeasures]
      have hget := get?_of_measure_eq_error hm (missing_eq_nil_iff.1 hmissing) herror
      exact ⟨rfl, hmissing, before, m, later, error, hmeasures, hbefore, herror, rfl, rfl, hget⟩
  · rintro ⟨rfl, hmissing, before, m, later, error, hmeasures, hbefore, herror, rfl, rfl, hget⟩
    have hraw : e.valueOf m.key = raw := by rw [Markup.Element.valueOf, hget]; rfl
    refine .inr ⟨hmissing, readMeasures_eq_error_iff.2 ⟨before, m, later, error, hmeasures, hbefore, ?_, ?_⟩⟩
    · rwa [hraw]
    · rw [hraw]

end

/-! ## What opening an element changes -/

namespace Session

variable {σ : Type} [StyleSink σ]

/-- Opened as a shape, the element comes to no mark, and a session has this warning to record. -/
def Rejects (s : Session σ) (shape : Shape) (e : Element) (w : Warning) : Prop :=
  let opening := openShape s.scene.canvas shape e
  opening.mark = none ∧ (s.record opening.notes).warnings = s.warnings ++ [w]

theorem rejects_iff {s : Session σ} {shape : Shape} {e : Element} {w : Warning} :
    s.Rejects shape e w ↔ shape.markOf s.scene.canvas e = .error w := by
  simp only [Rejects, openShape, warnings_record]
  cases shape.markOf s.scene.canvas e with
  | error other => simp [warningsOf, Note.warning?]
  | ok mark => simp

theorem exists_rejects_missing_iff {s : Session σ} {shape : Shape} {e : Element} :
    (∃ keys name, s.Rejects shape e (.missingAttributes keys name)) ↔
      ∃ key ∈ shape.rule.required, e.attributes.get? key = none := by
  simp only [rejects_iff]
  constructor
  · rintro ⟨keys, name, hw⟩
    obtain ⟨-, hkeys, -, hmem⟩ := markOf_eq_missing_iff.1 hw
    obtain ⟨key, hkey⟩ := List.exists_mem_of_ne_nil keys hkeys
    exact ⟨key, (hmem key).1 hkey⟩
  · rintro ⟨key, hkey, habsent⟩
    refine ⟨_, _, markOf_eq_error_iff.2 (.inl ⟨fun hmissing => ?_, rfl⟩)⟩
    exact missing_eq_nil_iff.1 hmissing key hkey habsent

theorem exists_rejects_invalid_iff {s : Session σ} {shape : Shape} {e : Element} :
    (∃ raw key name reason, s.Rejects shape e (.invalidValue raw key name reason)) ↔
      (∀ key ∈ shape.rule.required, e.attributes.get? key ≠ none) ∧
        ∃ m ∈ shape.rule.measures, ∃ error, s.scene.canvas.measure m.quantity (e.valueOf m.key) = .error error := by
  simp only [rejects_iff]
  constructor
  · rintro ⟨raw, key, name, reason, hw⟩
    obtain ⟨-, hthere, before, m, later, error, hmeasures, -, herror, rfl, -, hget⟩ := markOf_eq_invalid_iff.1 hw
    refine ⟨hthere, m, by simp [hmeasures], error, ?_⟩
    rwa [Markup.Element.valueOf, hget, Option.getD_some]
  · rintro ⟨hthere, m, hm, error, herror⟩
    cases hread : readMeasures s.scene.canvas e shape.rule.measures with
    | error w =>
      obtain ⟨before, first, later, fault, -, -, -, rfl⟩ := readMeasures_eq_error_iff.1 hread
      exact ⟨_, _, _, _, markOf_eq_error_iff.2 (.inr ⟨missing_eq_nil_iff.2 hthere, hread⟩)⟩
    | ok numbers =>
      obtain ⟨value, hvalue⟩ := exists_value_of_readMeasures hread m hm
      rw [hvalue] at herror
      cases herror

/-- Opened as a shape, an element comes to a mark and changes nothing in the session, or it comes to none and adds one
warning. The warning lists the required attributes that are not there, if there are such, and otherwise it names the
first measure that cannot be read; that is always an attribute which the element has. When nothing is wrong, the numbers
of the mark are those of all measures in their order. -/
theorem openShape_outcome (s : Session σ) (shape : Shape) (e : Element) :
    let opening := openShape s.scene.canvas shape e
    let after := s.record opening.notes
    let required := shape.rule.required
    let measures := shape.rule.measures
    after.scene = s.scene ∧ after.sink = s.sink ∧
    ((∃ mark, opening.mark = some mark ∧ after.warnings = s.warnings) ∨ ∃ w, s.Rejects shape e w) ∧
    ((∃ keys name, s.Rejects shape e (.missingAttributes keys name)) ↔
      ∃ key ∈ required, e.attributes.get? key = none) ∧
    (∀ keys name, s.Rejects shape e (.missingAttributes keys name) ↔
      name = e.name ∧ keys ≠ [] ∧ keys.Sublist required ∧
        ∀ key, key ∈ keys ↔ key ∈ required ∧ e.attributes.get? key = none) ∧
    ((∃ raw key name reason, s.Rejects shape e (.invalidValue raw key name reason)) ↔
      (∀ key ∈ required, e.attributes.get? key ≠ none) ∧
        ∃ m ∈ measures, ∃ error, s.scene.canvas.measure m.quantity (e.valueOf m.key) = .error error) ∧
    (∀ raw key name reason, s.Rejects shape e (.invalidValue raw key name reason) ↔
      name = e.name ∧ (∀ key ∈ required, e.attributes.get? key ≠ none) ∧
        ∃ before m later error, measures = before ++ m :: later ∧
          (∀ b ∈ before, ∃ value, s.scene.canvas.Gives (e.valueOf b.key) b.quantity value) ∧
          s.scene.canvas.measure m.quantity raw = .error error ∧ m.key = key ∧ reason = .length error ∧
          e.attributes.get? key = some raw) ∧
    ∀ mark, opening.mark = some mark ↔
      (∀ key ∈ required, e.attributes.get? key ≠ none) ∧
        ∃ values,
          List.Forall₂ (fun m value => s.scene.canvas.Gives (e.valueOf m.key) m.quantity value) measures values ∧
          mark = ⟨shape, values.flatten, (readPayload e shape.rule.payload).1, []⟩ := by
  intro opening after required measures
  have hmark (mark : Mark) : opening.mark = some mark ↔ shape.markOf s.scene.canvas e = .ok mark := by
    simp only [opening, openShape]
    cases shape.markOf s.scene.canvas e <;> simp
  have hsink : stylesOf opening.notes = [] := by
    simp only [opening, openShape]
    cases shape.markOf s.scene.canvas e with
    | error w => rfl
    | ok mark => exact stylesOf_kept _
  refine ⟨rfl, ?_, ?_, exists_rejects_missing_iff, fun keys name => rejects_iff.trans markOf_eq_missing_iff,
    exists_rejects_invalid_iff, fun raw key name reason => rejects_iff.trans markOf_eq_invalid_iff, ?_⟩
  · show (stylesOf opening.notes).foldl StyleSink.add s.sink = s.sink
    rw [hsink]
    rfl
  · cases hresult : shape.markOf s.scene.canvas e with
    | error w => exact .inr ⟨w, rejects_iff.2 hresult⟩
    | ok mark =>
      refine .inl ⟨mark, (hmark mark).2 hresult, ?_⟩
      simp only [after, opening, openShape, hresult, warnings_record, warningsOf_kept, List.append_nil]
  · intro mark
    rw [hmark, markOf_eq_ok_iff, missing_eq_nil_iff]
    refine and_congr_right fun _ => ?_
    simp only [readMeasures_eq_ok_iff]
    constructor
    · rintro ⟨-, ⟨values, hvalues, rfl⟩, rfl⟩
      exact ⟨values, hvalues, rfl⟩
    · rintro ⟨values, hvalues, rfl⟩
      exact ⟨_, ⟨values, hvalues, rfl⟩, rfl⟩

/-- A circle with two values that are no lengths, after an attribute that is absent; and an ellipse with one radius. -/
theorem openShape_outcome_rejected :
    let circle := ((Element.named "circle").setAttribute "cy" "1em").setAttribute "r" "x"
    let ellipse := (Element.named "ellipse").setAttribute "rx" "1"
    let s : Session StyleSheet := ofRoot "" (Element.named "svg") Page.letter {} StyleSheet.empty
    s.Rejects .circle circle (.invalidValue "1em" "cy" "circle" (.length (.unknownUnit "em"))) ∧
      s.Rejects .ellipse ellipse (.missingAttributes ["ry"] "ellipse") := by
  intro circle ellipse s
  obtain ⟨-, -, -, -, -, -, hinvalid, -⟩ := s.openShape_outcome .circle circle
  obtain ⟨-, -, -, -, hmissing, -⟩ := s.openShape_outcome .ellipse ellipse
  refine ⟨(hinvalid _ _ _ _).2 ⟨rfl, by decide, [⟨"cx", .x⟩], ⟨"cy", .y⟩, [⟨"r", .length⟩], .unknownUnit "em", rfl, ?_,
    rfl, rfl, rfl, rfl⟩, (hmissing _ _).2 ⟨rfl, by decide, by decide, ?_⟩⟩
  · have hzero : circle.valueOf "cx" = "0" := by decide +kernel
    obtain ⟨numbers, hnumbers⟩ := s.scene.canvas.exists_measure_zero (by decide : Quantity.x ≠ .points)
    refine List.forall_mem_singleton.2 ⟨numbers, Canvas.measure_eq_ok_iff.1 ?_⟩
    rwa [hzero]
  · intro key
    have hget : ellipse.attributes.get? key = if "rx" = key then some "1" else none := Dictionary.get?_insert ..
    rw [hget]
    by_cases hrx : "rx" = key
    · subst hrx
      simp
    · simp [Shape.rule, hrx, Ne.symm hrx]

end Session

end SvgPlot
