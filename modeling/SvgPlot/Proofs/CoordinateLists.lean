import SvgPlot.Proofs.MarkForm

/-!
# Coordinate lists

The value of a coordinate list is cut at commas and blanks, however many stand in a row, and what is left are tokens
that give the horizontal and the vertical positions in turn.

* `Text.Spread` says which texts have given fields in them, and `Text.fields_of_spread` that these are the ones they are
  cut into. Every text is such a text (`Text.exists_spread`).
* `Canvas.coordinate` is the number of one token by its place in the list, and `Canvas.measure_of_lists` reads a whole
  list by it.
* `Canvas.measure_points` says what a list comes to, and that a polyline through two points is read as a line between
  them is.
-/

namespace SvgPlot

open Markup (Element)

namespace Text

/-! ## Fields and gaps -/

/-- A run of separators, or nothing. -/
def IsGap (separates : Char → Bool) (cs : List Char) : Prop := ∀ c ∈ cs, separates c = true

/-- There is something in the field, and no separator. -/
def IsField (separates : Char → Bool) (cs : List Char) : Prop := cs ≠ [] ∧ ∀ c ∈ cs, separates c = false

/-- A text that has these fields in it, in order. Separators may stand before the first field and after the last, and
between two there is at least one. -/
inductive Spread (separates : Char → Bool) : List (List Char) → List Char → Prop where
  | none {gap : List Char} (hgap : IsGap separates gap) : Spread separates [] gap
  | one {before field after : List Char} (hbefore : IsGap separates before) (hfield : IsField separates field)
    (hafter : IsGap separates after) : Spread separates [field] (before ++ field ++ after)
  | cons {before field text next : List Char} {separator : Char} {others : List (List Char)}
    (hbefore : IsGap separates before) (hfield : IsField separates field) (hseparator : separates separator = true)
    (hrest : Spread separates (next :: others) text) :
    Spread separates (field :: next :: others) (before ++ field ++ separator :: text)

section

variable {separates : Char → Bool}

/-- A separator ends a field, and the text before it is cut by itself. -/
theorem fields_append_cons (before : List Char) {separator : Char} (h : separates separator = true)
    (text : List Char) :
    fields separates (before ++ separator :: text) = fields separates before ++ fields separates text := by
  rw [fields, List.splitOnP_append_cons _ _ h, List.filter_append]
  rfl

theorem fields_nil : fields separates [] = [] := rfl

theorem fields_gap_append {gap : List Char} (h : IsGap separates gap) (text : List Char) :
    fields separates (gap ++ text) = fields separates text := by
  induction gap with
  | nil => rfl
  | cons c gap ih =>
    obtain ⟨hc, hgap⟩ := List.forall_mem_cons.1 h
    rw [← ih hgap]
    exact fields_append_cons [] hc (gap ++ text)

theorem fields_append_gap {gap : List Char} (h : IsGap separates gap) (text : List Char) :
    fields separates (text ++ gap) = fields separates text := by
  cases gap with
  | nil => rw [List.append_nil]
  | cons c gap =>
    obtain ⟨hc, hgap⟩ := List.forall_mem_cons.1 h
    have hnone := fields_gap_append hgap []
    rw [List.append_nil, fields_nil] at hnone
    rw [fields_append_cons text hc, hnone, List.append_nil]

theorem fields_field {field : List Char} (h : IsField separates field) : fields separates field = [field] := by
  rw [fields, List.splitOnP_eq_singleton h.2]
  exact List.filter_cons_of_pos (by simpa using h.1)

theorem fields_of_spread {tokens : List (List Char)} {text : List Char} (h : Spread separates tokens text) :
    fields separates text = tokens := by
  induction h with
  | none hgap =>
    have hnone := fields_gap_append hgap []
    rwa [List.append_nil] at hnone
  | one hbefore hfield hafter =>
    rw [fields_append_gap hafter, fields_gap_append hbefore, fields_field hfield]
  | cons hbefore hfield hseparator hrest ih =>
    rw [fields_append_cons _ hseparator, fields_gap_append hbefore, fields_field hfield, ih]
    rfl

theorem Spread.isField {tokens : List (List Char)} {text : List Char} (h : Spread separates tokens text) :
    ∀ token ∈ tokens, IsField separates token := by
  induction h with
  | none hgap => exact nofun
  | one hbefore hfield hafter => exact List.forall_mem_singleton.2 hfield
  | cons hbefore hfield hseparator hrest ih => exact List.forall_mem_cons.2 ⟨hfield, ih⟩

theorem Spread.separator_cons {tokens : List (List Char)} {text : List Char} (h : Spread separates tokens text)
    {c : Char} (hc : separates c = true) : Spread separates tokens (c :: text) := by
  cases h with
  | none hgap => exact .none (List.forall_mem_cons.2 ⟨hc, hgap⟩)
  | one hbefore hfield hafter => exact .one (List.forall_mem_cons.2 ⟨hc, hbefore⟩) hfield hafter
  | cons hbefore hfield hseparator hrest => exact .cons (List.forall_mem_cons.2 ⟨hc, hbefore⟩) hfield hseparator hrest

/-- A character that is no separator begins a field, or it joins the field that the text begins with. -/
theorem Spread.exists_letter_cons {tokens : List (List Char)} {text : List Char} (h : Spread separates tokens text)
    {c : Char} (hc : separates c = false) : ∃ tokens, Spread separates tokens (c :: text) := by
  have halone : IsField separates [c] := ⟨List.cons_ne_nil c [], List.forall_mem_singleton.2 hc⟩
  have hnothing : IsGap separates [] := nofun
  have hlonger {field : List Char} (hfield : IsField separates field) : IsField separates (c :: field) :=
    ⟨List.cons_ne_nil c field, List.forall_mem_cons.2 ⟨hc, hfield.2⟩⟩
  cases h with
  | none hgap => exact ⟨_, .one hnothing halone hgap⟩
  | @one before field after hbefore hfield hafter =>
    cases before with
    | nil => exact ⟨_, .one hnothing (hlonger hfield) hafter⟩
    | cons d before =>
      obtain ⟨hd, hbefore⟩ := List.forall_mem_cons.1 hbefore
      exact ⟨_, .cons hnothing halone hd (.one hbefore hfield hafter)⟩
  | @cons before field text next separator others hbefore hfield hseparator hrest =>
    cases before with
    | nil => exact ⟨_, .cons hnothing (hlonger hfield) hseparator hrest⟩
    | cons d before =>
      obtain ⟨hd, hbefore⟩ := List.forall_mem_cons.1 hbefore
      exact ⟨_, .cons hnothing halone hd (.cons hbefore hfield hseparator hrest)⟩

theorem exists_spread (separates : Char → Bool) (text : List Char) : ∃ tokens, Spread separates tokens text := by
  induction text with
  | nil => exact ⟨[], .none nofun⟩
  | cons c text ih =>
    obtain ⟨tokens, htokens⟩ := ih
    cases hc : separates c with
    | true => exact ⟨tokens, htokens.separator_cons hc⟩
    | false => exact htokens.exists_letter_cons hc

/-- The fields that a text has in it are those that it is cut into. -/
theorem spread_iff {tokens : List (List Char)} {text : List Char} :
    Spread separates tokens text ↔ fields separates text = tokens := by
  refine ⟨fields_of_spread, ?_⟩
  rintro rfl
  obtain ⟨tokens, htokens⟩ := exists_spread separates text
  rwa [fields_of_spread htokens]

end

/-- There is nothing to trim from a text without blanks. -/
theorem trimChars_eq_self {cs : List Char} (h : ∀ c ∈ cs, isBlank c = false) : trimChars cs = cs := by
  have hdrop (ds : List Char) (hds : ∀ c ∈ ds, isBlank c = false) : ds.dropWhile isBlank = ds := by
    cases ds with
    | nil => rfl
    | cons d ds => exact List.dropWhile_cons_of_neg (by simp [hds d])
  rw [trimChars, trimEndChars, hdrop cs h, hdrop cs.reverse (by simpa using h), List.reverse_reverse]

end Text

/-! ## Lists of tokens -/

/-- The text has these tokens in it and besides them only commas and blanks, at least one between two tokens. -/
def Length.Lists (tokens : List String) (raw : String) : Prop :=
  Text.Spread separatesCoordinates (tokens.map String.toList) raw.toList

instance (tokens : List String) (raw : String) : Decidable (Length.Lists tokens raw) :=
  decidable_of_iff _ Text.spread_iff.symm

/-- Every text lists some tokens. -/
theorem Length.exists_lists (raw : String) : ∃ tokens, Lists tokens raw := by
  refine ⟨(Text.fields separatesCoordinates raw.toList).map String.ofList, ?_⟩
  rw [Lists, Text.spread_iff, List.map_map]
  simp [Function.comp_def]

/-- The two coordinates of a position. -/
def Length.readPair (pair : List Char × List Char) : Except LengthError (Length × Length) := do
  return (← ofToken pair.1, ← ofToken pair.2)

/-- A token has no blanks around it. -/
theorem Length.read_of_mem {tokens : List String} {raw token : String} (h : Lists tokens raw) (hmem : token ∈ tokens) :
    read token = ofToken token.toList := by
  have hfield := h.isField token.toList (List.mem_map_of_mem hmem)
  rw [read, Text.trimChars_eq_self fun c hc => ?_]
  have hc := hfield.2 c hc
  rw [separatesCoordinates, Bool.or_eq_false_iff] at hc
  exact hc.2

namespace Canvas

/-- The number of the token at a place in a coordinate list. At even places it is a position from the left edge, at odd
ones a position below the upper edge, turned around. -/
def coordinate (canvas : Canvas) (place : Nat) (token : String) : Except LengthError Float :=
  if place % 2 = 0 then Length.resolve token canvas.width
  else (Length.resolve token canvas.height).map fun y => canvas.height - y

/-- The numbers of tokens that come in pairs. -/
def coordinates (canvas : Canvas) : List String → Except LengthError (List Float)
  | x :: y :: rest => do
    let first ← canvas.coordinate 0 x
    let second ← canvas.coordinate 1 y
    let more ← canvas.coordinates rest
    return first :: second :: more
  | _ => .ok []

theorem coordinate_add_two (canvas : Canvas) (place : Nat) (token : String) :
    canvas.coordinate (place + 2) token = canvas.coordinate place token := by
  rw [coordinate, coordinate, Nat.add_mod_right]

theorem coordinate_zero (canvas : Canvas) (token : String) :
    canvas.coordinate 0 token = (Length.read token).map canvas.across := rfl

theorem coordinate_one (canvas : Canvas) (token : String) :
    canvas.coordinate 1 token = (Length.read token).map canvas.above := by
  show ((Length.read token).map _).map _ = _
  cases Length.read token <;> rfl

theorem coordinates_cons_cons_eq_ok {canvas : Canvas} {x y : String} {rest : List String} {first second : Float}
    (hx : canvas.coordinate 0 x = .ok first) (hy : canvas.coordinate 1 y = .ok second) :
    canvas.coordinates (x :: y :: rest) = (canvas.coordinates rest).map fun more => first :: second :: more := by
  rw [coordinates, hx, hy]
  rfl

/-- Tokens whose number is even, read in pairs and then turned into positions, are read one by one. -/
theorem map_positions_mapM (canvas : Canvas) : ∀ tokens : List String, tokens.length % 2 = 0 →
    (∀ token ∈ tokens, Length.read token = Length.ofToken token.toList) →
    ((pairs (tokens.map String.toList)).mapM Length.readPair).map canvas.positions = canvas.coordinates tokens
  | [], _, _ => rfl
  | [_], heven, _ => absurd heven (by simp)
  | x :: y :: rest, heven, hread => by
    obtain ⟨hx, hy, hrest⟩ : _ ∧ _ ∧ _ := by simpa only [List.forall_mem_cons] using hread
    have ih := map_positions_mapM canvas rest ((Nat.add_mod_right _ 2).symm.trans heven) hrest
    rw [coordinates, coordinate_zero, coordinate_one, hx, hy, ← ih, List.map_cons, List.map_cons, pairs,
      List.mapM_cons, Length.readPair]
    cases Length.ofToken x.toList with
    | error error => rfl
    | ok first =>
      cases Length.ofToken y.toList with
      | error error => rfl
      | ok second => cases (pairs (rest.map String.toList)).mapM Length.readPair <;> rfl

section

variable {canvas : Canvas} {tokens : List String} {raw : String}

/-- The number of tokens decides first. -/
theorem measure_of_odd (h : Length.Lists tokens raw) (hodd : tokens.length % 2 = 1) :
    canvas.measure .points raw = .error (.oddCount (Text.trim raw)) := by
  rw [measure, Length.readPairs, Text.fields_of_spread h, List.length_map, hodd]
  rfl

theorem measure_of_lists (h : Length.Lists tokens raw) (heven : tokens.length % 2 = 0) :
    canvas.measure .points raw = canvas.coordinates tokens := by
  rw [← canvas.map_positions_mapM tokens heven fun token hmem => Length.read_of_mem h hmem, measure, Length.readPairs,
    Text.fields_of_spread h, List.length_map, heven]
  rfl

end

/-- Of the tokens that cannot be read the first one counts. -/
theorem coordinates_eq_error {canvas : Canvas} {token : String} {error : LengthError} :
    ∀ (tokens : List String) (place : Nat), tokens.length % 2 = 0 → tokens[place]? = some token →
      canvas.coordinate place token = .error error →
      (∀ i < place, ∀ earlier, tokens[i]? = some earlier → ∃ number, canvas.coordinate i earlier = .ok number) →
      canvas.coordinates tokens = .error error
  | [], _, _, htoken, _, _ => by simp at htoken
  | [_], _, heven, _, _, _ => absurd heven (by simp)
  | x :: y :: rest, 0, _, htoken, herror, _ => by
    obtain rfl := Option.some.inj htoken
    rw [coordinates, herror]
    rfl
  | x :: y :: rest, 1, _, htoken, herror, hearlier => by
    obtain rfl := Option.some.inj htoken
    obtain ⟨first, hx⟩ := hearlier 0 Nat.zero_lt_one x rfl
    rw [coordinates, hx, herror]
    rfl
  | x :: y :: rest, place + 2, heven, htoken, herror, hearlier => by
    obtain ⟨first, hx⟩ := hearlier 0 (by omega) x rfl
    obtain ⟨second, hy⟩ := hearlier 1 (by omega) y rfl
    rw [coordinate_add_two] at herror
    have ih := coordinates_eq_error rest place ((Nat.add_mod_right _ 2).symm.trans heven) htoken herror
      fun i hi earlier hget => by
        rw [← coordinate_add_two]
        exact hearlier (i + 2) (by omega) earlier hget
    rw [coordinates_cons_cons_eq_ok hx hy, ih]
    rfl

/-- If all tokens can be read, each gives the number at its place. -/
theorem exists_coordinates_eq_ok (canvas : Canvas) : ∀ tokens : List String, tokens.length % 2 = 0 →
    (∀ place token, tokens[place]? = some token → ∃ number, canvas.coordinate place token = .ok number) →
    ∃ numbers, canvas.coordinates tokens = .ok numbers ∧ numbers.length = tokens.length ∧
      ∀ place token, tokens[place]? = some token →
        ∃ number, canvas.coordinate place token = .ok number ∧ numbers[place]? = some number
  | [], _, _ => ⟨[], rfl, rfl, fun _ _ htoken => by simp at htoken⟩
  | [_], heven, _ => absurd heven (by simp)
  | x :: y :: rest, heven, hread => by
    obtain ⟨first, hx⟩ := hread 0 x rfl
    obtain ⟨second, hy⟩ := hread 1 y rfl
    obtain ⟨numbers, hnumbers, hlength, hplaces⟩ := exists_coordinates_eq_ok canvas rest
      ((Nat.add_mod_right _ 2).symm.trans heven) fun place token htoken => by
        rw [← coordinate_add_two]
        exact hread (place + 2) token htoken
    refine ⟨first :: second :: numbers, ?_, by simp [hlength], ?_⟩
    · rw [coordinates_cons_cons_eq_ok hx hy, hnumbers]
      rfl
    · intro place token htoken
      match place with
      | 0 =>
        obtain rfl := Option.some.inj htoken
        exact ⟨first, hx, rfl⟩
      | 1 =>
        obtain rfl := Option.some.inj htoken
        exact ⟨second, hy, rfl⟩
      | place + 2 =>
        rw [coordinate_add_two]
        exact hplaces place token htoken

/-! ## Lines and polylines -/

/-- A horizontal position is read as at an even place of a list. -/
theorem measure_x (canvas : Canvas) (raw : String) :
    canvas.measure .x raw = (canvas.coordinate 0 raw).map fun number => [number] := by
  rw [measure, coordinate_zero]
  cases Length.read raw <;> rfl

/-- A vertical position is read as at an odd place of a list. -/
theorem measure_y (canvas : Canvas) (raw : String) :
    canvas.measure .y raw = (canvas.coordinate 1 raw).map fun number => [number] := by
  rw [measure, coordinate_one]
  cases Length.read raw <;> rfl

end Canvas

/-- The numbers of an element that comes to a mark. -/
theorem map_numbers_mark_openElement {canvas : Canvas} {shape : Shape} {e : Element}
    (hrole : Role.ofName e.name = .drawn shape) (hthere : shape.rule.missing e.attributes.contains = []) :
    (openElement canvas e).mark.map Mark.numbers = (readMeasures canvas e shape.rule.measures).toOption := by
  rw [openElement, hrole]
  simp only [openShape, Shape.markOf, hthere]
  cases readMeasures canvas e shape.rule.measures <;> rfl

section

variable {canvas : Canvas} {line polyline : Element} {a b c d raw : String}

theorem toOption_readMeasures_line (hx1 : line.attributes.get? "x1" = some a) (hy1 : line.attributes.get? "y1" = some b)
    (hx2 : line.attributes.get? "x2" = some c) (hy2 : line.attributes.get? "y2" = some d) :
    (readMeasures canvas line Shape.line.rule.measures).toOption = (canvas.coordinates [a, b, c, d]).toOption := by
  simp only [Shape.rule, readMeasures, hx1, hy1, hx2, hy2, Option.getD_some, Canvas.measure_x, Canvas.measure_y,
    Canvas.coordinates, Canvas.coordinate_zero, Canvas.coordinate_one]
  cases Length.read a with
  | error error => rfl
  | ok x1 =>
    cases Length.read b with
    | error error => rfl
    | ok y1 =>
      cases Length.read c with
      | error error => rfl
      | ok x2 => cases Length.read d <;> rfl

theorem toOption_readMeasures_polyline (hpoints : polyline.attributes.get? "points" = some raw) :
    (readMeasures canvas polyline Shape.polyline.rule.measures).toOption = (canvas.measure .points raw).toOption := by
  simp only [Shape.rule, readMeasures, hpoints, Option.getD_some]
  cases canvas.measure .points raw with
  | error error => rfl
  | ok numbers => exact congrArg some (List.append_nil numbers)

/-- A polyline through two points is drawn if a line between them is, and it has the numbers of the line. -/
theorem numbers_polyline_eq_numbers_line (hlists : Length.Lists [a, b, c, d] raw) (hline : line.name = "line")
    (hx1 : line.attributes.get? "x1" = some a) (hy1 : line.attributes.get? "y1" = some b)
    (hx2 : line.attributes.get? "x2" = some c) (hy2 : line.attributes.get? "y2" = some d)
    (hpolyline : polyline.name = "polyline") (hpoints : polyline.attributes.get? "points" = some raw) :
    (openElement canvas polyline).mark.map Mark.numbers = (openElement canvas line).mark.map Mark.numbers := by
  have hlineRole : Role.ofName line.name = .drawn .line := by rw [hline]; decide
  have hpolylineRole : Role.ofName polyline.name = .drawn .polyline := by rw [hpolyline]; decide
  have hthere : Shape.polyline.rule.missing polyline.attributes.contains = [] := by
    simp [Shape.rule, Shape.Rule.missing, Dictionary.contains, hpoints]
  rw [map_numbers_mark_openElement hlineRole rfl, map_numbers_mark_openElement hpolylineRole hthere,
    toOption_readMeasures_line hx1 hy1 hx2 hy2, toOption_readMeasures_polyline hpoints,
    Canvas.measure_of_lists hlists (by simp)]

end

/-- A coordinate list is read as the tokens in it say. If their number is odd, that is the error, whatever the tokens
are; else the first token that is no length is; else they give a number each, in their order, horizontal positions and
vertical ones in turn. So a polyline through two points and a line between them are drawn with the same numbers, or
neither of them is drawn. -/
theorem Canvas.measure_points (canvas : Canvas) :
    (∀ tokens raw, Length.Lists tokens raw →
      (tokens.length % 2 = 1 → canvas.measure .points raw = .error (.oddCount (Text.trim raw))) ∧
      (tokens.length % 2 = 0 →
        (∀ place token error, tokens[place]? = some token → canvas.coordinate place token = .error error →
          (∀ i < place, ∀ earlier, tokens[i]? = some earlier → ∃ number, canvas.coordinate i earlier = .ok number) →
          canvas.measure .points raw = .error error) ∧
        ((∀ place token, tokens[place]? = some token → ∃ number, canvas.coordinate place token = .ok number) →
          ∃ numbers, canvas.measure .points raw = .ok numbers ∧ numbers.length = tokens.length ∧
            ∀ place token, tokens[place]? = some token →
              ∃ number, canvas.coordinate place token = .ok number ∧ numbers[place]? = some number))) ∧
    ∀ (line polyline : Element) (a b c d raw : String), Length.Lists [a, b, c, d] raw →
      line.name = "line" → line.attributes.get? "x1" = some a → line.attributes.get? "y1" = some b →
      line.attributes.get? "x2" = some c → line.attributes.get? "y2" = some d →
      polyline.name = "polyline" → polyline.attributes.get? "points" = some raw →
      (openElement canvas polyline).mark.map Mark.numbers = (openElement canvas line).mark.map Mark.numbers := by
  refine ⟨?_, ?_⟩
  · intro tokens raw hlists
    refine ⟨Canvas.measure_of_odd hlists, fun heven => ?_⟩
    rw [Canvas.measure_of_lists hlists heven]
    refine ⟨?_, exists_coordinates_eq_ok canvas tokens heven⟩
    intro place token error htoken herror hearlier
    exact coordinates_eq_error tokens place heven htoken herror hearlier
  · intro line polyline a b c d raw hlists hline hx1 hy1 hx2 hy2 hpolyline hpoints
    exact numbers_polyline_eq_numbers_line hlists hline hx1 hy1 hx2 hy2 hpolyline hpoints

/-- Separators of all kinds around four tokens of which the third is no length, and a line with a polyline like it. -/
theorem Canvas.measure_points_mixed :
    let canvas : Canvas := ⟨612, 792⟩
    let raw := " ,10%,\u00a02in x3\t1em,"
    let line := ((((Element.named "line").setAttribute "x1" "0").setAttribute "y1" "10%").setAttribute "x2"
      "1e1").setAttribute "y2" "5px"
    let polyline := (Element.named "polyline").setAttribute "points" "0,10% 1e1,5px"
    Length.Lists ["10%", "2in", "x3", "1em"] raw ∧ canvas.measure .points raw = .error (.notANumber "x3") ∧
      Length.Lists ["0", "10%", "1e1", "5px"] "0,10% 1e1,5px" ∧
      (openElement canvas polyline).mark.map Mark.numbers = (openElement canvas line).mark.map Mark.numbers := by
  intro canvas raw line polyline
  have hlists : Length.Lists ["10%", "2in", "x3", "1em"] raw := by decide +kernel
  have hpoints : Length.Lists ["0", "10%", "1e1", "5px"] "0,10% 1e1,5px" := by decide +kernel
  obtain ⟨htokens, hline⟩ := canvas.measure_points
  refine ⟨hlists, ?_, hpoints, hline line polyline _ _ _ _ _ hpoints rfl rfl rfl rfl rfl rfl rfl⟩
  refine ((htokens _ raw hlists).2 rfl).1 2 "x3" (.notANumber "x3") rfl rfl ?_
  intro i hi earlier hearlier
  match i with
  | 0 =>
    obtain rfl := Option.some.inj hearlier
    exact ⟨_, rfl⟩
  | 1 =>
    obtain rfl := Option.some.inj hearlier
    exact ⟨_, rfl⟩

end SvgPlot
