import SvgPlot.Exchange
import SvgPlot.Proofs.VisitedElements
import SvgPlot.Proofs.WrittenJson

/-!
# Plots through JSON

A plot that is written as JSON and read again is the same plot, as far as its numbers and its depth allow.

* Numbers. `Json.ReadsBack` says that a double is read from its own numeral. Only doubles that are finite have one.
* Depth. `Mark.levels` counts the levels of a tree of marks, and `Json.Value.nesting` those of a JSON value: two for
  each level of marks, and one for the plot (`Plot.nesting_toJson`).
* `Plot.read?_json_eq` says that the text makes no difference: reading a written plot is taking the plot out of its
  JSON value. `Plot.ofJson?_toJson` says when that succeeds.
-/

namespace SvgPlot

namespace Json

/-! ## Numbers and depth -/

/-- A double is read from the numeral that it is written as. -/
def ReadsBack (x : Float) : Prop := (numeral? x).bind toFloat? = some x

instance (x : Float) : Decidable (ReadsBack x) := inferInstanceAs (Decidable (_ = _))

mutual

/-- How many lists and objects are around the innermost value. -/
def Value.nesting : Value → Nat
  | .array items => 1 + Value.nestingOfItems items
  | .object members => 1 + Value.nestingOfMembers members
  | _ => 0

def Value.nestingOfItems : List Value → Nat
  | [] => 0
  | item :: rest => max item.nesting (Value.nestingOfItems rest)

def Value.nestingOfMembers : List (Str × Value) → Nat
  | [] => 0
  | (_, value) :: rest => max value.nesting (Value.nestingOfMembers rest)

end

theorem Value.nesting_ofFloat (x : Float) : (Value.ofFloat x).nesting = 0 := by
  rw [ofFloat]
  cases numeral? x <;> rfl

theorem Value.nestingOfItems_eq_zero {items : List Value} (h : ∀ item ∈ items, item.nesting = 0) :
    Value.nestingOfItems items = 0 := by
  induction items with
  | nil => rfl
  | cons item rest ih =>
    obtain ⟨hitem, hrest⟩ := List.forall_mem_cons.1 h
    rw [nestingOfItems, hitem, ih hrest, Nat.max_self]

theorem Value.nestingOfItems_map_ofFloat (numbers : List Float) :
    Value.nestingOfItems (numbers.map Value.ofFloat) = 0 := by
  apply nestingOfItems_eq_zero
  intro item hitem
  obtain ⟨x, -, rfl⟩ := List.mem_map.1 hitem
  exact nesting_ofFloat x

theorem Value.nestingOfItems_map_ofString (texts : List String) :
    Value.nestingOfItems (texts.map Value.ofString) = 0 := by
  apply nestingOfItems_eq_zero
  intro item hitem
  obtain ⟨s, -, rfl⟩ := List.mem_map.1 hitem
  rfl

end Json

open Json

mutual

/-- The number of levels of a tree of marks. -/
def Mark.levels : Mark → Nat
  | ⟨_, _, _, children⟩ => 1 + Mark.levelsOfAll children

def Mark.levelsOfAll : List Mark → Nat
  | [] => 0
  | m :: rest => max m.levels (Mark.levelsOfAll rest)

end

theorem Mark.levels_eq (m : Mark) : m.levels = 1 + Mark.levelsOfAll m.children := by
  obtain ⟨shape, numbers, data, children⟩ := m
  rw [levels]

/-- The numbers of the canvas and of all marks. -/
def Plot.numbers (plot : Plot) : List Float :=
  [plot.canvas.width, plot.canvas.height] ++ plot.root.preorder.flatMap Mark.numbers

mutual

/-- A mark is an object with a list of marks, so each level of marks is two levels of JSON. -/
theorem Mark.nesting_toJson (m : Mark) : m.toJson.nesting = 2 * m.levels := by
  obtain ⟨shape, numbers, data, children⟩ := m
  have hchildren := Mark.nestingOfItems_listToJson children
  have hnumbers := Value.nestingOfItems_map_ofFloat numbers
  rw [Mark.toJson, Mark.levels]
  cases data with
  | none =>
    show 1 + max 0 (max (1 + Value.nestingOfItems (numbers.map .ofFloat))
      (max (1 + Value.nestingOfItems (Mark.listToJson children)) 0)) = 2 * (1 + Mark.levelsOfAll children)
    omega
  | some text =>
    show 1 + max 0 (max (1 + Value.nestingOfItems (numbers.map .ofFloat))
      (max 0 (max (1 + Value.nestingOfItems (Mark.listToJson children)) 0))) = 2 * (1 + Mark.levelsOfAll children)
    omega

theorem Mark.nestingOfItems_listToJson (ms : List Mark) :
    Value.nestingOfItems (Mark.listToJson ms) = 2 * Mark.levelsOfAll ms := by
  cases ms with
  | nil => rfl
  | cons m rest =>
    rw [Mark.listToJson, Value.nestingOfItems, Mark.levelsOfAll, Mark.nesting_toJson m,
      Mark.nestingOfItems_listToJson rest]
    omega

end

/-- The JSON of a plot has one level more than that of its root. -/
theorem Plot.nesting_toJson (plot : Plot) : plot.toJson.nesting = 1 + 2 * plot.root.levels := by
  have hroot := plot.root.nesting_toJson
  have hlevels := plot.root.levels_eq
  have hwarnings := Value.nestingOfItems_map_ofString plot.warnings
  have hstyles := Value.nestingOfItems_map_ofString plot.styles
  have hwidth := Value.nesting_ofFloat plot.canvas.width
  have hheight := Value.nesting_ofFloat plot.canvas.height
  show 1 + max (1 + max (Value.ofFloat plot.canvas.width).nesting (max (Value.ofFloat plot.canvas.height).nesting 0))
    (max plot.root.toJson.nesting (max (1 + Value.nestingOfItems (plot.warnings.map .ofString))
      (max (1 + Value.nestingOfItems (plot.styles.map .ofString)) 0))) = 1 + 2 * plot.root.levels
  omega

/-! ## The text of a plot -/

namespace Json

theorem Value.isSpelled_ofFloat (x : Float) : (Value.ofFloat x).IsSpelled := by
  rw [ofFloat]
  cases hnumeral : numeral? x with
  | none => exact .null
  | some n => exact .number (isWrittenNumber_of_numeral? hnumeral)

theorem Value.isSpelled_array_map {α : Type} {f : α → Value} (h : ∀ a, (f a).IsSpelled) (list : List α) :
    (Value.array (list.map f)).IsSpelled := by
  refine .array fun item hitem => ?_
  obtain ⟨a, -, rfl⟩ := List.mem_map.1 hitem
  exact h a

theorem Value.isSpelled_ofMembers {members : List (String × Value)} (h : ∀ entry ∈ members, entry.2.IsSpelled) :
    (Value.ofMembers members).IsSpelled := by
  refine .object (fun entry hentry => ?_) fun entry hentry => ?_
  · obtain ⟨member, -, rfl⟩ := List.mem_map.1 hentry
    rfl
  · obtain ⟨member, hmember, rfl⟩ := List.mem_map.1 hentry
    exact h member hmember

end Json

mutual

theorem Mark.isSpelled_toJson (m : Mark) : m.toJson.IsSpelled := by
  obtain ⟨shape, numbers, data, children⟩ := m
  have hchildren := Mark.isSpelled_listToJson children
  rw [Mark.toJson]
  apply Value.isSpelled_ofMembers
  simp only [List.forall_mem_append, List.forall_mem_cons]
  refine ⟨⟨⟨.string _, Value.isSpelled_array_map Value.isSpelled_ofFloat numbers, nofun⟩, ?_⟩, .array hchildren, nofun⟩
  cases data with
  | none => exact nofun
  | some text =>
    rintro _ (_ | ⟨_, ⟨⟩⟩)
    exact .string text

theorem Mark.isSpelled_listToJson (ms : List Mark) : ∀ item ∈ Mark.listToJson ms, item.IsSpelled := by
  cases ms with
  | nil => exact nofun
  | cons m rest =>
    rw [Mark.listToJson, List.forall_mem_cons]
    exact ⟨Mark.isSpelled_toJson m, Mark.isSpelled_listToJson rest⟩

end

theorem Plot.isSpelled_toJson (plot : Plot) : plot.toJson.IsSpelled := by
  have hcanvas : plot.canvas.toJson.IsSpelled := by
    apply Value.isSpelled_ofMembers
    simp only [List.forall_mem_cons]
    exact ⟨Value.isSpelled_ofFloat _, Value.isSpelled_ofFloat _, nofun⟩
  apply Value.isSpelled_ofMembers
  simp only [List.forall_mem_cons]
  exact ⟨hcanvas, plot.root.isSpelled_toJson, Value.isSpelled_array_map .string _,
    Value.isSpelled_array_map .string _, nofun⟩

/-- The text of a plot holds what its JSON value holds, in both styles. -/
theorem Plot.read?_json_eq (plot : Plot) (style : Json.Style) :
    Plot.read? (plot.json style) = Plot.ofJson? plot.toJson := by
  rw [Plot.read?, Plot.json, Value.read?_write style plot.isSpelled_toJson]
  rfl

/-! ## The JSON value of a plot -/

namespace Json

theorem Value.float?_ofFloat {x : Float} (h : ReadsBack x) : (Value.ofFloat x).float? = some x := by
  obtain ⟨n, hnumeral, hread⟩ := Option.bind_eq_some_iff.1 h
  rw [ofFloat, hnumeral]
  exact hread

theorem mapM_map_eq_some {α β : Type} {f : α → β} {read? : β → Option α} {list : List α}
    (h : ∀ a ∈ list, read? (f a) = some a) : (list.map f).mapM read? = some list := by
  induction list with
  | nil => rfl
  | cons a rest ih =>
    obtain ⟨ha, hrest⟩ := List.forall_mem_cons.1 h
    rw [List.map_cons, List.mapM_cons, ha, ih hrest]
    rfl

theorem list?_array {α : Type} (read? : Value → Option α) (items : List Value) :
    list? read? (.array items) = items.mapM read? := rfl

theorem optionalText?_map_ofString (data : Option String) : optionalText? (data.map Value.ofString) = some data := by
  cases data <;> rfl

/-- The fields of a mark; data that the mark does not have are no field. -/
theorem fields?_toJson_mark (m : Mark) :
    fields? ["tag", "args", "data", "children"] m.toJson =
      some [some (.ofString m.shape.name), some (.array (m.numbers.map .ofFloat)), m.data.map .ofString,
        some (.array (Mark.listToJson m.children))] := by
  obtain ⟨shape, numbers, data, children⟩ := m
  cases data <;> rw [Mark.toJson] <;> rfl

theorem fields?_data_toJson_mark (m : Mark) : fields? ["data"] m.toJson = some [m.data.map .ofString] := by
  obtain ⟨shape, numbers, data, children⟩ := m
  cases data <;> rw [Mark.toJson] <;> rfl

end Json

mutual

/-- A mark is taken out of its JSON value if there is room for its levels, and not otherwise. -/
theorem Mark.ofJson?_toJson (room : Nat) (m : Mark) (h : ∀ x ∈ m.preorder.flatMap Mark.numbers, ReadsBack x) :
    Mark.ofJson? room m.toJson = if 2 * m.levels ≤ room then some m else none := by
  obtain ⟨shape, numbers, data, children⟩ := m
  rw [Mark.preorder_eq, List.flatMap_cons, List.forall_mem_append] at h
  obtain ⟨hnumbers, hchildren⟩ := h
  have hall := Mark.mapM_ofJson?_listToJson (room - 2) children hchildren
  have hshape : shape? (.ofString shape.name) = some shape := Shape.ofName?_name shape
  have hread : list? Value.float? (.array (numbers.map .ofFloat)) = some numbers :=
    Json.mapM_map_eq_some fun x hx => Value.float?_ofFloat (hnumbers x hx)
  rw [Mark.levels]
  match room with
  | 0 | 1 => rw [if_neg (by omega), Mark.ofJson?]; exact nofun
  | room + 2 =>
    rw [Nat.add_sub_cancel] at hall
    rw [Mark.ofJson?, Json.fields?_toJson_mark]
    simp only [Option.bind_eq_bind, Option.bind_some, hshape, hread, Json.optionalText?_map_ofString,
      Json.list?_array, hall]
    by_cases hlevels : 2 * Mark.levelsOfAll children ≤ room
    · rw [if_pos hlevels, if_pos (by omega)]
      rfl
    · rw [if_neg hlevels, if_neg (by omega)]
      rfl

theorem Mark.mapM_ofJson?_listToJson (room : Nat) (ms : List Mark)
    (h : ∀ x ∈ (ms.flatMap Mark.preorder).flatMap Mark.numbers, ReadsBack x) :
    (Mark.listToJson ms).mapM (Mark.ofJson? room) = if 2 * Mark.levelsOfAll ms ≤ room then some ms else none := by
  cases ms with
  | nil => rw [Mark.levelsOfAll, if_pos (Nat.zero_le room)]; rfl
  | cons m rest =>
    rw [List.flatMap_cons, List.flatMap_append, List.forall_mem_append] at h
    obtain ⟨hm, hrest⟩ := h
    rw [Mark.listToJson, List.mapM_cons, Mark.ofJson?_toJson room m hm, Mark.mapM_ofJson?_listToJson room rest hrest,
      Mark.levelsOfAll]
    by_cases hfirst : 2 * m.levels ≤ room
    · by_cases hothers : 2 * Mark.levelsOfAll rest ≤ room
      · rw [if_pos hfirst, if_pos hothers, if_pos (by omega)]
        rfl
      · rw [if_pos hfirst, if_neg hothers, if_neg (by omega)]
        rfl
    · rw [if_neg hfirst, if_neg (show ¬2 * max m.levels (Mark.levelsOfAll rest) ≤ room by omega)]
      rfl

end

/-- A plot whose numbers are read back is taken out of its JSON value if that has at most 127 levels, and not
otherwise. -/
theorem Plot.ofJson?_toJson (plot : Plot) (h : ∀ x ∈ plot.numbers, ReadsBack x) :
    Plot.ofJson? plot.toJson = if plot.toJson.nesting ≤ jsonRoom then some plot else none := by
  obtain ⟨⟨width, height⟩, root, warnings, styles⟩ := plot
  rw [Plot.numbers, List.forall_mem_append, List.forall_mem_cons, List.forall_mem_cons] at h
  obtain ⟨⟨hwidth, hheight, -⟩, hroot⟩ := h
  have hcanvas : Canvas.ofJson? (Canvas.toJson ⟨width, height⟩) = some ⟨width, height⟩ := by
    show (do return ⟨← (Value.ofFloat width).float?, ← (Value.ofFloat height).float?⟩ : Option Canvas) = _
    rw [Value.float?_ofFloat hwidth, Value.float?_ofFloat hheight]
    rfl
  have htexts (texts : List String) : list? Value.text? (.array (texts.map .ofString)) = some texts :=
    mapM_map_eq_some fun _ _ => rfl
  have hfields : fields? ["canvas", "root", "warnings", "styles"]
      (Plot.toJson ⟨⟨width, height⟩, root, warnings, styles⟩) =
        some [some (Canvas.toJson ⟨width, height⟩), some root.toJson, some (.array (warnings.map .ofString)),
          some (.array (styles.map .ofString))] := rfl
  rw [Plot.ofJson?, hfields, Plot.nesting_toJson]
  simp only [Option.bind_eq_bind, Option.bind_some, hcanvas, htexts, Mark.ofJson?_toJson _ root hroot]
  by_cases hlevels : 2 * root.levels ≤ jsonRoom - 1
  · rw [if_pos hlevels, if_pos (by unfold jsonRoom at hlevels ⊢; omega)]
    rfl
  · rw [if_neg hlevels, if_neg (by unfold jsonRoom at hlevels ⊢; omega)]
    rfl

/-- A plot that is written as JSON is read back as it was, if its numbers are and its JSON has at most 127 levels. Marks
without data have no field for them, and empty data are a field. -/
theorem Plot.readsBack_json (plot : Plot) (hnumbers : ∀ x ∈ plot.numbers, ReadsBack x)
    (hnesting : plot.toJson.nesting ≤ 127) :
    (∀ style, Plot.read? (plot.json style) = some plot) ∧
      ∀ mark ∈ plot.root.preorder, fields? ["data"] mark.toJson = some [mark.data.map .ofString] := by
  refine ⟨fun style => ?_, fun mark _ => fields?_data_toJson_mark mark⟩
  rw [Plot.read?_json_eq, Plot.ofJson?_toJson plot hnumbers]
  exact if_pos hnesting

/-- Texts with quotes, control characters and nothing in them, a negative zero, and numbers with exponents. -/
theorem Plot.readsBack_json_small :
    let mark : Mark := ⟨.path, [], some "", [⟨.text, [-0.0, 1.5e20], none, []⟩, ⟨.image, [1e-7], some "é\x01", []⟩]⟩
    let plot : Plot := ⟨⟨612.0, 0.1⟩, mark, ["a \"quote\"", "\\ \t"], ["", "\n"]⟩
    (∀ x ∈ plot.numbers, ReadsBack x) ∧ plot.toJson.nesting = 5 ∧
      (∀ style, Plot.read? (plot.json style) = some plot) ∧
        fields? ["data"] mark.toJson = some [some (.ofString "")] := by
  have hnumbers : ∀ x ∈ ([612.0, 0.1, -0.0, 1.5e20, 1e-7] : List Float), ReadsBack x := by decide +kernel
  intro mark plot
  have hnesting : plot.toJson.nesting = 5 := plot.nesting_toJson
  obtain ⟨hread, hdata⟩ := Plot.readsBack_json plot hnumbers (by rw [hnesting]; decide)
  exact ⟨hnumbers, hnesting, hread, hdata mark (.head _)⟩

end SvgPlot
