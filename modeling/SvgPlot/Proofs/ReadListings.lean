import Mathlib.Data.List.Basic
import SvgPlot.Proofs.ListedLines
import SvgPlot.Proofs.QuotedText
import SvgPlot.Proofs.VisitedElements
import SvgPlot.Proofs.WrittenNumerals

/-!
# Reading listings

A listing has one line for each mark, and with an indentation it tells the tree that it is of, but for the numbers,
which are rounded. Data may hold whatever they like: in quotes they cannot be taken for a line.

* `Layout.eq_of_line_eq` takes a line apart. The blanks in front of it give the level; the name ends at the first blank
  after them and the numbers end at the first bracket, since no name and no number has such a character in it.
* `Mark.unnumbered_eq_of_outline` takes the rows of a tree apart. The children of a mark are the rows below it up to the
  first that is not deeper.
* `Mark.listing_tells` puts the two together.
-/

namespace SvgPlot

/-! ## Written numbers -/

namespace Decimal

/-- Characters that numbers are written with. -/
def isFigure (c : Char) : Bool := c.isDigit || ['-', '.', 'N', 'a', 'i', 'n', 'f'].contains c

theorem isFigure_of_areDigits {digits : List Char} (h : AreDigits digits) : ∀ c ∈ digits, isFigure c = true := by
  intro c hc
  simp [isFigure, h c hc]

theorem isFigure_of_mem_fixed {places : Nat} {x : Float} : ∀ c ∈ (fixed places x).toList, isFigure c = true := by
  unfold fixed
  split
  · exact List.all_eq_true.1 (by decide)
  · rename_i negative _
    cases negative <;> exact List.all_eq_true.1 (by decide)
  · rename_i negative m q _
    obtain ⟨hwhole, hfraction, -⟩ :=
      Json.splitDigits_form (roundDiv .even (m * (powerOfTwo q).1 * Nat.pow 10 places) (powerOfTwo q).2) places
    simp only [String.toList_ofList, Numeral.text, exponentText, List.append_nil, List.forall_mem_append]
    refine ⟨⟨?_, isFigure_of_areDigits hwhole⟩, ?_⟩
    · cases negative <;> exact List.all_eq_true.1 (by decide)
    · split
      · exact List.forall_mem_nil _
      · exact List.forall_mem_cons.2 ⟨by decide, isFigure_of_areDigits hfraction⟩

theorem ne_of_isFigure {c : Char} (h : isFigure c = true) : c ≠ ']' ∧ c ≠ '\n' := by
  constructor <;> rintro rfl <;> revert h <;> decide

end Decimal

/-! ## Parts of a line -/

namespace Layout

/-- Between the brackets there is neither another bracket nor a line end. -/
theorem exists_numbers_eq (layout : Layout) (xs : List Float) :
    ∃ inner, (layout.numbers xs).toList = '[' :: inner ++ [']'] ∧ ∀ c ∈ inner, c ≠ ']' ∧ c ≠ '\n' := by
  have hseparator : ∀ c ∈ ", ".toList, c ≠ ']' ∧ c ≠ '\n' := by simp
  refine ⟨(", ".intercalate (xs.map (Decimal.fixed layout.precision))).toList, ?_, ?_⟩
  · simp [numbers, toString]
  · intro c hc
    rw [String.toList_intercalate] at hc
    rcases Text.mem_intercalate hc with hc | ⟨part, hpart, hc⟩
    · exact hseparator c hc
    · simp only [List.map_map, List.mem_map] at hpart
      obtain ⟨x, -, rfl⟩ := hpart
      exact Decimal.ne_of_isFigure (Decimal.isFigure_of_mem_fixed c hc)

theorem toList_line (layout : Layout) (level : Nat) (mark : Mark) :
    (layout.line level mark).toList =
      List.replicate (level * layout.indent) ' ' ++
        (mark.shape.name.toList ++
          ' ' :: ((layout.numbers mark.numbers).toList ++ (layout.data mark.data).toList)) := by
  simp [line, toString]

theorem ne_of_mem_name {shape : Shape} : ∀ c ∈ shape.name.toList, c ≠ ' ' ∧ c ≠ '\n' := by
  cases shape <;> simp [Shape.name]

theorem head?_name_append (shape : Shape) (rest : List Char) : (shape.name.toList ++ rest).head? ≠ some ' ' := by
  cases shape <;> simp [Shape.name]

theorem toList_data_some {layout : Layout} (h : layout.showData = true) (text : String) :
    (layout.data (some text)).toList = ' ' :: Text.quoted text.toList := by
  simp [Layout.data, h, toString]

theorem notMem_data (layout : Layout) (data : Option String) : '\n' ∉ (layout.data data).toList := by
  cases data with
  | none => exact List.not_mem_nil
  | some text =>
    cases hshow : layout.showData with
    | false => simp [Layout.data, hshow]
    | true =>
      rw [toList_data_some hshow]
      simpa using Text.notMem_quoted text.toList

theorem notMem_line (layout : Layout) (level : Nat) (mark : Mark) : '\n' ∉ (layout.line level mark).toList := by
  obtain ⟨inner, hnumbers, hinner⟩ := layout.exists_numbers_eq mark.numbers
  have hname : '\n' ∉ mark.shape.name.toList := fun hmem => (ne_of_mem_name _ hmem).2 rfl
  have hinside : '\n' ∉ inner := fun hmem => (hinner _ hmem).2 rfl
  rw [toList_line, hnumbers]
  simp [hname, hinside, notMem_data]

/-! ## Reading a line -/

/-- Data that are shown can be told from the text they are shown as. -/
theorem data_injective {layout : Layout} (h : layout.showData = true) {data data' : Option String}
    (heq : (layout.data data).toList = (layout.data data').toList) : data = data' := by
  have hnone : (layout.data none).toList = [] := rfl
  cases data with
  | none =>
    cases data' with
    | none => rfl
    | some text' =>
      rw [hnone, toList_data_some h] at heq
      cases heq
  | some text =>
    cases data' with
    | none =>
      rw [hnone, toList_data_some h] at heq
      cases heq
    | some text' =>
      rw [toList_data_some h, toList_data_some h] at heq
      rw [String.toList_inj.1 (Text.quoted_injective (List.cons.inj heq).2)]

/-- The line of a mark tells its level, its shape and its data. -/
theorem eq_of_line_eq {layout : Layout} (hindent : 1 ≤ layout.indent) (hdata : layout.showData = true)
    {level level' : Nat} {mark mark' : Mark} (h : layout.line level mark = layout.line level' mark') :
    level = level' ∧ mark.shape = mark'.shape ∧ mark.data = mark'.data := by
  obtain ⟨inner, hnumbers, hinner⟩ := layout.exists_numbers_eq mark.numbers
  obtain ⟨inner', hnumbers', hinner'⟩ := layout.exists_numbers_eq mark'.numbers
  have hchars := congrArg String.toList h
  rw [toList_line, toList_line, Text.replicate_append_inj (head?_name_append _ _) (head?_name_append _ _),
    Text.append_cons_inj_of_first (fun hmem => (ne_of_mem_name _ hmem).1 rfl)
      (fun hmem => (ne_of_mem_name _ hmem).1 rfl), hnumbers, hnumbers'] at hchars
  obtain ⟨hlevel, hname, hrest⟩ := hchars
  have hbrackets :
      inner ++ ']' :: (layout.data mark.data).toList = inner' ++ ']' :: (layout.data mark'.data).toList := by
    simpa using hrest
  obtain ⟨-, hend⟩ := (Text.append_cons_inj_of_first (fun hmem => (hinner _ hmem).1 rfl)
    fun hmem => (hinner' _ hmem).1 rfl).1 hbrackets
  have hshape : some mark.shape = some mark'.shape := by
    rw [← Shape.ofName?_name, String.toList_inj.1 hname, Shape.ofName?_name]
  exact ⟨Nat.eq_of_mul_eq_mul_right hindent hlevel, Option.some.inj hshape, data_injective hdata hend⟩

/-! ## Cutting a listing into its lines -/

theorem toList_ended_cons (line : String) (lines : List String) :
    (ended (line :: lines)).toList = line.toList ++ '\n' :: (ended lines).toList := by
  simp [ended]

/-- Lines can be told from the text that they come to. -/
theorem ended_injective {lines : List String} : ∀ {lines' : List String}, (∀ line ∈ lines, '\n' ∉ line.toList) →
    (∀ line ∈ lines', '\n' ∉ line.toList) → ended lines = ended lines' → lines = lines' := by
  induction lines with
  | nil =>
    intro lines' _ _ h
    cases lines' with
    | nil => rfl
    | cons line' lines' =>
      have hchars := congrArg String.toList h
      rw [toList_ended_cons] at hchars
      exact absurd hchars.symm (List.append_ne_nil_of_right_ne_nil _ (List.cons_ne_nil _ _))
  | cons line lines ih =>
    intro lines' hlines hlines' h
    have hchars := congrArg String.toList h
    rw [toList_ended_cons] at hchars
    obtain ⟨hline, hrest⟩ := List.forall_mem_cons.1 hlines
    cases lines' with
    | nil => exact absurd hchars (List.append_ne_nil_of_right_ne_nil _ (List.cons_ne_nil _ _))
    | cons line' lines' =>
      obtain ⟨hline', hrest'⟩ := List.forall_mem_cons.1 hlines'
      rw [toList_ended_cons, Text.append_cons_inj_of_first hline hline'] at hchars
      rw [String.toList_inj.1 hchars.1, ih hrest hrest' (String.toList_inj.1 hchars.2)]

theorem count_ended {lines : List String} (h : ∀ line ∈ lines, '\n' ∉ line.toList) :
    (ended lines).toList.count '\n' = lines.length := by
  induction lines with
  | nil => rfl
  | cons line lines ih =>
    obtain ⟨hline, hrest⟩ := List.forall_mem_cons.1 h
    rw [toList_ended_cons, List.count_append, List.count_cons_self, List.count_eq_zero.2 hline, ih hrest,
      List.length_cons, Nat.zero_add]

end Layout

/-! ## From rows to the tree -/

namespace Mark

mutual

/-- The tree without the numbers of its marks. -/
def unnumbered : Mark → Mark
  | ⟨shape, _, data, children⟩ => ⟨shape, [], data, unnumberedAll children⟩

/-- Trees in a row without the numbers of their marks. -/
def unnumberedAll : List Mark → List Mark
  | [] => []
  | mark :: rest => mark.unnumbered :: unnumberedAll rest

end

/-- Rows with what a listing tells of their marks. -/
def outline (rows : List (Nat × Mark)) : List (Nat × Shape × Option String) :=
  rows.map fun row => (row.1, row.2.shape, row.2.data)

/-- Rows that begin above some depth, or no rows. -/
def BeginsAbove (depth : Nat) (rows : List (Nat × Mark)) : Prop := ∀ row ∈ rows.head?, row.1 < depth

/-- Rows that begin above some depth do not begin at it. -/
theorem BeginsAbove.outline_ne {depth : Nat} {tail : List (Nat × Mark)} (h : BeginsAbove depth tail) (mark : Mark)
    (rows : List (Nat × Mark)) : outline tail ≠ outline ((depth, mark) :: rows) := by
  cases tail with
  | nil => exact nofun
  | cons row tail =>
    intro heq
    have hdepth : row.1 = depth := congrArg Prod.fst (List.cons.inj heq).1
    exact absurd hdepth (Nat.ne_of_lt (h row rfl))

theorem beginsAbove_rowsOfAllOnto {depth : Nat} {tail : List (Nat × Mark)} (h : BeginsAbove depth tail) :
    ∀ marks : List Mark, BeginsAbove (depth + 1) (rowsOfAllOnto depth tail marks)
  | [] => fun row hrow => Nat.lt_succ_of_lt (h row hrow)
  | ⟨shape, numbers, data, children⟩ :: rest => by
    intro row hrow
    rw [rowsOfAllOnto, rowsOnto] at hrow
    cases hrow
    exact Nat.lt_succ_self depth

mutual

theorem unnumbered_eq_of_outline : ∀ (mark mark' : Mark) {depth : Nat} {tail tail' : List (Nat × Mark)},
    BeginsAbove (depth + 1) tail → BeginsAbove (depth + 1) tail' →
      outline (mark.rowsOnto depth tail) = outline (mark'.rowsOnto depth tail') →
        mark.unnumbered = mark'.unnumbered ∧ outline tail = outline tail'
  | ⟨shape, numbers, data, children⟩, ⟨shape', numbers', data', children'⟩, depth, tail, tail', htail, htail', h => by
    rw [rowsOnto, rowsOnto] at h
    obtain ⟨hfirst, hrest⟩ := List.cons.inj h
    cases hfirst
    obtain ⟨hchildren, hafter⟩ := unnumberedAll_eq_of_outline children children' htail htail' hrest
    rw [unnumbered, unnumbered, hchildren]
    exact ⟨rfl, hafter⟩

theorem unnumberedAll_eq_of_outline : ∀ (marks marks' : List Mark) {depth : Nat} {tail tail' : List (Nat × Mark)},
    BeginsAbove depth tail → BeginsAbove depth tail' →
      outline (rowsOfAllOnto depth tail marks) = outline (rowsOfAllOnto depth tail' marks') →
        unnumberedAll marks = unnumberedAll marks' ∧ outline tail = outline tail'
  | [], [], depth, tail, tail', htail, htail', h => ⟨rfl, h⟩
  | [], ⟨shape', numbers', data', children'⟩ :: rest', depth, tail, tail', htail, htail', h => by
    rw [rowsOfAllOnto, rowsOfAllOnto, rowsOnto] at h
    exact absurd h (htail.outline_ne _ _)
  | ⟨shape, numbers, data, children⟩ :: rest, [], depth, tail, tail', htail, htail', h => by
    rw [rowsOfAllOnto, rowsOfAllOnto, rowsOnto] at h
    exact absurd h.symm (htail'.outline_ne _ _)
  | mark :: rest, mark' :: rest', depth, tail, tail', htail, htail', h => by
    rw [rowsOfAllOnto, rowsOfAllOnto] at h
    obtain ⟨hmark, hrows⟩ := unnumbered_eq_of_outline mark mark' (beginsAbove_rowsOfAllOnto htail rest)
      (beginsAbove_rowsOfAllOnto htail' rest') h
    obtain ⟨hrest, hafter⟩ := unnumberedAll_eq_of_outline rest rest' htail htail' hrows
    rw [unnumberedAll, unnumberedAll, hmark, hrest]
    exact ⟨rfl, hafter⟩

end

/-- The rows of a tree tell the tree but for the numbers. -/
theorem unnumbered_eq_of_outline_rows {mark mark' : Mark} (h : outline mark.rows = outline mark'.rows) :
    mark.unnumbered = mark'.unnumbered := by
  have hnil : BeginsAbove (0 + 1) [] := fun row hrow => by cases hrow
  exact (unnumbered_eq_of_outline mark mark' hnil hnil h).1

mutual

theorem le_of_mem_rowsOnto : ∀ (mark : Mark) {depth : Nat} {row : Nat × Mark},
    row ∈ mark.rowsOnto depth [] → depth ≤ row.1
  | ⟨shape, numbers, data, children⟩, depth, row, h => by
    rw [rowsOnto] at h
    rcases List.mem_cons.1 h with rfl | h
    · exact Nat.le_refl _
    · exact Nat.le_of_succ_le (le_of_mem_rowsOfAllOnto children h)

theorem le_of_mem_rowsOfAllOnto : ∀ (marks : List Mark) {depth : Nat} {row : Nat × Mark},
    row ∈ rowsOfAllOnto depth [] marks → depth ≤ row.1
  | [], depth, row, h => by cases h
  | mark :: rest, depth, row, h => by
    rw [rowsOfAllOnto, rowsOnto_eq] at h
    rcases List.mem_append.1 h with h | h
    · exact le_of_mem_rowsOnto mark h
    · exact le_of_mem_rowsOfAllOnto rest h

end

theorem length_rows (mark : Mark) : mark.rows.length = mark.size := by
  rw [← length_preorder, preorder, List.length_map]

end Mark

/-! ## Listings -/

namespace Layout

/-- The rows that have a line. -/
def written (layout : Layout) (rows : List (Nat × Mark)) : List (Nat × Mark) :=
  if layout.skipRoot then rows.tail else rows

/-- The level of a row at some depth. -/
def level (layout : Layout) (depth : Nat) : Nat := if layout.skipRoot then depth - 1 else depth

/-- Without the root, all marks that have a line are below the first depth. -/
theorem pos_of_mem_written {layout : Layout} (h : layout.skipRoot = true) {root : Mark} {row : Nat × Mark}
    (hrow : row ∈ layout.written root.rows) : 1 ≤ row.1 := by
  rw [written, if_pos h, Mark.rows_eq] at hrow
  exact Mark.le_of_mem_rowsOfAllOnto root.children hrow

theorem length_written (layout : Layout) (root : Mark) :
    (layout.written root.rows).length + (if layout.skipRoot then 1 else 0) = root.size := by
  rw [written, ← Mark.length_rows, Mark.rows_eq]
  split <;> rfl

theorem lines_eq (layout : Layout) (root : Mark) :
    layout.lines root = (layout.written root.rows).map fun row => layout.line (layout.level row.1) row.2 := by
  rw [lines, written]
  cases hskip : layout.skipRoot with
  | false => simp [linesOf, row?, level, hskip]
  | true =>
    have hroot : layout.row? 0 root = none := by simp [row?, hskip]
    have hrest : ∀ row ∈ Mark.rowsOfAllOnto 1 [] root.children,
        layout.row? row.1 row.2 = some (layout.line (layout.level row.1) row.2) := by
      intro row hrow
      have hdepth : row.1 ≠ 0 := Nat.one_le_iff_ne_zero.1 (Mark.le_of_mem_rowsOfAllOnto root.children hrow)
      simp [row?, level, hskip, hdepth]
    rw [Mark.rows_eq, linesOf_cons, hroot, linesOf, List.filterMap_congr hrest]
    exact congrFun List.filterMap_eq_map' _

/-- Rows can be told from their lines but for the numbers. -/
theorem outline_eq_of_lines {layout : Layout} (hindent : 1 ≤ layout.indent) (hdata : layout.showData = true)
    {rows : List (Nat × Mark)} : ∀ {rows' : List (Nat × Mark)},
      (rows.map fun row => layout.line row.1 row.2) = (rows'.map fun row => layout.line row.1 row.2) →
        Mark.outline rows = Mark.outline rows' := by
  induction rows with
  | nil =>
    intro rows' h
    rw [List.map_eq_nil_iff.1 h.symm]
  | cons row rows ih =>
    intro rows' h
    cases rows' with
    | nil => cases h
    | cons row' rows' =>
      obtain ⟨hline, hrest⟩ := List.cons.inj h
      obtain ⟨hdepth, hshape, hdata⟩ := eq_of_line_eq hindent hdata hline
      rw [Mark.outline, List.map_cons, hdepth, hshape, hdata]
      exact congrArg _ (ih hrest)

end Layout

namespace Mark

/-- A listing has one line for each mark, or for each but the root, in the order of the tree, and no other line end.
With indentation and data it tells the tree but for the numbers. -/
theorem listing_tells (layout : Layout) (root : Mark) :
    let written := layout.written root.rows
    let lines := written.map fun row => layout.line (layout.level row.1) row.2
    root.listing layout = Layout.ended lines ∧
    lines.length + (if layout.skipRoot then 1 else 0) = root.size ∧
    (∀ line ∈ lines, '\n' ∉ line.toList) ∧
    (root.listing layout).toList.count '\n' = lines.length ∧
    (layout.skipRoot = true → ∀ row ∈ written, 1 ≤ row.1) ∧
    (root.listing layout ≠ "" → Text.trimEnd (root.listing layout) ++ "\n" = root.listing layout) ∧
    ∀ other : Mark, 1 ≤ layout.indent → layout.showData = true → layout.skipRoot = false →
      root.listing layout = other.listing layout → root.unnumbered = other.unnumbered := by
  have hlisting (mark : Mark) : mark.listing layout = Layout.ended (layout.lines mark) := listing_eq layout mark
  have hlines (mark : Mark) : ∀ line ∈ layout.lines mark, '\n' ∉ line.toList := by
    intro line hline
    rw [layout.lines_eq] at hline
    obtain ⟨row, -, rfl⟩ := List.mem_map.1 hline
    exact layout.notMem_line _ row.2
  intro written lines
  have heq : layout.lines root = lines := layout.lines_eq root
  rw [← heq]
  refine ⟨hlisting root, ?_, hlines root, ?_, fun hskip row => Layout.pos_of_mem_written hskip, ?_, ?_⟩
  · rw [heq, List.length_map]
    exact layout.length_written root
  · rw [hlisting, Layout.count_ended (hlines root)]
  · intro hne
    refine trimEnd_listing_of_lines fun hnil => hne ?_
    rw [hlisting, hnil]
    rfl
  · intro other hindent hdata hskip hsame
    have hrows (mark : Mark) : layout.lines mark = mark.rows.map fun row => layout.line row.1 row.2 := by
      simp [layout.lines_eq, Layout.written, Layout.level, hskip]
    rw [hlisting, hlisting] at hsame
    have hsameLines := Layout.ended_injective (hlines root) (hlines other) hsame
    rw [hrows, hrows] at hsameLines
    exact unnumbered_eq_of_outline_rows (Layout.outline_eq_of_lines hindent hdata hsameLines)

/-- Data that look like a line of their own do not begin one. Numbers that are the same when rounded make no difference
to the listing, and none to the tree without its numbers. -/
theorem listing_tells_data :
    let text (number : Float) : Mark := ⟨.text, [number], some "a\"\n  g []", []⟩
    let root : Mark := ⟨.svg, [], none, [text 0.001]⟩
    let other : Mark := ⟨.svg, [], none, [text 0.002]⟩
    root.listing {} = "svg []\n  text [0.00] \"a\\\"\\n  g []\"\n" ∧
      Text.trimEnd (root.listing {}) ++ "\n" = root.listing {} ∧
      other.listing {} = root.listing {} ∧ root.unnumbered = other.unnumbered ∧
      ∀ row ∈ ({ skipRoot := true } : Layout).written root.rows, 1 ≤ row.1 := by
  intro text root other
  have hroot : root.listing {} = "svg []\n  text [0.00] \"a\\\"\\n  g []\"\n" := by decide +kernel
  have hother : other.listing {} = root.listing {} := by decide +kernel
  obtain ⟨-, -, -, -, -, htrim, htells⟩ := listing_tells {} root
  obtain ⟨-, -, -, -, hlevels, -⟩ := listing_tells { skipRoot := true } root
  refine ⟨hroot, htrim ?_, hother, htells other (by decide) rfl rfl hother.symm, hlevels rfl⟩
  rw [hroot]
  decide

end Mark

end SvgPlot
