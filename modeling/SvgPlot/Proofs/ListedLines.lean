import SvgPlot.Listing
import SvgPlot.Proofs.ShownMarks
import SvgPlot.Text.Blank

/-!
# The lines of a listing

A listing is the lines of its marks in document order, each with its end (`Mark.listing_eq`). No line ends in a blank,
so a listing without the blanks at its end lacks the end of its last line and nothing else (`trimEnd_listing_of_lines`).
-/

namespace SvgPlot

/-! ## Rows of marks -/

namespace Mark

mutual

theorem rowsOnto_eq : ∀ (mark : Mark) (depth : Nat) (tail : List (Nat × Mark)),
    mark.rowsOnto depth tail = mark.rowsOnto depth [] ++ tail
  | ⟨shape, numbers, data, children⟩, depth, tail => by
    rw [rowsOnto, rowsOnto, rowsOfAllOnto_eq children]
    rfl

theorem rowsOfAllOnto_eq : ∀ (marks : List Mark) (depth : Nat) (tail : List (Nat × Mark)),
    rowsOfAllOnto depth tail marks = rowsOfAllOnto depth [] marks ++ tail
  | [], depth, tail => rfl
  | mark :: rest, depth, tail => by
    rw [rowsOfAllOnto, rowsOfAllOnto, rowsOnto_eq mark, rowsOnto_eq mark depth (rowsOfAllOnto depth [] rest),
      rowsOfAllOnto_eq rest, List.append_assoc]

end

theorem rows_eq (mark : Mark) : mark.rows = (0, mark) :: rowsOfAllOnto 1 [] mark.children := by
  cases mark
  rw [rows, rowsOnto]

end Mark

namespace Layout

/-! ## Lines -/

/-- The line of a mark at some depth, if the mark has one. -/
def row? (layout : Layout) (depth : Nat) (mark : Mark) : Option String :=
  if layout.skipRoot && depth == 0 then none
  else some (layout.line (if layout.skipRoot then depth - 1 else depth) mark)

def linesOf (layout : Layout) (rows : List (Nat × Mark)) : List String :=
  rows.filterMap fun row => layout.row? row.1 row.2

/-- The lines of a tree, without their ends. -/
def lines (layout : Layout) (root : Mark) : List String := layout.linesOf root.rows

/-- Lines with their ends. -/
def ended (lines : List String) : String := String.join (lines.map fun line => line ++ "\n")

theorem ended_append (lines more : List String) : ended (lines ++ more) = ended lines ++ ended more := by
  rw [ended, List.map_append, String.join_append]
  rfl

theorem ended_singleton (line : String) : ended [line] = line ++ "\n" := by
  rw [ended, List.map_singleton, String.join_cons, String.join_nil, String.append_empty]

theorem linesOf_cons (layout : Layout) (depth : Nat) (mark : Mark) (rows : List (Nat × Mark)) :
    layout.linesOf ((depth, mark) :: rows) = (layout.row? depth mark).toList ++ layout.linesOf rows := by
  simp only [linesOf, List.filterMap_cons]
  cases layout.row? depth mark <;> rfl

theorem linesOf_append (layout : Layout) (rows more : List (Nat × Mark)) :
    layout.linesOf (rows ++ more) = layout.linesOf rows ++ layout.linesOf more := List.filterMap_append

/-! ## The writer -/

theorem enter_writer (layout : Layout) (text : String) (mark : Mark) (depth : Nat) :
    layout.writer.enter text mark depth = (.descend, text ++ ended (layout.row? depth mark).toList) := by
  simp only [writer, row?]
  split
  · rw [Option.toList_none, ended, List.map_nil, String.join_nil, String.append_empty]
  · rw [Option.toList_some, ended_singleton, String.append_assoc]

mutual

/-- The writer adds the lines of a mark and of all below it. -/
theorem visit_writer (layout : Layout) : ∀ (mark : Mark) (depth : Nat) (text : String),
    layout.writer.visit depth text mark = ⟨true, text ++ ended (layout.linesOf (mark.rowsOnto depth []))⟩
  | ⟨shape, numbers, data, children⟩, depth, text => by
    rw [Visitor.visit_of_descend (enter_writer layout text _ depth) (visitAll_writer layout children (depth + 1) _),
      Mark.rowsOnto, linesOf_cons, ended_append, ← String.append_assoc]
    rfl

theorem visitAll_writer (layout : Layout) : ∀ (marks : List Mark) (depth : Nat) (text : String),
    layout.writer.visitAll depth text marks =
      ⟨true, text ++ ended (layout.linesOf (Mark.rowsOfAllOnto depth [] marks))⟩
  | [], depth, text => by
    show (⟨true, text⟩ : Visitor.Visit String) = ⟨true, text ++ ""⟩
    rw [String.append_empty]
  | mark :: rest, depth, text => by
    rw [Visitor.visitAll_cons (visit_writer layout mark depth text), visitAll_writer layout rest, Mark.rowsOfAllOnto,
      Mark.rowsOnto_eq mark depth (Mark.rowsOfAllOnto depth [] rest), linesOf_append, ended_append,
      String.append_assoc]

end

end Layout

theorem Mark.listing_eq (layout : Layout) (root : Mark) : root.listing layout = Layout.ended (layout.lines root) := by
  rw [listing, Visitor.walk_eq, Layout.visit_writer, String.empty_append]
  rfl

/-! ## The end of a listing -/

namespace Text

/-- The text has a last character, which is not blank. -/
def EndsUnblank (text : String) : Prop := ∃ before c, text.toList = before ++ [c] ∧ isBlank c = false

theorem EndsUnblank.append {text : String} (h : EndsUnblank text) (before : String) : EndsUnblank (before ++ text) := by
  obtain ⟨chars, c, htext, hblank⟩ := h
  refine ⟨before.toList ++ chars, c, ?_, hblank⟩
  rw [String.toList_append, htext, List.append_assoc]

theorem EndsUnblank.trimEnd_eq {text : String} (h : EndsUnblank text) : trimEnd (text ++ "\n") = text := by
  obtain ⟨chars, c, htext, hblank⟩ := h
  have hreverse : (text ++ "\n").toList.reverse = '\n' :: c :: chars.reverse := by
    rw [String.toList_append, htext, List.reverse_append, List.reverse_append]
    rfl
  have hcut : ('\n' :: c :: chars.reverse).dropWhile isBlank = c :: chars.reverse := by
    rw [List.dropWhile_cons_of_pos rfl, List.dropWhile_cons_of_neg (by rw [hblank]; exact Bool.false_ne_true)]
  rw [trimEnd, trimEndChars, hreverse, hcut, List.reverse_cons, List.reverse_reverse, ← htext, String.ofList_toList]

theorem endsUnblank_quoted (cs : List Char) : EndsUnblank (String.ofList (quoted cs)) :=
  ⟨'"' :: cs.flatMap quotedChar, '"', String.toList_ofList, rfl⟩

end Text

namespace Layout

theorem endsUnblank_numbers (layout : Layout) (xs : List Float) : Text.EndsUnblank (layout.numbers xs) := by
  have hbracket : Text.EndsUnblank "]" := ⟨[], ']', rfl, rfl⟩
  exact hbracket.append _

/-- Data that are shown end in a quote. -/
theorem data_eq_or_endsUnblank (layout : Layout) (data : Option String) :
    layout.data data = "" ∨ Text.EndsUnblank (layout.data data) := by
  cases data with
  | none => exact .inl rfl
  | some text =>
    rw [Layout.data]
    split
    · exact .inr ((Text.endsUnblank_quoted text.toList).append " ")
    · exact .inl rfl

/-- The last character of a line is the bracket after the numbers or the quote after the data. -/
theorem endsUnblank_line (layout : Layout) (level : Nat) (mark : Mark) :
    Text.EndsUnblank (layout.line level mark) := by
  rw [line]
  rcases layout.data_eq_or_endsUnblank mark.data with hdata | hdata
  · rw [hdata]
    show Text.EndsUnblank (_ ++ layout.numbers mark.numbers ++ "")
    rw [String.append_empty]
    exact (layout.endsUnblank_numbers mark.numbers).append _
  · exact hdata.append _

theorem endsUnblank_of_mem_lines {layout : Layout} {root : Mark} {text : String} (h : text ∈ layout.lines root) :
    Text.EndsUnblank text := by
  obtain ⟨row, -, hrow⟩ := List.mem_filterMap.mp h
  rw [row?] at hrow
  split at hrow
  · exact absurd hrow.symm (Option.some_ne_none _)
  · rw [← Option.some.inj hrow]
    exact layout.endsUnblank_line _ row.2

end Layout

/-- A listing with lines ends in one line end, and without the blanks at its end it lacks just that. -/
theorem Mark.trimEnd_listing_of_lines {layout : Layout} {root : Mark} (h : layout.lines root ≠ []) :
    Text.trimEnd (root.listing layout) ++ "\n" = root.listing layout := by
  obtain ⟨before, last, hlast⟩ := (List.eq_nil_or_concat _).resolve_left h
  rw [List.concat_eq_append] at hlast
  have hmem : last ∈ layout.lines root := hlast ▸ List.mem_append_right before List.mem_cons_self
  have hlisting : root.listing layout = Layout.ended before ++ last ++ "\n" := by
    rw [Mark.listing_eq, hlast, Layout.ended_append, Layout.ended_singleton, String.append_assoc]
  rw [hlisting, ((Layout.endsUnblank_of_mem_lines hmem).append _).trimEnd_eq]

theorem Mark.trimEnd_listing {layout : Layout} (h : layout.skipRoot = false) (root : Mark) :
    Text.trimEnd (root.listing layout) ++ "\n" = root.listing layout := by
  refine Mark.trimEnd_listing_of_lines ?_
  rw [Layout.lines, Mark.rows_eq, Layout.linesOf_cons, Layout.row?, h]
  exact List.cons_ne_nil _ _

end SvgPlot
