/-!
# Blank characters

The characters with the Unicode property `White_Space`, and the three things done with them: trimming the ends of a
text, cutting a text into the fields between separators, and collapsing every blank run to one space.
-/

namespace SvgPlot.Text

/-- The characters with the Unicode property `White_Space`. -/
def isBlank (c : Char) : Bool :=
  let n := c.toNat
  (0x9 ≤ n && n ≤ 0xd) || n == 0x20 || n == 0x85 || n == 0xa0 || n == 0x1680 || (0x2000 ≤ n && n ≤ 0x200a) ||
    n == 0x2028 || n == 0x2029 || n == 0x202f || n == 0x205f || n == 0x3000

/-- The characters without the blanks they end with. -/
def trimEndChars (cs : List Char) : List Char := (cs.reverse.dropWhile isBlank).reverse

/-- The characters without the blanks at either end. -/
def trimChars (cs : List Char) : List Char := trimEndChars (cs.dropWhile isBlank)

def trim (s : String) : String := String.ofList (trimChars s.toList)

def trimEnd (s : String) : String := String.ofList (trimEndChars s.toList)

/-- The maximal non-empty runs of characters that are no separators, in order. -/
def fields (separates : Char → Bool) (cs : List Char) : List (List Char) :=
  (cs.splitOnP separates).filter fun field => !field.isEmpty

/-- The words of a text with one space between neighbours: nothing blank is left but those spaces. -/
def collapse (s : String) : String :=
  String.ofList ([' '].intercalate (fields isBlank s.toList))

/-- Every character that core counts as white space is blank. -/
theorem isBlank_of_isWhitespace {c : Char} (h : c.isWhitespace = true) : isBlank c = true := by
  simp only [Char.isWhitespace, Bool.or_eq_true, decide_eq_true_eq] at h
  rcases h with (((h | h) | h) | h) <;> subst h <;> decide

theorem mem_fields {separates : Char → Bool} {cs field : List Char} (h : field ∈ fields separates cs) :
    field ≠ [] := by
  simp only [fields, List.mem_filter] at h
  intro he
  simp [he] at h

end SvgPlot.Text
