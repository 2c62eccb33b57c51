/-!
# Where a document type declaration ends

A document type declaration is skipped, but its end has to be found: the `>` that stands outside quotes and outside the
internal subset in brackets. In the subset, comments, instructions and declarations hide a `]`; a declaration whose
kind allows quoted values hides its quoted `>` too.
-/

namespace SvgPlot.Markup.Doctype

inductive State where
  /-- before the internal subset, perhaps in quotes -/
  | outside (quote : Option Char)
  /-- between the items of the internal subset -/
  | subset
  /-- after a `<` in the subset, with the characters since then -/
  | opened (seen : List Char)
  /-- in a comment, after so many dashes -/
  | comment (dashes : Nat)
  /-- in an instruction, perhaps just after a question mark -/
  | instruction (question : Bool)
  /-- in a declaration, which ends at the next `>` -/
  | declaration
  /-- in a declaration, which ends at the next `>` outside quotes -/
  | quotedDeclaration (quote : Option Char)
  /-- after the internal subset -/
  | after
deriving Repr, DecidableEq

def isQuote (c : Char) : Bool := c == '"' || c == '\''

/-- The quote that is open after one more character. -/
def nextQuote (quote : Option Char) (c : Char) : Option Char :=
  match quote with
  | some q => if c == q then none else some q
  | none => if isQuote c then some c else none

/-- The openings of declarations that have quoted values. -/
def quotedKinds : List (List Char) := ["!ENTITY".toList, "!ATTLIST".toList, "!NOTATION".toList]

/-- The state after `<` and some characters; the shortest opening that decides does. -/
def stateOfOpening (seen : List Char) : State :=
  if seen = ['?'] then .instruction false
  else if seen = ['!', '-', '-'] then .comment 0
  else if quotedKinds.contains seen then .quotedDeclaration none
  else if (['!', '-', '-'] :: quotedKinds).any seen.isPrefixOf then .opened seen
  else .declaration

/-- The state after one more character; `none` at the `>` that ends the declaration. -/
def step : State → Char → Option State
  | .outside none, '>' => none
  | .outside none, '[' => some .subset
  | .outside quote, c => some (.outside (nextQuote quote c))
  | .subset, c => some (if c == ']' then .after else if c == '<' then .opened [] else .subset)
  | .opened seen, c => some (if c == '>' then .subset else stateOfOpening (seen ++ [c]))
  | .comment dashes, c =>
    some (if c == '-' then .comment (dashes + 1) else if c == '>' && 2 ≤ dashes then .subset else .comment 0)
  | .instruction question, c => some (if c == '>' && question then .subset else .instruction (c == '?'))
  | .declaration, c => some (if c == '>' then .subset else .declaration)
  | .quotedDeclaration none, '>' => some .subset
  | .quotedDeclaration quote, c => some (.quotedDeclaration (nextQuote quote c))
  | .after, c => if c == '>' then none else some .after

end SvgPlot.Markup.Doctype
