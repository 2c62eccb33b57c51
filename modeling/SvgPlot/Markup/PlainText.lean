import SvgPlot.Markup.Element
import SvgPlot.Markup.Reference

/-!
# The text of content

What content says once its references are replaced. Each reference is looked at on its own: one that stands for nothing
stays as it was written, and so does the rest of a text after an ampersand that no semicolon follows. CDATA sections are
taken as they are.
-/

namespace SvgPlot.Markup

/-- A reference that was left as it was written. -/
inductive KeptReference where
  /-- no semicolon follows the ampersand that this text begins with -/
  | unterminated (text : String)
  | undecodable (reference : String) (fault : ReferenceFault)
deriving Repr, DecidableEq

def KeptReference.message : KeptReference → String
  | .unterminated text => s!"Keeping unterminated reference as written: {text}"
  | .undecodable reference fault => s!"Keeping undecodable reference {reference} as written: {fault.message}"

/-- Text with references replaced, and those that were not. -/
structure PlainText where
  text : List Char
  kept : List KeptReference
deriving Repr, DecidableEq

namespace PlainText

def append (a b : PlainText) : PlainText := ⟨a.text ++ b.text, a.kept ++ b.kept⟩

/-- Texts one after the other. -/
def join (parts : List PlainText) : PlainText := ⟨parts.flatMap text, parts.flatMap kept⟩

def ofPiece (piece : Piece) : PlainText :=
  match piece with
  | .plain text => ⟨text, []⟩
  | .unterminated _ => ⟨piece.text, [.unterminated (String.ofList piece.text)]⟩
  | .reference _ =>
    match expand piece.text with
    | .ok text => ⟨text, []⟩
    | .error fault => ⟨piece.text, [.undecodable (String.ofList piece.text) fault]⟩

/-- The body of a reference in text is all up to the next semicolon. -/
def ofText (raw : List Char) : PlainText := join ((cut (fun _ => true) raw).map ofPiece)

def ofContent : Content → PlainText
  | .text raw => ofText raw.toList
  | .cdata raw => ⟨raw.toList, []⟩

/-- The text of all pieces of content, with nothing between them. -/
def of (content : List Content) : PlainText := join (content.map ofContent)

def toString (t : PlainText) : String := String.ofList t.text

end PlainText

end SvgPlot.Markup
