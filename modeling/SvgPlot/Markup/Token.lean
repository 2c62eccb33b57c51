import SvgPlot.Markup.Doctype
import SvgPlot.Markup.Scan
import SvgPlot.Text.Size

/-!
# Tokens of markup

Markup text is cut into tokens: text, references, tags, CDATA sections and what is skipped. No more of the grammar is
checked here than is needed to find the ends of the tokens and to match closing tags with opening ones. `Reading.of`
reads a whole text; every token takes at least one character (`length_of_next`).
-/

namespace SvgPlot.Markup

/-- The blanks of markup. -/
def isSpace (c : Char) : Bool := c == ' ' || c == '\t' || c == '\r' || c == '\n'

/-- The inside of an opening tag: its name, and the text after the name. -/
structure Tag where
  name : List Char
  attributes : List Char
deriving Repr, DecidableEq

/-- The name of a tag ends at the first blank. -/
def Tag.ofInner (inner : List Char) : Tag :=
  ⟨inner.takeWhile fun c => !isSpace c, inner.dropWhile fun c => !isSpace c⟩

inductive Token where
  | text (raw : List Char)
  /-- `&body;` -/
  | reference (body : List Char)
  | cdata (raw : List Char)
  | comment
  | instruction
  | doctype
  | opening (tag : Tag)
  /-- an opening tag that is closed at once -/
  | empty (tag : Tag)
  | closing (name : List Char)
deriving Repr, DecidableEq

/-- What can be left without an end. -/
inductive Construct where
  | comment
  | cdata
  | doctype
  | instruction
  | declaration
  | tag
  /-- an attribute value in these quotes -/
  | value (quote : Char)
deriving Repr, DecidableEq

inductive Fault where
  /-- `<!` with something after it that begins no construct -/
  | unknownMarkup
  | notClosed (what : Construct)
  | openReference
  | namelessDoctype
  /-- a closing tag for another element than the innermost open one -/
  | mismatched (expected found : List Char)
  /-- a closing tag with nothing open -/
  | unmatched (found : List Char)
deriving Repr, DecidableEq

/-- A construct and the text that should have ended it. -/
def Construct.describe : Construct → String
  | .comment => "comment not closed: `-->`"
  | .cdata => "CDATA not closed: `]]>`"
  | .doctype => "DOCTYPE not closed: `>`"
  | .instruction => "processing instruction not closed: `?>`"
  | .declaration => "XML declaration not closed: `?>`"
  | .tag => "tag not closed: `>`"
  | .value quote => s!"attribute value not closed: `{quote}`"

def Fault.message : Fault → String
  | .unknownMarkup => "syntax error: unknown or missed symbol in markup"
  | .notClosed what => s!"syntax error: {what.describe} not found before end of input"
  | .openReference => "ill-formed document: entity or character reference not closed: `;` not found before end of input"
  | .namelessDoctype => "ill-formed document: `<!DOCTYPE>` declaration does not contain a name of a document type"
  | .mismatched expected found =>
    s!"ill-formed document: expected `</{String.ofList expected}>`, but `</{String.ofList found}>` was found"
  | .unmatched found => s!"ill-formed document: close tag `</{String.ofList found}>` does not match any open tag"

/-- A fault with the text that was still unread when it came up. -/
structure Stop where
  fault : Fault
  unread : List Char
deriving Repr, DecidableEq

/-! ## The ends of the constructs -/

/-- A reference body ends at a semicolon, or is broken off by what begins something else. -/
def stepReference (_ : Unit) (c : Char) : Option Unit :=
  if c == ';' || c == '&' || c == '<' then none else some ()

/-- A tag ends at a `>` outside quotes; the state is the open quote. -/
def stepTag (quote : Option Char) (c : Char) : Option (Option Char) :=
  if quote.isNone && c == '>' then none else some (Doctype.nextQuote quote c)

/-- An instruction ends at `?>`; the state tells whether the last character was a question mark. -/
def stepInstruction (question : Bool) (c : Char) : Option Bool :=
  if c == '>' && question then none else some (c == '?')

/-- A CDATA section ends at `]]>`; the state counts the brackets just read. -/
def stepCData (brackets : Nat) (c : Char) : Option Nat :=
  if c == '>' && 2 ≤ brackets then none else some (if c == ']' then brackets + 1 else 0)

/-- A comment ends at `-->`, at the sixth character after `<` at the earliest. The state counts the characters after
`<!` and the dashes just read. -/
def stepComment (state : Nat × Nat) (c : Char) : Option (Nat × Nat) :=
  let (count, dashes) := state
  if c == '>' && 2 ≤ dashes && 4 ≤ count then none
  else some (count + 1, if c == '-' then dashes + 1 else 0)

/-! ## Single tokens -/

/-- A reference, after its ampersand. -/
def readReference (rest : List Char) : Except Stop (Token × List Char) :=
  match scan stepReference () rest with
  | .ended _ => .error ⟨.openReference, []⟩
  | .stopped body stop after =>
    if stop == ';' then .ok (.reference body, after) else .error ⟨.openReference, stop :: after⟩

/-- A CDATA section, after `<!`. -/
def readCData (rest : List Char) : Except Stop (Token × List Char) :=
  match scan stepCData 0 rest with
  | .ended _ => .error ⟨.notClosed .cdata, []⟩
  | .stopped before _ after =>
    if "[CDATA[".toList.isPrefixOf before then .ok (.cdata ((before.drop 7).take (before.length - 9)), after)
    else .error ⟨.notClosed .cdata, after⟩

/-- A comment, after `<!`. -/
def readComment (rest : List Char) : Except Stop (Token × List Char) :=
  match scan stepComment (0, 0) rest with
  | .ended _ => .error ⟨.notClosed .comment, []⟩
  | .stopped before _ after =>
    if "--".toList.isPrefixOf before then .ok (.comment, after) else .error ⟨.notClosed .comment, after⟩

/-- A document type declaration, after `<!`. -/
def readDoctype (rest : List Char) : Except Stop (Token × List Char) :=
  match scan Doctype.step (.outside none) rest with
  | .ended _ => .error ⟨.notClosed .doctype, []⟩
  | .stopped before _ after =>
    if (before.take 7).map Char.toUpper != "DOCTYPE".toList then .error ⟨.notClosed .doctype, after⟩
    else if (before.drop 7).all isSpace then .error ⟨.namelessDoctype, after⟩
    else .ok (.doctype, after)

/-- Whether the text after `<?` begins an XML declaration. -/
def opensDeclaration : List Char → Bool
  | ['x', 'm', 'l'] => true
  | 'x' :: 'm' :: 'l' :: c :: _ => isSpace c || c == '?'
  | _ => false

/-- A processing instruction, after `<?`. -/
def readInstruction (rest : List Char) : Except Stop (Token × List Char) :=
  match scan stepInstruction true rest with
  | .ended _ => .error ⟨.notClosed (if opensDeclaration rest then .declaration else .instruction), []⟩
  | .stopped before _ after =>
    if before.isEmpty then .error ⟨.notClosed .instruction, after⟩ else .ok (.instruction, after)

/-- The name in a closing tag: what follows it may be blank. -/
def closingName (inner : List Char) : List Char :=
  if inner.all isSpace then inner else (inner.reverse.dropWhile isSpace).reverse

/-- The token of a tag with this text between `<` and `>`. -/
def tokenOfInner : List Char → Token
  | '/' :: inner => .closing (closingName inner)
  | inner => if inner.getLast? == some '/' then .empty (Tag.ofInner inner.dropLast) else .opening (Tag.ofInner inner)

/-- A tag, after `<`. -/
def readTag (rest : List Char) : Except Stop (Token × List Char) :=
  match scan stepTag none rest with
  | .ended none => .error ⟨.notClosed .tag, []⟩
  | .ended (some quote) => .error ⟨.notClosed (.value quote), []⟩
  | .stopped inner _ after => .ok (tokenOfInner inner, after)

/-- What follows `<!`; its first character decides. -/
def readDeclaration (rest : List Char) : Except Stop (Token × List Char) :=
  match rest with
  | '[' :: _ => readCData rest
  | '-' :: _ => readComment rest
  | 'D' :: _ | 'd' :: _ => readDoctype rest
  | _ => .error ⟨.unknownMarkup, '<' :: '!' :: rest⟩

/-- What follows `<`. -/
def readMarkup (rest : List Char) : Except Stop (Token × List Char) :=
  match rest with
  | [] => .error ⟨.notClosed .tag, ['<']⟩
  | '!' :: rest => readDeclaration rest
  | '?' :: rest => readInstruction rest
  | rest => readTag rest

/-- Whether a character is text wherever it stands. -/
def isPlain (c : Char) : Bool := c != '<' && c != '&'

/-- The token at the start of a text with this first character, and the text after it. -/
def Token.next (c : Char) (rest : List Char) : Except Stop (Token × List Char) :=
  if c == '<' then readMarkup rest
  else if c == '&' then readReference rest
  else .ok (.text (c :: rest.takeWhile isPlain), rest.dropWhile isPlain)

/-! ## Each token takes something -/

section

variable {rest after : List Char} {token : Token}

theorem length_of_readReference (h : readReference rest = .ok (token, after)) : after.length < rest.length := by
  unfold readReference at h
  split at h
  · cases h
  · rename_i hscan
    have := length_of_scan hscan
    split at h <;> cases h
    exact this

theorem length_of_readCData (h : readCData rest = .ok (token, after)) : after.length < rest.length := by
  unfold readCData at h
  split at h
  · cases h
  · rename_i hscan
    have := length_of_scan hscan
    split at h <;> cases h
    exact this

theorem length_of_readComment (h : readComment rest = .ok (token, after)) : after.length < rest.length := by
  unfold readComment at h
  split at h
  · cases h
  · rename_i hscan
    have := length_of_scan hscan
    split at h <;> cases h
    exact this

theorem length_of_readDoctype (h : readDoctype rest = .ok (token, after)) : after.length < rest.length := by
  unfold readDoctype at h
  split at h
  · cases h
  · rename_i hscan
    have := length_of_scan hscan
    split at h
    · cases h
    · split at h <;> cases h
      exact this

theorem length_of_readInstruction (h : readInstruction rest = .ok (token, after)) : after.length < rest.length := by
  unfold readInstruction at h
  split at h
  · cases h
  · rename_i hscan
    have := length_of_scan hscan
    split at h <;> cases h
    exact this

theorem length_of_readTag (h : readTag rest = .ok (token, after)) : after.length < rest.length := by
  unfold readTag at h
  split at h
  · cases h
  · cases h
  · rename_i hscan
    have := length_of_scan hscan
    cases h
    exact this

theorem length_of_readDeclaration (h : readDeclaration rest = .ok (token, after)) : after.length < rest.length := by
  unfold readDeclaration at h
  split at h
  · exact length_of_readCData h
  · exact length_of_readComment h
  · exact length_of_readDoctype h
  · exact length_of_readDoctype h
  · cases h

theorem length_of_readMarkup (h : readMarkup rest = .ok (token, after)) : after.length < rest.length := by
  unfold readMarkup at h
  split at h
  · cases h
  · have := length_of_readDeclaration h
    simp only [List.length_cons]
    omega
  · have := length_of_readInstruction h
    simp only [List.length_cons]
    omega
  · exact length_of_readTag h

theorem length_of_next {c : Char} (h : Token.next c rest = .ok (token, after)) :
    after.length ≤ rest.length := by
  unfold Token.next at h
  split at h
  · exact Nat.le_of_lt (length_of_readMarkup h)
  · split at h
    · exact Nat.le_of_lt (length_of_readReference h)
    · cases h
      exact (List.dropWhile_suffix _).length_le

end

/-! ## Whole texts -/

/-- The names of the open elements after a token, innermost first. -/
def Token.nest (names : List (List Char)) : Token → Except Fault (List (List Char))
  | .opening tag => .ok (tag.name :: names)
  | .closing found =>
    match names with
    | [] => .error (.unmatched found)
    | expected :: outer => if found = expected then .ok outer else .error (.mismatched expected found)
  | _ => .ok names

/-- The tokens of a text up to its end or its first fault. -/
structure Reading where
  tokens : List Token
  stop : Option Stop
deriving Repr, DecidableEq

/-- Reads on with these elements open; `seen` are the tokens before, last one first. -/
def readTokens (names : List (List Char)) (seen : List Token) : List Char → Reading
  | [] => ⟨seen.reverse, none⟩
  | c :: rest =>
    match h : Token.next c rest with
    | .error stop => ⟨seen.reverse, some stop⟩
    | .ok (token, after) =>
      match token.nest names with
      | .error fault => ⟨seen.reverse, some ⟨fault, after⟩⟩
      | .ok names =>
        have : after.length ≤ rest.length := length_of_next h
        readTokens names (token :: seen) after
termination_by text => text.length

/-- The reader goes on behind a token that it can take. -/
theorem readTokens_of_next {names after : List (List Char)} {seen : List Token} {c : Char} {rest unread : List Char}
    {token : Token} (hnext : Token.next c rest = .ok (token, unread)) (hnest : token.nest names = .ok after) :
    readTokens names seen (c :: rest) = readTokens after (token :: seen) unread := by
  rw [readTokens]
  split
  · simp_all
  · rename_i heq
    rw [hnext] at heq
    cases heq
    split <;> simp_all

/-- The byte order mark that a text may start with. -/
def byteOrderMark : Char := '\ufeff'

/-- A text without the byte order mark it may start with. -/
def withoutMark : List Char → List Char
  | [] => []
  | c :: rest => if c == byteOrderMark then rest else c :: rest

/-- The tokens of a text that has no byte order mark. -/
def Reading.of (text : List Char) : Reading := readTokens [] [] text

end SvgPlot.Markup
