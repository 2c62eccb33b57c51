import SvgPlot.Markup.Element
import SvgPlot.Markup.Reference
import SvgPlot.Markup.Token

/-!
# Attributes

The text of an opening tag after its name, read as attributes: a key, an equals sign, and a value in quotes. Nothing
need stand between one attribute and the next. Keys must differ, and the references in a value are replaced.
-/

namespace SvgPlot.Markup

/-- Why a text is no list of attributes. Positions are byte offsets from the start of the tag's name. -/
inductive AttributeFault where
  | noEquals (position : Nat)
  | noValue (position : Nat)
  | noQuotes (position : Nat)
  | openValue (position : Nat) (quote : Char)
  | duplicate (position earlier : Nat)
deriving Repr, DecidableEq

def AttributeFault.message : AttributeFault → String
  | .noEquals position => s!"position {position}: attribute key must be directly followed by `=` or space"
  | .noValue position => s!"position {position}: `=` must be followed by an attribute value"
  | .noQuotes position => s!"position {position}: attribute value must be enclosed in `\"` or `'`"
  | .openValue position quote => s!"position {position}: missing closing quote `{quote}` in attribute value"
  | .duplicate position earlier =>
    s!"position {position}: duplicated attribute, previous declaration at position {earlier}"

/-- An attribute as it is written. -/
structure RawAttribute where
  key : List Char
  value : List Char
deriving Repr, DecidableEq

def skipSpace (text : List Char) : List Char := text.dropWhile isSpace

/-- Whether a character belongs to a key that has begun. -/
def continuesKey (c : Char) : Bool := c != '=' && !isSpace c

/-- The keys read so far with their positions. -/
abbrev SeenKeys := List (List Char × Nat)

/-- A key that was seen before is a fault. -/
def checkKey (seen : SeenKeys) (key : List Char) (position : Nat) : Except AttributeFault Unit :=
  match seen.find? fun earlier => earlier.1 == key with
  | some (_, earlier) => .error (.duplicate position earlier)
  | none => .ok ()

/-- The value that stands after an equals sign. `locate` tells the position of the rest of a text. -/
def readValue (locate : List Char → Nat) (text : List Char) : Except AttributeFault (List Char × List Char) :=
  match skipSpace text with
  | [] => .error (.noValue (locate []))
  | quote :: rest =>
    if Doctype.isQuote quote then
      match rest.dropWhile (· != quote) with
      | [] => .error (.openValue (locate []) quote)
      | _ :: after => .ok (rest.takeWhile (· != quote), after)
    else .error (.noQuotes (locate (quote :: rest)))

/-- The attribute at the start of a text that does not start with a blank, and the text after it. A key has at least one
character, whatever it is. That an equals sign follows counts before whether the key is new. -/
def readAttribute (locate : List Char → Nat) (seen : SeenKeys) (first : Char) (rest : List Char) :
    Except AttributeFault (RawAttribute × List Char) :=
  let key := first :: rest.takeWhile continuesKey
  match skipSpace (rest.dropWhile continuesKey) with
  | '=' :: text =>
    match checkKey seen key (locate (first :: rest)) with
    | .error fault => .error fault
    | .ok () => (readValue locate text).map fun (value, after) => (⟨key, value⟩, after)
  | other => .error (.noEquals (locate other))

theorem length_of_readValue {locate : List Char → Nat} {text value after : List Char}
    (h : readValue locate text = .ok (value, after)) : after.length < text.length := by
  have hskip : (skipSpace text).length ≤ text.length := (List.dropWhile_suffix _).length_le
  unfold readValue at h
  split at h
  · cases h
  · rename_i quote rest hrest
    rw [hrest, List.length_cons] at hskip
    split at h
    · split at h
      · cases h
      · rename_i hdrop
        have hsuffix := (List.dropWhile_suffix (l := rest) (· != quote)).length_le
        rw [hdrop, List.length_cons] at hsuffix
        cases h
        omega
    · cases h

theorem length_of_readAttribute {locate : List Char → Nat} {seen : SeenKeys} {first : Char} {rest after : List Char}
    {raw : RawAttribute} (h : readAttribute locate seen first rest = .ok (raw, after)) :
    after.length ≤ rest.length := by
  have hskip : (skipSpace (rest.dropWhile continuesKey)).length ≤ rest.length :=
    Nat.le_trans (List.dropWhile_suffix _).length_le (List.dropWhile_suffix _).length_le
  simp only [readAttribute] at h
  split at h
  · rename_i text htext
    rw [htext, List.length_cons] at hskip
    split at h
    · cases h
    · cases hvalue : readValue locate text with
      | error fault => rw [hvalue] at h; cases h
      | ok result =>
        rw [hvalue] at h
        have hlength := @length_of_readValue locate text result.1 result.2 hvalue
        cases h
        omega
  · cases h

/-- Why the attributes of a tag cannot be read. -/
inductive TagFault where
  | malformed (fault : AttributeFault)
  | badValue (key : String) (fault : ReferenceFault)
deriving Repr, DecidableEq

/-- Reads the attributes in a text one after the other, so that the first fault of any kind counts. -/
def readAttributes (locate : List Char → Nat) (seen : SeenKeys) (attributes : Dictionary) (text : List Char) :
    Except TagFault Dictionary :=
  match htext : skipSpace text with
  | [] => .ok attributes
  | first :: rest =>
    match hread : readAttribute locate seen first rest with
    | .error fault => .error (.malformed fault)
    | .ok (raw, after) =>
      let key := String.ofList raw.key
      match expand raw.value with
      | .error fault => .error (.badValue key fault)
      | .ok value =>
        have : after.length < text.length := by
          have hskip : (skipSpace text).length ≤ text.length := (List.dropWhile_suffix _).length_le
          rw [htext, List.length_cons] at hskip
          have := length_of_readAttribute hread
          omega
        readAttributes locate ((raw.key, locate (first :: rest)) :: seen)
          (attributes.insert key (String.ofList value)) after
termination_by text.length

/-- The attributes of an opening tag. -/
def Tag.readAttributes (tag : Tag) : Except TagFault Dictionary :=
  Markup.readAttributes (Text.positionOf (tag.name ++ tag.attributes)) [] Dictionary.empty tag.attributes

end SvgPlot.Markup
