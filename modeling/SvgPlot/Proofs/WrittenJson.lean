import SvgPlot.Json.Reader
import SvgPlot.Json.Text
import SvgPlot.Proofs.WrittenNumerals

/-!
# Written JSON

A JSON value that is written is read back, in both styles, if its numbers are JSON numbers and its strings are texts
(`Value.IsSpelled`).

* Strings. `readParts?_escapedChar` takes one escaped character off the front of a text.
* The tokens of a value are said without its text (`Value.tokens`). `tokensFrom_writeOnto` finds them in the text, with
  any text after it that does not go on in a numeral.
* `run_tokens` finds the value in its tokens, whatever lists and objects are still open around it.
-/

namespace SvgPlot.Json

open Decimal (Numeral AreDigits EndsNumeral)

/-- What is written so that it can be read back: every number is a JSON number and every string is a text. -/
inductive Value.IsSpelled : Value → Prop
  | null : IsSpelled .null
  | bool (b : Bool) : IsSpelled (.bool b)
  | number {n : Numeral} (h : IsWrittenNumber n) : IsSpelled (.number n)
  | string (s : String) : IsSpelled (.ofString s)
  | array {items : List Value} (h : ∀ item ∈ items, item.IsSpelled) : IsSpelled (.array items)
  | object {members : List (Str × Value)} (hkeys : ∀ entry ∈ members, entry.1.isSome = true)
      (hvalues : ∀ entry ∈ members, entry.2.IsSpelled) : IsSpelled (.object members)

/-! ## Strings -/

theorem readParts?_char {c : Char} (hquote : c ≠ '"') (hslash : c ≠ '\\') (hcontrol : ¬c.toNat < 0x20)
    (seen : List Part) (rest : List Char) : readParts? seen (c :: rest) = readParts? (.char c :: seen) rest := by
  rw [readParts?]
  · simp only [hcontrol, hslash, decide_false, Bool.false_or, beq_iff_eq, if_false]
  · exact hquote
  · exact fun _ _ _ _ _ heq _ => hslash heq
  · exact fun _ _ heq _ => hslash heq

/-- The four digits of a control character. -/
theorem hexFour_of_lt {n : Nat} (h : n < 0x20) :
    hexFour n = ['0', '0', Nat.digitChar (n / 16), Nat.digitChar (n % 16)] ∧
      hexFour? '0' '0' (Nat.digitChar (n / 16)) (Nat.digitChar (n % 16)) = some n ∧
      Part.ofNumber n = .char (Char.ofNat n) := by
  revert n
  decide

/-- A character is read back in front of any text. -/
theorem readParts?_escapedChar (c : Char) (seen : List Part) (rest : List Char) :
    readParts? seen (escapedChar c ++ rest) = readParts? (.char c :: seen) rest := by
  unfold escapedChar
  split
  case h_8 hquote hslash _ _ _ _ _ =>
    split
    · rename_i hcontrol
      obtain ⟨hfour, hread, hpart⟩ := hexFour_of_lt hcontrol
      rw [hfour, List.cons_append, List.cons_append, List.cons_append, List.cons_append, List.cons_append,
        List.cons_append, List.nil_append, readParts?, hread]
      simp only [hpart, Char.ofNat_toNat]
    · rename_i hcontrol
      exact readParts?_char hquote hslash hcontrol seen rest
  all_goals rfl

/-- The characters of a string are read up to the quote that closes it. -/
theorem readParts?_flatMap (cs : List Char) (seen : List Part) (rest : List Char) :
    readParts? seen (cs.flatMap escapedChar ++ '"' :: rest) = some (seen.reverse ++ cs.map Part.char, rest) := by
  induction cs generalizing seen with
  | nil => rw [List.flatMap_nil, List.nil_append, readParts?, List.map_nil, List.append_nil]
  | cons c cs ih =>
    rw [List.flatMap_cons, List.append_assoc, readParts?_escapedChar, ih, List.reverse_cons, List.append_assoc,
      List.map_cons, List.singleton_append]

theorem joinParts_map_char (cs seen : List Char) :
    joinParts seen (cs.map Part.char) = some (String.ofList (seen.reverse ++ cs)) := by
  induction cs generalizing seen with
  | nil => rw [List.map_nil, joinParts, List.append_nil]
  | cons c cs ih =>
    rw [List.map_cons, joinParts, ih, List.reverse_cons, List.append_assoc, List.singleton_append]

theorem readString?_append (s : String) (rest : List Char) :
    readString? (s.toList.flatMap escapedChar ++ '"' :: rest) = some (.string (some s), rest) := by
  rw [readString?, readParts?_flatMap]
  simp only [List.reverse_nil, List.nil_append, joinParts_map_char, String.ofList_toList]

/-! ## Single tokens -/

section

variable {style : Style} {seen : List Token} {tail : List Char}

theorem tokensFrom_space {c : Char} (h : isSpace c = true) : tokensFrom seen (c :: tail) = tokensFrom seen tail := by
  rw [tokensFrom, if_pos h]

theorem tokensFrom_token {c : Char} {rest : List Char} {token : Token} (hspace : isSpace c = false)
    (h : Token.next? c rest = some (token, tail)) : tokensFrom seen (c :: rest) = tokensFrom (token :: seen) tail := by
  rw [tokensFrom, if_neg (by simp [hspace])]
  split
  · rename_i hnone
    rw [h] at hnone
    cases hnone
  · rename_i hsome
    rw [h] at hsome
    cases hsome
    rfl

theorem tokensFrom_newLine (level : Nat) : tokensFrom seen (style.newLine level tail) = tokensFrom seen tail := by
  cases style with
  | compact => rfl
  | pretty =>
    rw [Style.newLine, tokensFrom_space rfl]
    generalize 2 * level = count
    induction count with
    | zero => rfl
    | succ count ih => rw [List.replicate_succ, List.cons_append, tokensFrom_space rfl, ih]

theorem tokensFrom_colon : tokensFrom seen (style.colon tail) = tokensFrom (.colon :: seen) tail := by
  cases style with
  | compact => exact tokensFrom_token rfl rfl
  | pretty => rw [Style.colon, tokensFrom_token rfl rfl, tokensFrom_space rfl]

theorem tokensFrom_stringText (s : String) :
    tokensFrom seen (stringText (some s) ++ tail) = tokensFrom (.string (some s) :: seen) tail := by
  have htext : stringText (some s) ++ tail = '"' :: (s.toList.flatMap escapedChar ++ '"' :: tail) := by
    rw [stringText, Option.getD_some, List.append_assoc, List.cons_append, List.singleton_append]
  rw [htext]
  exact tokensFrom_token rfl (readString?_append s tail)

/-- A JSON number begins with a minus or a digit. -/
theorem exists_text_of_isWrittenNumber {n : Numeral} (h : IsWrittenNumber n) :
    ∃ c rest, n.text = c :: rest ∧ (c = '-' ∨ c.isDigit = true) := by
  obtain ⟨sign, whole, fraction, exponent⟩ := n
  obtain ⟨⟨hsign, hwhole, hnonempty, -, -⟩, hnumber⟩ := h
  rcases hsign with rfl | rfl | rfl
  · cases whole with
    | nil => exact absurd rfl hnonempty
    | cons d digits => exact ⟨d, _, rfl, .inr (hwhole d List.mem_cons_self)⟩
  · cases hnumber
  · exact ⟨'-', _, rfl, .inl rfl⟩

theorem next?_of_minus_or_digit {c : Char} (rest : List Char) (h : c = '-' ∨ c.isDigit = true) :
    isSpace c = false ∧ Token.next? c rest = readNumber? (c :: rest) := by
  rcases h with rfl | hdigit
  · exact ⟨rfl, rfl⟩
  · have hne {d : Char} (hd : d.isDigit = false) : c ≠ d := by
      rintro rfl
      rw [hdigit] at hd
      cases hd
    refine ⟨by simp [isSpace, hne (d := ' ') rfl, hne (d := '\n') rfl, hne (d := '\t') rfl, hne (d := '\r') rfl], ?_⟩
    unfold Token.next?
    split
    case h_11 => rw [hdigit, Bool.or_true, if_pos rfl]
    all_goals cases hdigit

theorem tokensFrom_number {n : Numeral} (hn : IsWrittenNumber n) (htail : EndsNumeral tail) :
    tokensFrom seen (n.text ++ tail) = tokensFrom (.number n :: seen) tail := by
  obtain ⟨c, rest, htext, hc⟩ := exists_text_of_isWrittenNumber hn
  obtain ⟨hspace, hnext⟩ := next?_of_minus_or_digit (rest ++ tail) hc
  have hread := Decimal.Numeral.read?_text_append hn.written.isWellFormed htail
  rw [htext, List.cons_append] at hread ⊢
  apply tokensFrom_token hspace
  simp only [hnext, readNumber?, hread, hn.number, if_true]

end

/-! ## From text to tokens -/

mutual

/-- The tokens of a value as it is written. -/
def Value.tokens : Value → List Token
  | .null => [.null]
  | .bool b => [.bool b]
  | .number n => [.number n]
  | .string s => [.string s]
  | .array [] => [.leftBracket, .rightBracket]
  | .array (item :: items) => .leftBracket :: item.tokens ++ Value.itemTokens items ++ [.rightBracket]
  | .object [] => [.leftBrace, .rightBrace]
  | .object ((key, value) :: members) =>
    .leftBrace :: .string key :: .colon :: value.tokens ++ Value.memberTokens members ++ [.rightBrace]

/-- The tokens of the items after the first. -/
def Value.itemTokens : List Value → List Token
  | [] => []
  | item :: items => .comma :: item.tokens ++ Value.itemTokens items

/-- The tokens of the members after the first. -/
def Value.memberTokens : List (Str × Value) → List Token
  | [] => []
  | (key, value) :: members => .comma :: .string key :: .colon :: value.tokens ++ Value.memberTokens members

end

section

variable {style : Style} {level : Nat} {tail : List Char}

theorem endsNumeral_cons {c : Char} (h : c.isDigit = false ∧ c ≠ '.' ∧ c ≠ 'e' ∧ c ≠ 'E') :
    EndsNumeral (c :: tail) := by
  rintro _ ⟨⟩
  exact h

theorem endsNumeral_newLine (h : EndsNumeral tail) : EndsNumeral (style.newLine level tail) := by
  cases style with
  | compact => exact h
  | pretty => exact endsNumeral_cons (by decide)

theorem endsNumeral_writeItems (h : EndsNumeral tail) (items : List Value) :
    EndsNumeral (Value.writeItems style level tail items) := by
  cases items with
  | nil => rwa [Value.writeItems]
  | cons item items =>
    rw [Value.writeItems]
    exact endsNumeral_cons (by decide)

theorem endsNumeral_writeMembers (h : EndsNumeral tail) (members : List (Str × Value)) :
    EndsNumeral (Value.writeMembers style level tail members) := by
  cases members with
  | nil => rwa [Value.writeMembers]
  | cons member members =>
    rw [Value.writeMembers]
    exact endsNumeral_cons (by decide)

end

mutual

/-- The tokens of a written value, in front of any text that a numeral can stand before. -/
theorem tokensFrom_writeOnto (style : Style) (level : Nat) (seen : List Token) {tail : List Char} (value : Value)
    (h : value.IsSpelled) (htail : EndsNumeral tail) :
    tokensFrom seen (value.writeOnto style level tail) = tokensFrom (value.tokens.reverse ++ seen) tail := by
  cases h with
  | null => exact tokensFrom_token rfl rfl
  | bool b => cases b <;> exact tokensFrom_token rfl rfl
  | number hn => exact tokensFrom_number hn htail
  | string s => exact tokensFrom_stringText s
  | @array items h =>
    cases items with
    | nil =>
      rw [Value.writeOnto, tokensFrom_token rfl rfl, tokensFrom_token rfl rfl]
      rfl
    | cons item items =>
      obtain ⟨hitem, hitems⟩ := List.forall_mem_cons.1 h
      have hend : EndsNumeral (style.newLine level (']' :: tail)) :=
        endsNumeral_newLine (endsNumeral_cons (by decide))
      rw [Value.writeOnto, tokensFrom_token rfl rfl, tokensFrom_newLine,
        tokensFrom_writeOnto style (level + 1) _ item hitem (endsNumeral_writeItems hend items),
        tokensFrom_writeItems style (level + 1) _ items hitems hend, tokensFrom_newLine, tokensFrom_token rfl rfl]
      simp [Value.tokens]
  | @object members hkeys hvalues =>
    cases members with
    | nil =>
      rw [Value.writeOnto, tokensFrom_token rfl rfl, tokensFrom_token rfl rfl]
      rfl
    | cons entry members =>
      obtain ⟨key, value⟩ := entry
      obtain ⟨hkey, hrestKeys⟩ := List.forall_mem_cons.1 hkeys
      obtain ⟨hvalue, hrestValues⟩ := List.forall_mem_cons.1 hvalues
      obtain ⟨key, rfl⟩ := Option.isSome_iff_exists.1 hkey
      have hend : EndsNumeral (style.newLine level ('\x7d' :: tail)) :=
        endsNumeral_newLine (endsNumeral_cons (by decide))
      rw [Value.writeOnto, tokensFrom_token rfl rfl, tokensFrom_newLine, tokensFrom_stringText, tokensFrom_colon,
        tokensFrom_writeOnto style (level + 1) _ value hvalue (endsNumeral_writeMembers hend members),
        tokensFrom_writeMembers style (level + 1) _ members hrestKeys hrestValues hend, tokensFrom_newLine,
        tokensFrom_token rfl rfl]
      simp [Value.tokens]

theorem tokensFrom_writeItems (style : Style) (level : Nat) (seen : List Token) {tail : List Char} (items : List Value)
    (h : ∀ item ∈ items, item.IsSpelled) (htail : EndsNumeral tail) :
    tokensFrom seen (Value.writeItems style level tail items) =
      tokensFrom ((Value.itemTokens items).reverse ++ seen) tail := by
  cases items with
  | nil => rw [Value.writeItems]; rfl
  | cons item items =>
    obtain ⟨hitem, hitems⟩ := List.forall_mem_cons.1 h
    rw [Value.writeItems, tokensFrom_token rfl rfl, tokensFrom_newLine,
      tokensFrom_writeOnto style level _ item hitem (endsNumeral_writeItems htail items),
      tokensFrom_writeItems style level _ items hitems htail]
    simp [Value.itemTokens]

theorem tokensFrom_writeMembers (style : Style) (level : Nat) (seen : List Token) {tail : List Char}
    (members : List (Str × Value)) (hkeys : ∀ entry ∈ members, entry.1.isSome = true)
    (hvalues : ∀ entry ∈ members, entry.2.IsSpelled) (htail : EndsNumeral tail) :
    tokensFrom seen (Value.writeMembers style level tail members) =
      tokensFrom ((Value.memberTokens members).reverse ++ seen) tail := by
  cases members with
  | nil => rw [Value.writeMembers]; rfl
  | cons entry members =>
    obtain ⟨key, value⟩ := entry
    obtain ⟨hkey, hrestKeys⟩ := List.forall_mem_cons.1 hkeys
    obtain ⟨hvalue, hrestValues⟩ := List.forall_mem_cons.1 hvalues
    obtain ⟨key, rfl⟩ := Option.isSome_iff_exists.1 hkey
    rw [Value.writeMembers, tokensFrom_token rfl rfl, tokensFrom_newLine, tokensFrom_stringText, tokensFrom_colon,
      tokensFrom_writeOnto style level _ value hvalue (endsNumeral_writeMembers htail members),
      tokensFrom_writeMembers style level _ members hrestKeys hrestValues htail]
    simp [Value.memberTokens]

end

/-! ## From tokens to the value -/

section

variable {stack : List Frame} {rest : List Token}

theorem State.run_cons (state : State) (token : Token) (rest : List Token) :
    state.run (token :: rest) = (state.step token).bind (·.run rest) := List.foldlM_cons

/-- A value does not begin with the bracket that ends a list. -/
theorem exists_tokens_of_value (value : Value) :
    ∃ token more, value.tokens = token :: more ∧ token ≠ .rightBracket := by
  cases value with
  | array items => cases items <;> exact ⟨_, _, rfl, nofun⟩
  | object members =>
    cases members with
    | nil => exact ⟨_, _, rfl, nofun⟩
    | cons entry members => exact ⟨_, _, rfl, nofun⟩
  | _ => exact ⟨_, _, rfl, nofun⟩

/-- The first item of a list is a value like the others. -/
theorem run_wantItem (value : Value) :
    (State.wantItem stack).run (value.tokens ++ rest) =
      (State.wantValue (.array [] :: stack)).run (value.tokens ++ rest) := by
  obtain ⟨token, more, htokens, hbracket⟩ := exists_tokens_of_value value
  rw [htokens, List.cons_append, State.run_cons, State.run_cons]
  cases token <;> first | rfl | exact absurd rfl hbracket

end

mutual

/-- The tokens of a value make it, whatever lists and objects are open around it. -/
theorem run_tokens (stack : List Frame) (rest : List Token) (value : Value) :
    (State.wantValue stack).run (value.tokens ++ rest) = (State.put value stack).bind (·.run rest) := by
  cases value with
  | array items =>
    cases items with
    | nil => rfl
    | cons item items =>
      simp only [Value.tokens, List.cons_append, List.append_assoc, List.nil_append, State.run_cons]
      show (State.wantItem stack).run _ = _
      rw [run_wantItem, run_tokens _ _ item]
      exact run_itemTokens [item] stack rest items
  | object members =>
    cases members with
    | nil => rfl
    | cons entry members =>
      obtain ⟨key, value⟩ := entry
      have hvalue := run_tokens (.member [] key :: stack)
        (Value.memberTokens members ++ .rightBrace :: rest) value
      simp only [Value.tokens, List.cons_append, List.append_assoc, List.nil_append]
      show (State.wantValue (.member [] key :: stack)).run _ = _
      rw [hvalue]
      exact run_memberTokens [(key, value)] stack rest members
  | _ => rfl

/-- The items after the first, with the end of the list. -/
theorem run_itemTokens (done : List Value) (stack : List Frame) (rest : List Token) (items : List Value) :
    (State.wantMore (.array done :: stack)).run (Value.itemTokens items ++ .rightBracket :: rest) =
      (State.put (.array (done.reverse ++ items)) stack).bind (·.run rest) := by
  cases items with
  | nil =>
    rw [Value.itemTokens, List.nil_append, List.append_nil]
    rfl
  | cons item items =>
    have hitem := run_tokens (.array done :: stack) (Value.itemTokens items ++ .rightBracket :: rest) item
    simp only [Value.itemTokens, List.cons_append, List.append_assoc]
    show (State.wantValue (.array done :: stack)).run _ = _
    rw [hitem]
    show (State.wantMore (.array (item :: done) :: stack)).run _ = _
    rw [run_itemTokens (item :: done) stack rest items, List.reverse_cons, List.append_assoc, List.singleton_append]

/-- The members after the first, with the end of the object. -/
theorem run_memberTokens (done : List (Str × Value)) (stack : List Frame) (rest : List Token)
    (members : List (Str × Value)) :
    (State.wantMore (.object done :: stack)).run (Value.memberTokens members ++ .rightBrace :: rest) =
      (State.put (.object (done.reverse ++ members)) stack).bind (·.run rest) := by
  cases members with
  | nil =>
    rw [Value.memberTokens, List.nil_append, List.append_nil]
    rfl
  | cons entry members =>
    obtain ⟨key, value⟩ := entry
    have hvalue := run_tokens (.member done key :: stack)
      (Value.memberTokens members ++ .rightBrace :: rest) value
    simp only [Value.memberTokens, List.cons_append, List.append_assoc]
    show (State.wantValue (.member done key :: stack)).run _ = _
    rw [hvalue]
    show (State.wantMore (.object ((key, value) :: done) :: stack)).run _ = _
    rw [run_memberTokens ((key, value) :: done) stack rest members, List.reverse_cons, List.append_assoc,
      List.singleton_append]

end

/-! ## Reading back -/

/-- A written value is read back. -/
theorem Value.read?_write (style : Style) {value : Value} (h : value.IsSpelled) :
    Value.read? (value.write style) = some value := by
  have htokens : tokens? (value.writeOnto style 0 []) = some value.tokens := by
    rw [tokens?, tokensFrom_writeOnto style 0 [] value h (by rintro _ ⟨⟩), List.append_nil, tokensFrom,
      List.reverse_reverse]
  have hrun : (State.wantValue []).run value.tokens = some (.finished value) := by
    have := run_tokens [] [] value
    rwa [List.append_nil] at this
  rw [Value.read?, Value.write, String.toList_ofList, htokens]
  simp only [Option.bind_some, Value.ofTokens?, hrun]

end SvgPlot.Json
