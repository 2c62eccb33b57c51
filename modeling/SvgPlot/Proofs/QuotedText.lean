import SvgPlot.Text.Cut
import SvgPlot.Text.Quoted

/-!
# Reading quoted text

What is quoted can be told from the quoted text, and it stands on one line.

* `IsSpelling` says in which ways a character may be written between the quotes. No spelling goes on in another
  (`IsSpelling.append_inj`), so that the characters can be read off one by one.
* `quoted_injective` and `notMem_quoted` are the results.
-/

namespace SvgPlot.Text

/-! ## Numbers in base 16 -/

theorem hexDigits_eq (n : Nat) :
    hexDigits n = if n < 16 then [n.digitChar] else hexDigits (n / 16) ++ [(n % 16).digitChar] :=
  Nat.toDigits_eq_if (by decide)

theorem exists_of_mem_hexDigits {n : Nat} {c : Char} (h : c ∈ hexDigits n) :
    ∃ digit < 16, c = Nat.digitChar digit := by
  induction n using Nat.strongRecOn with
  | ind n ih =>
    rw [hexDigits_eq] at h
    split at h
    · rename_i hn
      exact ⟨n, hn, List.mem_singleton.1 h⟩
    · rcases List.mem_append.1 h with h | h
      · exact ih (n / 16) (by omega) h
      · exact ⟨n % 16, Nat.mod_lt n (by decide), List.mem_singleton.1 h⟩

theorem ne_of_mem_hexDigits {n : Nat} {c : Char} (h : c ∈ hexDigits n) : c ≠ '\x7d' ∧ c ≠ '\n' := by
  have hdigits : ∀ digit < 16, Nat.digitChar digit ≠ '\x7d' ∧ Nat.digitChar digit ≠ '\n' := by decide
  obtain ⟨digit, hdigit, rfl⟩ := exists_of_mem_hexDigits h
  exact hdigits digit hdigit

/-- The number with these digits. -/
def hexValue (digits : List Char) : Nat :=
  digits.foldl (fun value c => value * 16 + "0123456789abcdef".toList.idxOf c) 0

theorem hexValue_hexDigits (n : Nat) : hexValue (hexDigits n) = n := by
  have hdigits : ∀ digit < 16, "0123456789abcdef".toList.idxOf (Nat.digitChar digit) = digit := by decide +kernel
  induction n using Nat.strongRecOn with
  | ind n ih =>
    rw [hexDigits_eq]
    split
    · rename_i hn
      simp only [hexValue, List.foldl_cons, List.foldl_nil, hdigits n hn]
      omega
    · have hfront : hexValue (hexDigits (n / 16)) = n / 16 := ih (n / 16) (by omega)
      rw [hexValue] at hfront
      simp only [hexValue, List.foldl_append, List.foldl_cons, List.foldl_nil, hfront,
        hdigits (n % 16) (Nat.mod_lt n (by decide))]
      omega

theorem hexDigits_injective {n m : Nat} (h : hexDigits n = hexDigits m) : n = m := by
  rw [← hexValue_hexDigits n, h, hexValue_hexDigits]

/-! ## Spellings of a character -/

/-- The character that a letter after a backslash stands for. -/
def escaped? : Char → Option Char
  | '"' => some '"'
  | '\\' => some '\\'
  | 'n' => some '\n'
  | 'r' => some '\r'
  | 't' => some '\t'
  | '0' => some '\x00'
  | _ => none

/-- The ways to write a character between quotes. -/
inductive IsSpelling : Char → List Char → Prop where
  | shown {c : Char} (hbackslash : c ≠ '\\') (hend : c ≠ '\n') : IsSpelling c [c]
  | letter {c letter : Char} (h : escaped? letter = some c) : IsSpelling c ['\\', letter]
  | code (c : Char) : IsSpelling c ('\\' :: 'u' :: '\x7b' :: hexDigits c.toNat ++ ['\x7d'])

theorem isSpelling_quotedChar (c : Char) : IsSpelling c (quotedChar c) := by
  unfold quotedChar
  split
  · exact .letter rfl
  · exact .letter rfl
  · exact .letter rfl
  · exact .letter rfl
  · exact .letter rfl
  · exact .letter rfl
  · split
    · exact .shown ‹_› ‹_›
    · exact .code c

namespace IsSpelling

variable {c d : Char} {text other : List Char}

theorem ne_nil (h : IsSpelling c text) : text ≠ [] := by
  cases h <;> exact List.cons_ne_nil _ _

theorem notMem (h : IsSpelling c text) : '\n' ∉ text := by
  cases h with
  | shown hbackslash hend => simpa using hend.symm
  | @letter letter h =>
    have hletter : '\n' ≠ letter := by
      rintro rfl
      cases h
    simp [hletter]
  | code =>
    have hdigits : '\n' ∉ hexDigits c.toNat := fun hmem => (ne_of_mem_hexDigits hmem).2 rfl
    simp [hdigits]

/-- No spelling goes on in another: where two texts begin with spellings, they are of the same character. -/
theorem append_inj (h : IsSpelling c text) (hother : IsSpelling d other) {more rest : List Char}
    (heq : text ++ more = other ++ rest) : c = d ∧ more = rest := by
  cases h with
  | shown hc =>
    cases hother with
    | shown => exact List.cons.inj heq
    | letter => exact absurd (List.cons.inj heq).1 hc
    | code => exact absurd (List.cons.inj heq).1 hc
  | letter hc =>
    cases hother with
    | shown hd => exact absurd (List.cons.inj heq).1.symm hd
    | letter hd =>
      obtain ⟨-, hrest⟩ := List.cons.inj heq
      obtain ⟨rfl, -⟩ := List.cons.inj hrest
      exact ⟨Option.some.inj (hc.symm.trans hd), (List.cons.inj hrest).2⟩
    | code =>
      obtain ⟨-, hrest⟩ := List.cons.inj heq
      obtain ⟨rfl, -⟩ := List.cons.inj hrest
      cases hc
  | code =>
    cases hother with
    | shown hd => exact absurd (List.cons.inj heq).1.symm hd
    | letter hd =>
      obtain ⟨-, hrest⟩ := List.cons.inj heq
      obtain ⟨rfl, -⟩ := List.cons.inj hrest
      cases hd
    | code =>
      have hdigits : hexDigits c.toNat ++ '\x7d' :: more = hexDigits d.toNat ++ '\x7d' :: rest := by
        simpa using heq
      obtain ⟨hcode, hrest⟩ := (append_cons_inj_of_first (fun hmem => (ne_of_mem_hexDigits hmem).1 rfl)
        fun hmem => (ne_of_mem_hexDigits hmem).1 rfl).1 hdigits
      exact ⟨Char.toNat_inj.1 (hexDigits_injective hcode), hrest⟩

end IsSpelling

/-! ## Quoted text -/

theorem flatMap_quotedChar_injective {cs : List Char} :
    ∀ {ds : List Char}, cs.flatMap quotedChar = ds.flatMap quotedChar → cs = ds := by
  induction cs with
  | nil =>
    intro ds h
    cases ds with
    | nil => rfl
    | cons d ds => exact absurd (List.append_eq_nil_iff.1 h.symm).1 (isSpelling_quotedChar d).ne_nil
  | cons c cs ih =>
    intro ds h
    cases ds with
    | nil => exact absurd (List.append_eq_nil_iff.1 h).1 (isSpelling_quotedChar c).ne_nil
    | cons d ds =>
      obtain ⟨rfl, hrest⟩ := (isSpelling_quotedChar c).append_inj (isSpelling_quotedChar d) h
      rw [ih hrest]

theorem quoted_injective {cs ds : List Char} (h : quoted cs = quoted ds) : cs = ds :=
  flatMap_quotedChar_injective (List.append_cancel_right (List.cons.inj h).2)

theorem notMem_quoted (cs : List Char) : '\n' ∉ quoted cs := by
  have hinner : '\n' ∉ cs.flatMap quotedChar := by
    intro hmem
    obtain ⟨c, -, hc⟩ := List.mem_flatMap.1 hmem
    exact (isSpelling_quotedChar c).notMem hc
  simp [quoted, hinner]

end SvgPlot.Text
