import SvgPlot.Proofs.TokenTree
import SvgPlot.Proofs.WrittenTokens

/-!
# What the reader makes sure of

Two things hold of the tokens of every text, whether or not the reader comes to its end: text and references hold no
character that begins or ends something else (`Token.IsClean`), and closing tags have the names of the elements they
close (`Matched`). The first holds of each token as it is read, the second along the names of the open elements; both
are carried along the text by `tokens_readTokens`.
-/

namespace SvgPlot.Markup

/-- A scan stops where its automaton does, after the characters that the automaton takes. -/
theorem foldlM_of_scanFrom {σ : Type} {step : σ → Char → Option σ} {text before after : List Char} {stop : Char} :
    ∀ {state : σ} {seen : List Char}, scanFrom step state seen text = .stopped before stop after →
      ∃ taken final, before = seen.reverse ++ taken ∧ taken.foldlM step state = some final ∧
        step final stop = none := by
  induction text with
  | nil =>
    intro state seen h
    cases h
  | cons c rest ih =>
    intro state seen h
    rw [scanFrom] at h
    cases hstep : step state c with
    | none =>
      rw [hstep] at h
      cases h
      exact ⟨[], state, (List.append_nil _).symm, rfl, hstep⟩
    | some next =>
      rw [hstep] at h
      obtain ⟨taken, final, hbefore, htaken, hstop⟩ := ih h
      refine ⟨c :: taken, final, by simpa using hbefore, ?_, hstop⟩
      rw [List.foldlM_cons, hstep]
      exact htaken

theorem foldlM_of_scan {σ : Type} {step : σ → Char → Option σ} {state : σ} {text before after : List Char}
    {stop : Char} (h : scan step state text = .stopped before stop after) :
    ∃ final, before.foldlM step state = some final ∧ step final stop = none := by
  obtain ⟨taken, final, rfl, htaken, hstop⟩ := foldlM_of_scanFrom h
  exact ⟨final, htaken, hstop⟩

/-! ## Single tokens -/

/-- Text is not empty and holds nothing that begins something else, and the body of a reference holds nothing that ends
it or breaks it off. -/
def Token.IsClean : Token → Prop
  | .text raw => raw ≠ [] ∧ ∀ c ∈ raw, c ≠ '&' ∧ c ≠ '<'
  | .reference body => ∀ c ∈ body, c ≠ '&' ∧ c ≠ ';' ∧ c ≠ '<'
  | _ => True

/-- A reference body is what the automaton takes. -/
theorem forall_of_foldlM_stepReference {body : List Char} (h : body.foldlM stepReference () = some ()) :
    ∀ c ∈ body, c ≠ '&' ∧ c ≠ ';' ∧ c ≠ '<' := by
  induction body with
  | nil => simp
  | cons c rest ih =>
    rw [List.foldlM_cons] at h
    rw [stepReference] at h
    split at h
    · cases h
    · rename_i hc
      refine List.forall_mem_cons.2 ⟨?_, ih h⟩
      simp only [Bool.or_eq_true, beq_iff_eq, not_or] at hc
      exact ⟨hc.1.2, hc.1.1, hc.2⟩

section

variable {rest after : List Char} {token : Token}

theorem isClean_of_readReference (h : readReference rest = .ok (token, after)) : token.IsClean := by
  unfold readReference at h
  split at h
  · cases h
  · rename_i body stop unread hscan
    split at h
    · cases h
      obtain ⟨final, hbody, -⟩ := foldlM_of_scan hscan
      exact forall_of_foldlM_stepReference hbody
    · cases h

theorem isClean_tokenOfInner (inner : List Char) : (tokenOfInner inner).IsClean := by
  unfold tokenOfInner
  split
  · trivial
  · split <;> trivial

theorem isClean_of_readCData (h : readCData rest = .ok (token, after)) : token.IsClean := by
  unfold readCData at h
  split at h
  · cases h
  · split at h <;> cases h
    trivial

theorem isClean_of_readComment (h : readComment rest = .ok (token, after)) : token.IsClean := by
  unfold readComment at h
  split at h
  · cases h
  · split at h <;> cases h
    trivial

theorem isClean_of_readDoctype (h : readDoctype rest = .ok (token, after)) : token.IsClean := by
  unfold readDoctype at h
  split at h
  · cases h
  · split at h
    · cases h
    · split at h <;> cases h
      trivial

theorem isClean_of_readInstruction (h : readInstruction rest = .ok (token, after)) : token.IsClean := by
  unfold readInstruction at h
  split at h
  · cases h
  · split at h <;> cases h
    trivial

theorem isClean_of_readTag (h : readTag rest = .ok (token, after)) : token.IsClean := by
  unfold readTag at h
  split at h
  · cases h
  · cases h
  · cases h
    exact isClean_tokenOfInner _

theorem isClean_of_readDeclaration (h : readDeclaration rest = .ok (token, after)) : token.IsClean := by
  unfold readDeclaration at h
  split at h
  · exact isClean_of_readCData h
  · exact isClean_of_readComment h
  · exact isClean_of_readDoctype h
  · exact isClean_of_readDoctype h
  · cases h

/-- What begins with a `<` is neither text nor a reference, so nothing is asked of it. -/
theorem isClean_of_readMarkup (h : readMarkup rest = .ok (token, after)) : token.IsClean := by
  unfold readMarkup at h
  split at h
  · cases h
  · exact isClean_of_readDeclaration h
  · exact isClean_of_readInstruction h
  · exact isClean_of_readTag h

theorem isClean_of_next {c : Char} (h : Token.next c rest = .ok (token, after)) : token.IsClean := by
  unfold Token.next at h
  split at h
  · exact isClean_of_readMarkup h
  · rename_i hlt
    split at h
    · exact isClean_of_readReference h
    · rename_i hamp
      cases h
      refine ⟨List.cons_ne_nil _ _, List.forall_mem_cons.2 ⟨⟨by simpa using hamp, by simpa using hlt⟩, ?_⟩⟩
      exact fun d hd => isPlain_iff.1 (List.all_eq_true.1 List.all_takeWhile d hd)

end

/-! ## Whole texts -/

/-- What the reader adds to the tokens before: clean tokens that lead from the open elements to others. -/
theorem tokens_readTokens (names : List (List Char)) (seen : List Token) (text : List Char) :
    ∃ tokens final, (readTokens names seen text).tokens = seen.reverse ++ tokens ∧
      (∀ token ∈ tokens, token.IsClean) ∧ tokens.foldlM Token.nest names = .ok final := by
  -- the first three cases are a reading that ends here: at the end, at a token's fault, at a tag that does not match
  fun_induction readTokens names seen text with
  | case1 names seen => exact ⟨[], names, by simp, by simp, rfl⟩
  | case2 names seen c rest stop hnext => exact ⟨[], names, by simp, by simp, rfl⟩
  | case3 names seen c rest token after hnext fault hnest => exact ⟨[], names, by simp, by simp, rfl⟩
  | case4 names seen c rest token after hnext inner hnest hlength ih =>
    obtain ⟨tokens, final, htokens, hclean, hfinal⟩ := ih
    refine ⟨token :: tokens, final, by simp [htokens], ?_, foldlM_nest_cons.2 ⟨inner, hnest, hfinal⟩⟩
    exact List.forall_mem_cons.2 ⟨isClean_of_next hnext, hclean⟩

theorem isClean_of_mem_tokens {text : List Char} {token : Token} (h : token ∈ (Reading.of text).tokens) :
    token.IsClean := by
  obtain ⟨tokens, final, htokens, hclean, -⟩ := tokens_readTokens [] [] text
  rw [Reading.of, htokens] at h
  exact hclean token h

theorem matched_tokens (text : List Char) : Matched (Reading.of text).tokens := by
  obtain ⟨tokens, final, htokens, -, hnest⟩ := tokens_readTokens [] [] text
  rw [Reading.of, htokens]
  exact ⟨final, hnest⟩

/-- A text that gives a tree has the brackets of the tree. -/
theorem Element.bracketsOf_of_read {limit : Nat} {markup : String} {t : Element} (h : read limit markup = .ok t) :
    bracketsOf (Reading.of (withoutMark markup.toList)).tokens = some t.brackets := by
  obtain ⟨final, hfinal⟩ := matched_tokens (withoutMark markup.toList)
  obtain ⟨-, htokens⟩ := read_eq_ok_iff.1 h
  obtain ⟨more, hmore, hbrackets⟩ := Growth.brackets_of_grow _ [] none [] final t rfl hfinal htokens
  rw [hmore, hbrackets]
  rfl

end SvgPlot.Markup
