import Mathlib.Data.List.TakeWhile
import SvgPlot.Proofs.DecodedText
import SvgPlot.Text.Cut

/-!
# Stray ampersands

A text is cut at its semicolons: an ampersand takes all up to the next semicolon for its reference, other ampersands
included. In `a & b &lt;` the reference is thus `& b &lt;`, which stands for nothing, and `&lt;` stays as it was
written.

* `expandEach` is the text with every reference replaced, wherever it begins.
* `HidesReference` says that an ampersand before a reference takes it.
* `PlainText.of_text_eq_expandEach_iff` says that this is all that keeps the two apart. One semicolon after the other,
  the two go on with the same rest (`PlainText.saysEach`), and where an ampersand hides a reference, what is kept is
  longer than the character that it stands for.
-/

namespace SvgPlot.Markup

/-! ## Each reference of a text -/

/-- What a reference body may hold. -/
def isBodyChar (c : Char) : Bool := c != '&' && c != ';'

/-- The character that the reference at the front of a text stands for, with what follows the reference. -/
def decodeFront? : List Char → Option (Char × List Char)
  | '&' :: text =>
    match text.dropWhile isBodyChar with
    | ';' :: after => (resolve 1 (text.takeWhile isBodyChar)).toOption.map fun c => (c, after)
    | _ => none
  | _ => none

theorem forall_isBodyChar_iff {body : List Char} :
    (∀ c ∈ body, isBodyChar c = true) ↔ ∀ c ∈ body, c ≠ '&' ∧ c ≠ ';' := by
  simp [isBodyChar]

theorem decodeFront?_eq_some_iff {text after : List Char} {c : Char} :
    decodeFront? text = some (c, after) ↔
      ∃ body, text = '&' :: body ++ ';' :: after ∧ (∀ d ∈ body, d ≠ '&' ∧ d ≠ ';') ∧ resolve 1 body = .ok c := by
  constructor
  · intro h
    unfold decodeFront? at h
    split at h
    · rename_i text
      split at h
      · rename_i rest hrest
        obtain ⟨d, hd, hafter⟩ := Option.map_eq_some_iff.1 h
        cases hafter
        refine ⟨text.takeWhile isBodyChar, ?_, forall_isBodyChar_iff.1 fun d hd => List.mem_takeWhile_imp hd, ?_⟩
        · rw [← hrest, List.cons_append, List.takeWhile_append_dropWhile]
        · cases hbody : resolve 1 (text.takeWhile isBodyChar) with
          | ok d' => rw [hbody] at hd; rw [Option.some.inj hd]
          | error fault => rw [hbody] at hd; cases hd
      · cases h
    · cases h
  · rintro ⟨body, rfl, hbody, hc⟩
    rw [← forall_isBodyChar_iff] at hbody
    have hdrop : (body ++ ';' :: after).dropWhile isBodyChar = ';' :: after := by
      rw [List.dropWhile_append_of_pos hbody, List.dropWhile_cons_of_neg (by decide)]
    have htake : (body ++ ';' :: after).takeWhile isBodyChar = body := by
      rw [List.takeWhile_append_of_pos hbody, List.takeWhile_cons_of_neg (by decide), List.append_nil]
    rw [List.cons_append, decodeFront?, hdrop]
    show (resolve 1 ((body ++ ';' :: after).takeWhile isBodyChar)).toOption.map _ = _
    rw [htake, hc]
    rfl

theorem length_lt_of_decodeFront? {text after : List Char} {c : Char} (h : decodeFront? text = some (c, after)) :
    after.length < text.length := by
  obtain ⟨body, rfl, -⟩ := decodeFront?_eq_some_iff.1 h
  simp
  omega

/-- A text with all references replaced that stand for something. Every other character is copied. -/
def expandEach (text : List Char) : List Char :=
  match text with
  | [] => []
  | c :: rest =>
    match _h : decodeFront? (c :: rest) with
    | some (d, after) => d :: expandEach after
    | none => c :: expandEach rest
termination_by text.length
decreasing_by
  · exact length_lt_of_decodeFront? _h
  · exact Nat.lt_succ_self _

theorem expandEach_of_some {text after : List Char} {c : Char} (h : decodeFront? text = some (c, after)) :
    expandEach text = c :: expandEach after := by
  cases text with
  | nil => cases h
  | cons d rest =>
    rw [expandEach]
    split
    · rename_i d' after' h'
      cases h.symm.trans h'
      rfl
    · rename_i h'
      cases h.symm.trans h'

theorem expandEach_of_none {c : Char} {rest : List Char} (h : decodeFront? (c :: rest) = none) :
    expandEach (c :: rest) = c :: expandEach rest := by
  rw [expandEach]
  split
  · rename_i d' after' h'
    cases h.symm.trans h'
  · rfl

/-- Characters are copied as long as no reference that stands for something begins at one of them. -/
theorem expandEach_append {raw more : List Char}
    (h : ∀ before c after, raw = before ++ c :: after → decodeFront? (c :: (after ++ more)) = none) :
    expandEach (raw ++ more) = raw ++ expandEach more := by
  induction raw with
  | nil => rfl
  | cons c raw ih =>
    have hraw : expandEach (raw ++ more) = raw ++ expandEach more := by
      refine ih ?_
      rintro before d after rfl
      exact h (c :: before) d after rfl
    show expandEach (c :: (raw ++ more)) = c :: (raw ++ expandEach more)
    rw [expandEach_of_none (h [] c raw rfl), hraw]

theorem expandEach_text {raw : List Char} (h : ∀ c ∈ raw, c ≠ '&') (more : List Char) :
    expandEach (raw ++ more) = raw ++ expandEach more := by
  refine expandEach_append ?_
  rintro before c after rfl
  refine Option.eq_none_iff_forall_ne_some.2 fun result hresult => ?_
  obtain ⟨body, htext, -⟩ := decodeFront?_eq_some_iff.1 hresult
  exact h c (List.mem_append_right before List.mem_cons_self) (List.cons.inj htext).1

/-- Where no semicolon stands before the next ampersand, nothing is a reference. -/
theorem expandEach_open {raw : List Char} (h : ';' ∉ raw) (more : List Char) :
    expandEach (raw ++ '&' :: more) = raw ++ expandEach ('&' :: more) := by
  refine expandEach_append ?_
  rintro before c after rfl
  refine Option.eq_none_iff_forall_ne_some.2 fun result hresult => ?_
  obtain ⟨body, htext, hbody, -⟩ := decodeFront?_eq_some_iff.1 hresult
  have hrest : after ++ '&' :: more = body ++ ';' :: result.2 := (List.cons.inj htext).2
  have hafter : ';' ∉ after := fun hmem => h (List.mem_append_right before (List.mem_cons_of_mem c hmem))
  rcases List.append_eq_append_iff.1 hrest with ⟨between, rfl, hmore⟩ | ⟨between, rfl, hmore⟩
  · cases between with
    | nil => cases hmore
    | cons d between =>
      obtain ⟨rfl, -⟩ := List.cons.inj hmore
      exact (hbody '&' (List.mem_append_right after List.mem_cons_self)).1 rfl
  · cases between with
    | nil => cases hmore
    | cons d between =>
      obtain ⟨rfl, -⟩ := List.cons.inj hmore
      exact hafter (List.mem_append_right body List.mem_cons_self)

theorem expandEach_of_notMem {text : List Char} (h : ';' ∉ text) : expandEach text = text := by
  have hcopied : expandEach (text ++ []) = text ++ expandEach [] := by
    refine expandEach_append fun before c after htext => ?_
    refine Option.eq_none_iff_forall_ne_some.2 fun result hresult => ?_
    obtain ⟨body, hrest, -⟩ := decodeFront?_eq_some_iff.1 hresult
    rw [List.append_nil] at hrest
    rw [htext, hrest] at h
    exact h (by simp)
  rwa [List.append_nil, expandEach, List.append_nil] at hcopied

/-- A reference is replaced by what it says alone. -/
theorem expandEach_reference {body : List Char} (h : ∀ c ∈ body, c ≠ '&' ∧ c ≠ ';') (more : List Char) :
    expandEach ('&' :: body ++ ';' :: more) = (Token.reference body).plain.text ++ expandEach more := by
  rw [Token.plain]
  cases hbody : resolve 1 body with
  | ok c => exact expandEach_of_some (decodeFront?_eq_some_iff.2 ⟨body, rfl, h, hbody⟩)
  | error fault =>
    have hnone : decodeFront? ('&' :: (body ++ ';' :: more)) = none := by
      refine Option.eq_none_iff_forall_ne_some.2 fun result hresult => ?_
      obtain ⟨other, htext, hother, hok⟩ := decodeFront?_eq_some_iff.1 hresult
      obtain ⟨rfl, -⟩ := (Text.append_cons_inj_of_first (fun hmem => (h _ hmem).2 rfl)
        fun hmem => (hother _ hmem).2 rfl).1 (List.cons.inj htext).2
      cases hbody.symm.trans hok
    have hbody : '&' ∉ body := fun hmem => (h _ hmem).1 rfl
    have hcopied := expandEach_text (fun c hc => ne_of_mem_of_not_mem hc (by simp [hbody] : '&' ∉ body ++ [';'])) more
    rw [List.append_assoc, List.singleton_append] at hcopied
    rw [List.cons_append, expandEach_of_none hnone, hcopied]
    rfl

/-! ## What stray ampersands take -/

/-- A body ends where a character stands that it may not hold, and the rest of the text is lost. -/
theorem cutFrom_unterminated {holds : Char → Bool} {body : List Char} {stop : Char}
    (h : ∀ c ∈ body, c ≠ ';' ∧ holds c = true) (hstop : stop ≠ ';' ∧ holds stop = false) (rest : List Char) : ∀ seen,
    cutFrom holds true seen (body ++ stop :: rest) = [.unterminated (seen.reverse ++ body ++ stop :: rest)] := by
  induction body with
  | nil =>
    intro seen
    simp [cutFrom, hstop]
  | cons c body ih =>
    intro seen
    obtain ⟨hc, hbody⟩ := List.forall_mem_cons.1 h
    simp [cutFrom, hc, ih hbody]

theorem cutFrom_open {body : List Char} (h : ';' ∉ body) : ∀ seen,
    cutFrom (fun _ => true) true seen body = [.unterminated (seen.reverse ++ body)] := by
  induction body with
  | nil =>
    intro seen
    rw [cutFrom, List.append_nil]
  | cons c body ih =>
    intro seen
    have hc : c ≠ ';' := (List.ne_of_not_mem_cons h).symm
    simp [cutFrom, hc, ih (List.not_mem_of_not_mem_cons h)]

namespace PlainText

theorem text_ofText_text {raw : List Char} (h : ∀ c ∈ raw, c ≠ '&') (more : List Char) :
    (ofText (raw ++ more)).text = raw ++ (ofText more).text :=
  congrArg text (ofText_text h more)

theorem text_ofText_reference {body : List Char} (h : ∀ c ∈ body, c ≠ '&' ∧ c ≠ ';') (more : List Char) :
    (ofText ('&' :: body ++ ';' :: more)).text = (Token.reference body).plain.text ++ (ofText more).text := by
  have hfirst := ofText_reference h more
  rw [List.append_assoc, List.singleton_append] at hfirst
  exact congrArg text hfirst

/-- With another ampersand in it, a reference is kept as it was written. -/
theorem text_ofText_kept {body : List Char} (hampersand : '&' ∈ body) (hsemicolon : ';' ∉ body) (more : List Char) :
    (ofText ('&' :: body ++ ';' :: more)).text = '&' :: body ++ ';' :: (ofText more).text := by
  have hbody : ∀ c ∈ body, c ≠ ';' := fun c hc => ne_of_mem_of_not_mem hc hsemicolon
  obtain ⟨before, after, rfl, hbefore⟩ := List.eq_append_cons_of_mem hampersand
  have herror : ∃ fault, expand ('&' :: (before ++ '&' :: after) ++ [';']) = .error fault := by
    have hcut : cutFrom (· != '&') true [] (before ++ '&' :: (after ++ [';'])) = [.unterminated _] :=
      cutFrom_unterminated
        (fun c hc => ⟨hbody c (List.mem_append_left _ hc), bne_iff_ne.2 (ne_of_mem_of_not_mem hc hbefore)⟩)
        ⟨by decide, by decide⟩ _ []
    refine ⟨.unterminated 0 (Text.byteLength ('&' :: (before ++ '&' :: after) ++ [';'])), ?_⟩
    rw [expand, cut, List.cons_append, List.append_assoc, List.cons_append, cutFrom, if_pos (beq_self_eq_true _), hcut]
    rfl
  obtain ⟨fault, hfault⟩ := herror
  have hcut := cut_reference (fun _ => true) (fun c hc => ⟨hbody c hc, rfl⟩) more
  rw [List.append_assoc, List.singleton_append] at hcut
  rw [ofText, hcut, List.map_cons, join_cons, ofPiece, Piece.text, hfault]
  simp [append, ofText]

/-- The first ampersand takes all up to the semicolon, a later one with its body included. -/
theorem text_ofText_taken {front body : List Char} (hampersand : '&' ∈ front) (hfront : ';' ∉ front)
    (hbody : ';' ∉ body) (more : List Char) :
    (ofText (front ++ '&' :: body ++ ';' :: more)).text = front ++ ('&' :: body ++ [';'] ++ (ofText more).text) := by
  obtain ⟨before, between, rfl, hbefore⟩ := List.eq_append_cons_of_mem hampersand
  have htaken : ';' ∉ between ++ '&' :: body := by
    have hbetween : ';' ∉ between := fun hmem => hfront (List.mem_append_right before (List.mem_cons_of_mem '&' hmem))
    simp [hbetween, hbody]
  have hkept := text_ofText_kept (List.mem_append_right between List.mem_cons_self) htaken more
  rw [List.append_assoc, List.append_assoc, text_ofText_text fun c hc => ne_of_mem_of_not_mem hc hbefore]
  simpa using hkept

/-- Without a semicolon, a text says what is written. -/
theorem text_ofText_of_notMem {raw : List Char} (h : ';' ∉ raw) : (ofText raw).text = raw := by
  by_cases hampersand : '&' ∈ raw
  · obtain ⟨before, body, rfl, hbefore⟩ := List.eq_append_cons_of_mem hampersand
    have hbody : ';' ∉ body := fun hmem => h (List.mem_append_right before (List.mem_cons_of_mem '&' hmem))
    rw [text_ofText_text (fun c hc => ne_of_mem_of_not_mem hc hbefore), ofText, cut, cutFrom,
      if_pos (beq_self_eq_true _), cutFrom_open hbody]
    simp [plainPiece, join, ofPiece, Piece.text]
  · have hcopied := text_ofText_text (fun c hc => ne_of_mem_of_not_mem hc hampersand) []
    rw [List.append_nil] at hcopied
    rw [hcopied]
    exact List.append_nil raw

end PlainText

/-! ## Hidden references -/

/-- An ampersand hides a reference after it if no semicolon stands between them. -/
def HidesReference (text : List Char) : Prop :=
  ∃ before between body after c, text = before ++ '&' :: between ++ '&' :: body ++ ';' :: after ∧
    ';' ∉ between ∧ (∀ d ∈ body, d ≠ '&' ∧ d ≠ ';') ∧ resolve 1 body = .ok c

theorem HidesReference.append {text : List Char} (h : HidesReference text) (front : List Char) :
    HidesReference (front ++ text) := by
  obtain ⟨before, between, body, after, c, rfl, hbetween, hbody, hc⟩ := h
  exact ⟨front ++ before, between, body, after, c, by simp, hbetween, hbody, hc⟩

/-- A hidden reference ends at the first semicolon, or it is one of the rest. -/
theorem HidesReference.of_segment {segment more : List Char} (hsegment : ';' ∉ segment)
    (h : HidesReference (segment ++ ';' :: more)) :
    (∃ before between body c, segment = before ++ '&' :: between ++ '&' :: body ∧
      (∀ d ∈ body, d ≠ '&' ∧ d ≠ ';') ∧ resolve 1 body = .ok c) ∨ HidesReference more := by
  obtain ⟨before, between, body, after, c, htext, hbetween, hbody, hc⟩ := h
  by_cases hbefore : ';' ∈ before
  · obtain ⟨first, later, rfl, hfirst⟩ := List.eq_append_cons_of_mem hbefore
    simp only [List.append_assoc, List.cons_append] at htext
    obtain ⟨-, rfl⟩ := (Text.append_cons_inj_of_first hsegment hfirst).1 htext
    exact .inr ⟨later, between, body, after, c, by simp, hbetween, hbody, hc⟩
  · have hfront : ';' ∉ before ++ '&' :: between ++ '&' :: body := by
      have hclean : ';' ∉ body := fun hmem => (hbody _ hmem).2 rfl
      simp [hbefore, hbetween, hclean]
    obtain ⟨rfl, -⟩ := (Text.append_cons_inj_of_first hsegment hfront).1 htext
    exact .inl ⟨before, between, body, c, rfl, hbody, hc⟩

theorem hidesReference_text_iff {raw : List Char} (hampersand : '&' ∉ raw) (hsemicolon : ';' ∉ raw) (more : List Char) :
    HidesReference (raw ++ ';' :: more) ↔ HidesReference more := by
  constructor
  · intro h
    refine (HidesReference.of_segment hsemicolon h).resolve_left ?_
    rintro ⟨before, between, body, c, rfl, -⟩
    exact hampersand (by simp)
  · intro h
    have := (h.append [';']).append raw
    exact this

/-- The last ampersand before a semicolon begins a reference that is hidden if another ampersand stands before it. -/
theorem hidesReference_reference_iff {raw body : List Char} (hraw : ';' ∉ raw) (hbody : ∀ c ∈ body, c ≠ '&' ∧ c ≠ ';')
    (more : List Char) :
    HidesReference (raw ++ '&' :: body ++ ';' :: more) ↔
      ('&' ∈ raw ∧ ∃ c, resolve 1 body = .ok c) ∨ HidesReference more := by
  have hsemicolon : ';' ∉ body := fun hmem => (hbody _ hmem).2 rfl
  constructor
  · intro h
    refine (HidesReference.of_segment (by simp [hraw, hsemicolon]) h).imp_left ?_
    rintro ⟨before, between, other, c, hsegment, hother, hc⟩
    obtain ⟨rfl, rfl⟩ := (Text.append_cons_inj_of_last (fun hmem => (hbody _ hmem).1 rfl)
      fun hmem => (hother _ hmem).1 rfl).1 hsegment
    exact ⟨by simp, c, hc⟩
  · rintro (⟨hmem, c, hc⟩ | h)
    · obtain ⟨before, between, rfl⟩ := List.append_of_mem hmem
      exact ⟨before, between, body, more, c, rfl, fun hmem => hraw (by simp [hmem]), hbody, hc⟩
    · have := (h.append [';']).append (raw ++ '&' :: body)
      simpa using this

/-! ## What a text says -/

namespace PlainText

/-- What a text says is what its references say one by one, or it is longer and one of them is hidden. -/
def SaysEach (raw : List Char) : Prop :=
  ((ofText raw).text = expandEach raw ∧ ¬HidesReference raw) ∨
    ((expandEach raw).length < (ofText raw).text.length ∧ HidesReference raw)

theorem SaysEach.length_le {raw : List Char} (h : SaysEach raw) :
    (expandEach raw).length ≤ (ofText raw).text.length := by
  rcases h with ⟨heq, -⟩ | ⟨hlt, -⟩
  · rw [heq]
  · exact hlt.le

theorem SaysEach.of_same_front {raw more : List Char} (h : SaysEach more) (front : List Char)
    (htext : (ofText raw).text = front ++ (ofText more).text) (heach : expandEach raw = front ++ expandEach more)
    (hhides : HidesReference raw ↔ HidesReference more) : SaysEach raw := by
  rw [SaysEach, htext, heach, hhides, List.append_cancel_left_eq, List.length_append, List.length_append,
    Nat.add_lt_add_iff_left]
  exact h

theorem SaysEach.text_cons {segment more : List Char} (h : SaysEach more) (hampersand : '&' ∉ segment)
    (hsemicolon : ';' ∉ segment) : SaysEach (segment ++ ';' :: more) := by
  have hplain : ∀ c ∈ segment ++ [';'], c ≠ '&' := fun c hc => ne_of_mem_of_not_mem hc (by simp [hampersand])
  have htext := text_ofText_text hplain more
  have heach := expandEach_text hplain more
  rw [List.append_assoc, List.singleton_append] at htext heach
  exact h.of_same_front _ htext heach (hidesReference_text_iff hampersand hsemicolon more)

/-- The last ampersand before a semicolon, with all that stands before it. -/
theorem SaysEach.reference_cons {front body more : List Char} (h : SaysEach more) (hfront : ';' ∉ front)
    (hbody : ∀ c ∈ body, c ≠ '&' ∧ c ≠ ';') : SaysEach (front ++ '&' :: body ++ ';' :: more) := by
  have hhides := hidesReference_reference_iff hfront hbody more
  have heach : expandEach (front ++ '&' :: body ++ ';' :: more) =
      front ++ ((Token.reference body).plain.text ++ expandEach more) := by
    rw [List.append_assoc, List.cons_append, expandEach_open hfront, ← List.cons_append, expandEach_reference hbody]
  by_cases hampersand : '&' ∈ front
  · have htext := text_ofText_taken hampersand hfront (fun hmem => (hbody _ hmem).2 rfl) more
    cases hresolve : resolve 1 body with
    | ok c =>
      -- hidden: one character would stand for all that is kept
      refine .inr ⟨?_, hhides.2 (.inl ⟨hampersand, c, hresolve⟩)⟩
      have hle := h.length_le
      rw [heach, htext, Token.plain, hresolve]
      simp
      omega
    | error fault =>
      have hplain : (Token.reference body).plain.text = '&' :: body ++ [';'] := by
        rw [Token.plain, hresolve]
      refine h.of_same_front (front ++ ('&' :: body ++ [';'])) ?_ ?_ ?_
      · rw [htext, ← List.append_assoc]
      · rw [heach, hplain, ← List.append_assoc]
      · rw [hhides, hresolve]
        simp
  · refine h.of_same_front (front ++ (Token.reference body).plain.text) ?_ ?_ ?_
    · rw [List.append_assoc, text_ofText_text fun c hc => ne_of_mem_of_not_mem hc hampersand,
        text_ofText_reference hbody, ← List.append_assoc]
    · rw [heach, ← List.append_assoc]
    · rw [hhides]
      simp [hampersand]

/-- One semicolon after the other: what the rest says does not depend on what stands before. -/
theorem saysEach (raw : List Char) : SaysEach raw := by
  induction hlength : raw.length using Nat.strong_induction_on generalizing raw with
  | _ n ih =>
    by_cases hsemicolon : ';' ∈ raw
    · obtain ⟨segment, more, rfl, hsegment⟩ := List.eq_append_cons_of_mem hsemicolon
      have hmore : SaysEach more := by
        refine ih more.length ?_ more rfl
        rw [← hlength, List.length_append, List.length_cons]
        omega
      by_cases hampersand : '&' ∈ segment
      · obtain ⟨front, body, rfl, hlast⟩ := Text.exists_last hampersand
        refine hmore.reference_cons (fun hmem => hsegment (List.mem_append_left _ hmem)) fun c hc => ?_
        exact ⟨ne_of_mem_of_not_mem hc hlast,
          ne_of_mem_of_not_mem (List.mem_append_right front (List.mem_cons_of_mem '&' hc)) hsegment⟩
      · exact hmore.text_cons hampersand hsegment
    · refine .inl ⟨?_, ?_⟩
      · rw [text_ofText_of_notMem hsemicolon, expandEach_of_notMem hsemicolon]
      · rintro ⟨before, between, body, after, c, rfl, -⟩
        exact hsemicolon (by simp)

/-- A text comes to what its references say one by one, just if no ampersand hides one of them. -/
theorem of_text_eq_expandEach_iff (raw : String) :
    (of [.text raw]).toString = String.ofList (expandEach raw.toList) ↔ ¬HidesReference raw.toList := by
  have hof : (of [.text raw]).text = (ofText raw.toList).text := List.append_nil _
  rw [toString, hof, String.ofList_inj]
  rcases saysEach raw.toList with ⟨heq, hnot⟩ | ⟨hlt, hhides⟩
  · exact iff_of_true heq hnot
  · refine iff_of_false (fun heq => ?_) (not_not_intro hhides)
    rw [heq] at hlt
    exact lt_irrefl _ hlt

/-- The stray ampersand takes the reference after it. -/
theorem of_text_stray :
    (of [.text "a & b &lt;"]).toString = "a & b &lt;" ∧
      String.ofList (expandEach "a & b &lt;".toList) = "a & b <" := by
  decide +kernel

end PlainText

end SvgPlot.Markup
