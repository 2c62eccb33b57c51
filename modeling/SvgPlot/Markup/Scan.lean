/-!
# Scanning with a small automaton

Markup is cut by looking for the character at which a construct ends. What counts as the end depends on what came
before it (a `>` inside quotes does not end a tag), so the search runs an automaton along the text until it stops.
A scan loses nothing (`eq_of_scan`).
-/

namespace SvgPlot.Markup

/-- What a scan comes to: it stopped at a character, with the text before and after it, or the text ended in some
state. -/
inductive Scan (σ : Type) where
  | stopped (before : List Char) (stop : Char) (after : List Char)
  | ended (state : σ)
deriving Repr

/-- Runs the automaton; `step` gives `none` at the character to stop at. `seen` are the characters before, last one
first. -/
def scanFrom (step : σ → Char → Option σ) : (state : σ) → (seen : List Char) → List Char → Scan σ
  | state, _, [] => .ended state
  | state, seen, c :: rest =>
    match step state c with
    | none => .stopped seen.reverse c rest
    | some next => scanFrom step next (c :: seen) rest

def scan (step : σ → Char → Option σ) (state : σ) (text : List Char) : Scan σ := scanFrom step state [] text

theorem eq_of_scanFrom {step : σ → Char → Option σ} {state : σ} {seen text before after : List Char} {stop : Char}
    (h : scanFrom step state seen text = .stopped before stop after) :
    seen.reverse ++ text = before ++ stop :: after := by
  induction text generalizing state seen with
  | nil => simp [scanFrom] at h
  | cons c rest ih =>
    simp only [scanFrom] at h
    split at h
    · simp only [Scan.stopped.injEq] at h
      obtain ⟨rfl, rfl, rfl⟩ := h
      rfl
    · simpa using ih h

theorem eq_of_scan {step : σ → Char → Option σ} {state : σ} {text before after : List Char} {stop : Char}
    (h : scan step state text = .stopped before stop after) : text = before ++ stop :: after := by
  simpa using eq_of_scanFrom h

theorem length_of_scan {step : σ → Char → Option σ} {state : σ} {text before after : List Char} {stop : Char}
    (h : scan step state text = .stopped before stop after) : after.length < text.length := by
  simp only [eq_of_scan h, List.length_append, List.length_cons]
  omega

theorem scanFrom_append {step : σ → Char → Option σ} {stop : Char} {final : σ} (hstop : step final stop = none)
    {before : List Char} (after : List Char) :
    ∀ {state : σ} (seen : List Char), before.foldlM step state = some final →
      scanFrom step state seen (before ++ stop :: after) = .stopped (seen.reverse ++ before) stop after := by
  induction before with
  | nil =>
    intro state seen h
    cases h
    simp only [List.nil_append, scanFrom, hstop, List.append_nil]
  | cons c rest ih =>
    intro state seen h
    simp only [List.foldlM_cons, Option.bind_eq_bind, Option.bind_eq_some_iff] at h
    obtain ⟨next, hstep, hrest⟩ := h
    simp only [List.cons_append, scanFrom, hstep, ih (c :: seen) hrest, List.reverse_cons, List.append_assoc,
      List.cons_append, List.nil_append]

/-- A scan stops at a character if the automaton gets as far and stops there. -/
theorem scan_append {step : σ → Char → Option σ} {state final : σ} {before : List Char} {stop : Char}
    (hbefore : before.foldlM step state = some final) (hstop : step final stop = none) (after : List Char) :
    scan step state (before ++ stop :: after) = .stopped before stop after :=
  scanFrom_append hstop after [] hbefore

end SvgPlot.Markup
