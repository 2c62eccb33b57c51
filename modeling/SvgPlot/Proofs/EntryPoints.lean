import SvgPlot.Proofs.AttributeText
import SvgPlot.Proofs.EncodedText
import SvgPlot.Proofs.Growth
import SvgPlot.Proofs.SessionCalls
import SvgPlot.Plot

/-!
# The ways to a plot

A plot is made from text, from bytes or from a file, and by a compiler that is set up in steps. All ways agree.

* A byte order mark is taken off once from bytes and once from text. Plain markup has one at most, so it does not matter
  which of the two finds it (`compile_dropMark`).
* Packed bytes come to what their content comes to, whether that is text or a fault (`readMarkup_packed`).
* `Compiler.Step` is one step of setting up. Of each setting the last step counts (`field_after`).
-/

namespace SvgPlot

open Markup (Element)

/-! ## Text and its bytes -/

namespace Source

theorem withoutMark_append (bytes : List UInt8) : withoutMark (byteOrderMark ++ bytes) = bytes := by
  rw [withoutMark, if_pos (List.isPrefixOf_iff_prefix.2 (List.prefix_append ..)), List.drop_left]

/-- Plain markup has one byte order mark at most: after that comes a blank or the start of a tag. -/
theorem ne_marks_of_plain {s : String} (h : Format.of? (Text.encodeUtf8 s) = some .plain) (rest : List Char) :
    s.toList ≠ '\ufeff' :: '\ufeff' :: rest := by
  intro hs
  have hbytes : Text.encodeUtf8 s = byteOrderMark ++ (byteOrderMark ++ rest.flatMap String.utf8EncodeChar) := by
    rw [Text.encodeUtf8_eq, hs]
    rfl
  have hnot : looksPlain (Text.encodeUtf8 s) = false := by
    rw [looksPlain, hbytes, withoutMark_append]
    rfl
  rw [Format.of?, hnot] at h
  split at h <;> cases h

/-- The bytes of plain markup are read as the markup, its byte order mark left out. -/
theorem readMarkup_plain {s : String} (h : Format.of? (Text.encodeUtf8 s) = some .plain) :
    readMarkup (Text.encodeUtf8 s) = .ok (dropMark s) := by
  have hunpack : unpack (Text.encodeUtf8 s) = .ok (Text.encodeUtf8 s) := by rw [unpack, h]
  simp only [readMarkup, hunpack, bind, Except.bind, Text.decodeUtf8_encodeUtf8]
  rfl

/-- Packed bytes are read as their content is, unless that is packed again. -/
theorem readMarkup_packed {packed content : List UInt8} (hmagic : gzipMagic.isPrefixOf packed = true)
    (hcontent : gunzip packed = .ok content) (honce : gzipMagic.isPrefixOf content = false) :
    readMarkup packed = readMarkup content := by
  have hformat : Format.of? packed = some .compressed := by rw [Format.of?, if_pos hmagic]
  have hsame : unpack packed = unpack content := by
    rw [unpack, unpack, hformat]
    simp only [hcontent, Format.of?, honce, Bool.false_eq_true, if_false]
    cases looksPlain content <;> rfl
  rw [readMarkup, readMarkup, hsame]

end Source

/-! ## Markup with a byte order mark -/

namespace Session

variable {σ : Type}

/-- The session with the text of its document put in another way. -/
def withMarkup (s : Session σ) (markup : String) : Session σ := { s with scene := { s.scene with markup } }

/-- Of the text of a document only its tree counts for a session. -/
theorem start_of_read_eq {a b : String} {page : Page} {settings : Settings} {sink : σ}
    (h : Element.read settings.maxDepth a = Element.read settings.maxDepth b) :
    start b page settings sink = (start a page settings sink).map (·.withMarkup b) := by
  unfold start Scene.of
  rw [← h]
  cases Element.read settings.maxDepth a with
  | error error => rfl
  | ok root =>
    by_cases hname : root.name = Scene.rootName
    · simp only [if_pos hname]
      rfl
    · simp only [if_neg hname]
      rfl

theorem compile_withMarkup [StyleSink σ] (s : Session σ) (markup : String) :
    (s.withMarkup markup).compile = (s.compile.1.withMarkup markup, s.compile.2) := by
  have hconvert : (s.withMarkup markup).convert (s.withMarkup markup).scene.root containerMark =
      ((s.convert s.scene.root containerMark).1.withMarkup markup, (s.convert s.scene.root containerMark).2) := rfl
  rw [compile, compile, hconvert]
  rcases s.convert s.scene.root containerMark with ⟨next, error | mark⟩
  · rfl
  · rfl

end Session

namespace Compiler

theorem compile_of_read_eq {c : Compiler} {a b : String}
    (h : Element.read c.settings.maxDepth a = Element.read c.settings.maxDepth b) : c.compile a = c.compile b := by
  rw [compile, compile, compileLogged, compileLogged, Session.start_of_read_eq h]
  cases Session.start a c.page c.settings StyleSheet.empty with
  | error error => rfl
  | ok s =>
    simp only [Except.map, s.compile_withMarkup b]
    rcases s.compile with ⟨last, error | mark⟩
    · rfl
    · rfl

/-- The reader leaves out a byte order mark itself, so another one to be left out must not be there. -/
theorem compile_dropMark {s : String} (h : ∀ rest, s.toList ≠ '\ufeff' :: '\ufeff' :: rest) (c : Compiler) :
    c.compile (Source.dropMark s) = c.compile s := by
  apply compile_of_read_eq
  have hsame : Markup.withoutMark (Source.dropMark s).toList = Markup.withoutMark s.toList := by
    unfold Source.dropMark
    split
    · rename_i rest hs
      rw [hs, String.toList_ofList]
      cases rest with
      | nil => rfl
      | cons c rest =>
        have hc : c ≠ '\ufeff' := by
          rintro rfl
          exact h rest hs
        show (if (c == '\ufeff') = true then rest else c :: rest) = c :: rest
        rw [if_neg (by simpa using hc)]
    · rfl
  rw [Element.read, Element.read, hsame]

/-! ## Setting up -/

/-- A step of setting up a compiler. -/
inductive Step where
  | setPage (page : Page)
  | setMaxDepth (limit : Nat)
  | addExtra (key value : String)

def Step.page? : Step → Option Page
  | .setPage page => some page
  | _ => none

def Step.maxDepth? : Step → Option Nat
  | .setMaxDepth limit => some limit
  | _ => none

/-- The value that a step gives to a key of the extra settings. -/
def Step.extra? (key : String) : Step → Option String
  | .addExtra k value => if k = key then some value else none
  | _ => none

def apply (c : Compiler) : Step → Compiler
  | .setPage page => c.withPage page
  | .setMaxDepth limit => c.withMaxDepth limit
  | .addExtra key value => c.withExtra key value

/-- The compiler after steps in a row. -/
def after (c : Compiler) (steps : List Step) : Compiler := steps.foldl apply c

/-- The last of the values that some steps give. -/
def last? {α : Type} (value? : Step → Option α) (steps : List Step) : Option α := (steps.filterMap value?).getLast?

/-- A setting that each step either sets or leaves alone is in the end as the last step set it. -/
theorem field_after {α : Type} (field : Compiler → α) (value? : Step → Option α)
    (h : ∀ c step, field (apply c step) = (value? step).getD (field c)) (steps : List Step) (c : Compiler) :
    field (c.after steps) = (last? value? steps).getD (field c) := by
  induction steps generalizing c with
  | nil => rfl
  | cons step rest ih =>
    have hnext := ih (c.apply step)
    rw [h] at hnext
    show field ((c.apply step).after rest) = _
    rw [hnext, last?, last?, List.filterMap_cons]
    cases value? step with
    | none => rfl
    | some value => rw [List.getLast?_cons, Option.getD_some, Option.getD_some]

theorem page_after (steps : List Step) (c : Compiler) : (c.after steps).page = (last? Step.page? steps).getD c.page :=
  field_after Compiler.page Step.page? (fun _ step => by cases step <;> rfl) steps c

theorem maxDepth_after (steps : List Step) (c : Compiler) :
    (c.after steps).settings.maxDepth = (last? Step.maxDepth? steps).getD c.settings.maxDepth :=
  field_after (fun c => c.settings.maxDepth) Step.maxDepth? (fun _ step => by cases step <;> rfl) steps c

theorem extra_after (key : String) (steps : List Step) (c : Compiler) :
    (c.after steps).settings.extra.get? key = (last? (Step.extra? key) steps).or (c.settings.extra.get? key) := by
  have hlast := field_after (fun c => c.settings.extra.get? key) (fun step => (step.extra? key).map some)
    (fun c step => by
      cases step with
      | addExtra k value =>
        simp only [apply, withExtra, Settings.withExtra, Dictionary.get?_insert, Step.extra?]
        by_cases hk : k = key
        · rw [if_pos hk, if_pos hk, Option.map_some, Option.getD_some]
        · rw [if_neg hk, if_neg hk, Option.map_none, Option.getD_none]
      | _ => rfl) steps c
  rw [hlast, last?, last?, ← List.map_filterMap, List.getLast?_map]
  cases (steps.filterMap (Step.extra? key)).getLast? <;> rfl

end Compiler

namespace Dictionary

/-- The value of a key is the second part of the entry with it. -/
theorem get?_eq_some_iff {d : Dictionary} {key value : String} :
    d.get? key = some value ↔ (key, value) ∈ d.entries := by
  have hlookup : ∀ entries : List (String × String), (entries.map Prod.fst).Nodup →
      (lookup key entries = some value ↔ (key, value) ∈ entries) := by
    intro entries hnodup
    induction entries with
    | nil => simp [lookup]
    | cons e rest ih =>
      obtain ⟨k, v⟩ := e
      obtain ⟨hk, hrest⟩ := List.nodup_cons.1 hnodup
      rw [lookup, List.mem_cons, Prod.mk.injEq]
      by_cases hkey : k = key
      · subst hkey
        have hnot : (k, value) ∉ rest := fun hmem => hk (List.mem_map.2 ⟨_, hmem, rfl⟩)
        simp [hnot, eq_comm]
      · simp [hkey, Ne.symm hkey, ih hrest]
  exact hlookup d.entries d.nodup_keys

/-- Two dictionaries with the same value for every key are equal. -/
theorem eq_of_get? {a b : Dictionary} (h : ∀ key, a.get? key = b.get? key) : a = b := by
  have hnodup : ∀ d : Dictionary, d.entries.Nodup := fun d => (List.pairwise_map.1 d.nodup_keys).imp fun hne heq =>
    hne (congrArg Prod.fst heq)
  refine eq_of_perm ((List.perm_ext_iff_of_nodup (hnodup a) (hnodup b)).2 fun e => ?_)
  obtain ⟨key, value⟩ := e
  rw [← get?_eq_some_iff, ← get?_eq_some_iff, h key]

end Dictionary

namespace Compiler

/-- A compiler that is set up in steps has the last page, the last limit, and of every key the last value. -/
theorem after_eq {steps : List Step} {page : Page} {settings : Settings}
    (hpage : page = (last? Step.page? steps).getD Page.letter)
    (hlimit : settings.maxDepth = (last? Step.maxDepth? steps).getD 256)
    (hextra : ∀ key, settings.extra.get? key = last? (Step.extra? key) steps) :
    ({} : Compiler).after steps = ⟨page, settings⟩ := by
  have hsettings : (({} : Compiler).after steps).settings = settings := by
    have hdepth : (({} : Compiler).after steps).settings.maxDepth = settings.maxDepth :=
      (maxDepth_after steps {}).trans hlimit.symm
    have hdictionary : (({} : Compiler).after steps).settings.extra = settings.extra := by
      apply Dictionary.eq_of_get?
      intro key
      rw [extra_after, hextra key]
      show (last? (Step.extra? key) steps).or none = _
      rw [Option.or_none]
    cases hafter : (({} : Compiler).after steps).settings
    cases settings
    rw [hafter] at hdepth hdictionary
    cases hdepth
    cases hdictionary
    rfl
  have hsame : (({} : Compiler).after steps).page = page := (page_after steps {}).trans hpage.symm
  cases hafter : ({} : Compiler).after steps
  rw [hafter] at hsame hsettings
  cases hsame
  cases hsettings
  rfl

/-- The bytes of plain markup make the plot that the markup makes. Packed bytes make the plot of their content, and fail
where it fails. A compiler that is set up in steps makes the plots of the one with the last page, the last limit and the
last value of every key, from text, bytes and files. -/
theorem compile_agrees :
    (∀ s : String, Source.Format.of? (Text.encodeUtf8 s) = some .plain →
      ∀ c : Compiler, c.compileBytes (Text.encodeUtf8 s) = c.compile s) ∧
    (∀ packed content : List UInt8, Source.gzipMagic.isPrefixOf packed = true →
      Source.gunzip packed = .ok content → Source.gzipMagic.isPrefixOf content = false →
        Source.readMarkup packed = Source.readMarkup content ∧
          ∀ c : Compiler, c.compileBytes packed = c.compileBytes content) ∧
    ∀ (steps : List Step) (page : Page) (settings : Settings),
      page = (last? Step.page? steps).getD Page.letter →
      settings.maxDepth = (last? Step.maxDepth? steps).getD 256 →
      (∀ key, settings.extra.get? key = last? (Step.extra? key) steps) →
        (∀ markup, (({} : Compiler).after steps).compile markup = (⟨page, settings⟩ : Compiler).compile markup) ∧
        (∀ bytes, (({} : Compiler).after steps).compileBytes bytes = (⟨page, settings⟩ : Compiler).compileBytes bytes) ∧
        ∀ file, (({} : Compiler).after steps).compileFile file = (⟨page, settings⟩ : Compiler).compileFile file := by
  refine ⟨fun s hplain c => ?_, fun packed content hmagic hcontent honce => ?_,
    fun steps page settings hpage hlimit hextra => ?_⟩
  · rw [compileBytes, Source.readMarkup_plain hplain]
    exact compile_dropMark (Source.ne_marks_of_plain hplain) c
  · have hsame := Source.readMarkup_packed hmagic hcontent honce
    refine ⟨hsame, fun c => ?_⟩
    rw [compileBytes, compileBytes, hsame]
  · rw [after_eq hpage hlimit hextra]
    exact ⟨fun _ => rfl, fun _ => rfl, fun _ => rfl⟩

/-- A document with a byte order mark, one that is packed without being made smaller, and steps that set a page and a
key twice. -/
theorem compile_agrees_small :
    let marked := "\ufeff<svg/>"
    let content := Text.encodeUtf8 "<svg/>"
    let packed : List UInt8 := [0x1f, 0x8b, 8, 0, 0, 0, 0, 0, 0, 3, 1, 6, 0, 0xf9, 0xff] ++ content ++
      [0x49, 0xfb, 0xb9, 0xac, 6, 0, 0, 0]
    let steps : List Step :=
      [.setPage Page.letter, .addExtra "k" "1", .setMaxDepth 9, .setPage Page.a4, .addExtra "k" "2"]
    let settings : Settings := ⟨9, Dictionary.empty.insert "k" "2"⟩
    (Source.Format.of? (Text.encodeUtf8 marked) = some .plain ∧
      ({} : Compiler).compileBytes (Text.encodeUtf8 marked) = ({} : Compiler).compile marked) ∧
    (Source.gunzip packed = .ok content ∧ Source.readMarkup packed = Source.readMarkup content) ∧
    (({} : Compiler).after steps).compile marked = (⟨Page.a4, settings⟩ : Compiler).compile marked := by
  intro marked content packed steps settings
  have hplain : Source.Format.of? (Text.encodeUtf8 marked) = some .plain := by decide +kernel
  have hmagic : Source.gzipMagic.isPrefixOf packed = true := by decide
  have hcontent : Source.gunzip packed = .ok content := Markup.toOption_eq_some_iff.1 (by decide +kernel)
  have honce : Source.gzipMagic.isPrefixOf content = false := by decide +kernel
  have hextra : ∀ key, settings.extra.get? key = last? (Step.extra? key) steps := by
    intro key
    rw [Dictionary.get?_insert, Dictionary.get?_empty]
    by_cases hkey : "k" = key <;> simp [last?, steps, Step.extra?, List.findSome?, hkey]
  obtain ⟨hbytes, hpacked, hsteps⟩ := compile_agrees
  exact ⟨⟨hplain, hbytes marked hplain {}⟩, ⟨hcontent, (hpacked packed content hmagic hcontent honce).1⟩,
    (hsteps steps Page.a4 settings rfl rfl hextra).1 marked⟩

end Compiler

end SvgPlot
