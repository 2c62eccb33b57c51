import Mathlib.Data.List.TakeWhile
import SvgPlot.Cli.Program
import SvgPlot.Proofs.LimitChange
import SvgPlot.Proofs.ListedLines
import SvgPlot.Proofs.WrittenFiles

/-!
# Outcomes of commands

A command that reads a file either fails as a whole or does all that was asked for.

* `Input.IsFault` is everything that can be wrong with an input: its page, an extra option, the file, its format and its
  markup. Without a fault there is a compiler and a markup to make a plot from (`Input.exists_fault_or_isReady`).
* `runIn_of_input` says what is printed and which files change: nothing but one message with a fault, and exactly the
  text of the plot without, whether it is printed or saved.
* `runIn_of_code_ne_zero` says that a run that fails for any reason prints nothing but messages. It changes nothing
  either, unless it is saving what was asked for that fails.
-/

namespace SvgPlot.Cli

/-! ## Extra options -/

theorem splitAt?_eq_none_iff {isMark : Char → Bool} {s : String} :
    splitAt? isMark s = none ↔ ∀ c ∈ s.toList, isMark c = false := by
  have hempty : s.toList.dropWhile (fun c => !isMark c) = [] ↔ ∀ c ∈ s.toList, isMark c = false := by
    rw [List.dropWhile_eq_nil_iff]
    simp
  rw [← hempty, splitAt?]
  cases s.toList.dropWhile fun c => !isMark c with
  | nil => exact ⟨fun _ => rfl, fun _ => rfl⟩
  | cons c after => exact ⟨nofun, nofun⟩

/-- The first option without an equals sign is what is wrong with extra options. -/
theorem foldlM_addExtra (entries : List String) (settings : Settings) :
    (∃ entry ∈ entries, '=' ∉ entry.toList ∧ entries.foldlM addExtra settings = .error (.extraForm entry)) ∨
      (∀ entry ∈ entries, '=' ∈ entry.toList) ∧ ∃ after, entries.foldlM addExtra settings = .ok after := by
  induction entries generalizing settings with
  | nil => exact .inr ⟨nofun, settings, rfl⟩
  | cons entry entries ih =>
    rw [List.foldlM_cons, addExtra]
    cases hsplit : splitAt? (· == '=') entry with
    | none =>
      have hform : '=' ∉ entry.toList := fun hmem => Bool.noConfusion (splitAt?_eq_none_iff.1 hsplit '=' hmem)
      exact .inl ⟨entry, List.mem_cons_self, hform, rfl⟩
    | some parts =>
      have hform : '=' ∈ entry.toList := by
        refine Decidable.byContradiction fun habsent => ?_
        have hnone : splitAt? (· == '=') entry = none :=
          splitAt?_eq_none_iff.2 fun c hc => beq_false_of_ne fun hsign => habsent (hsign ▸ hc)
        rw [hnone] at hsplit
        cases hsplit
      rcases ih (settings.withExtra (Text.trim parts.1) (Text.trim parts.2)) with h | h
      · obtain ⟨wrong, hmem, hwrong, hfold⟩ := h
        exact .inl ⟨wrong, List.mem_cons_of_mem entry hmem, hwrong, hfold⟩
      · exact .inr ⟨List.forall_mem_cons.2 ⟨hform, h.1⟩, h.2⟩

/-! ## Inputs -/

namespace Input

/-- There is all that a plot is made from: the compiler that an input asks for, and the markup in its file. -/
structure IsReady (s : FileSystem) (input : Input) (c : Compiler) (markup : String) : Prop where
  page : readPage input.page = .ok c.page
  settings : readSettings input = .ok c.settings
  markup : ∃ bytes, s.read input.file = .ok bytes ∧ Source.readMarkup bytes = .ok markup

/-- A failure that an input is a reason for. There can be several; the first that is met is reported. -/
inductive IsFault (s : FileSystem) (input : Input) : Failure → Prop where
  | page {failure : Failure} (h : readPage input.page = .error failure) : IsFault s input failure
  | extra {entry : String} (hmem : entry ∈ input.extras) (hform : '=' ∉ entry.toList) :
    IsFault s input (.extraForm entry)
  | file {fault : FileFault} (h : s.read input.file = .error fault) : IsFault s input (.error (.file fault))
  | source {bytes : List UInt8} {error : Source.SourceError} (hread : s.read input.file = .ok bytes)
    (h : Source.readMarkup bytes = .error error) : IsFault s input (.error (.ofSource error))
  | markup {c : Compiler} {markup : String} {error : Error} (hready : input.IsReady s c markup)
    (h : c.compile markup = .error error) : IsFault s input (.error error)

variable {s : FileSystem} {input : Input}

theorem compiler_eq_ok {c : Compiler} (hpage : readPage input.page = .ok c.page)
    (hsettings : readSettings input = .ok c.settings) : input.compiler = .ok c := by
  rw [compiler, hpage, hsettings]
  rfl

theorem plot_of_compiler {c : Compiler} (h : input.compiler = .ok c) (file : Except FileFault (List UInt8)) :
    input.plot file = (c.compileFile file).mapError .error := by
  rw [plot, h]
  rfl

theorem plot_of_compiler_error {failure : Failure} (h : input.compiler = .error failure)
    (file : Except FileFault (List UInt8)) : input.plot file = .error failure := by
  rw [plot, h]
  rfl

theorem IsReady.plot_eq {c : Compiler} {markup : String} (h : input.IsReady s c markup) :
    input.plot (s.read input.file) = (c.compile markup).mapError .error := by
  obtain ⟨bytes, hread, hmarkup⟩ := h.markup
  rw [plot_of_compiler (compiler_eq_ok h.page h.settings), hread, Compiler.compileFile, Compiler.compileBytes, hmarkup]

/-- The page or an extra option is wrong, or they make a compiler. -/
theorem compiler_cases (s : FileSystem) (input : Input) :
    (∃ failure, input.IsFault s failure ∧ input.compiler = .error failure) ∨
      ∃ c : Compiler, readPage input.page = .ok c.page ∧ readSettings input = .ok c.settings := by
  cases hpage : readPage input.page with
  | error failure =>
    refine .inl ⟨failure, .page hpage, ?_⟩
    rw [compiler, hpage]
    rfl
  | ok page =>
    rcases foldlM_addExtra input.extras
      { ({} : Settings) with maxDepth := input.maxDepth.getD ({} : Settings).maxDepth } with h | h
    · obtain ⟨entry, hmem, hform, hsettings⟩ := h
      refine .inl ⟨_, .extra hmem hform, ?_⟩
      rw [compiler, hpage, readSettings, hsettings]
      rfl
    · obtain ⟨-, settings, hsettings⟩ := h
      exact .inr ⟨⟨page, settings⟩, rfl, hsettings⟩

/-- An input has a fault that is reported, or nothing is missing to make a plot of it. -/
theorem exists_fault_or_isReady (s : FileSystem) (input : Input) :
    (∃ failure, input.IsFault s failure ∧ input.plot (s.read input.file) = .error failure) ∨
      ∃ c markup, input.IsReady s c markup := by
  rcases compiler_cases s input with ⟨failure, hfault, hcompiler⟩ | ⟨c, hpage, hsettings⟩
  · exact .inl ⟨failure, hfault, plot_of_compiler_error hcompiler _⟩
  · have hplot := plot_of_compiler (compiler_eq_ok hpage hsettings) (s.read input.file)
    cases hread : s.read input.file with
    | error fault =>
      rw [hread] at hplot
      exact .inl ⟨_, .file hread, hplot⟩
    | ok bytes =>
      cases hmarkup : Source.readMarkup bytes with
      | error error =>
        rw [hread, Compiler.compileFile, Compiler.compileBytes, hmarkup] at hplot
        exact .inl ⟨_, .source hread hmarkup, hplot⟩
      | ok markup => exact .inr ⟨c, markup, hpage, hsettings, bytes, hread, hmarkup⟩

theorem IsReady.unique {c other : Compiler} {markup otherMarkup : String} (h : input.IsReady s c markup)
    (hother : input.IsReady s other otherMarkup) : other = c ∧ otherMarkup = markup := by
  obtain ⟨bytes, hread, hmarkup⟩ := h.markup
  obtain ⟨otherBytes, hotherRead, hotherMarkup⟩ := hother.markup
  obtain rfl := Except.ok.inj (hread.symm.trans hotherRead)
  have hpage : other.page = c.page := Except.ok.inj (hother.page.symm.trans h.page)
  have hsettings : other.settings = c.settings := Except.ok.inj (hother.settings.symm.trans h.settings)
  exact ⟨congrArg₂ Compiler.mk hpage hsettings, Except.ok.inj (hotherMarkup.symm.trans hmarkup)⟩

/-- With all that a plot is made from, only the markup can be wrong. -/
theorem IsReady.exists_error {c : Compiler} {markup : String} {failure : Failure} (h : input.IsReady s c markup)
    (hfault : input.IsFault s failure) : ∃ error, c.compile markup = .error error := by
  obtain ⟨bytes, hread, hmarkup⟩ := h.markup
  cases hfault with
  | page hpage => cases h.page.symm.trans hpage
  | extra hmem hform =>
    have hsettings := h.settings
    rw [readSettings] at hsettings
    rcases foldlM_addExtra input.extras _ with ⟨_, -, -, hwrong⟩ | ⟨hforms, -⟩
    · cases hsettings.symm.trans hwrong
    · exact absurd (hforms _ hmem) hform
  | file hfile => cases hread.symm.trans hfile
  | source hother hsource =>
    obtain rfl := Except.ok.inj (hread.symm.trans hother)
    cases hmarkup.symm.trans hsource
  | markup hready herror =>
    obtain ⟨rfl, rfl⟩ := h.unique hready
    exact ⟨_, herror⟩

/-- If anything is wrong with an input, something that is wrong with it is reported. -/
theorem IsFault.exists_plot_eq {failure : Failure} (h : input.IsFault s failure) :
    ∃ reported, input.IsFault s reported ∧ input.plot (s.read input.file) = .error reported := by
  rcases exists_fault_or_isReady s input with hreported | ⟨c, markup, hready⟩
  · exact hreported
  · obtain ⟨error, herror⟩ := hready.exists_error h
    refine ⟨.error error, .markup hready herror, ?_⟩
    rw [hready.plot_eq, herror]
    rfl

end Input

/-! ## Commands -/

namespace Command

variable {s : FileSystem} {command : Command} {input : Input}

/-- Where a command that writes out a plot puts it: in a file, or in what it prints. -/
def output? : Command → Option (Option String)
  | .json _ output _ => some output
  | .text _ output _ _ => some output
  | _ => none

/-- The text is what a command writes of a plot: its exchange form, or its listing without the end of the last line. -/
def Writes (plot : Plot) (text : String) : Command → Prop
  | .json _ _ compact => text = plot.json (if compact then .compact else .pretty)
  | .text _ _ precision noData => text ++ "\n" = plot.root.listing { precision, showData := !noData }
  | _ => False

theorem runIn_of_error {failure : Failure} (hinput : command.input? = some input)
    (h : input.plot (s.read input.file) = .error failure) (coloured : Bool) :
    command.runIn coloured s = (.failed coloured failure, s) := by
  have hanswer : command.answer coloured (command.inputBytes s) = .fail failure := by
    rw [inputBytes, hinput]
    cases command with
    | version => cases hinput
    | _ =>
      cases hinput
      rw [answer, h]
      rfl
  rw [runIn, hanswer]
  rfl

/-- A command that writes out a plot writes all of it, and nothing else. -/
theorem exists_answer_eq_emit {plot : Plot} {output : Option String} (hinput : command.input? = some input)
    (houtput : command.output? = some output) (h : input.plot (s.read input.file) = .ok plot) (coloured : Bool) :
    ∃ text, command.Writes plot text ∧ command.answer coloured (command.inputBytes s) = emit output text := by
  rw [inputBytes, hinput]
  cases command with
  | json _ _ compact =>
    cases hinput
    cases houtput
    refine ⟨_, rfl, ?_⟩
    rw [answer, h]
    rfl
  | text _ _ precision noData =>
    cases hinput
    cases houtput
    refine ⟨_, Mark.trimEnd_listing rfl plot.root, ?_⟩
    rw [answer, h]
    rfl
  | _ => cases houtput

end Command

/-! ## Runs -/

theorem joinLines_singleton (line : String) : joinLines [line] = line ++ "\n" := Layout.ended_singleton line

/-- Only what is to be saved somewhere is written there. -/
theorem Command.output?_of_answer {coloured : Bool} {file : Except FileFault (List UInt8)} {command : Command}
    {path text : String} (h : command.answer coloured file = .save path text) :
    command.output? = some (some path) := by
  have hplot {plot : Except Failure Plot} {use : Plot → Answer} (huse : answerWith plot use = .save path text) :
      ∃ p, use p = .save path text := by
    cases plot with
    | error failure => cases huse
    | ok p => exact ⟨p, huse⟩
  have hemit {output : Option String} {written : String} (hwritten : emit output written = .save path text) :
      output = some path := by
    cases output with
    | none => cases hwritten
    | some other =>
      cases hwritten
      rfl
  cases command with
  | version => cases h
  | json input output compact =>
    obtain ⟨p, huse⟩ := hplot h
    exact congrArg some (hemit huse)
  | text input output precision noData =>
    obtain ⟨p, huse⟩ := hplot h
    exact congrArg some (hemit huse)
  | info input asJson =>
    obtain ⟨p, huse⟩ := hplot h
    cases huse
  | styles input =>
    obtain ⟨p, huse⟩ := hplot h
    cases huse

theorem Answer.apply_of_code_ne_zero {coloured : Bool} {s : FileSystem} {answer : Answer}
    (h : (answer.apply coloured s).1.code ≠ 0) :
    (answer.apply coloured s).1.stdout = "" ∧
      ((answer.apply coloured s).2 = s ∨ ∃ path text, answer = .save path text ∧
        (answer.apply coloured s).2 = (s.write path (Text.encodeUtf8 text)).2) := by
  cases answer with
  | print text => exact absurd rfl h
  | fail failure => exact ⟨rfl, .inl rfl⟩
  | save path text =>
    rw [apply] at h ⊢
    rcases hwrite : s.write path (Text.encodeUtf8 text) with ⟨result, after⟩
    cases result with
    | ok =>
      rw [hwrite] at h
      exact absurd rfl h
    | error fault => exact ⟨rfl, .inr ⟨path, text, rfl, by rw [hwrite]⟩⟩

/-- A run that does not end well prints nothing but messages, whatever the reason. It has changed nothing, unless it
failed to save what it was told to; then only the file that this was to go to can have changed. -/
theorem runIn_of_code_ne_zero {coloured : Bool} {environment : Option String} {s : FileSystem} {words : List String}
    (h : (runIn coloured environment s words).1.code ≠ 0) :
    (runIn coloured environment s words).1.stdout = "" ∧
      ((runIn coloured environment s words).2 = s ∨
        ∃ command path spot, Request.of environment words = .run command ∧ command.output? = some (some path) ∧
          s.locate true path = .ok spot ∧ s.OnlyChanges (runIn coloured environment s words).2 spot) := by
  rw [runIn] at h ⊢
  cases hrequest : Request.of environment words with
  | run command =>
    rw [hrequest] at h
    obtain ⟨hstdout, hsame | ⟨path, text, hsave, hwritten⟩⟩ := Answer.apply_of_code_ne_zero h
    · exact ⟨hstdout, .inl hsame⟩
    · refine ⟨hstdout, ?_⟩
      simp only [Command.runIn, hwritten]
      rcases s.onlyChanges_of_write path (Text.encodeUtf8 text) with hsame | ⟨spot, hlocate, hchanges⟩
      · exact .inl hsame
      · exact .inr ⟨command, path, spot, rfl, Command.output?_of_answer hsave, hlocate, hchanges⟩
  | misuse => exact ⟨rfl, .inl rfl⟩
  | shortVersion =>
    rw [hrequest] at h
    exact absurd rfl h
  | help =>
    rw [hrequest] at h
    exact absurd rfl h

/-- A command that reads a file does all or nothing. If its page, an extra option, its file or the markup in it is
wrong, then one message about something that is wrong is all that is seen, and the file system is as it was. If nothing
is wrong, a command that writes out a plot prints the text of the plot with a line end, and the file system is as it
was; or it saves that very text where it was told to, prints where, and changes nothing else. -/
theorem runIn_of_input {environment : Option String} {words : List String} {command : Command} {input : Input}
    (hrequest : Request.of environment words = .run command) (hinput : command.input? = some input)
    (s : FileSystem) (coloured : Bool) :
    ((∃ failure, input.IsFault s failure) →
      ∃ failure, input.IsFault s failure ∧ runIn coloured environment s words =
        (⟨1, "", Paint.failure.on coloured "Error" ++ ": " ++ failure.message ++ "\n"⟩, s)) ∧
    ∀ c markup plot, input.IsReady s c markup → c.compile markup = .ok plot →
      ∀ output, command.output? = some output → ∃ text, command.Writes plot text ∧
        match output with
        | none => runIn coloured environment s words = (⟨0, text ++ "\n", ""⟩, s)
        | some path => ∀ spot, s.IsTarget path (Text.encodeUtf8 text).length spot → ∃ after,
          runIn coloured environment s words =
            (⟨0, Paint.success.on coloured "Saved to" ++ " " ++ path ++ "\n", ""⟩, after) ∧
          after.Holds path (Text.encodeUtf8 text) ∧ s.OnlyChanges after spot := by
  have hrun : runIn coloured environment s words = command.runIn coloured s := by rw [runIn, hrequest]
  refine ⟨fun hfault => ?_, fun c markup plot hready hcompile output houtput => ?_⟩
  · obtain ⟨failure, hfailure⟩ := hfault
    obtain ⟨reported, hreported, hplot⟩ := hfailure.exists_plot_eq
    refine ⟨reported, hreported, ?_⟩
    rw [hrun, Command.runIn_of_error hinput hplot, Outcome.failed, failureReport, joinLines_singleton]
  · have hplot : input.plot (s.read input.file) = .ok plot := by
      rw [hready.plot_eq, hcompile]
      rfl
    obtain ⟨text, hwrites, hanswer⟩ := Command.exists_answer_eq_emit hinput houtput hplot coloured
    refine ⟨text, hwrites, ?_⟩
    rw [hrun, Command.runIn, hanswer]
    cases output with
    | none => rfl
    | some path =>
      intro spot htarget
      obtain ⟨after, hwrite, hholds, hchanges⟩ := FileSystem.exists_write_eq htarget
      refine ⟨after, ?_, hholds, hchanges⟩
      rw [emit, Answer.apply, hwrite]
      simp only
      rw [Outcome.saved, savedReport, joinLines_singleton]
      rfl

/-- A drawing in one directory is read by a link in another, and its plot is saved in place of it. A file that must not
be read is no reason to touch the one that the output was to go to. -/
theorem runIn_of_input_small :
    let s : FileSystem :=
      { nodes :=
          [⟨.directory 0 [("drawings", 1), ("out", 2)], {}⟩,
            ⟨.directory 0 [("logo.svg", 3), ("secret.svg", 4)], {}⟩, ⟨.directory 0 [("latest", 5)], {}⟩,
            ⟨.file (Text.encodeUtf8 "<svg/>"), {}⟩, ⟨.file [], { read := some .permissionDenied }⟩,
            ⟨.link "../drawings/logo.svg", {}⟩]
        root := 0
        here := 1 }
    (∃ plot after, (⟨Page.letter, {}⟩ : Compiler).compile "<svg/>" = .ok plot ∧
      runIn false none s ["json", "../out/latest", "--compact", "-o", "logo.svg"] =
        (⟨0, "Saved to logo.svg\n", ""⟩, after) ∧
      after.Holds "logo.svg" (Text.encodeUtf8 (plot.json .compact))) ∧
    runIn false none s ["text", "secret.svg", "-o", "/out/latest"] =
      (⟨1, "", "Error: I/O error: Permission denied (os error 13)\n"⟩, s) := by
  intro s
  refine ⟨?_, ?_⟩
  · have hrequest : Request.of none ["json", "../out/latest", "--compact", "-o", "logo.svg"] =
        .run (.json ⟨"../out/latest", "letter", none, []⟩ (some "logo.svg") true) := by decide +kernel
    have hpage : readPage "letter" = .ok Page.letter := by
      rw [readPage, if_pos (by decide +kernel)]
    have hread : s.read "../out/latest" = .ok (Text.encodeUtf8 "<svg/>") := by rfl
    have hmarkup : Source.readMarkup (Text.encodeUtf8 "<svg/>") = .ok "<svg/>" :=
      Markup.toOption_eq_some_iff.1 (by decide +kernel)
    have htree : Markup.Element.read 256 "<svg/>" = .ok (.named "svg") := by decide +kernel
    let session : Session StyleSheet := .ofRoot "<svg/>" (.named "svg") Page.letter {} StyleSheet.empty
    have hstart : Session.start "<svg/>" Page.letter {} StyleSheet.empty = .ok session :=
      Session.start_eq_ok_iff.2 ⟨_, htree, rfl, rfl⟩
    have hmark : session.compile.2 = .ok { containerMark with children := [] } := by
      rw [Session.result_compile]
      exact Session.convert_eq_ok_iff.2 ⟨[], rfl, rfl⟩
    obtain ⟨plot, hplot⟩ : ∃ plot, (⟨Page.letter, {}⟩ : Compiler).compile "<svg/>" = .ok plot :=
      ⟨_, Compiler.compile_eq_ok_iff.2 ⟨session, _, hstart, hmark, rfl⟩⟩
    have htarget (size : Nat) : s.IsTarget "logo.svg" size (.node 3) := by
      refine ⟨by rfl, ?_, ⟨_, rfl, rfl, nofun⟩⟩
      rintro number ⟨⟩
      exact ⟨_, rfl⟩
    obtain ⟨-, hsuccess⟩ := runIn_of_input hrequest rfl s false
    obtain ⟨text, hwrites, hsave⟩ :=
      hsuccess ⟨Page.letter, {}⟩ "<svg/>" plot ⟨hpage, rfl, _, hread, hmarkup⟩ hplot (some "logo.svg") rfl
    obtain ⟨after, hrun, hholds, -⟩ := hsave (.node 3) (htarget _)
    refine ⟨plot, after, hplot, hrun, ?_⟩
    obtain rfl : text = plot.json .compact := hwrites
    exact hholds
  · have hrequest : Request.of none ["text", "secret.svg", "-o", "/out/latest"] =
        .run (.text ⟨"secret.svg", "letter", none, []⟩ (some "/out/latest") 2 false) := by decide +kernel
    have hread : s.read "secret.svg" = .error .permissionDenied := by rfl
    obtain ⟨hfailure, -⟩ := runIn_of_input hrequest rfl s false
    obtain ⟨failure, hfault, hrun⟩ := hfailure ⟨_, .file hread⟩
    rw [hrun]
    cases hfault with
    | page h =>
      rw [readPage, if_pos (by decide +kernel)] at h
      cases h
    | extra hmem => cases hmem
    | file h =>
      cases hread.symm.trans h
      rfl
    | source h => cases hread.symm.trans h
    | markup h =>
      obtain ⟨_, h, -⟩ := h.markup
      cases hread.symm.trans h

end SvgPlot.Cli
