import SourceMarkup.Proofs.Clipboard.Fallback
import SourceMarkup.Proofs.Command.Agreement

/-!
# Commands that copy

Two commands hand markup to the clipboard, and by different ways: one gives its input away
while it prepares the raw text, the other prints what it made and copies that. Both come to
the same: a line is printed whatever happens then, and the end of the run is that of the
clipboard.

What users see of that end is told by the names of the installed programs and their exit
codes, and not by the answers of the clipboard.
-/

namespace SourceMarkup

open Clipboard

/-- The commands that copy, with the text that they print and the markup that they copy.
What is copied is the input of `copy`, and what `highlight` prints. -/
inductive World.Copies (world : World) (config : Config) : Command → Text → Text → Prop
  | copy {file : Option Text} {markup : Text} (hinput : world.readInput file = .ok markup) :
      Copies world config (.copy file) (Markup.toRawText markup) markup
  | highlight {options : HighlightOptions} {source : Text}
      (hinput : world.readInput options.file = .ok source) (hcopy : options.copy = true) :
      Copies world config (.highlight options)
        (Markup.highlight (World.settingsOf options config) source)
        (Markup.highlight (World.settingsOf options config) source)

/-- An end of the program that tells of an answer of the clipboard. -/
def Exit.Tells (exit : Exit) : Answer → Prop
  | .ok copied => exit.code = 0 ∧ exit.errors = copied.message ++ ['\n']
  | .error e => exit.code = 1 ∧ exit.errors = (Failure.ofClipboard e).report

/-- The end of programs that are run one after the other with a text of `size` bytes: the
programs that are run, the exit code, and the standard error. The first one that ends with
zero is named with the size, otherwise the last one is named. -/
inductive Clipboard.Reports (codes : List (Text × Nat)) (size : Nat) (names : List Text) :
    List Text → Nat → Text → Prop
  | succeeds {failed rest : List Text} {name : Text} (hnames : names = failed ++ name :: rest)
      (hfailed : ∀ n ∈ failed, codes.lookup n ≠ some 0) (hname : codes.lookup name = some 0) :
      Reports codes size names (failed ++ [name]) 0
        ("Copied highlighted markup (".toList ++ Text.ofNat size ++
          " bytes) to clipboard via ".toList ++ name ++ ['\n'])
  | fails {others : List Text} {last : Text} (hnames : names = others ++ [last])
      (hfailed : ∀ n ∈ names, codes.lookup n ≠ some 0) :
      Reports codes size names names 1
        ("Error: Clipboard tool '".toList ++ last ++ "' failed: ".toList ++ last ++
          " failed\n".toList)
  | nothing (hnames : names = []) :
      Reports codes size names [] 1
        ("Error: No clipboard tool available. ".toList ++
          "On Linux, install xclip, xsel, or wl-copy.\n".toList)

theorem Clipboard.Reports.code_eq_zero_iff {codes : List (Text × Nat)} {size code : Nat}
    {names ran : List Text} {errors : Text} (h : Reports codes size names ran code errors) :
    code = 0 ↔ ∃ name ∈ names, codes.lookup name = some 0 := by
  cases h with
  | @succeeds failed rest name hnames hfailed hname =>
      have hmem : name ∈ names := hnames ▸ List.mem_append_cons_self
      exact ⟨fun _ => ⟨name, hmem, hname⟩, fun _ => rfl⟩
  | fails hnames hfailed =>
      exact ⟨fun hcode => absurd hcode Nat.one_ne_zero,
        fun ⟨name, hmem, hname⟩ => absurd hname (hfailed name hmem)⟩
  | nothing hnames =>
      refine ⟨fun hcode => absurd hcode Nat.one_ne_zero, fun ⟨name, hmem, hname⟩ => ?_⟩
      rw [hnames] at hmem
      exact absurd hmem List.not_mem_nil

theorem Clipboard.report_failure (method : Method) :
    (Failure.ofClipboard method.failure).report =
      "Error: Clipboard tool '".toList ++ method.name ++ "' failed: ".toList ++ method.name ++
        " failed\n".toList := by
  cases method <;> decide

theorem Clipboard.report_noToolAvailable :
    (Failure.ofClipboard .noToolAvailable).report =
      "Error: No clipboard tool available. ".toList ++
        "On Linux, install xclip, xsel, or wl-copy.\n".toList := by
  decide

/-- What a run tells of tries is told by the names of the methods. -/
theorem Clipboard.Tries.reports {programs : Programs} {size : Nat} {methods ran : List Method}
    {answer : Answer} {exit : Exit}
    (h : Tries programs size .noToolAvailable methods ran answer) (htells : exit.Tells answer) :
    Reports programs.codes size (methods.map Method.name) (ran.map Method.name) exit.code
      exit.errors := by
  cases h with
  | @succeeds failed rest method hmethods hfailed hmethod =>
      obtain ⟨hcode, herrors⟩ := htells
      have hnames : methods.map Method.name =
          failed.map Method.name ++ method.name :: rest.map Method.name := by
        rw [hmethods, List.map_append, List.map_cons]
      rw [hcode, herrors, List.map_append]
      exact .succeeds hnames (List.forall_mem_map.2 hfailed) hmethod
  | fails hfailed =>
      obtain ⟨hcode, herrors⟩ := htells
      rw [hcode, herrors]
      rcases List.eq_nil_or_concat' methods with rfl | ⟨others, last, rfl⟩
      · have hnone : failureAfter .noToolAvailable [] = .noToolAvailable := rfl
        rw [hnone, report_noToolAvailable]
        exact .nothing rfl
      · have hnames : (others ++ [last]).map Method.name =
            others.map Method.name ++ [last.name] := List.map_append
        have hlast : failureAfter .noToolAvailable (others ++ [last]) = last.failure := by
          rw [failureAfter, List.getLast?_append_cons]
          rfl
        rw [hlast, report_failure]
        exact .fails hnames (List.forall_mem_map.2 hfailed)

namespace World

variable {world : World} {config : Config} {line markup : Text}

/-- Preparing the raw text copies as printing it first would. -/
theorem copyMarkup_eq {file : Option Text} (hconfig : world.config = .ok config)
    (hinput : world.readInput file = .ok markup) :
    world.copyMarkup file = world.printAndCopy config (Markup.toRawText markup) markup := by
  rw [copyMarkup, hconfig]
  simp only [Except.bind, hinput, Except.map, prepare_some, Option.getD_some]
  rw [printAndCopy, World.copy]
  cases config.clipboardEnabled with
  | false =>
      simp only [Bool.false_eq_true, if_false, Option.map_none, preparation,
        Option.isSome_none, List.flatMap_nil, List.map_nil]
  | true =>
      rcases hcopy : world.platform.copy world.programs markup with ⟨answer, methods⟩
      cases answer <;>
        simp only [if_true, Option.map_some, hcopy, preparation, Option.isSome_some,
          List.flatMap_cons, List.flatMap_nil, List.append_nil]

theorem run_of_copies {command : Command} (hconfig : world.config = .ok config)
    (h : world.Copies config command line markup) :
    world.run command = world.printAndCopy config line markup := by
  cases h with
  | copy hinput => exact copyMarkup_eq hconfig hinput
  | highlight hinput hcopy =>
      rw [run, highlight, hconfig]
      simp only [Except.bind, hinput, Except.map]
      rw [if_pos hcopy]

/-- Unless it creates the configuration file, a command prints what it makes or fails, or
has all that it takes to copy. -/
theorem run_cases (world : World) {command : Command} (hcommand : command ≠ .config .create) :
    (∃ output, world.run command = world.print output) ∨
      ∃ config line markup, world.config = .ok config ∧
        world.Copies config command line markup := by
  cases command with
  | raw file => exact .inl ⟨_, rfl⟩
  | highlight options =>
      rw [run, highlight]
      cases hconfig : world.config with
      | error failure => exact .inl ⟨_, rfl⟩
      | ok config =>
          cases hinput : world.readInput options.file with
          | error failure => exact .inl ⟨_, rfl⟩
          | ok source =>
              by_cases hcopy : options.copy = true
              · exact .inr ⟨config, _, _, rfl, .highlight hinput hcopy⟩
              · simp only [Except.bind, Except.map]
                rw [if_neg hcopy]
                exact .inl ⟨_, rfl⟩
  | request file => exact .inl ⟨_, rfl⟩
  | copy file =>
      rw [run, copyMarkup]
      cases hconfig : world.config with
      | error failure => exact .inl ⟨_, rfl⟩
      | ok config =>
          cases hinput : world.readInput file with
          | error failure => exact .inl ⟨_, rfl⟩
          | ok markup => exact .inr ⟨config, _, _, rfl, .copy hinput⟩
  | settings file => exact .inl ⟨_, rfl⟩
  | stylesheet profile => exact .inl ⟨_, rfl⟩
  | config action =>
      cases action with
      | print => exact .inl ⟨_, rfl⟩
      | path => exact .inl ⟨_, rfl⟩
      | create => contradiction
  | completions shell => exact .inl ⟨.ok (world.wording.completions shell), rfl⟩

theorem tells_printAndCopy (world : World) (config : Config) (line markup : Text) :
    (Exit.ofResponse (world.printAndCopy config line markup)).Tells
      (world.copy config markup).1 := by
  rw [printAndCopy]
  rcases world.copy config markup with ⟨answer, methods⟩
  cases answer <;> exact ⟨rfl, rfl⟩

/-- What the commands print is printed whatever the clipboard does. A clipboard that is
disabled runs no program. Otherwise the installed programs are run until one succeeds, and
each of them is given the markup that was to be copied. -/
theorem invoke_copies {n : Nat} {arguments : List Text} {command : Command}
    (hplatform : world.platform = .linux) (hwhich : world.programs.WhichFinds)
    (hconfig : world.config = .ok config)
    (harguments : Arguments.read arguments = .ok ⟨n, command⟩)
    (hcommand : world.Copies config command line markup) :
    let installed := linuxPrograms.filter world.programs.has
    (world.invoke arguments).output = line ++ ['\n'] ∧
    (world.invoke arguments).disk = world.disk ∧
    (config.clipboardEnabled = false →
      (world.invoke arguments).runs = [] ∧ (world.invoke arguments).code = 1 ∧
        (world.invoke arguments).errors =
          "Error: Clipboard is disabled in the configuration\n".toList) ∧
    (config.clipboardEnabled = true →
      ((world.invoke arguments).code = 0 ↔
        ∃ name ∈ installed, world.programs.codes.lookup name = some 0) ∧
      ∃ ran,
        Reports world.programs.codes markup.byteLength installed ran
          (world.invoke arguments).code (world.invoke arguments).errors ∧
        (world.invoke arguments).runs.map (fun run => (run.1.name, run.2)) =
          ran.map fun name => (name, markup)) := by
  rw [invoke_of_read harguments, run_of_copies hconfig hcommand]
  intro installed
  have htells := tells_printAndCopy world config line markup
  refine ⟨rfl, rfl, fun hdisabled => ?_, fun henabled => ?_⟩
  · have hcopy : world.copy config markup = (.error .disabled, []) := by
      rw [World.copy, hdisabled]
      rfl
    rw [hcopy] at htells
    refine ⟨?_, htells⟩
    rw [printAndCopy, hcopy]
    rfl
  · have hcopy : world.copy config markup = Platform.linux.copy world.programs markup := by
      rw [World.copy, henabled, hplatform]
      rfl
    have htries := copy_linux world.programs markup
    rw [← hcopy] at htries
    have hreports := htries.reports htells
    rw [map_name_usable hwhich] at hreports
    have hruns : (Exit.ofResponse (world.printAndCopy config line markup)).runs =
        (world.copy config markup).2.map fun method => (method, markup) := rfl
    refine ⟨hreports.code_eq_zero_iff, _, hreports, ?_⟩
    rw [hruns, List.map_map, List.map_map]
    rfl

/-- A program that fails does not keep the next one from its turn. -/
theorem invoke_copies_xsel :
    let world := { World.ofFile [] [] "ab".toList with
      programs := { codes := [("xsel".toList, 0), ("xclip".toList, 1)] } }
    (world.invoke ["copy".toList]).output = Markup.toRawText "ab".toList ++ ['\n'] ∧
      (world.invoke ["copy".toList]).code = 0 ∧
      (world.invoke ["copy".toList]).errors =
        "Copied highlighted markup (2 bytes) to clipboard via xsel\n".toList ∧
      (world.invoke ["copy".toList]).runs =
        [(.xclip, "ab".toList), (.xsel, "ab".toList)] := by
  intro world
  have hconfig : world.config = .ok {} := rfl
  have harguments : Arguments.read ["copy".toList] = .ok ⟨0, .copy none⟩ := rfl
  have hcommand : world.Copies {} (.copy none) (Markup.toRawText "ab".toList) "ab".toList :=
    .copy (readInput_none rfl)
  have hwhich : world.programs.WhichFinds := fun _ _ => rfl
  obtain ⟨houtput, -, -, henabled⟩ := invoke_copies rfl hwhich hconfig harguments hcommand
  obtain ⟨hcode, ran, hreports, hruns⟩ := henabled rfl
  exact ⟨houtput, hcode.2 ⟨"xsel".toList, by decide, rfl⟩, by decide, rfl⟩

end World

end SourceMarkup
