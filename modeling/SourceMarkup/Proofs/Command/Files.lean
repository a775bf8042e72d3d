import SourceMarkup.Proofs.Command.Clipboard
import SourceMarkup.Proofs.Disk.Save

/-!
# Files over a run

The program is called again and again, with any command lines and inputs. The only call
that writes a file is one that creates the configuration file, and it does so at most once
in a whole run. All files that there are stay as they are, and as the new file holds the
default configuration, the calls that have nothing to do with it end as they would have
without it.

The path of the configuration file has to be straight: the check that nothing is there is
made before the folders that lead there, so where the path goes back out of a missing
folder, an existing file is overwritten.
-/

namespace SourceMarkup

def Config.defaultContent : List UInt8 :=
  Text.toBytes (Config.toText {})

/-- The default configuration is read back from what it is written as. -/
theorem Config.ofText?_toText_default : Config.ofText? (Config.toText {}) = some {} := by
  decide

structure Call where
  arguments : List Text
  input : Option (List UInt8) := some []

def Call.Asks (call : Call) (command : Command) : Prop :=
  ∃ n, Arguments.read call.arguments = .ok ⟨n, command⟩

/-- A call does not create a configuration file, and if it is given a file to read, that
one has nothing to do with a location. -/
def Call.KeepsClear (call : Call) (disk : Disk) (location : Disk.Location) : Prop :=
  ∀ command, call.Asks command →
    command ≠ .config .create ∧
      ∀ path, command.file? = some path → disk.KeepsClear path location

/-- Two runs of the program end alike, whatever disks they leave. -/
structure Exit.Agrees (exit other : Exit) : Prop where
  code : exit.code = other.code
  output : exit.output = other.output
  errors : exit.errors = other.errors
  runs : exit.runs = other.runs

namespace World

def given (world : World) (call : Call) : World :=
  { world with input := call.input }

def exit (world : World) (call : Call) : Exit :=
  (world.given call).invoke call.arguments

def next (world : World) (call : Call) : World :=
  { world with disk := (world.exit call).disk }

def after (world : World) (calls : List Call) : World :=
  calls.foldl next world

variable {world : World} {call : Call} {command : Command} {path : Disk.Path}

/-! ### Commands and the disk -/

theorem disk_print (world : World) (output : Except Failure Text) :
    (world.print output).disk = world.disk := by
  cases output <;> rfl

/-- Only creating the configuration file changes the disk. -/
theorem disk_run (world : World) (h : command ≠ .config .create) :
    (world.run command).disk = world.disk := by
  rcases world.run_cases h with ⟨output, hrun⟩ | ⟨config, line, markup, hconfig, hcopies⟩
  · rw [hrun, disk_print]
  · rw [run_of_copies hconfig hcopies]
    rfl

/-! ### Commands on another disk -/

theorem print_withDisk (world : World) (disk : Disk) (output : Except Failure Text) :
    ({ world with disk } : World).print output = { world.print output with disk } := by
  cases output <;> rfl

theorem readRequest_congr {other : World} {file : Option Text}
    (hinput : other.readInput file = world.readInput file) :
    other.readRequest file = world.readRequest file := by
  rw [readRequest, readRequest, hinput]

/-- With the same configuration and the same input, another disk makes no difference. -/
theorem run_withDisk (world : World) (disk : Disk)
    (hconfig : ({ world with disk } : World).config = world.config)
    (hinput : ({ world with disk } : World).readInput command.file? =
      world.readInput command.file?)
    (hcommand : command ≠ .config .create) :
    ({ world with disk } : World).run command = { world.run command with disk } := by
  cases command with
  | raw file =>
      simp only [Command.file?] at hinput
      rw [run, raw, hinput]
      exact print_withDisk world disk _
  | highlight options =>
      simp only [Command.file?] at hinput
      rw [run, run, highlight, highlight, hconfig, hinput]
      split
      · exact print_withDisk world disk _
      · split
        · rfl
        · exact print_withDisk world disk _
  | request file =>
      have hrequest : World.readRequest _ file = _ := readRequest_congr hinput
      rw [run, request, hconfig, hrequest]
      exact print_withDisk world disk _
  | copy file =>
      simp only [Command.file?] at hinput
      rw [run, run, copyMarkup, copyMarkup, hconfig, hinput]
      split
      · exact print_withDisk world disk _
      · rfl
  | settings file =>
      cases file with
      | none =>
          rw [run, settings, hconfig]
          exact print_withDisk world disk _
      | some path =>
          have hrequest : World.readRequest _ (some path) = _ := readRequest_congr hinput
          rw [run, settings, hconfig, hrequest]
          exact print_withDisk world disk _
  | stylesheet profile =>
      rw [run, stylesheet.eq_def, hconfig]
      exact print_withDisk world disk _
  | config action =>
      cases action with
      | print =>
          rw [run, hconfig]
          exact print_withDisk world disk _
      | path => exact print_withDisk world disk _
      | create => contradiction
  | completions shell => rfl

/-! ### The configuration file -/

theorem hasEntry_of_read {disk : Disk} {content : List UInt8}
    (h : disk.read path = .ok content) : disk.hasEntry path = true := by
  rw [Disk.hasEntry]
  cases hstat : disk.stat path with
  | ok entry => rfl
  | error e =>
      rw [Disk.read, hstat] at h
      contradiction

theorem config_eq_load (hpath : world.environment.path? = some path) :
    world.config = (Config.load world.disk path).mapError .ofConfig := by
  rw [config, configPath, hpath]
  rfl

theorem config_of_missing (hpath : world.environment.path? = some path)
    (h : world.disk.hasEntry path = false) : world.config = .ok {} := by
  rw [config_eq_load hpath, Config.load, h]
  rfl

/-- The file that is created is read as the configuration that it was before. -/
theorem config_of_created (hpath : world.environment.path? = some path)
    (h : world.disk.read path = .ok Config.defaultContent) : world.config = .ok {} := by
  have htext : world.disk.readText path = .ok (Config.toText {}) := by
    rw [Disk.readText, h]
    simp only [Except.bind, Disk.textOf, Config.defaultContent, Text.ofBytes?_toBytes]
  rw [config_eq_load hpath, Config.load, if_pos (hasEntry_of_read h), htext]
  simp only [Config.ofText?_toText_default]
  rfl

theorem createConfig_of_hasEntry (hpath : world.environment.path? = some path)
    (h : world.disk.hasEntry path = true) :
    world.createConfig.code = 1 ∧ world.createConfig.disk = world.disk := by
  rw [createConfig, configPath, hpath]
  simp only [h, if_true]
  exact ⟨rfl, rfl⟩

/-- Creating the configuration file changes nothing, or makes folders and fails, or writes
the file. -/
theorem createConfig_cases (world : World) :
    (world.createConfig.code = 1 ∧ world.createConfig.disk = world.disk) ∨
    ∃ path, world.environment.path? = some path ∧ world.disk.hasEntry path = false ∧
      (world.createConfig.code = 1 ∧ world.disk.AddsFolders path world.createConfig.disk ∨
        world.createConfig.code = 0 ∧ ∃ made, world.disk.AddsFolders path made ∧
          made.write path Config.defaultContent = .ok world.createConfig.disk) := by
  cases hpath : world.environment.path? with
  | none =>
      rw [createConfig, configPath, hpath]
      exact .inl ⟨rfl, rfl⟩
  | some path =>
      cases hentry : world.disk.hasEntry path with
      | true => exact .inl (createConfig_of_hasEntry hpath hentry)
      | false =>
          refine .inr ⟨path, rfl, hentry, ?_⟩
          have hcases := ({} : Config).save_cases world.disk path
          rw [createConfig, configPath, hpath]
          simp only [hentry, Bool.false_eq_true, if_false]
          generalize ({} : Config).save world.disk path = saved at hcases ⊢
          obtain ⟨disk, error?⟩ := saved
          cases error? with
          | some error =>
              rcases hcases with ⟨-, -, hadds⟩ | ⟨hnone, -⟩
              · exact .inl ⟨rfl, hadds⟩
              · contradiction
          | none =>
              rcases hcases with ⟨error, hsome, -⟩ | ⟨-, made, hadds, hwrite⟩
              · contradiction
              · exact .inr ⟨rfl, made, hadds, hwrite⟩

/-! ### Calls -/

theorem asks_unique {call : Call} {command command' : Command} (h : call.Asks command)
    (h' : call.Asks command') : command = command' := by
  obtain ⟨n, hread⟩ := h
  obtain ⟨n', hread'⟩ := h'
  exact (Invocation.mk.inj (Except.ok.inj (hread.symm.trans hread'))).2

theorem exit_of_asks (world : World) (h : call.Asks command) :
    world.exit call = .ofResponse ((world.given call).run command) := by
  obtain ⟨n, hread⟩ := h
  exact invoke_of_read hread

/-- A call that does not create the configuration file leaves the disk as it is. -/
theorem disk_exit (h : ¬ call.Asks (.config .create)) : (world.exit call).disk = world.disk := by
  cases hread : Arguments.read call.arguments with
  | error e =>
      rw [exit, invoke, hread]
      rfl
  | ok invocation =>
      obtain ⟨n, command⟩ := invocation
      have hasks : call.Asks command := ⟨n, hread⟩
      rw [world.exit_of_asks hasks]
      refine disk_run _ ?_
      rintro rfl
      exact h hasks

/-- A disk is a tree, and the path of the configuration file is straight on it. -/
structure Sound (world : World) : Prop where
  tree : world.disk.IsTree
  straight : ∀ {path}, world.environment.path? = some path → world.disk.Straight path

/-- A call creates the configuration file, with the default configuration, where nothing
was. The folders that it lies in may be new. From then on the default configuration is
read there. -/
structure Creates (world : World) (call : Call) (path : Disk.Path) : Prop where
  asks : call.Asks (.config .create)
  code : (world.exit call).code = 0
  path? : world.environment.path? = some path
  missing : world.disk.hasEntry path = false
  gains : world.disk.Gains (world.exit call).disk (world.disk.place path) Config.defaultContent
  files : (world.exit call).disk.file? =
    Function.update world.disk.file? (world.disk.place path) (some Config.defaultContent)
  read : (world.exit call).disk.read path = .ok Config.defaultContent
  config : (world.next call).config = .ok {}

theorem Sound.of_keeps {disk : Disk} (h : world.Sound) (htree : disk.IsTree)
    (hkeeps : world.disk.Keeps disk) : ({ world with disk } : World).Sound where
  tree := htree
  straight hpath := hkeeps.straight (h.straight hpath)

/-- A call creates the configuration file, or leaves all files as they are and, if it was
to create one, fails. -/
theorem exit_cases (h : world.Sound) (call : Call) :
    (world.next call).Sound ∧
      ((∃ path, world.Creates call path) ∨
        (world.exit call).disk.file? = world.disk.file? ∧
          (call.Asks (.config .create) → (world.exit call).code = 1)) := by
  by_cases hasks : call.Asks (.config .create)
  · have hexit : world.exit call = .ofResponse (world.given call).createConfig :=
      world.exit_of_asks hasks
    rw [next, hexit]
    rcases createConfig_cases (world.given call) with
      ⟨hcode, hdisk⟩ | ⟨path, hpath, hmissing, ⟨hcode, hadds⟩ | ⟨hcode, made, hadds, hwrite⟩⟩
    · have hsame : (world.given call).createConfig.disk = world.disk := hdisk
      rw [Exit.ofResponse, hsame]
      exact ⟨h, .inr ⟨rfl, fun _ => hcode⟩⟩
    · exact ⟨h.of_keeps (hadds.tree h.tree) hadds.toKeeps,
        .inr ⟨hadds.file?_eq, fun _ => hcode⟩⟩
    · obtain ⟨hgains, htree, hread⟩ := hadds.gains h.tree (h.straight hpath) hmissing hwrite
      refine ⟨h.of_keeps htree hgains.toKeeps, .inl ⟨path, ?_⟩⟩
      have hdisk : (world.given call).createConfig.disk = (world.exit call).disk := by
        rw [hexit]
        rfl
      have hzero : (world.exit call).code = 0 := by rwa [hexit]
      rw [hdisk] at hgains hread
      have hconfig : (world.next call).config = .ok {} := config_of_created hpath hread
      exact ⟨hasks, hzero, hpath, hmissing, hgains, hgains.file?_eq, hread, hconfig⟩
  · rw [next, disk_exit hasks]
    exact ⟨h, .inr ⟨rfl, fun hcreate => absurd hcreate hasks⟩⟩

theorem Sound.after (h : world.Sound) (calls : List Call) : (world.after calls).Sound := by
  induction calls generalizing world with
  | nil => exact h
  | cons call calls ih => exact ih (exit_cases h call).1

theorem environment_after (world : World) (calls : List Call) :
    (world.after calls).environment = world.environment := by
  induction calls generalizing world with
  | nil => rfl
  | cons call calls ih => exact ih (world.next call)

/-- Once something is at the path of the configuration file, the disk stays as it is. -/
theorem exit_of_hasEntry (hpath : world.environment.path? = some path)
    (h : world.disk.hasEntry path = true) (call : Call) :
    (world.exit call).disk = world.disk ∧
      (call.Asks (.config .create) → (world.exit call).code = 1) := by
  by_cases hasks : call.Asks (.config .create)
  · have hcreate : (world.given call).createConfig.code = 1 ∧ _ :=
      createConfig_of_hasEntry hpath h
    rw [world.exit_of_asks hasks]
    exact ⟨hcreate.2, fun _ => hcreate.1⟩
  · exact ⟨disk_exit hasks, fun hcreate => absurd hcreate hasks⟩

theorem after_of_hasEntry (hpath : world.environment.path? = some path)
    (h : world.disk.hasEntry path = true) (calls : List Call) : world.after calls = world := by
  induction calls with
  | nil => rfl
  | cons call calls ih =>
      have hnext : world.next call = world := by
        rw [next, (exit_of_hasEntry hpath h call).1]
      rw [after, List.foldl_cons, hnext]
      exact ih

/-- A call that keeps clear of the file that was created ends as it would have before. -/
theorem Creates.exit_agrees (h : world.Creates call path) (htree : world.disk.IsTree)
    {other : Call} (hclear : other.KeepsClear world.disk (world.disk.place path)) :
    ((world.next call).exit other).Agrees (world.exit other) := by
  cases hread : Arguments.read other.arguments with
  | error e =>
      rw [exit, exit, invoke, invoke, given, given, hread]
      exact ⟨rfl, rfl, rfl, rfl⟩
  | ok invocation =>
      obtain ⟨n, command⟩ := invocation
      have hasks : other.Asks command := ⟨n, hread⟩
      obtain ⟨hcommand, hfile⟩ := hclear command hasks
      have hconfig : ((world.next call).given other).config = (world.given other).config := by
        have hbefore : (world.given other).config = .ok {} := config_of_missing h.path? h.missing
        rw [hbefore]
        exact h.config
      have hinput : ((world.next call).given other).readInput command.file? =
          (world.given other).readInput command.file? := by
        cases hgiven : command.file? with
        | none => rfl
        | some file =>
            have htext := h.gains.readText_eq htree (hfile file hgiven)
            exact congrArg (Except.mapError (Failure.ofFile file)) htext
      have hrun : ((world.next call).given other).run command = _ :=
        run_withDisk (world.given other) (world.exit call).disk hconfig hinput hcommand
      rw [exit_of_asks _ hasks, exit_of_asks _ hasks, hrun]
      exact ⟨rfl, rfl, rfl, rfl⟩

/-- Every call leaves all files as they are, whatever becomes of it. A file is new after a
call if and only if the call was to create the configuration file and did not fail, and
then it is where the configuration is looked for, nothing was there before, and it holds
the default configuration. From then on no call changes the disk, creating the file fails,
and every call that keeps clear of it ends as it would have before. -/
theorem files_kept {world : World} (htree : world.disk.IsTree)
    (hstraight : ∀ path, world.environment.path? = some path → world.disk.Straight path)
    (calls : List Call) (call : Call) :
    let before := world.after calls
    (∀ location content, before.disk.file? location = some content →
      (before.exit call).disk.file? location = some content) ∧
    ((before.exit call).disk.file? ≠ before.disk.file? ↔
      call.Asks (.config .create) ∧ (before.exit call).code = 0) ∧
    ((before.exit call).disk.file? ≠ before.disk.file? →
      ∃ path, world.environment.path? = some path ∧ before.Creates call path ∧
        ∀ (later : List Call) (other : Call),
          let now := (before.next call).after later
          (now.exit other).disk = (before.exit call).disk ∧
          (other.Asks (.config .create) → (now.exit other).code = 1) ∧
          (other.KeepsClear before.disk (before.disk.place path) →
            (now.exit other).Agrees (before.exit other))) := by
  intro before
  have hsound : before.Sound := Sound.after ⟨htree, fun hpath => hstraight _ hpath⟩ calls
  rcases (exit_cases hsound call).2 with ⟨path, hcreates⟩ | ⟨hfiles, hcode⟩
  · have hnew : (before.exit call).disk.file? ≠ before.disk.file? := by
      intro hfiles
      have hfile := Disk.file?_eq_some_iff.2 hcreates.gains.file
      rw [hfiles, Disk.file?_eq_some_iff, hcreates.gains.free] at hfile
      contradiction
    refine ⟨fun location content => hcreates.gains.file?_eq_some, ?_, fun _ => ?_⟩
    · exact ⟨fun _ => ⟨hcreates.asks, hcreates.code⟩, fun _ => hnew⟩
    · have hpath : world.environment.path? = some path := by
        rw [← environment_after world calls]
        exact hcreates.path?
      refine ⟨path, hpath, hcreates, fun later other => ?_⟩
      have hentry : (before.next call).disk.hasEntry path = true := hasEntry_of_read hcreates.read
      have hplace : (before.next call).environment.path? = some path := hcreates.path?
      intro now
      have hnow : now = before.next call := after_of_hasEntry hplace hentry later
      rw [hnow]
      obtain ⟨hdisk, hfails⟩ := exit_of_hasEntry hplace hentry other
      exact ⟨hdisk, hfails, hcreates.exit_agrees hsound.tree⟩
  · refine ⟨fun location content hfile => ?_, ?_, fun hnew => absurd hfiles hnew⟩
    · rwa [hfiles]
    · refine ⟨fun hnew => absurd hfiles hnew, fun ⟨hasks, hzero⟩ => ?_⟩
      rw [hcode hasks] at hzero
      contradiction

def ofFileAndPath (name content path : Text) : World :=
  { World.ofFile name content [] with environment := { file := some path } }

/-- The configuration file is created in a folder that is created with it. -/
theorem files_kept_nested :
    let world := World.ofFileAndPath "x".toList "a".toList "b/config.toml".toList
    let create : Call := { arguments := ["config".toList, "init".toList] }
    let raw : Call := { arguments := ["raw".toList, "x".toList] }
    (world.exit create).code = 0 ∧
      (world.exit create).disk.file? ["x".toList] = some (Text.toBytes "a".toList) ∧
      ((world.next create).exit create).code = 1 ∧
      ((world.next create).exit raw).Agrees (world.exit raw) := by
  intro world create raw
  have htree : world.disk.IsTree := Disk.isTree_of_entries (by decide)
  have hstraight : ∀ path, world.environment.path? = some path → world.disk.Straight path := by
    intro path hpath
    obtain rfl : "b/config.toml".toList = path := Option.some.inj hpath
    exact Disk.straight_of_not_mem (by decide)
  have hcreate : create.Asks (.config .create) := ⟨0, rfl⟩
  have hcode : (world.exit create).code = 0 := rfl
  obtain ⟨hkept, hnew, hcreated⟩ := files_kept htree hstraight [] create
  obtain ⟨path, hpath, -, hlater⟩ := hcreated (hnew.2 ⟨hcreate, hcode⟩)
  obtain rfl : "b/config.toml".toList = path := Option.some.inj hpath
  have hclear : raw.KeepsClear world.disk (world.disk.place "b/config.toml".toList) := by
    intro command hcommand
    obtain rfl : Command.raw (some "x".toList) = command := asks_unique ⟨0, rfl⟩ hcommand
    refine ⟨by decide, fun path hfile => ?_⟩
    obtain rfl : "x".toList = path := Option.some.inj hfile
    have hstraight : world.disk.Straight "x".toList := Disk.straight_of_not_mem (by decide)
    exact ⟨by decide, by decide, fun hback _ => hstraight _ hback⟩
  exact ⟨hcode, hkept _ _ rfl, (hlater [] create).2.1 hcreate, (hlater [] raw).2.2 hclear⟩

/-- Without the folder that the path of the configuration file goes back out of, the file
that it names counts as missing, and then it is overwritten. -/
theorem not_files_kept_back_out :
    let world := World.ofFileAndPath "config.toml".toList "a".toList "b/../config.toml".toList
    let create : Call := { arguments := ["config".toList, "init".toList] }
    world.disk.IsTree ∧ (world.exit create).code = 0 ∧
      world.disk.file? ["config.toml".toList] = some (Text.toBytes "a".toList) ∧
      (world.exit create).disk.file? ["config.toml".toList] ≠ some (Text.toBytes "a".toList) := by
  refine ⟨Disk.isTree_of_entries (by decide), rfl, rfl, by decide⟩

end World

end SourceMarkup
