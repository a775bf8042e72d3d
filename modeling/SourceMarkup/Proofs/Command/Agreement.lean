import SourceMarkup.Command.Run
import SourceMarkup.Proofs.Form.Percent
import SourceMarkup.Proofs.Form.Request
import SourceMarkup.Proofs.Settings.Json
import SourceMarkup.Proofs.Text.Bytes

/-!
# Commands agree

Three commands come to their settings by different ways. `settings` reports those of a
request, `request` highlights under them, and `highlight` takes them from its options.
What the report names can be given as options, and then the source of the request is
highlighted as `request` does it. Options leave nothing to the configuration, so the
configuration of that run makes no difference.
-/

namespace SourceMarkup

/-! ### Reports -/

/-- A report names a value as the current one of a setting, where the widget of the
setting submits it and the option of the setting takes it. -/
structure Json.Offers (report : Json) (slot : Arguments.Slot) (value : Text) : Prop where
  current : report.at? ["current".toList, slot.long] = some (.string value)
  widget : report.at? ["widgets".toList, slot.long, "selector".toList,
    "hidden_value".toList] = some (.string value)
  option : slot.admits value = true

theorem lookup_map {α β : Type} (f : Text → α → β) (fields : List (Text × α)) (key : Text) :
    (fields.map fun (k, a) => (k, f k a)).lookup key = (fields.lookup key).map (f key) := by
  induction fields with
  | nil => rfl
  | cons field fields ih =>
      obtain ⟨k, a⟩ := field
      rw [List.map_cons, List.lookup_cons, List.lookup_cons, ih]
      cases hk : key == k with
      | false => rfl
      | true => rw [eq_of_beq hk]; rfl

/-- What a setting has for its value is named and submitted by the report. -/
theorem Settings.report_offers {settings : Settings} {slot : Arguments.Slot} {value : Text}
    (hvalue : settings.current.lookup slot.long = some value)
    (hoption : slot.admits value = true) : settings.report.Offers slot value where
  current := by
    have hfield := lookup_map (fun _ => Json.string) settings.current slot.long
    rw [hvalue] at hfield
    exact congrArg (Option.bind · (Json.at? · [])) hfield
  widget := by
    have hwidget := lookup_map
      (fun param value => ({ selector := .choose (Widget.iconPath param value) value } : Widget))
      settings.current slot.long
    have hfield := lookup_map (fun _ => Widget.toJson) (Widget.ofSettings settings) slot.long
    rw [Widget.ofSettings, hwidget, hvalue] at hfield
    exact congrArg (Option.bind · (Json.at? · ["selector".toList, "hidden_value".toList])) hfield
  option := hoption

theorem Settings.report_offers_names (settings : Settings) :
    settings.report.Offers .profile (Choice.name settings.profile) ∧
      settings.report.Offers .language (Choice.name settings.language) ∧
      settings.report.Offers .markup (Choice.name settings.markup) := by
  refine ⟨report_offers rfl ?_, report_offers rfl ?_, report_offers rfl ?_⟩
  · exact Choice.isSome_ofName?_name (by cases settings.profile <;> decide)
  · exact Choice.isSome_ofName?_name (by cases settings.language <;> decide)
  · exact Choice.isSome_ofName?_name (by cases settings.markup <;> decide)

/-! ### Command lines -/

namespace Arguments

def highlightLine (profile language markup : Text) : List Text :=
  ["highlight".toList, "--profile".toList, profile, "--language".toList, language,
    "--markup".toList, markup]

/-- Options with all settings made, for the standard input. -/
def optionsOf (settings : Settings) : HighlightOptions :=
  { profile := some settings.profile
    language := some settings.language
    markup := some settings.markup }

theorem read_highlightLine (settings : Settings) :
    read (highlightLine (Choice.name settings.profile) (Choice.name settings.language)
      (Choice.name settings.markup)) = .ok ⟨0, .highlight (optionsOf settings)⟩ := by
  obtain ⟨profile, language, markup⟩ := settings
  cases profile <;> cases language <;> cases markup <;> rfl

end Arguments

/-! ### Runs -/

namespace World

variable {world : World} {config : Config} {file body : Text}

theorem invoke_of_read {line : List Text} {n : Nat} {command : Command}
    (h : Arguments.read line = .ok ⟨n, command⟩) :
    world.invoke line = .ofResponse (world.run command) := by
  rw [invoke, h]

theorem readRequest_file (hbody : world.disk.readText file = .ok body) :
    world.readRequest (some file) =
      (Form.Request.parse (Text.trimEnd isLineEnd body)).mapError .ofRequest := by
  rw [readRequest, readInput, hbody]
  rfl

theorem readInput_none {source : Text} (hinput : world.input = some (Text.toBytes source)) :
    world.readInput none = .ok source := by
  rw [readInput, hinput]
  simp only [Disk.textOf, Text.ofBytes?_toBytes, Except.mapError]

theorem run_settings {request : Except Failure Form.Request}
    (hconfig : world.config = .ok config)
    (hrequest : world.readRequest (some file) = request) :
    world.run (.settings (some file)) = world.printLine (request.map fun request =>
      (Settings.ofRequest request config.highlight).report.pretty 0) := by
  rw [run, settings, hconfig, ← hrequest]
  rfl

theorem run_request_error {failure : Failure} (hconfig : world.config = .ok config)
    (hrequest : world.readRequest (some file) = .error failure) :
    world.run (.request (some file)) = world.printLine (.error failure) := by
  rw [run, request, hconfig, hrequest]
  rfl

theorem run_request {request : Form.Request} {source : Text}
    (hconfig : world.config = .ok config)
    (hrequest : world.readRequest (some file) = .ok request)
    (hsource : request.source = some source) :
    world.run (.request (some file)) = world.printLine
      (.ok (Markup.highlight (Settings.ofRequest request config.highlight) source)) := by
  rw [run, World.request, hconfig, hrequest]
  simp only [Except.bind, hsource]

/-- With all settings made by options, the configuration has no say. -/
theorem run_highlight_optionsOf {settings : Settings} {source : Text}
    (hconfig : world.config = .ok config)
    (hinput : world.input = some (Text.toBytes source)) :
    world.run (.highlight (Arguments.optionsOf settings)) =
      world.printLine (.ok (Markup.highlight settings source)) := by
  have hread : world.readInput none = .ok source := readInput_none hinput
  have hsettings : settingsOf (Arguments.optionsOf settings) config = settings := rfl
  rw [run, highlight, hconfig]
  simp only [Except.bind, Arguments.optionsOf, hread, Except.map] at hsettings ⊢
  rw [hsettings]
  rfl

end World

open Arguments in
/-- A body that is no request fails in both commands with one message. With a source in
it, the report is one value of JSON, whose names are taken as options and highlight the
source as the request does, whatever the configuration. -/
theorem World.settings_request_highlight_agree {world : World} {config : Config}
    {file body : Text} {settingsLine requestLine : List Text} {m n : Nat}
    (hconfig : world.config = .ok config)
    (hbody : world.disk.readText file = .ok body)
    (hsettings : Arguments.read settingsLine = .ok ⟨m, .settings (some file)⟩)
    (hrequest : Arguments.read requestLine = .ok ⟨n, .request (some file)⟩) :
    (∀ error, Form.Request.parse (Text.trimEnd isLineEnd body) = .error error →
      (world.invoke settingsLine).code = 1 ∧ (world.invoke requestLine).code = 1 ∧
        (world.invoke settingsLine).errors = (world.invoke requestLine).errors) ∧
    ∀ request source, Form.Request.parse (Text.trimEnd isLineEnd body) = .ok request →
      request.source = some source →
      ∃ report : Json, ∃ profile language markup : Text,
        (∀ json : Json,
          (world.invoke settingsLine).output = json.pretty 0 ++ ['\n'] ↔ json = report) ∧
        report.Offers .profile profile ∧ report.Offers .language language ∧
        report.Offers .markup markup ∧
        (world.invoke settingsLine).code = 0 ∧ (world.invoke requestLine).code = 0 ∧
        ∀ (other : World) (otherConfig : Config), other.config = .ok otherConfig →
          other.input = some (Text.toBytes source) →
          (other.invoke (highlightLine profile language markup)).code = 0 ∧
          (other.invoke (highlightLine profile language markup)).output =
            (world.invoke requestLine).output := by
  have hread := readRequest_file hbody
  rw [invoke_of_read hsettings, invoke_of_read hrequest]
  constructor
  · intro error herror
    rw [herror] at hread
    rw [run_settings hconfig hread, run_request_error hconfig hread]
    exact ⟨rfl, rfl, rfl⟩
  · intro request source hparse hsource
    rw [hparse] at hread
    rw [run_settings hconfig hread, run_request hconfig hread hsource]
    let settings := Settings.ofRequest request config.highlight
    obtain ⟨hprofile, hlanguage, hmarkup⟩ := settings.report_offers_names
    refine ⟨settings.report, Choice.name settings.profile, Choice.name settings.language,
      Choice.name settings.markup, ?_, hprofile, hlanguage, hmarkup, rfl, rfl, ?_⟩
    · intro json
      constructor
      · intro houtput
        exact (Json.pretty_inj 0 houtput).1.symm
      · rintro rfl
        rfl
    · intro other otherConfig hother hinput
      rw [invoke_of_read (read_highlightLine settings),
        run_highlight_optionsOf hother hinput]
      exact ⟨rfl, rfl⟩

/-! ### A request on a disk -/

/-- A world with one file, and with one text to read. It words nothing. -/
def World.ofFile (name content input : Text) : World :=
  { disk := ⟨[], [([name], .file (Text.toBytes content))]⟩
    environment := { file := some "config.toml".toList }
    input := some (Text.toBytes input)
    wording := { completions := fun _ => [], usage := fun _ _ => [] } }

theorem World.readText_ofFile_body (content input : Text) :
    (World.ofFile "body".toList content input).disk.readText "body".toList =
      .ok content := by
  have hread : (World.ofFile "body".toList content input).disk.read "body".toList =
      .ok (Text.toBytes content) := rfl
  rw [Disk.readText, hread]
  simp only [Except.bind, Disk.textOf, Text.ofBytes?_toBytes]

open Form.Request in
theorem Form.Request.parse_eclipse :
    parse "profile=eclipse&source=a".toList =
      .ok ⟨[("profile".toList, "eclipse".toList)], some "a".toList⟩ := by
  have hprofile : Percent.decode "profile".toList = .ok "profile".toList :=
    Percent.decode_of_plain (by decide) (by decide)
  have heclipse : Percent.decode "eclipse".toList = .ok "eclipse".toList :=
    Percent.decode_of_plain (by decide) (by decide)
  have hkey : Percent.decode "source".toList = .ok sourceKey :=
    Percent.decode_of_plain (by decide) (by decide)
  have hrest : Percent.decode "a".toList = .ok "a".toList :=
    Percent.decode_of_plain (by decide) (by decide)
  have htext : Markup.Reference.decode "a".toList = .ok "a".toList := by
    simp [Markup.Reference.decode, Markup.Reference.decodeFrom, Except.map]
  have hwrites : Writes ["profile=eclipse".toList] [("profile".toList, "eclipse".toList)] :=
    .cons ⟨hprofile, heclipse, by decide⟩ .nil
  have hreach : Reaches "profile=eclipse&source=a".toList
      [("profile".toList, "eclipse".toList)] "source".toList "a".toList "a".toList :=
    ⟨["profile=eclipse".toList], [], rfl, by decide, hwrites, rfl⟩
  exact parse_eq_of_reads (.source hreach hkey hrest htext)

open Arguments in
theorem World.settings_request_highlight_agree_eclipse :
    let world := World.ofFile "body".toList "profile=eclipse&source=a\r\n".toList "a".toList
    ∃ report : Json, ∃ profile language markup : Text,
      (world.invoke ["settings".toList, "body".toList]).output = report.pretty 0 ++ ['\n'] ∧
      report.Offers .profile profile ∧
      (world.invoke (highlightLine profile language markup)).output =
        (world.invoke ["request".toList, "body".toList]).output := by
  intro world
  have hconfig : world.config = .ok {} := rfl
  have hbody : world.disk.readText "body".toList = .ok _ := World.readText_ofFile_body _ _
  have hsettings : Arguments.read ["settings".toList, "body".toList] =
      .ok ⟨0, .settings (some "body".toList)⟩ := rfl
  have hrequest : Arguments.read ["request".toList, "body".toList] =
      .ok ⟨0, .request (some "body".toList)⟩ := rfl
  have htrim : Text.trimEnd isLineEnd "profile=eclipse&source=a\r\n".toList =
      "profile=eclipse&source=a".toList := by decide
  obtain ⟨report, profile, language, markup, hreport, hprofile, -, -, -, -, hhighlight⟩ :=
    (World.settings_request_highlight_agree hconfig hbody hsettings hrequest).2 _ _
      ((congrArg _ htrim).trans Form.Request.parse_eclipse) rfl
  exact ⟨report, profile, language, markup, (hreport report).2 rfl, hprofile,
    (hhighlight world {} hconfig rfl).2⟩

end SourceMarkup
