import SourceMarkup.Config.Basic
import SourceMarkup.Toml.Parser

/-!
# The configuration as TOML

A configuration is written as two tables, `highlight` and `clipboard`. Reading
one gives every missing key its default and passes over keys that it does not
know, but a value of the wrong type or an unknown choice makes the document
unfit. A choice may also be written as a table with its name as the only key and
nothing below it, and a table of the configuration as an array of its values in
order. A date in the place of a table counts as a table without a known key.
-/

namespace SourceMarkup

namespace Config

open Toml

def isEmptyValue : Value → Bool
  | .table _ [] => true
  | .array [] => true
  | .tables [] => true
  | _ => false

def choiceOf? {α : Type} [Choice α] : Value → Option α
  | .string name => Choice.ofName? name
  | .table _ [(name, content)] =>
      if isEmptyValue content then Choice.ofName? name else none
  | _ => none

def booleanOf? : Value → Option Bool
  | .boolean b => some b
  | _ => none

/-- What a value that may be missing reads as. -/
def fieldOf? {α : Type} (read : Value → Option α) (default : α) :
    Option Value → Option α
  | none => some default
  | some value => read value

/-- The values that a value gives to fields, by their keys or by their order. -/
def fields? (keys : List Text) : Value → Option (List (Option Value))
  | .table _ entries => some (keys.map fun key => entries.lookup key)
  | .array items => some ((List.range keys.length).map (items[·]?))
  | .tables items =>
      some ((List.range keys.length).map fun i =>
        items[i]?.map (Value.table .defined))
  | .datetime _ => some (keys.map fun _ => none)
  | _ => none

def settingsOf? (value : Value) : Option Settings :=
  match fields?
    [Choice.param Profile, Choice.param Language, Choice.param MarkupType] value with
  | some [profile, language, markup] => do
      let profile ← fieldOf? choiceOf? default profile
      let language ← fieldOf? choiceOf? default language
      let markup ← fieldOf? choiceOf? default markup
      return { profile, language, markup }
  | _ => none

def enabledKey : Text := "enabled".toList

def enabledOf? (value : Value) : Option Bool :=
  match fields? [enabledKey] value with
  | some [enabled] => fieldOf? booleanOf? true enabled
  | _ => none

def highlightKey : Text := "highlight".toList

def clipboardKey : Text := "clipboard".toList

def ofEntries? (entries : Entries) : Option Config := do
  let highlight ← fieldOf? settingsOf? {} (entries.lookup highlightKey)
  let clipboardEnabled ← fieldOf? enabledOf? true (entries.lookup clipboardKey)
  return { highlight, clipboardEnabled }

def ofText? (t : Text) : Option Config :=
  (Toml.parse? t).bind ofEntries?

def keyLine (key value : Text) : Text :=
  key ++ " = ".toList ++ value ++ ['\n']

def choiceLine {α : Type} [Choice α] (a : α) : Text :=
  keyLine (Choice.param α) ('"' :: Choice.name a ++ ['"'])

def headerLine (key : Text) : Text :=
  '[' :: key ++ [']', '\n']

def toText (config : Config) : Text :=
  headerLine highlightKey ++ choiceLine config.highlight.profile ++
    choiceLine config.highlight.language ++ choiceLine config.highlight.markup ++
    '\n' :: headerLine clipboardKey ++
    keyLine enabledKey
      (if config.clipboardEnabled then "true".toList else "false".toList)

end Config

end SourceMarkup
