import DocTree.Comment
import DocTree.Settings.Decode

/-!
# The settings of the program

The settings say how comment blocks are delimited and which output format is taken. They are read
from layers: the defaults, then files in order, and then single settings that override the files,
whenever they were given.
-/

namespace DocTree

/-- The settings of the program: how comment blocks are found and cleaned, and the name of the
output format. -/
structure Settings where
  delimiters : Delimiters := {}
  format : String := "json"
  deriving DecidableEq, Repr

/-- A file of settings, and whether it must be there. -/
structure SettingSource where
  path : String
  required : Bool
  deriving DecidableEq, Repr

/-- The layers that settings are read from: files in order, and settings that override them, in
order. -/
structure Layers where
  sources : List SettingSource := []
  overrides : List (List KeyStep × Content) := []

namespace Layers

/-- Add a file that must be there. -/
def withFile (layers : Layers) (path : String) : Layers :=
  { layers with sources := layers.sources ++ [{ path, required := true }] }

/-- Add a file that need not be there. -/
def withOptionalFile (layers : Layers) (path : String) : Layers :=
  { layers with sources := layers.sources ++ [{ path, required := false }] }

/-- Override the setting of a path; a path that was overridden before is overridden anew. -/
def withOverride (layers : Layers) (path : String) (value : Content) :
    Except SettingFault Layers :=
  match KeyPath.read path with
  | .error fault => .error (.badPath fault)
  | .ok steps =>
    .ok { layers with
      overrides := layers.overrides.filter (fun (other, _) => other != steps) ++ [(steps, value)] }

/-- The file of settings that the program comes with. -/
def defaultText : String :=
  "# Built-in defaults for tokenfold. User files passed with --config are layered on top.\n" ++
  "\n[extractor]\n" ++
  "# Delimiters of a documentation comment block\n" ++
  "open = \"/**\"\n" ++
  "close = \"*/\"\n" ++
  "# Marker stripped from the start of every line inside a block; empty disables stripping\n" ++
  "remove = \"*\"\n" ++
  "\n[output]\n" ++
  "# Default output format for `tokenfold parse` (json or yaml)\n" ++
  "format = \"json\"\n"

/-- The layer under all others. -/
def defaults : Except SettingFault (List (String × Setting)) :=
  SettingFile.entriesOf none defaultText

/-- All layers merged into one. -/
def merge (layers : Layers) (files : Reading) : Except SettingFault Setting := do
  let base := Setting.emptyTable.putEntries (← defaults)
  let merged ← layers.sources.foldlM
    (fun root source => do
      return root.putEntries (← SettingFile.load files source.path source.required))
    base
  return layers.overrides.foldl
    (fun root (path, content) => Setting.put { origin := none, content } path root) merged

end Layers

namespace Settings

/-- Decode the delimiters of comment blocks. -/
def decodeDelimiters (setting : Setting) : Except SettingFault Delimiters := do
  let fields ← SettingRecord.ofSetting "struct ExtractorConfig" setting
  let opening ← fields.field? "open" 0 Setting.decodeText
  let closing ← fields.field? "close" 1 Setting.decodeText
  let marker ← fields.field? "remove" 2 Setting.decodeText
  let size := "struct ExtractorConfig with 3 elements"
  return { opening := ← fields.require "open" 0 size opening
           closing := ← fields.require "close" 1 size closing
           marker := ← fields.require "remove" 2 size marker }

/-- Decode the output format. -/
def decodeFormat (setting : Setting) : Except SettingFault String := do
  let fields ← SettingRecord.ofSetting "struct OutputConfig" setting
  let format ← fields.field? "format" 0 Setting.decodeText
  fields.require "format" 0 "struct OutputConfig with 1 element" format

/-- Decode all settings. -/
def decode (setting : Setting) : Except SettingFault Settings := do
  let fields := SettingRecord.named setting.entries
  let delimiters ← fields.field? "extractor" 0 decodeDelimiters
  let format ← fields.field? "output" 1 decodeFormat
  let size := "struct Settings with 2 elements"
  return { delimiters := ← fields.require "extractor" 0 size delimiters
           format := ← fields.require "output" 1 size format }

/-- The settings of layers. -/
def load (layers : Layers) (files : Reading) : Except SettingFault Settings := do
  decode (← layers.merge files)

end Settings

end DocTree
