import DocTree.Command.Arguments
import DocTree.Document
import DocTree.Error
import DocTree.Format
import DocTree.Intake
import DocTree.Json.TokenReader
import DocTree.Log
import DocTree.Settings.Grammar
import DocTree.Settings.Settings

/-!
# Running a command

A command reads its files and comes to an outcome: an exit code, what it prints, what there is to
log, and why it failed if it did. It depends on nothing but its arguments and files.
-/

namespace DocTree

/-- Why a command fails. -/
inductive Failure where
  | usage
  /-- There is no output format of a name; the names that there are follow. -/
  | format (name : String) (available : List String)
  | error (cause : Error)
  /-- The construction did not come to an end. -/
  | unfinished
  | invalidDocument

namespace Failure

/-- The exit code of a failure. -/
def code : Failure → Nat
  | usage => 2
  | _ => 1

/-- What is printed about a failure. -/
def text : Failure → String
  | usage => ""
  | format name available =>
    "Format '" ++ name ++ "' not found\nAvailable formats: "
      ++ String.intercalate ", " available ++ "\n"
  | error cause => "Error: " ++ cause.message ++ "\n"
  | unfinished => "Error: construction did not finish\n"
  | invalidDocument => "Error: document failed validation\n"

end Failure

/-- What a command comes to: what is printed, the steps to log, and why it failed, if it did. -/
structure Outcome where
  output : String := ""
  events : List Event := []
  failure : Option Failure := none

namespace Outcome

/-- The exit code. -/
def code (outcome : Outcome) : Nat :=
  outcome.failure.elim 0 Failure.code

/-- What is printed beside the output: the log from a level on, and then the failure. -/
def report (outcome : Outcome) (least : LogLevel) : String :=
  logText least outcome.events ++ outcome.failure.elim "" Failure.text

/-- An outcome of nothing but a failure. -/
def failed (failure : Failure) : Outcome := { failure := some failure }

/-- The outcome of a run that may fail early. -/
def ofExcept : Except Failure Outcome → Outcome
  | .ok outcome => outcome
  | .error failure => failed failure

end Outcome

/-- A text together with the comment blocks in it. -/
structure CommentSource where
  content : String
  blocks : List String

/-- The text of the file at a path. -/
def readTextFile (files : Reading) (path : String) : Except Error String :=
  match files path >>= decodeText with
  | .ok text => .ok text
  | .error fault => .error (.unreadable path fault)

/-- The comment source in the file at a path. -/
def CommentSource.load (files : Reading) (path : String) (delimiters : Delimiters) :
    Except Error CommentSource := do
  let content ← readTextFile files path
  return { content, blocks := Comment.blocks delimiters content }

/-- The registry of a grammar. -/
def Grammar.registry (grammar : Grammar) : Except Error Registry :=
  (Registry.ofKinds (grammar.kinds.map KindDeclaration.kind)).mapError .kind

/-- What becomes of tokens that are taken in at once and assembled: the intake as it is left, the
document, and the steps to log. -/
structure Folded where
  intake : Intake
  document : Document
  events : List Event

/-- Take tokens in at once and assemble them. -/
def foldTokens (registry : Registry) (tokens : List Token) : Option Folded := do
  let (intake, _) := ({} : Intake).parse tokens
  let built ← intake.sequence.assemble registry
  some { intake := { intake with sequence := built.sequence }
         document := built.result
         events := .classified tokens.length :: built.events }

/-- A text with a newline at its end. -/
def withNewline (text : String) : String :=
  if text.toList.getLast? = some '\n' then text else text ++ "\n"

namespace Invocation

/-- The name and version of the program. -/
def versionText : String := "tokenfold 0.1.0\n"

/-- The file of settings that is read if it is there. -/
def projectFile : String := "tokenfold.toml"

/-- The layers of settings of a command: the project's file, the file that was named, and the format
that was asked for. -/
def layers (config format : Option String) : Layers :=
  let project := ({} : Layers).withOptionalFile projectFile
  let files := match config with
    | some path => project.withFile path
    | none => project
  match format with
  | some name =>
    { files with overrides := [([.key "output", .key "format"], .text name)] }
  | none => files

/-- The settings of a command. -/
def settings (files : Reading) (config format : Option String) : Except Failure Settings :=
  (Settings.load (layers config format) files).mapError fun fault => .error (.settings fault)

/-- The descriptions of formats, by name. -/
def describeFormats (formats : Formats) : String :=
  "Available output formats:\n\n" ++ String.join (formats.entries.map fun (name, format) =>
    "  " ++ name ++ "\n    " ++ format.description ++ "\n\n")

/-- Print the comment blocks of a file as a JSON list. -/
def runBlocks (files : Reading) (path : String) (config : Option String) :
    Except Failure Outcome := do
  let settings ← settings files config none
  let source ← (CommentSource.load files path settings.delimiters).mapError .error
  return { output := Json.render (View.texts source.blocks) ++ "\n"
           events := Comment.report source.blocks }

/-- Print the document of a token file in a format. -/
def runParse (files : Reading) (tokensPath grammarPath : String) (format config : Option String) :
    Except Failure Outcome := do
  let settings ← settings files config format
  let formats := Formats.standard
  let format ← match formats.find? settings.format with
    | some format => pure format
    | none => throw (.format settings.format formats.names)
  let grammar ← (Grammar.load files grammarPath).mapError fun fault => .error (.settings fault)
  let registry ← grammar.registry.mapError .error
  let source ← (readTextFile files tokensPath).mapError .error
  let tokens ← (Json.readTokens source).mapError fun fault => .error (.json fault)
  match foldTokens registry tokens with
  | none => throw .unfinished
  | some folded =>
    return { output := withNewline (format.render folded.document.view)
             events := folded.events
             failure := if folded.document.valid then none else some .invalidDocument }

/-- Run a command. -/
def run (files : Reading) : Invocation → Outcome
  | version => { output := versionText }
  | listFormats => { output := describeFormats Formats.standard }
  | blocks path config => .ofExcept (runBlocks files path config)
  | parse tokens grammar format config =>
    .ofExcept (runParse files tokens grammar format config)

/-- The paths that a command may read. -/
def paths : Invocation → List String
  | version | listFormats => []
  | blocks path config =>
    path :: (projectFile :: config.toList).flatMap SettingFile.candidates
  | parse tokens grammar _ config =>
    tokens :: (projectFile :: grammar :: config.toList).flatMap SettingFile.candidates

end Invocation

/-- Run a command line. -/
def runArguments (files : Reading) (arguments : List String) : Outcome :=
  match Invocation.read arguments with
  | some invocation => invocation.run files
  | none => .failed .usage

end DocTree
