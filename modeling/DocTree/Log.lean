import DocTree.Event
import DocTree.Text.LowerCase
import DocTree.Text.Quoted

/-!
# Log lines

Each step that is of interest in a log has a level, the name of the part that reports it, and a
message with the values that belong to it. The least level that is written is chosen by the
environment.
-/

namespace DocTree

/-- How much a log line matters, in increasing order. -/
inductive LogLevel where
  | trace
  | debug
  | info
  | warn
  | error
  | off
  deriving DecidableEq, Repr

namespace LogLevel

/-- The place of a level in the order. -/
def rank : LogLevel → Nat
  | trace => 0
  | debug => 1
  | info => 2
  | warn => 3
  | error => 4
  | off => 5

/-- A level at the start of a line, five characters wide. -/
def label : LogLevel → String
  | trace => "TRACE"
  | debug => "DEBUG"
  | info => " INFO"
  | warn => " WARN"
  | error => "ERROR"
  | off => "  OFF"

/-- The names of levels. -/
def names : List (String × LogLevel) :=
  [("trace", trace), ("debug", debug), ("info", info), ("warn", warn), ("error", error),
   ("off", off), ("5", trace), ("4", debug), ("3", info), ("2", warn), ("1", error), ("0", off)]

/-- The level of a name in upper or lower case; any other text turns the log off. -/
def ofName (name : String) : LogLevel :=
  (names.lookup (Text.lower name)).getD off

/-- The variables of the environment that choose the level; the first one that is set counts. -/
def variableNames : List String := ["TOKENFOLD_LOG", "RUST_LOG"]

/-- The level chosen by the environment, which is to warn if none is. -/
def ofEnvironment (environment : String → Option String) : LogLevel :=
  ((variableNames.findSome? environment).map ofName).getD warn

end LogLevel

/-- A line of a log: how much it matters, the part that reports it, and what it says. -/
structure LogLine where
  level : LogLevel
  part : String
  message : String

/-- The text of a log line. -/
def LogLine.text (line : LogLine) : String :=
  line.level.label ++ " tokenfold::fold::" ++ line.part ++ ": " ++ line.message ++ "\n"

/-- The name of a direction in a log. -/
def Direction.logName : Direction → String
  | .previous => "Previous"
  | .next => "Next"

/-- The log line of a step, if it has one. -/
def Event.line? : Event → Option LogLine
  | .classified tokens =>
    some ⟨.trace, "parser", "classified token stream tokens=" ++ toString tokens⟩
  | .blocksFound count =>
    some ⟨.debug, "source", "extracted comment blocks count=" ++ toString count⟩
  | .unregistered kind =>
    some ⟨.debug, "assembly", "skipping link with unregistered kind kind=" ++ Text.quoted kind⟩
  | .absorbed node kind count direction =>
    some ⟨.trace, "node", "absorbing siblings node=" ++ node ++ " kind=" ++ Text.quoted kind
      ++ " count=" ++ toString count ++ " direction=" ++ direction.logName⟩
  | .noSlot node kind =>
    some ⟨.debug, "node",
      "skipping child kind with no slot name node=" ++ node ++ " kind=" ++ kind⟩
  | .dropped node kind =>
    some ⟨.debug, "node",
      "dropping token with no constructor node=" ++ node ++ " kind=" ++ kind⟩
  | .opened _ | .closed _ | .attempted _ _ => none

/-- The text of the log lines of steps, from a level on. -/
def logText (least : LogLevel) (events : List Event) : String :=
  let lines := (events.filterMap Event.line?).filter fun line => least.rank ≤ line.level.rank
  String.join (lines.map LogLine.text)

end DocTree
