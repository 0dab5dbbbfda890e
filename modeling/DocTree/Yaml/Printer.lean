import DocTree.View
import DocTree.Yaml.Scalar

/-!
# Views as YAML text

Lists and objects are written as blocks, two spaces to a level. An entry of a list begins on the
line of its dash; a list under a key begins on the next line, at the indentation of the key. A key
that is not simple has a line of its own, marked by a question mark, and its value follows a colon
on the next line in the way that an entry follows a dash.
-/

namespace DocTree.Yaml

mutual

/-- A view that begins on the line of the dash or colon before it; its further lines are at the
given indentation. -/
def printInline (indent : Nat) : View → List Char
  | .text value => endLine (scalar indent value)
  | .flag value => endLine (toString value).toList
  | .number value => endLine (toString value).toList
  | .list [] => ['[', ']', '\n']
  | .list (item :: rest) =>
    ['-', ' '] ++ printInline (indent + 2) item ++ printItems indent rest
  | .object [] => ['\x7b', '\x7d', '\n']
  | .object (field :: rest) => printField indent field ++ printFields indent rest

/-- Items on lines of their own. -/
def printItems (indent : Nat) : List View → List Char
  | [] => []
  | item :: rest =>
    spaces indent ++ ['-', ' '] ++ printInline (indent + 2) item ++ printItems indent rest

/-- A field that begins at the given indentation. -/
def printField (indent : Nat) : String × View → List Char
  | (key, value) =>
    if isSimpleKey key then scalar (indent + 2) key ++ ':' :: printValue indent value
    else
      ['?', ' '] ++ endLine (scalar (indent + 2) key) ++ spaces indent ++ [':', ' ']
        ++ printInline (indent + 2) value

/-- Fields on lines of their own. -/
def printFields (indent : Nat) : List (String × View) → List Char
  | [] => []
  | field :: rest => spaces indent ++ printField indent field ++ printFields indent rest

/-- The value after the colon of a simple key at the given indentation. -/
def printValue (indent : Nat) : View → List Char
  | .text value => ' ' :: endLine (scalar (indent + 2) value)
  | .flag value => ' ' :: endLine (toString value).toList
  | .number value => ' ' :: endLine (toString value).toList
  | .list [] => [' ', '[', ']', '\n']
  | .list (item :: rest) =>
    '\n' :: spaces indent ++ ['-', ' '] ++ printInline (indent + 2) item ++ printItems indent rest
  | .object [] => [' ', '\x7b', '\x7d', '\n']
  | .object (field :: rest) => '\n' :: printFields (indent + 2) (field :: rest)

end

/-- The YAML text of a view. -/
def render (view : View) : String :=
  String.ofList (printInline 0 view)

end DocTree.Yaml
