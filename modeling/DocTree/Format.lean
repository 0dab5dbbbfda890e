import DocTree.Json.Printer
import DocTree.Yaml.Printer

/-!
# Output formats

A format has a name, a description, and a text for every document. Formats are looked up by name in
a list, in which a later format takes the place of an earlier one of the same name.
-/

namespace DocTree

/-- A way to write a document: the name that selects it, what it is, and the text of a view in
it. -/
structure Format where
  name : String
  description : String
  render : View → String

namespace Format

/-- JSON over lines. -/
def json : Format :=
  { name := "json"
    description := "Pretty-printed JSON array of node views"
    render := Json.render }

/-- YAML in blocks. -/
def yaml : Format :=
  { name := "yaml"
    description := "YAML sequence of node views"
    render := Yaml.render }

end Format

/-- The formats at hand, by name. -/
structure Formats where
  entries : Keyed Format := []

namespace Formats

/-- Add a format. -/
def register (formats : Formats) (format : Format) : Formats :=
  { entries := Keyed.insert format.name format formats.entries }

/-- The formats that are always there. -/
def standard : Formats :=
  (({} : Formats).register Format.json).register Format.yaml

/-- The format of a name. -/
def find? (formats : Formats) (name : String) : Option Format :=
  Keyed.get? formats.entries name

/-- The names of the formats, in order. -/
def names (formats : Formats) : List String :=
  Keyed.keys formats.entries

/-- The text of a document in the format of a name, if there is one. -/
def render? (formats : Formats) (document : Document) (name : String) : Option String :=
  (formats.find? name).map fun format => format.render document.view

end Formats

end DocTree
