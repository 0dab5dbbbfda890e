import DocTree.Keyed
import DocTree.Settings.KeyPath
import DocTree.Text.LowerCase
import DocTree.Toml.Value

/-!
# Layered settings

A setting is a value together with the file that it came from. Layers of settings are merged into
one tree: a table goes into the table of the same name entry by entry, and any other value takes the
place of what was there. Names are the same in upper and lower case, except inside lists, whose
items are taken as they are.
-/

namespace DocTree

mutual

/-- A value and the path of the file it came from, if that is known. -/
structure Setting where
  origin : Option String
  content : Content

/-- The value of a setting. -/
inductive Content where
  | nothing
  | flag (value : Bool)
  | integer (value : Int)
  | float (value : Float)
  | text (value : String)
  | list (items : List Setting)
  | table (entries : List (String × Setting))

end

instance : Inhabited Content := ⟨.nothing⟩

instance : Inhabited Setting := ⟨{ origin := none, content := .nothing }⟩

mutual

/-- The setting of a value in a file. -/
def Toml.Value.toSetting (origin : Option String) : Toml.Value → Setting
  | .text value => { origin, content := .text value }
  | .integer value => { origin, content := .integer value }
  | .float value => { origin, content := .float value }
  | .flag value => { origin, content := .flag value }
  | .moment value => { origin, content := .text value.text }
  | .list items => { origin, content := .list (Toml.Value.itemsToSettings origin items) }
  | .table entries =>
    { origin, content := .table (Keyed.ofList (Toml.Value.entriesToSettings origin entries)) }

/-- The settings of the items of a list. -/
def Toml.Value.itemsToSettings (origin : Option String) : List Toml.Value → List Setting
  | [] => []
  | item :: rest => item.toSetting origin :: Toml.Value.itemsToSettings origin rest

/-- The settings of the entries of a table. -/
def Toml.Value.entriesToSettings (origin : Option String) :
    List (String × Toml.Value) → List (String × Setting)
  | [] => []
  | (key, value) :: rest =>
    (key, value.toSetting origin) :: Toml.Value.entriesToSettings origin rest

end

namespace Setting

/-- A setting without a value. -/
def unset : Setting := default

/-- A table without entries. -/
def emptyTable : Setting := { origin := none, content := .table [] }

/-- A setting, or an empty table in its place if it is not a table. -/
def asTable (setting : Setting) : Setting :=
  match setting.content with
  | .table _ => setting
  | _ => emptyTable

/-- The entries of a table; other settings have none. -/
def entries (setting : Setting) : List (String × Setting) :=
  match setting.content with
  | .table entries => entries
  | _ => []

/-- Change the entry of a name in a table, which takes the place of any other setting. -/
def changeEntry (setting : Setting) (name : String) (change : Option Setting → Setting) :
    Setting :=
  let table := setting.asTable
  { table with content := .table (Keyed.insertWith change (Text.lower name) table.entries) }

/-- Change the item at a place of a list, which takes the place of any other setting and is filled
up with settings without a value. -/
def changeItem (setting : Setting) (place : Nat) (change : Setting → Setting) : Setting :=
  let (origin, items) := match setting.content with
    | .list items => (setting.origin, items)
    | _ => (none, [])
  let filled := items ++ List.replicate (place + 1 - items.length) unset
  { origin, content := .list (filled.modify place change) }

mutual

/-- Set a name in a table: a table is merged into the one that is there, entry by entry, and any
other value is stored. -/
def assign (root : Setting) (name : String) : Setting → Setting
  | ⟨_, .table incoming⟩ =>
    root.changeEntry name fun present => assignAll (present.getD emptyTable) incoming
  | value => root.changeEntry name fun _ => value

/-- Set several names in a table in order. -/
def assignAll (root : Setting) : List (String × Setting) → Setting
  | [] => root
  | (name, value) :: rest => assignAll (assign root name value) rest

end

/-- Set the end of a path. What is on the way and is not of the kind that the path needs is
replaced. -/
def put (value : Setting) : List KeyStep → Setting → Setting
  | [], _ => value
  | [.key name], setting => setting.assign name value
  | .key name :: path, setting =>
    setting.changeEntry name fun present => put value path (present.getD unset)
  | .index place :: path, setting => setting.changeItem place (put value path)

/-- Set an entry of a file, whose key in lower case is a path if it can be read as one and a plain
name otherwise. -/
def putEntry (root : Setting) (key : String) (value : Setting) : Setting :=
  match KeyPath.read (Text.lower key) with
  | .ok path => put value path root
  | .error _ => root.assign key value

/-- Set all entries of a file. -/
def putEntries (root : Setting) (entries : List (String × Setting)) : Setting :=
  entries.foldl (fun root (key, value) => root.putEntry key value) root

end Setting

end DocTree
