import DocTree.Toml.Entries
import DocTree.Toml.Moment

/-!
# Values of a TOML document

A document is a table. While it is read, a table remembers how it came to be: by a header of its
own, only by a header of a table inside it, or by a dotted key. A table may be defined once by a
header, and dotted keys may add only to tables that dotted keys made. The entries of a table stand
in the order in which they came. A table whose first key is the one of moments is the written-out
form of a moment, and `Value.resolve?` puts the moment in its place.
-/

namespace DocTree.Toml

/-- A value of a document. -/
inductive Value where
  | text (value : String)
  | integer (value : Int)
  | float (value : Float)
  | flag (value : Bool)
  | moment (value : Moment)
  | list (items : List Value)
  | table (entries : List (String × Value))
  deriving Inhabited

/-! ## Moments that are written out -/

/-- The key of a moment that is written out as a table. -/
def momentKey : String := "$__toml_private_datetime"

/-- Whether the first key of a table is the one of moments. -/
def beginsMoment (entries : List (String × Value)) : Bool :=
  entries.head?.any fun (key, _) => key == momentKey

/-- The moment that the first entry of a table gives: it must be a text that is one. -/
def writtenMoment? : List (String × Value) → Option Moment
  | (_, .text text) :: _ => Moment.ofText? text
  | _ => none

mutual

/-- A value with every moment that is written out put in its place. -/
def Value.resolve? : Value → Option Value
  | .list items => (Value.resolveItems? items).map .list
  | .table entries =>
    if beginsMoment entries then (writtenMoment? entries).map .moment
    else (Value.resolveEntries? entries).map .table
  | other => some other

/-- Items with every moment that is written out put in its place. -/
def Value.resolveItems? : List Value → Option (List Value)
  | [] => some []
  | item :: rest => do
    let item ← item.resolve?
    some (item :: (← Value.resolveItems? rest))

/-- Entries with every moment that is written out put in its place. -/
def Value.resolveEntries? : List (String × Value) → Option (List (String × Value))
  | [] => some []
  | (key, value) :: rest => do
    let value ← value.resolve?
    some ((key, value) :: (← Value.resolveEntries? rest))

end

/-! ## Tables while a document is read -/

mutual

/-- What stands under a key while a document is read. -/
inductive Item where
  | value (value : Value)
  | table (table : Table)
  /-- The tables that were begun by headers in double brackets, the last one first. -/
  | tables (tables : List Table)

/-- A table while a document is read: what stands under each key, whether no header of its own has
defined the table, and whether a dotted key made it. -/
structure Table where
  items : List (String × Item)
  implicit : Bool
  dotted : Bool

end

instance : Inhabited Table := ⟨{ items := [], implicit := false, dotted := false }⟩

mutual

/-- The value of what stands under a key. -/
def Item.toValue : Item → Value
  | .value value => value
  | .table table => .table table.toEntries
  | .tables tables => .list (Table.allToValues tables [])

/-- The entries of a table as values. -/
def Table.toEntries : Table → List (String × Value)
  | ⟨items, _, _⟩ => Table.itemsToEntries items

/-- The entries of a list of items as values. -/
def Table.itemsToEntries : List (String × Item) → List (String × Value)
  | [] => []
  | (key, item) :: rest => (key, item.toValue) :: Table.itemsToEntries rest

/-- Tables as values, in the opposite order, in front of other values. -/
def Table.allToValues : List Table → List Value → List Value
  | [], values => values
  | table :: rest, values => Table.allToValues rest (.table table.toEntries :: values)

end

namespace Table

/-- A table without entries that a header defines. -/
def empty : Table := default

/-- Change the table at the end of a path, with a result. Missing tables are made on the way, by
dotted keys or by headers; the way leads through the last of several tables, and through no
value. -/
def descend {α : Type} (dotted : Bool) (change : Table → Option (Table × α)) :
    List String → Table → Option (Table × α)
  | [], table => change table
  | key :: path, table => do
    let item := (Entries.get? table.items key).getD
      (.table { items := [], implicit := true, dotted })
    let (changed, result) ← match item with
      | .value _ | .tables [] => none
      | .tables (last :: others) => do
        let (last, result) ← descend dotted change path last
        some (Item.tables (last :: others), result)
      | .table inner => do
        if dotted && !inner.implicit then none
        let (inner, result) ← descend dotted change path inner
        some (Item.table inner, result)
    some ({ table with items := Entries.put key changed table.items }, result)

/-- Add a value under a path of keys; the last key must be new in its table. -/
def addValue (table : Table) (path : List String) (key : String) (value : Value) :
    Option Table := do
  let add (inner : Table) : Option (Table × Unit) :=
    if inner.dotted == path.isEmpty || Entries.contains inner.items key then none
    else some ({ inner with items := Entries.put key (.value value) inner.items }, ())
  let (table, _) ← descend true add path table
  some table

/-- Take the table under a key out for a header to define it: a new one, or one that so far only
headers of tables inside it have made. -/
def beginTable (table : Table) (path : List String) (key : String) : Option (Table × Table) :=
  let take (inner : Table) : Option (Table × Table) :=
    let others := { inner with items := Entries.erase key inner.items }
    match Entries.get? inner.items key with
    | none => some (others, empty)
    | some (.table present) =>
      if present.implicit && !present.dotted then
        some (others, { present with implicit := false })
      else none
    | some _ => none
  descend false take path table

/-- Put a defined table under its key. -/
def endTable (table : Table) (path : List String) (key : String) (defined : Table) :
    Option Table := do
  let put (inner : Table) : Option (Table × Unit) :=
    let placed := { inner with items := Entries.put key (.table defined) inner.items }
    match Entries.get? inner.items key with
    | none => some (placed, ())
    | some (.table present) => if present.implicit then some (placed, ()) else none
    | some _ => none
  let (table, _) ← descend false put path table
  some table

/-- Add a table to the ones under a key. -/
def addTable (table : Table) (path : List String) (key : String) (added : Table) :
    Option Table := do
  let put (inner : Table) : Option (Table × Unit) :=
    let placed (tables : List Table) :=
      ({ inner with items := Entries.put key (.tables tables) inner.items }, ())
    match Entries.get? inner.items key with
    | none => some (placed [added])
    | some (.tables tables) => some (placed (added :: tables))
    | some _ => none
  let (table, _) ← descend false put path table
  some table

end Table

/-- A value of a table in braces, given its entries by paths of keys. -/
def Value.ofPairs (pairs : List (List String × String × Value)) : Option Value := do
  let table ← pairs.foldlM (fun table (path, key, value) => table.addValue path key value)
    Table.empty
  some (.table table.toEntries)

/-- A line of a document. -/
inductive Statement where
  /-- A value under a path of keys and a last key. -/
  | pair (path : List String) (key : String) (value : Value)
  | header (path : List String) (key : String)
  /-- A header of one more table in a list. -/
  | listHeader (path : List String) (key : String)

/-- A document while its lines are gathered: the tables that are complete, the table that lines are
added to, where that one goes, and whether it goes into a list there. Without a place it is the root
itself. -/
structure Draft where
  root : Table := .empty
  current : Table := .empty
  place : Option (List String × String) := none
  listed : Bool := false

namespace Draft

/-- The root with the present table in its place. -/
def settle (draft : Draft) : Option Table :=
  match draft.place with
  | none => some draft.current
  | some (path, key) =>
    if draft.listed then draft.root.addTable path key draft.current
    else draft.root.endTable path key draft.current

/-- Add a line. -/
def add (draft : Draft) : Statement → Option Draft
  | .pair path key value => do
    some { draft with current := ← draft.current.addValue path key value }
  | .header path key => do
    let (root, current) ← (← draft.settle).beginTable path key
    some { root, current, place := some (path, key), listed := false }
  | .listHeader path key => do
    some { root := ← draft.settle, current := .empty, place := some (path, key), listed := true }

end Draft

/-- The value of a document given by its lines, which is a table or a moment that is written out. -/
def document (statements : List Statement) : Option Value := do
  let draft ← statements.foldlM Draft.add {}
  (Value.table (← draft.settle).toEntries).resolve?

end DocTree.Toml
