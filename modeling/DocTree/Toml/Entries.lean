/-!
# Entries in the order of a document

The entries of a table of a document stand in the order in which their keys came. A value put under
a key that is there takes the place of the present one; a new key goes to the end.
-/

namespace DocTree.Toml

/-- Entries by key, in the order in which the keys came. -/
abbrev Entries (α : Type) := List (String × α)

namespace Entries

variable {α : Type}

/-- The value under a key. -/
def get? (entries : Entries α) (key : String) : Option α :=
  List.lookup key entries

/-- Whether the key has an entry. -/
def contains (entries : Entries α) (key : String) : Bool :=
  (entries.get? key).isSome

/-- Put a value under a key. -/
def put (key : String) (value : α) : Entries α → Entries α
  | [] => [(key, value)]
  | (other, present) :: rest =>
    if key = other then (key, value) :: rest else (other, present) :: put key value rest

/-- Take a key out. -/
def erase (key : String) (entries : Entries α) : Entries α :=
  entries.filter fun (other, _) => other != key

end Entries

end DocTree.Toml
