/-!
# Declared kinds

A kind declares the names of the links that nodes are built from, the kinds that such a node
absorbs from both sides, and the kinds whose links become its children. Children are stored in
slots named after their kind; `Kind.fault?` finds the first reason why a declaration cannot be
used, and its result is what a registry refuses a kind with.
-/

namespace DocTree

/-- The characters of a slot name: ASCII letters, ASCII digits and the underscore. -/
def isSlotChar (c : Char) : Bool :=
  c.isAlphanum || c == '_'

/-- The slot for children of a kind: the kind without the characters no slot may have. -/
def slotName (kind : String) : String :=
  String.ofList (kind.toList.filter isSlotChar)

/-- Slot names taken by the fields of every node. -/
def reservedSlots : List String := ["name", "payload"]

/-- How nodes of a kind are built: the values of the links that they are built from, whether such
links make nodes at the top level of a document, the kinds of the links that a node absorbs from
before and after its own, and the kinds of the links that become its children. -/
structure Kind where
  names : List String
  primary : Bool := true
  absorbPrevious : Option String := none
  absorbNext : Option String := none
  children : List String := []
  deriving DecidableEq, Repr

/-- The reasons to refuse a declared kind. A label is the first name of the declaration. -/
inductive KindFault where
  | noNames
  | emptyName
  | emptyAbsorbed (label : String)
  | emptySlot (label child : String)
  | reservedSlot (label child slot : String)
  deriving DecidableEq, Repr

namespace KindFault

/-- The name of the declaration at fault. -/
def label : KindFault → String
  | noNames | emptyName => ""
  | emptyAbsorbed label | emptySlot label _ | reservedSlot label _ _ => label

/-- What is wrong with the declaration. -/
def reason : KindFault → String
  | noNames => "declares no names"
  | emptyName => "empty kind name"
  | emptyAbsorbed _ => "absorbs an empty kind"
  | emptySlot _ child => "child kind '" ++ child ++ "' sanitizes to an empty slot name"
  | reservedSlot _ child slot =>
    "child kind '" ++ child ++ "' uses reserved slot '" ++ slot ++ "'"

/-- The report of a refused kind. -/
def message (fault : KindFault) : String :=
  "invalid node kind '" ++ fault.label ++ "': " ++ fault.reason

end KindFault

namespace Kind

/-- Why a child kind has no usable slot. -/
def childFault? (label child : String) : Option KindFault :=
  let slot := slotName child
  if slot = "" then some (.emptySlot label child)
  else if slot ∈ reservedSlots then some (.reservedSlot label child slot)
  else none

/-- The first reason to refuse a declaration: its names are looked at first, then the absorbed
kinds, then the child kinds in order. -/
def fault? (kind : Kind) : Option KindFault :=
  match kind.names with
  | [] => some .noNames
  | label :: _ =>
    if "" ∈ kind.names then some .emptyName
    else if kind.absorbPrevious = some "" ∨ kind.absorbNext = some "" then
      some (.emptyAbsorbed label)
    else kind.children.findSome? (childFault? label)

end Kind

/-- A slot name holds slot characters only. -/
theorem isSlotChar_of_mem_slotName {kind : String} {c : Char} (h : c ∈ (slotName kind).toList) :
    isSlotChar c := by
  simp only [slotName, String.toList_ofList, List.mem_filter] at h
  exact h.2

end DocTree
