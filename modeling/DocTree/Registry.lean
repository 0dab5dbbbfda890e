import DocTree.Keyed
import DocTree.Kind
import DocTree.Node
import DocTree.Sequence
import DocTree.Text.Quoted

/-!
# Registries of constructors

A registry says, for each kind of link, how a node is built from such a link and whether the kind
is primary. Most constructors are declared kinds; a recipe is a constructor that may also change
the sequence around its link, pass the work on, or build nothing.
-/

namespace DocTree

/-- A link named by where it stands from the link at hand. -/
inductive Target where
  | self
  | previous
  | next
  | head
  | tail
  deriving DecidableEq, Repr

/-- The link that a target names at present; there may be none beside the link at hand. -/
def Target.resolve (target : Target) (s : Sequence) (id : LinkId) : Option LinkId :=
  match target with
  | .self => some id
  | .previous => s.previous id
  | .next => s.next id
  | .head => some (s.head id)
  | .tail => some (s.tail id)

/-- A change that a recipe makes to the sequence. -/
inductive RecipeStep where
  | remove (target : Target)
  | empty (target : Target)
  | claim (target : Target)
  | insertAfter (target : Target) (token : Token)
  deriving DecidableEq, Repr

/-- Carry out a step. Without a target link nothing changes, but a token to insert is then added
without neighbours. -/
def RecipeStep.apply (step : RecipeStep) (s : Sequence) (id : LinkId) : Sequence :=
  match step with
  | .remove target => (target.resolve s id).elim s fun other => (s.remove other).1
  | .empty target => (target.resolve s id).elim s fun other => (s.empty other).1
  | .claim target => (target.resolve s id).elim s s.claim
  | .insertAfter target token => s.pushAfter (target.resolve s id) token

/-- Carry out steps in order. -/
def RecipeStep.applyAll (steps : List RecipeStep) (s : Sequence) (id : LinkId) : Sequence :=
  steps.foldl (fun s step => step.apply s id) s

/-- How a recipe comes to its node. -/
inductive RecipeResult where
  | nothing
  /-- A node without name and paragraphs. -/
  | anonymous
  /-- The node that the registry builds from the same link for another name. -/
  | delegate (name : String)
  /-- The node of a kind, which need not be a usable declaration. -/
  | node (kind : Kind)
  deriving DecidableEq, Repr

/-- A constructor given by steps before and after a result; the steps after it are left out if there
is no node. The node gets attributes, and the number of its children in a slot as the attribute
`arity`. -/
structure Recipe where
  result : RecipeResult
  before : List RecipeStep := []
  after : List RecipeStep := []
  arity : Option String := none
  attributes : List (String × Attribute) := []

/-- How building first uses the link that it is to build from. -/
inductive FirstUse where
  /-- Not at all; and whether there is a node. -/
  | never (givesNode : Bool)
  /-- A token is pushed after the link. -/
  | push
  /-- The link is looked at. -/
  | look
  deriving DecidableEq, Repr

/-- How steps first use the link at hand, if there are any steps. -/
def RecipeStep.firstUse? : List RecipeStep → Option FirstUse
  | [] => none
  | .insertAfter .self _ :: _ => some .push
  | _ :: _ => some .look

/-- How a recipe first uses its link, given how building for another name does. The steps after the
node count only if there is one. -/
def Recipe.firstUse (recipe : Recipe) (delegate : String → FirstUse) : FirstUse :=
  let result : FirstUse := match recipe.result with
    | .nothing => .never false
    | .anonymous => .never true
    | .delegate name => delegate name
    | .node _ => .look
  let resultAndAfter : FirstUse := match result with
    | .never true => (RecipeStep.firstUse? recipe.after).getD result
    | other => other
  (RecipeStep.firstUse? recipe.before).getD resultAndAfter

/-- Attach the attributes of a recipe to its node; the given ones win over the arity. -/
def Recipe.finish (recipe : Recipe) (node : Node) : Node :=
  let counted := match recipe.arity with
    | some slot => node.setAttribute "arity" (.number (node.childrenOf slot).length)
    | none => node
  recipe.attributes.foldl (fun node (key, value) => node.setAttribute key value) counted

/-- A way to build a node from a link. -/
inductive Constructor where
  | declared (kind : Kind)
  | scripted (recipe : Recipe)

/-- What is registered under a name: how a node is built, and whether links of the name make nodes
at the top level of a document. -/
structure Entry where
  build : Constructor
  primary : Bool

/-- Constructors by the kind of link that they build from, in the order of the names. -/
structure Registry where
  entries : Keyed Entry := []

namespace Registry

/-- Register an entry under a name, replacing the present one. -/
def insert (registry : Registry) (name : String) (entry : Entry) : Registry :=
  { entries := Keyed.insert name entry registry.entries }

/-- Register a recipe under a name, as primary. -/
def registerRecipe (registry : Registry) (name : String) (recipe : Recipe) : Registry :=
  registry.insert name { build := .scripted recipe, primary := true }

/-- Register a kind under one name of the caller's choice, as primary. -/
def registerAs (registry : Registry) (name : String) (kind : Kind) : Except KindFault Registry :=
  match kind.fault? with
  | some fault => .error fault
  | none => .ok (registry.insert name { build := .declared kind, primary := true })

/-- Register a kind under all its names. -/
def register (registry : Registry) (kind : Kind) : Except KindFault Registry :=
  match kind.fault? with
  | some fault => .error fault
  | none =>
    let entry : Entry := { build := .declared kind, primary := kind.primary }
    .ok (kind.names.foldl (fun registry name => registry.insert name entry) registry)

/-- A registry of kinds, each registered in turn; the first unusable one is reported. -/
def ofKinds (kinds : List Kind) : Except KindFault Registry :=
  kinds.foldlM register {}

/-- What is registered under a name. -/
def find? (registry : Registry) (name : String) : Option Entry :=
  Keyed.get? registry.entries name

/-- Whether anything is registered under a name. -/
def has (registry : Registry) (name : String) : Bool :=
  (registry.find? name).isSome

/-- Whether a primary entry is registered under a name. -/
def isPrimary (registry : Registry) (name : String) : Bool :=
  match registry.find? name with
  | some entry => entry.primary
  | none => false

/-- All registered names, in order. -/
def names (registry : Registry) : List String :=
  Keyed.keys registry.entries

/-- The registry in words: its names, quoted and in order. -/
def describe (registry : Registry) : String :=
  "NodeRegistry \x7b names: [" ++ String.intercalate ", " (registry.names.map Text.quoted)
    ++ "] \x7d"

/-- How building for a name first uses the link that it is to build from. Names are passed on at
most the given number of times. -/
def firstUse (registry : Registry) : Nat → String → FirstUse
  | 0, _ => .look
  | count + 1, name =>
    match registry.find? name with
    | none => .never false
    | some { build := .declared _, .. } => .look
    | some { build := .scripted recipe, .. } =>
      recipe.firstUse fun other => registry.firstUse count other

/-- How building for a name first uses its link, when every name may be passed on once. -/
def firstUseOf (registry : Registry) (name : String) : FirstUse :=
  registry.firstUse (registry.entries.length + 1) name

end Registry

end DocTree
