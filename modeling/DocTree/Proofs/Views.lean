import DocTree.Proofs.KeyedLists
import DocTree.Proofs.Trees
import DocTree.View

/-!
# What a view tells of a node

A view leaves out whether nodes are primary, and tells everything else of a node whose slots are not
taken by its own fields and that has no attributes: the name, the paragraphs and each slot are found
under their keys, since no entry takes the place of another.
-/

namespace DocTree

/-! ## Whether nodes are primary does not show -/

mutual

/-- A node with every node that it holds taken for primary. -/
def Node.unflagged : Node → Node
  | ⟨name, payload, _, children, attributes⟩ =>
    ⟨name, payload, true, Node.unflaggedSlots children, Node.unflaggedAttributes attributes⟩

/-- Some nodes with every node taken for primary. -/
def Node.unflaggedAll : List Node → List Node
  | [] => []
  | node :: rest => node.unflagged :: Node.unflaggedAll rest

/-- Child slots with every node taken for primary. -/
def Node.unflaggedSlots : List (String × List Node) → List (String × List Node)
  | [] => []
  | (slot, nodes) :: rest => (slot, Node.unflaggedAll nodes) :: Node.unflaggedSlots rest

/-- Attributes with every node taken for primary. -/
def Node.unflaggedAttributes : List (String × Attribute) → List (String × Attribute)
  | [] => []
  | (key, value) :: rest => (key, value.unflagged) :: Node.unflaggedAttributes rest

/-- An attribute with every node that it holds taken for primary. -/
def Attribute.unflagged : Attribute → Attribute
  | .text value => .text value
  | .flag value => .flag value
  | .number value => .number value
  | .list items => .list (Attribute.unflaggedItems items)
  | .node node => .node node.unflagged

/-- Some attributes with every node that they hold taken for primary. -/
def Attribute.unflaggedItems : List Attribute → List Attribute
  | [] => []
  | item :: rest => item.unflagged :: Attribute.unflaggedItems rest

end

mutual

/-- Whether nodes are primary does not show in the view of a node. -/
theorem Node.view_unflagged : ∀ node : Node, node.unflagged.view = node.view
  | ⟨_, _, _, children, attributes⟩ => by
    rw [Node.unflagged, Node.view, Node.view, Node.slotViews_unflagged children,
      Node.attributeViews_unflagged attributes]

/-- It does not show in the views of a list either. -/
theorem Node.views_unflagged : ∀ nodes : List Node,
    Node.views (Node.unflaggedAll nodes) = Node.views nodes
  | [] => rfl
  | node :: rest => by
    rw [Node.unflaggedAll, Node.views, Node.views, Node.view_unflagged node,
      Node.views_unflagged rest]

/-- It does not show in child slots. -/
theorem Node.slotViews_unflagged :
    ∀ slots : List (String × List Node),
      Node.slotViews (Node.unflaggedSlots slots) = Node.slotViews slots
  | [] => rfl
  | (slot, nodes) :: rest => by
    rw [Node.unflaggedSlots, Node.slotViews, Node.slotViews, Node.views_unflagged nodes,
      Node.slotViews_unflagged rest]

/-- It does not show in the attributes of a node. -/
theorem Node.attributeViews_unflagged : ∀ attributes : List (String × Attribute),
    Node.attributeViews (Node.unflaggedAttributes attributes) = Node.attributeViews attributes
  | [] => rfl
  | (key, value) :: rest => by
    rw [Node.unflaggedAttributes, Node.attributeViews, Node.attributeViews,
      Attribute.view_unflagged value, Node.attributeViews_unflagged rest]

/-- It does not show in an attribute. -/
theorem Attribute.view_unflagged : ∀ value : Attribute, value.unflagged.view = value.view
  | .text _ => rfl
  | .flag _ => rfl
  | .number _ => rfl
  | .list items => by
    rw [Attribute.unflagged, Attribute.view, Attribute.view, Attribute.itemViews_unflagged items]
  | .node node => by
    rw [Attribute.unflagged, Attribute.view, Attribute.view, Node.view_unflagged node]

/-- It does not show in a list of attributes. -/
theorem Attribute.itemViews_unflagged :
    ∀ items : List Attribute,
      Attribute.itemViews (Attribute.unflaggedItems items) = Attribute.itemViews items
  | [] => rfl
  | item :: rest => by
    rw [Attribute.unflaggedItems, Attribute.itemViews, Attribute.itemViews,
      Attribute.view_unflagged item, Attribute.itemViews_unflagged rest]

end

/-! ## Everything else shows -/

/-- A node without attributes whose slots are in order and are not taken by its own fields. -/
structure Node.Plain (node : Node) : Prop where
  attributes_eq : node.attributes = []
  sorted : Keyed.Sorted node.children
  free : ∀ slot ∈ Keyed.keys node.children, slot ∉ reservedSlots

/-- The fields of a node's object before its slots are stored. -/
def View.ownFields (name : String) (payload : List String) : Keyed View :=
  [("name", .text name), ("payload", texts payload)]

/-- These fields are in order. -/
theorem View.sorted_ownFields (name : String) (payload : List String) :
    (ownFields name payload).Sorted := by
  refine List.pairwise_pair.mpr ?_
  change "name" < "payload"
  decide +kernel

/-- Under a key that no field has, these fields hold nothing. -/
theorem View.get?_ownFields {key : String} (h : key ∉ reservedSlots) (name : String)
    (payload : List String) : (ownFields name payload).get? key = none :=
  Keyed.get?_eq_none_of_notMem h

/-- Paragraphs are known from their view. -/
theorem View.texts_injective : Function.Injective texts := by
  intro payload payload' h
  exact List.map_injective_iff.mpr (fun _ _ => View.text.inj) (View.list.inj h)

/-- The parts of an object are known from it when its slots are not taken by the fields. -/
theorem View.ofParts_inj {name name' : String} {payload payload' : List String}
    {slots slots' : Keyed View} (hslots : slots.Sorted) (hslots' : slots'.Sorted)
    (hfree : ∀ slot ∈ slots.keys, slot ∉ reservedSlots)
    (hfree' : ∀ slot ∈ slots'.keys, slot ∉ reservedSlots)
    (h : ofParts name payload slots [] = ofParts name' payload' slots' []) :
    name = name' ∧ payload = payload' ∧ slots = slots' := by
  have hfields := View.object.inj h
  have hget (key : String) : (slots.get? key).or ((ownFields name payload).get? key) =
      (slots'.get? key).or ((ownFields name' payload').get? key) := by
    rw [← Keyed.get?_foldl_insert hslots (sorted_ownFields name payload),
      ← Keyed.get?_foldl_insert hslots' (sorted_ownFields name' payload')]
    exact congrArg (Keyed.get? · key) hfields
  have hnone {slots : Keyed View} (hfree : ∀ slot ∈ slots.keys, slot ∉ reservedSlots) {key : String}
      (hkey : key ∈ reservedSlots) : slots.get? key = none :=
    Keyed.get?_eq_none_of_notMem fun hmem => hfree key hmem hkey
  have hreserved (key : String) (hkey : key ∈ reservedSlots) :
      (ownFields name payload).get? key = (ownFields name' payload').get? key := by
    simpa only [hnone hfree hkey, hnone hfree' hkey, Option.none_or] using hget key
  refine ⟨?_, ?_, hslots.ext hslots' fun key => ?_⟩
  · exact View.text.inj (Option.some.inj (hreserved "name" (by simp [reservedSlots])))
  · exact texts_injective (Option.some.inj (hreserved "payload" (by simp [reservedSlots])))
  · by_cases hkey : key ∈ reservedSlots
    · rw [hnone hfree hkey, hnone hfree' hkey]
    · simpa only [get?_ownFields hkey, Option.or_none] using hget key

/-- The views of child slots stand under the slots. -/
theorem Node.keys_slotViews (slots : Keyed (List Node)) :
    Keyed.keys (Node.slotViews slots) = slots.keys := by
  induction slots with
  | nil => rfl
  | cons entry rest ih => exact congrArg (entry.1 :: ·) ih

/-- The slots of the view of such a node are in order, and none is taken by a field. -/
theorem Node.Plain.slotViews {node : Node} (h : node.Plain) :
    Keyed.Sorted (Node.slotViews node.children) ∧
      ∀ slot ∈ Keyed.keys (Node.slotViews node.children), slot ∉ reservedSlots := by
  rw [Keyed.Sorted, Node.keys_slotViews]
  exact ⟨h.sorted, h.free⟩

mutual

/-- Nodes with the same view differ at most in which nodes are primary. -/
theorem Node.unflagged_eq_of_view : ∀ node node' : Node, (∀ inner ∈ node.flatten, inner.Plain) →
    (∀ inner ∈ node'.flatten, inner.Plain) → node.view = node'.view →
    node.unflagged = node'.unflagged
  | ⟨name, payload, primary, children, attributes⟩,
    ⟨name', payload', primary', children', attributes'⟩, h, h', hview => by
    have hplain := h _ List.mem_cons_self
    have hplain' := h' _ List.mem_cons_self
    obtain rfl : attributes = [] := hplain.attributes_eq
    obtain rfl : attributes' = [] := hplain'.attributes_eq
    obtain ⟨rfl, rfl, hslots⟩ := View.ofParts_inj hplain.slotViews.1 hplain'.slotViews.1
      hplain.slotViews.2 hplain'.slotViews.2 hview
    have hchildren := Node.unflaggedSlots_eq_of_slotViews children children'
      (fun inner hinner => h inner (List.mem_cons_of_mem _ (List.mem_append_left _ hinner)))
      (fun inner hinner => h' inner (List.mem_cons_of_mem _ (List.mem_append_left _ hinner))) hslots
    rw [Node.unflagged, Node.unflagged, hchildren]

/-- Lists of nodes with the same views differ at most in which nodes are primary. -/
theorem Node.unflaggedAll_eq_of_views : ∀ nodes nodes' : List Node,
    (∀ inner ∈ Node.flattenAll nodes, inner.Plain) →
    (∀ inner ∈ Node.flattenAll nodes', inner.Plain) → Node.views nodes = Node.views nodes' →
    Node.unflaggedAll nodes = Node.unflaggedAll nodes'
  | [], nodes', _, _, hviews => by
    cases nodes' with
    | nil => rfl
    | cons => cases hviews
  | node :: rest, nodes', h, h', hviews => by
    cases nodes' with
    | nil => cases hviews
    | cons node' rest' =>
      obtain ⟨hview, hrest⟩ := List.cons.inj hviews
      rw [Node.unflaggedAll, Node.unflaggedAll,
        Node.unflagged_eq_of_view node node'
          (fun inner hinner => h inner (List.mem_append_left _ hinner))
          (fun inner hinner => h' inner (List.mem_append_left _ hinner)) hview,
        Node.unflaggedAll_eq_of_views rest rest'
          (fun inner hinner => h inner (List.mem_append_right _ hinner))
          (fun inner hinner => h' inner (List.mem_append_right _ hinner)) hrest]

/-- Child slots with the same views differ at most in which nodes are primary. -/
theorem Node.unflaggedSlots_eq_of_slotViews : ∀ slots slots' : List (String × List Node),
    (∀ inner ∈ Node.flattenSlots slots, inner.Plain) →
    (∀ inner ∈ Node.flattenSlots slots', inner.Plain) →
    Node.slotViews slots = Node.slotViews slots' →
    Node.unflaggedSlots slots = Node.unflaggedSlots slots'
  | [], slots', _, _, hviews => by
    cases slots' with
    | nil => rfl
    | cons => cases hviews
  | (slot, nodes) :: rest, slots', h, h', hviews => by
    cases slots' with
    | nil => cases hviews
    | cons entry' rest' =>
      obtain ⟨slot', nodes'⟩ := entry'
      obtain ⟨hfirst, hrest⟩ := List.cons.inj hviews
      obtain ⟨rfl, hnodes⟩ := Prod.mk.inj hfirst
      rw [Node.unflaggedSlots, Node.unflaggedSlots,
        Node.unflaggedAll_eq_of_views nodes nodes'
          (fun inner hinner => h inner (List.mem_append_left _ hinner))
          (fun inner hinner => h' inner (List.mem_append_left _ hinner)) (View.list.inj hnodes),
        Node.unflaggedSlots_eq_of_slotViews rest rest'
          (fun inner hinner => h inner (List.mem_append_right _ hinner))
          (fun inner hinner => h' inner (List.mem_append_right _ hinner)) hrest]

end

/-! ## Documents -/

/-- A document with every node at every depth taken for primary. -/
def Document.unflagged (document : Document) : Document :=
  { nodes := Node.unflaggedAll document.nodes }

/-- Whether nodes are primary does not show in the view of a document. -/
theorem Document.view_unflagged (document : Document) : document.unflagged.view = document.view :=
  congrArg View.list (Node.views_unflagged document.nodes)

/-- Documents with the same view differ at most in which nodes are primary. -/
theorem Document.unflagged_eq_of_view {document document' : Document}
    (h : ∀ inner ∈ Node.flattenAll document.nodes, inner.Plain)
    (h' : ∀ inner ∈ Node.flattenAll document'.nodes, inner.Plain)
    (hview : document.view = document'.view) : document.unflagged = document'.unflagged :=
  congrArg Document.mk (Node.unflaggedAll_eq_of_views document.nodes document'.nodes h h'
    (View.list.inj hview))

end DocTree
