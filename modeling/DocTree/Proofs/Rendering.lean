import DocTree.Format
import DocTree.Proofs.Acceptance
import DocTree.Proofs.Printing
import DocTree.Proofs.Toplevel
import DocTree.Proofs.Views

/-!
# JSON text determines the document

Where all kinds are declared, the nodes of a document grow from their links by children that were
built in the same way. They have no attributes, and if the kinds are accepted, no slot is taken by a
field of the node. So the view tells the whole document but for which nodes are primary, and the
JSON text tells the view.
-/

namespace DocTree

/-! ## How nodes grow -/

/-- A node of a kind grows: it is begun without children, and each child is of a kind that it
extracts, stands in the slot of its name, and has grown in turn by the kind declared for its
name. -/
inductive Node.Grown (registry : Registry) : Kind → Node → Prop where
  | begun (kind : Kind) (name : String) (payload : List String) :
    Grown registry kind { Node.leaf name payload with primary := kind.primary }
  | child {kind built : Kind} {node child : Node} {entry : Entry} (h : Grown registry kind node)
      (hmem : child.name ∈ kind.children) (hslot : slotName child.name ≠ "")
      (hentry : registry.find? child.name = some entry) (hbuild : entry.build = .declared built)
      (hchild : Grown registry built child) :
    Grown registry kind (node.addChild (slotName child.name) child)

/-- A node has grown by the kind that is declared for its name. -/
def Registry.Grows (registry : Registry) (node : Node) : Prop :=
  ∃ entry kind, registry.find? node.name = some entry ∧ entry.build = .declared kind ∧
    Node.Grown registry kind node

namespace Construction

open Sequence

variable {registry : Registry} {s : Sequence} {id : LinkId} {kinds : List String} {name : String}
  {place : Option LinkId} {e e' : Extraction} {built : Built (Option Node)}

/-- Extraction makes a node grow. -/
theorem Extracts.grown (h : Extracts registry id kinds place e e') {kind : Kind}
    (hkinds : ∀ child ∈ kinds, child ∈ kind.children) (hgrown : Node.Grown registry kind e.node) :
    Node.Grown registry kind e'.node := by
  induction h generalizing kind with
  | done => exact hgrown
  | pass _ _ ih =>
    exact ih (fun child hchild => hkinds child (List.mem_cons_of_mem _ hchild)) hgrown
  | exhaust _ _ _ ih =>
    exact ih (fun child hchild => hkinds child (List.mem_cons_of_mem _ hchild)) hgrown
  | lose _ _ _ _ ih => exact ih hkinds hgrown
  | @child _ child _ _ e _ done _ _ declaration hslot hfind hentry hbuild hchild _ ihchild ih =>
    have hname : done.node.name = child := by
      rw [hchild.shell.1]
      exact (value_claim _ _ _).trans (found_spec hslot hfind).2.2
    have hdone : Node.Grown registry declaration done.node :=
      ihchild (fun _ h => h) (.begun _ _ _)
    refine ih hkinds ?_
    subst hname
    exact .child hgrown (hkinds _ List.mem_cons_self) hslot hentry hbuild hdone

/-- What is built from a link has grown by the kind that is declared for it. -/
theorem Creates.grows (h : Creates registry (s.value id) s id built) :
    ∀ node ∈ built.result, registry.Grows node := by
  intro node hnode
  cases h with
  | absent => cases hnode
  | @declared entry kind done hentry hbuild hdone =>
    obtain rfl := Option.some.inj hnode
    have hname : done.node.name = s.value id := hdone.shell.1.trans (value_claim _ _ _)
    refine ⟨entry, kind, ?_, hbuild, hdone.grown (fun _ h => h) (.begun _ _ _)⟩
    exact (congrArg registry.find? hname).trans hentry

end Construction

/-- Assembly adds nodes that have grown. -/
theorem Assembly.Walks.grows {registry : Registry} {place : Option LinkId} {heads : List LinkId}
    {done done' : Built (List Node)} (hregistry : registry.Declared)
    (h : Walks registry place heads done done') (hs : done.sequence.WellFormed)
    (hdone : ∀ node ∈ done.result, registry.Grows node) :
    ∀ node ∈ done'.result, registry.Grows node := by
  induction h with
  | done => exact hdone
  | turn _ ih => exact ih hs hdone
  | @look id heads done done' built hbuilt _ ih =>
    refine ih (consumes_buildAt hregistry hs hbuilt).1.wellFormed fun node hnode => ?_
    rcases List.mem_append.mp hnode with hold | hnew
    · exact hdone node hold
    · rcases buildAt_cases hregistry hs hbuilt with ⟨-, -, hcreates⟩ | ⟨-, hnone, -⟩
      · exact hcreates.grows node (Option.mem_toList.mp hnew)
      · rw [hnone] at hnew
        cases hnew

/-- The document of a well-formed sequence has grown. -/
theorem Sequence.assemble_grows {registry : Registry} {s : Sequence}
    (hregistry : registry.Declared) (hs : s.WellFormed) :
    ∃ built, s.assemble registry = some built ∧
      ∀ node ∈ built.result.nodes, registry.Grows node := by
  obtain ⟨done, hdone, hwalks⟩ := s.assemble_total hregistry hs
  exact ⟨_, hdone, hwalks.grows hregistry hs (by simp)⟩

/-! ## Grown nodes are plain -/

namespace Node

/-- A child may be added to a slot that no field takes. -/
theorem Plain.addChild {node : Node} (h : node.Plain) {slot : String} (hslot : slot ∉ reservedSlots)
    (child : Node) : (node.addChild slot child).Plain where
  attributes_eq := h.attributes_eq
  sorted := Keyed.Sorted.insertWith _ _ h.sorted
  free other hother := by
    rcases (Keyed.mem_keys_insertWith _ _ _ _).mp hother with rfl | hold
    · exact hslot
    · exact h.free other hold

/-- When its kind and all registered kinds are accepted, every node of a grown tree is plain. -/
theorem Grown.plain {registry : Registry} (hregistry : registry.Accepted) {kind : Kind}
    {node : Node} (h : Grown registry kind node) (hkind : kind.fault? = none) :
    ∀ inner ∈ node.flatten, inner.Plain := by
  induction h with
  | begun kind name payload =>
    intro inner hinner
    obtain rfl := List.mem_singleton.mp hinner
    exact ⟨rfl, .nil, fun slot hslot => absurd hslot List.not_mem_nil⟩
  | @child kind built node child entry _ hmem _ hentry hbuild _ ih ihchild =>
    intro inner hinner
    rcases mem_flatten_addChild hinner with rfl | hnode | hchild
    · exact (ih hkind node (by cases node; exact List.mem_cons_self)).addChild
        (Kind.slotName_spec hkind hmem).2 child
    · exact ih hkind inner hnode
    · exact ihchild (hregistry.fault?_eq hentry hbuild) inner hchild

end Node

/-- The document of a well-formed sequence and a registry of accepted kinds is plain. -/
theorem Sequence.assemble_plain {registry : Registry} {s : Sequence}
    (hregistry : registry.Accepted) (hs : s.WellFormed) :
    ∃ built, s.assemble registry = some built ∧
      ∀ inner ∈ Node.flattenAll built.result.nodes, inner.Plain := by
  obtain ⟨built, hbuilt, hgrows⟩ := Sequence.assemble_grows hregistry.declared hs
  refine ⟨built, hbuilt, fun inner hinner => ?_⟩
  obtain ⟨node, hnode, hin⟩ := Node.mem_flattenAll.mp hinner
  obtain ⟨entry, kind, hentry, hbuild, hgrown⟩ := hgrows node hnode
  exact hgrown.plain hregistry (hregistry.fault?_eq hentry hbuild) inner hin

/-! ## The text of a document -/

/-- In JSON, a document is rendered as the text of its view. -/
theorem Formats.render?_json (document : Document) :
    standard.render? document "json" = some (Json.render document.view) := by
  rfl

/-- For documents that are assembled from well-formed sequences with accepted kinds, two JSON texts
are the same exactly if the documents differ at most in which nodes are primary. Any two documents
that differ at most in this have the same JSON text. -/
theorem Formats.json_determines_document {registry registry' : Registry} {s s' : Sequence}
    (hregistry : registry.Accepted) (hregistry' : registry'.Accepted) (hs : s.WellFormed)
    (hs' : s'.WellFormed) :
    (∃ built built' text text', s.assemble registry = some built ∧
      s'.assemble registry' = some built' ∧
      standard.render? built.result "json" = some text ∧
      standard.render? built'.result "json" = some text' ∧
      (text = text' ↔ built.result.unflagged = built'.result.unflagged)) ∧
    ∀ document document' : Document, document.unflagged = document'.unflagged →
      standard.render? document "json" = standard.render? document' "json" := by
  have hconverse (document document' : Document) (h : document.unflagged = document'.unflagged) :
      Json.render document.view = Json.render document'.view := by
    rw [← document.view_unflagged, h, document'.view_unflagged]
  constructor
  · obtain ⟨built, hbuilt, hplain⟩ := Sequence.assemble_plain hregistry hs
    obtain ⟨built', hbuilt', hplain'⟩ := Sequence.assemble_plain hregistry' hs'
    refine ⟨built, built', _, _, hbuilt, hbuilt', render?_json _, render?_json _, ?_, ?_⟩
    · intro htext
      exact Document.unflagged_eq_of_view hplain hplain' (Json.render_injective htext)
    · exact hconverse _ _
  · intro document document' h
    rw [render?_json, render?_json, hconverse document document' h]

/-- Lists hold items, which may be primary. -/
def itemKinds (primary : Bool) : List Kind :=
  [{ names := ["list"], children := ["item"] }, { names := ["item"], primary }]

/-- A list and an item. -/
def listedItem : List Token :=
  [{ value := "list", data := "a" }, { value := "item", data := "b" }]

/-- The list holds the item. -/
def itemNodes (primary : Bool) : List Node :=
  [{ Node.leaf "list" ["a"] with
      children := [("item", [{ Node.leaf "item" ["b"] with primary }])] }]

/-- The nodes that the list and the item are built to. -/
theorem nodes_listedItem {primary : Bool} {registry : Registry}
    (hregistry : Registry.ofKinds (itemKinds primary) = .ok registry) {built : Built Document}
    (hbuilt : (Sequence.ofTokens listedItem).assemble registry = some built) :
    built.result.nodes = itemNodes primary := by
  have hnodes : ((Sequence.ofTokens listedItem).assemble registry).map
      (fun built => built.result.nodes) = some (itemNodes primary) := by
    obtain rfl := Except.ok.inj hregistry
    cases primary <;> cbv
  simpa [hbuilt] using hnodes

/-- The text of the list, which does not say what is primary. -/
def itemText : String :=
  String.intercalate "\n" ["[", "  \x7b", "    \"item\": [", "      \x7b",
    "        \"name\": \"item\",", "        \"payload\": [", "          \"b\"", "        ]",
    "      \x7d", "    ],", "    \"name\": \"list\",", "    \"payload\": [", "      \"a\"", "    ]",
    "  \x7d", "]"]

/-- The list is rendered as its text. -/
theorem Formats.render?_of_itemNodes {primary : Bool} {document : Document}
    (h : document.nodes = itemNodes primary) :
    standard.render? document "json" = some itemText := by
  obtain rfl : document = { nodes := itemNodes primary } := congrArg Document.mk h
  cases primary <;> cbv

/-- Where items are primary and where they are not, a list that holds an item has the same text. -/
theorem Formats.json_determines_document_items :
    ∃ registry registry', Registry.ofKinds (itemKinds true) = .ok registry ∧
      Registry.ofKinds (itemKinds false) = .ok registry' ∧
      (∃ built built' text text',
        (Sequence.ofTokens listedItem).assemble registry = some built ∧
        (Sequence.ofTokens listedItem).assemble registry' = some built' ∧
        built.result.nodes = itemNodes true ∧ built'.result.nodes = itemNodes false ∧
        standard.render? built.result "json" = some text ∧
        standard.render? built'.result "json" = some text' ∧
        text = itemText ∧ text' = itemText ∧
        (text = text' ↔ built.result.unflagged = built'.result.unflagged)) ∧
      ∀ document document' : Document, document.unflagged = document'.unflagged →
        standard.render? document "json" = standard.render? document' "json" := by
  obtain ⟨registry, hregistry⟩ :
      ∃ registry, Registry.ofKinds (itemKinds true) = .ok registry := ⟨_, rfl⟩
  obtain ⟨registry', hregistry'⟩ :
      ∃ registry', Registry.ofKinds (itemKinds false) = .ok registry' := ⟨_, rfl⟩
  obtain ⟨⟨built, built', text, text', hbuilt, hbuilt', hrender, hrender', hiff⟩, hconverse⟩ :=
    Formats.json_determines_document
      (Registry.registered_ofKinds (itemKinds true) hregistry).accepted
      (Registry.registered_ofKinds (itemKinds false) hregistry').accepted
      (Sequence.ofTokens_spec listedItem).1 (Sequence.ofTokens_spec listedItem).1
  have hnodes := nodes_listedItem hregistry hbuilt
  have hnodes' := nodes_listedItem hregistry' hbuilt'
  exact ⟨registry, registry', hregistry, hregistry', ⟨built, built', text, text', hbuilt, hbuilt',
    hnodes, hnodes', hrender, hrender',
    Option.some.inj (hrender.symm.trans (render?_of_itemNodes hnodes)),
    Option.some.inj (hrender'.symm.trans (render?_of_itemNodes hnodes')), hiff⟩, hconverse⟩

end DocTree
