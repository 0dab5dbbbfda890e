import DocTree.Proofs.Rendering

/-!
# Slots of documents

A child is built from a link whose kind its parent lists, stands in the slot that this kind gives,
and takes its name from the link. So the name of a child, its slot, the declaration of its parent
and the registry agree, however deep the child stands and however often kinds extract each other.
If the declarations are accepted, the slots have names that can be used as keys beside the fields of
a node.
-/

namespace DocTree

/-- A child stands where it belongs: it has the name of a registered kind that its parent extracts,
in the slot of that kind. -/
structure Registry.Houses (registry : Registry) (kind : Kind) (slot : String) (child : Node) :
    Prop where
  name_ne : child.name ≠ ""
  has : registry.has child.name = true
  slot_eq : slotName child.name = slot
  mem : child.name ∈ kind.children

/-- A slot can be the key of children: it has a name of letters, digits and underscores that no
field of a node takes. -/
structure UsableSlot (slot : String) : Prop where
  ne_empty : slot ≠ ""
  chars : ∀ c ∈ slot.toList, c.isAlphanum = true ∨ c = '_'
  free : slot ≠ "name" ∧ slot ≠ "payload"

/-- A node has no attributes, and its slots agree with the declaration of its name: every slot can
be a key, holds children, and each of them belongs there. -/
structure Registry.Orderly (registry : Registry) (node : Node) : Prop where
  attributes_eq : node.attributes = []
  slots : ∃ entry kind, registry.find? node.name = some entry ∧ entry.build = .declared kind ∧
    ∀ slot children, (slot, children) ∈ node.children →
      UsableSlot slot ∧ children ≠ [] ∧ ∀ child ∈ children, registry.Houses kind slot child

/-- The slots of accepted kinds can be keys. -/
theorem Kind.usableSlot {kind : Kind} (h : kind.fault? = none) {child : String}
    (hchild : child ∈ kind.children) : UsableSlot (slotName child) where
  ne_empty := (slotName_spec h hchild).1
  chars c hc := by simpa [isSlotChar] using isSlotChar_of_mem_slotName hc
  free := by simpa [reservedSlots] using (slotName_spec h hchild).2

namespace Node.Grown

variable {registry : Registry} {kind : Kind} {node : Node}

/-- A grown node has no attributes. -/
theorem attributes_eq (h : Grown registry kind node) : node.attributes = [] := by
  induction h with
  | begun => rfl
  | child _ _ _ _ _ _ ih => exact ih

/-- Every slot of a grown node holds children, and each of them belongs there. -/
theorem houses (h : Grown registry kind node) :
    ∀ slot children, (slot, children) ∈ node.children →
      children ≠ [] ∧ ∀ child ∈ children, registry.Houses kind slot child := by
  induction h with
  | begun => exact fun _ _ hmem => absurd hmem List.not_mem_nil
  | @child kind _ node child entry _ hmem hslot hentry _ _ ih =>
    have hchild : registry.Houses kind (slotName child.name) child := {
      name_ne := fun hname => hslot (by rw [hname]; rfl)
      has := by simp [Registry.has, hentry]
      slot_eq := rfl
      mem := hmem }
    intro slot children hslots
    rcases Keyed.mem_insertWith hslots with hold | ⟨hself, present, hchildren, hpresent⟩
    · exact ih slot children hold
    · -- The child comes after those that stood in the slot, if there were any.
      obtain rfl : slot = slotName child.name := hself
      obtain rfl : children = present.getD [] ++ [child] := hchildren
      refine ⟨by simp, fun other hother => ?_⟩
      rcases List.mem_append.mp hother with hold | hnew
      · cases present with
        | none => exact absurd hold List.not_mem_nil
        | some old => exact (ih _ old (hpresent old rfl)).2 other hold
      · exact List.mem_singleton.mp hnew ▸ hchild

/-- All nodes in a tree have grown by the kind that is declared for their name if its root has. -/
theorem grows (h : Grown registry kind node) {entry : Entry}
    (hentry : registry.find? node.name = some entry) (hbuild : entry.build = .declared kind) :
    ∀ inner ∈ node.flatten, registry.Grows inner := by
  induction h generalizing entry with
  | begun kind name payload =>
    intro inner hinner
    obtain rfl := List.mem_singleton.mp hinner
    exact ⟨entry, kind, hentry, hbuild, .begun kind name payload⟩
  | @child kind built node child entry' h hmem hslot hentry' hbuild' hchild ih ihchild =>
    intro inner hinner
    rcases mem_flatten_addChild hinner with rfl | hnode | hbelow
    · exact ⟨entry, kind, hentry, hbuild, .child h hmem hslot hentry' hbuild' hchild⟩
    · exact ih hentry hbuild inner hnode
    · exact ihchild hentry' hbuild' inner hbelow

end Node.Grown

/-- Where all kinds are accepted, a node that has grown is orderly. -/
theorem Registry.Grows.orderly {registry : Registry} (hregistry : registry.Accepted) {node : Node}
    (h : registry.Grows node) : registry.Orderly node := by
  obtain ⟨entry, kind, hentry, hbuild, hgrown⟩ := h
  refine ⟨hgrown.attributes_eq, entry, kind, hentry, hbuild, fun slot children hslot => ?_⟩
  obtain ⟨hne, hhouses⟩ := hgrown.houses slot children hslot
  refine ⟨?_, hne, hhouses⟩
  -- A slot is named by any of its children.
  obtain ⟨child, hchild⟩ := List.exists_mem_of_ne_nil children hne
  have hhere := hhouses child hchild
  exact hhere.slot_eq ▸ Kind.usableSlot (hregistry.fault?_eq hentry hbuild) hhere.mem

/-- Documents of accepted kinds are orderly at every depth: no node has attributes, every slot has a
name that can be a key and holds children, and every child has the name of a registered kind that is
declared as a child kind for its parent's name and gives the slot. -/
theorem Sequence.assemble_orderly {registry : Registry} {s : Sequence}
    (hregistry : registry.Accepted) (hs : s.WellFormed) :
    ∃ built, s.assemble registry = some built ∧
      ∀ node ∈ Node.flattenAll built.result.nodes, registry.Orderly node := by
  obtain ⟨built, hbuilt, hgrows⟩ := Sequence.assemble_grows hregistry.declared hs
  refine ⟨built, hbuilt, fun inner hinner => ?_⟩
  obtain ⟨node, hnode, hin⟩ := Node.mem_flattenAll.mp hinner
  obtain ⟨entry, kind, hentry, hbuild, hgrown⟩ := hgrows node hnode
  exact (hgrown.grows hentry hbuild inner hin).orderly hregistry

/-- Sections and notes that extract each other, under the names and the aliases of their kinds. -/
def noteKinds : List Kind :=
  [{ names := ["section", "@part"], children := ["@note", "@part"] },
    { names := ["@note"], children := ["section"] }]

/-- Two parts, a note, and an aside, which is registered by itself. -/
def partTokens : List Token :=
  [{ value := "@part", data := "a" }, { value := "@note", data := "b" },
    { value := "aside", data := "c" }, { value := "@part", data := "d" }]

/-- The first part holds the note and the second part, in the slots that their kinds give. -/
def partNodes : List Node :=
  [{ Node.leaf "@part" ["a"] with
      children := [("note", [Node.leaf "@note" ["b"]]), ("part", [Node.leaf "@part" ["d"]])] },
    Node.leaf "aside" ["c"]]

/-- A part takes a note and another part in, and an aside stays beside it. -/
theorem Sequence.assemble_orderly_notes :
    ∃ accepted registry, Registry.ofKinds noteKinds = .ok accepted ∧
      accepted.registerAs "aside" { names := ["other"], children := ["@note"] } = .ok registry ∧
      registry.Accepted ∧ (Sequence.ofTokens partTokens).WellFormed ∧
      ∃ built, (Sequence.ofTokens partTokens).assemble registry = some built ∧
        built.result.nodes = partNodes ∧
        ∀ node ∈ Node.flattenAll built.result.nodes, registry.Orderly node := by
  obtain ⟨accepted, haccepted⟩ : ∃ accepted, Registry.ofKinds noteKinds = .ok accepted := ⟨_, rfl⟩
  obtain ⟨registry, hregistry⟩ : ∃ registry, accepted.registerAs "aside"
      { names := ["other"], children := ["@note"] } = .ok registry := ⟨_, rfl⟩
  have hkinds := (Registry.registered_ofKinds noteKinds haccepted).accepted.registerAs hregistry
  have hwellFormed := (Sequence.ofTokens_spec partTokens).1
  obtain ⟨built, hbuilt, horderly⟩ := Sequence.assemble_orderly hkinds hwellFormed
  have hnodes : ((Sequence.ofTokens partTokens).assemble registry).map
      (fun built => built.result.nodes) = some partNodes := by
    obtain rfl := Except.ok.inj haccepted
    obtain rfl := Except.ok.inj hregistry
    cbv
  exact ⟨accepted, registry, haccepted, hregistry, hkinds, hwellFormed, built, hbuilt,
    by simpa [hbuilt] using hnodes, horderly⟩

end DocTree
