import DocTree.Proofs.Containment
import DocTree.Proofs.Views

/-!
# Where the fields of a view come from

Three sources compete for the keys of a node's object: the slots, the name and the paragraphs, and
the attributes. `Node.ShownAs` says, without building anything, which of them each key shows, at
every depth of a tree; the view of a node is the only one that shows it. The keys come in the order
of their bytes, which is the order of their characters.
-/

namespace DocTree

/-! ## The order of bytes -/

namespace Text

/-- The bytes of a text in UTF-8. -/
def bytes (text : String) : List UInt8 :=
  text.toUTF8.data.toList

/-- The bytes of a text are those of its characters, one after the other. -/
theorem bytes_eq_flatMap (text : String) :
    bytes text = text.toList.flatMap String.utf8EncodeChar := by
  rw [bytes, String.toUTF8, ← text.ofList_toList, String.toByteArray_ofList, List.utf8Encode,
    List.toList_data_toByteArray, String.toList_ofList]

/-- The bytes of a smaller character come first, whatever follows either. -/
theorem utf8EncodeChar_append_lt {c d : Char} (h : c < d) (rest rest' : List UInt8) :
    String.utf8EncodeChar c ++ rest < String.utf8EncodeChar d ++ rest' := by
  have hlt : c.val.toNat < d.val.toNat := h
  have hmax : d.val.toNat < 0x110000 := by
    rcases d.valid with hd | hd <;> omega
  unfold String.utf8EncodeChar
  dsimp only
  -- Of characters of different lengths the first bytes decide, otherwise the first that differ.
  split_ifs <;>
    simp (disch := omega) only [List.cons_append, List.nil_append, List.cons_lt_cons_iff,
      UInt8.lt_iff_toNat_lt, ← UInt8.toNat_inj, UInt8.toNat_ofNat', Nat.mod_eq_of_lt,
      Nat.add_right_cancel_iff, Nat.add_lt_add_iff_right] <;>
    omega

/-- Texts in the order of their characters are in the order of their bytes. -/
theorem flatMap_utf8EncodeChar_lt : ∀ {text text' : List Char}, text < text' →
    text.flatMap String.utf8EncodeChar < text'.flatMap String.utf8EncodeChar
  | [], d :: rest', _ => by
    have hne : String.utf8EncodeChar d ≠ [] := String.utf8EncodeChar_ne_nil
    obtain ⟨byte, more, heq⟩ := List.exists_cons_of_ne_nil hne
    rw [List.flatMap_cons, heq]
    exact List.nil_lt_cons _ _
  | c :: rest, d :: rest', h => by
    rw [List.flatMap_cons, List.flatMap_cons]
    rcases List.cons_lt_cons_iff.mp h with hlt | ⟨rfl, hrest⟩
    · exact utf8EncodeChar_append_lt hlt _ _
    · exact List.append_left_lt (flatMap_utf8EncodeChar_lt hrest)

/-- The order of texts is that of their bytes. -/
theorem bytes_lt_iff {text text' : String} : bytes text < bytes text' ↔ text < text' := by
  have hmono {text text' : String} (h : text < text') : bytes text < bytes text' := by
    rw [bytes_eq_flatMap, bytes_eq_flatMap]
    exact flatMap_utf8EncodeChar_lt (String.lt_iff_toList_lt.mp h)
  refine ⟨fun h => ?_, hmono⟩
  rcases lt_trichotomy text text' with hlt | rfl | hgt
  · exact hlt
  · exact absurd h (List.lt_irrefl _)
  · exact absurd h (List.lt_asymm (hmono hgt))

end Text

/-! ## What a view shows -/

mutual

/-- An object shows a node: its keys are the two fields of every node, the slots and the keys of the
attributes, in the order of their bytes; a slot shows its children, even in the place of a field, a
field that is no slot shows the name or the paragraphs, and an attribute shows only under a key that
is neither. -/
inductive Node.ShownAs : Node → View → Prop where
  | object {node : Node} {fields : Keyed View} {housed : String → List View}
      {attached : String → View}
      (increasing : fields.keys.Pairwise fun key key' => Text.bytes key < Text.bytes key')
      (keys : ∀ key, key ∈ fields.keys ↔
        key ∈ reservedSlots ∨ key ∈ Keyed.keys node.children ∨ key ∈ Keyed.keys node.attributes)
      (slot : ∀ slot children, Keyed.get? node.children slot = some children →
        fields.get? slot = some (.list (housed slot)))
      (children : ∀ slot children, Keyed.get? node.children slot = some children →
        List.Forall₂ Node.ShownAs children (housed slot))
      (name : "name" ∉ Keyed.keys node.children → fields.get? "name" = some (.text node.name))
      (payload : "payload" ∉ Keyed.keys node.children →
        fields.get? "payload" = some (.list (node.payload.map .text)))
      (free : ∀ key value, Keyed.get? node.attributes key = some value → key ∉ reservedSlots →
        key ∉ Keyed.keys node.children → fields.get? key = some (attached key))
      (attributes : ∀ key value, Keyed.get? node.attributes key = some value →
        Attribute.ShownAs value (attached key)) :
      Node.ShownAs node (.object fields)

/-- A value shows an attribute: it is the same text, truth value or number, the list of what shows
the items, or what shows the node. -/
inductive Attribute.ShownAs : Attribute → View → Prop where
  | text (value : String) : Attribute.ShownAs (.text value) (.text value)
  | flag (value : Bool) : Attribute.ShownAs (.flag value) (.flag value)
  | number (value : Int) : Attribute.ShownAs (.number value) (.number value)
  | list {items : List Attribute} {views : List View}
      (h : List.Forall₂ Attribute.ShownAs items views) :
      Attribute.ShownAs (.list items) (.list views)
  | node {inner : Node} {view : View} (h : Node.ShownAs inner view) :
      Attribute.ShownAs (.node inner) view

end

/-- The fields of the object of a node. -/
def Node.fields (node : Node) : Keyed View :=
  (Node.attributeViews node.attributes).foldl
    (fun fields entry => if Keyed.contains fields entry.1 then fields
      else Keyed.insert entry.1 entry.2 fields)
    ((Node.slotViews node.children).foldl
      (fun fields entry => Keyed.insert entry.1 entry.2 fields)
      (View.ownFields node.name node.payload))

/-- The views of a list of attributes are taken one by one. -/
theorem Attribute.itemViews_eq_map (items : List Attribute) :
    Attribute.itemViews items = items.map Attribute.view := by
  induction items with
  | nil => rfl
  | cons item rest ih => rw [Attribute.itemViews, ih, List.map_cons]

namespace Node

variable {node : Node} {key : String}

/-- The view of a node is the object of its fields. -/
theorem view_eq (node : Node) : node.view = .object node.fields := by
  obtain ⟨name, payload, primary, children, attributes⟩ := node
  rfl

/-- The views of the slots are taken one by one, each as the list of its children's views. -/
theorem slotViews_eq_map (slots : Keyed (List Node)) :
    slotViews slots = slots.map (Prod.map id fun children => .list (children.map view)) := by
  induction slots with
  | nil => rfl
  | cons entry rest ih => rw [slotViews, views_eq_map, ih, List.map_cons, Prod.map, id]

/-- The views of the attributes are taken one by one. -/
theorem attributeViews_eq_map (attributes : Keyed Attribute) :
    attributeViews attributes = attributes.map (Prod.map id Attribute.view) := by
  induction attributes with
  | nil => rfl
  | cons entry rest ih => rw [attributeViews, ih, List.map_cons, Prod.map, id]

/-- The fields of an object are in order. -/
theorem sorted_fields (node : Node) : Keyed.Sorted node.fields :=
  (((View.sorted_ownFields node.name node.payload).foldl_insert _).foldl_fill _).1

/-- Under a key an object has the slot, or else the field, or else the attribute. -/
theorem get?_fields (h : Keyed.Sorted node.children) (key : String) :
    Keyed.get? node.fields key =
      (((Keyed.get? node.children key).map fun children => .list (children.map view)).or
        ((View.ownFields node.name node.payload).get? key)).or
        ((Keyed.get? node.attributes key).map Attribute.view) := by
  have hown := View.sorted_ownFields node.name node.payload
  have hslots : Keyed.Sorted (slotViews node.children) := by
    rw [Keyed.Sorted, keys_slotViews]
    exact h
  rw [fields, ((hown.foldl_insert _).foldl_fill _).2, Keyed.get?_foldl_insert hslots hown,
    slotViews_eq_map, attributeViews_eq_map, Keyed.get?_map, Keyed.get?_map]

/-- The keys of an object are the two fields, the slots and the keys of the attributes. -/
theorem mem_keys_fields (h : Keyed.Sorted node.children) (key : String) :
    key ∈ node.fields.keys ↔
      key ∈ reservedSlots ∨ key ∈ Keyed.keys node.children ∨ key ∈ Keyed.keys node.attributes := by
  have hown : key ∈ reservedSlots ↔
      ((View.ownFields node.name node.payload).get? key).isSome :=
    @Keyed.mem_keys_iff _ (View.ownFields node.name node.payload) key
  rw [Keyed.mem_keys_iff, get?_fields h, hown, Keyed.mem_keys_iff, Keyed.mem_keys_iff]
  simp only [Option.isSome_or, Option.isSome_map, Bool.or_eq_true]
  tauto

end Node

/-! ## The view is what shows a node -/

/-- Where each item has exactly one value that it is related to, a list has exactly one too. -/
theorem forall₂_iff_eq_map {α β : Type} {R : α → β → Prop} {f : α → β} {items : List α}
    (h : ∀ item ∈ items, ∀ value, R item value ↔ value = f item) (values : List β) :
    List.Forall₂ R items values ↔ values = items.map f := by
  induction items generalizing values with
  | nil => rw [List.forall₂_nil_left_iff, List.map_nil]
  | cons item rest ih =>
    rw [List.forall₂_cons_left_iff, List.map_cons]
    constructor
    · rintro ⟨value, values, hfirst, hrest, rfl⟩
      rw [(h item (by simp) value).mp hfirst,
        (ih (fun other hother => h other (by simp [hother])) values).mp hrest]
    · rintro rfl
      exact ⟨f item, rest.map f, (h item (by simp) _).mpr rfl,
        (ih (fun other hother => h other (by simp [hother])) _).mpr rfl, rfl⟩

mutual

/-- If the nodes that an attribute leads to are shown by their views alone, so is the attribute. -/
theorem Attribute.shownAs_iff_of_leadsTo : ∀ value : Attribute,
    (∀ held, value.LeadsTo held → ∀ view, held.ShownAs view ↔ view = held.view) →
    ∀ view, value.ShownAs view ↔ view = value.view
  | .text value, _, view => by
    rw [Attribute.view]
    exact ⟨by rintro ⟨⟩; rfl, by rintro rfl; exact .text value⟩
  | .flag value, _, view => by
    rw [Attribute.view]
    exact ⟨by rintro ⟨⟩; rfl, by rintro rfl; exact .flag value⟩
  | .number value, _, view => by
    rw [Attribute.view]
    exact ⟨by rintro ⟨⟩; rfl, by rintro rfl; exact .number value⟩
  | .list items, h, view => by
    have hitems := forall₂_iff_eq_map (Attribute.itemsShownAs_iff_of_leadsTo items
      fun item hitem held hleads => h held (.list hitem hleads))
    rw [Attribute.view, Attribute.itemViews_eq_map]
    constructor
    · rintro ⟨⟩
      next views hviews => rw [(hitems views).mp hviews]
    · rintro rfl
      exact .list ((hitems _).mpr rfl)
  | .node held, h, view => by
    rw [Attribute.view, ← h held (.node held) view]
    exact ⟨fun hview => by cases hview; assumption, .node⟩

/-- If the nodes that some attributes lead to are shown by their views alone, so are these. -/
theorem Attribute.itemsShownAs_iff_of_leadsTo : ∀ items : List Attribute,
    (∀ item ∈ items, ∀ held, item.LeadsTo held → ∀ view, held.ShownAs view ↔ view = held.view) →
    ∀ item ∈ items, ∀ view, item.ShownAs view ↔ view = item.view
  | [], _, item, hitem => absurd hitem List.not_mem_nil
  | first :: rest, h, item, hitem => by
    rcases List.mem_cons.mp hitem with heq | hitem
    · exact heq ▸ Attribute.shownAs_iff_of_leadsTo first (h first (by simp))
    · exact Attribute.itemsShownAs_iff_of_leadsTo rest
        (fun other hother => h other (by simp [hother])) item hitem

end

section

variable {node : Node} (h : Keyed.Sorted node.children)
  (hheld : ∀ held, node.Holds held → ∀ view, held.ShownAs view ↔ view = held.view)

include hheld in
/-- The children in a slot are shown by their views alone. -/
theorem Node.childrenShownAs_iff {slot : String} {children : List Node}
    (hslot : Keyed.get? node.children slot = some children) (views : List View) :
    List.Forall₂ Node.ShownAs children views ↔ views = children.map Node.view :=
  forall₂_iff_eq_map
    (fun child hchild => hheld child (.child (Keyed.mem_of_get? hslot) hchild)) views

include hheld in
/-- The attributes of the node are shown by their views alone. -/
theorem Node.attachedShownAs_iff {key : String} {value : Attribute}
    (hkey : Keyed.get? node.attributes key = some value) (view : View) :
    value.ShownAs view ↔ view = value.view :=
  Attribute.shownAs_iff_of_leadsTo value
    (fun held hleads => hheld held (.attached (Keyed.mem_of_get? hkey) hleads)) view

include h hheld in
/-- Nothing but its view shows the node: under every key it has what the view has there. -/
theorem Node.eq_view_of_shownAs {view : View} (hview : node.ShownAs view) : view = node.view := by
  rw [Node.view_eq]
  cases hview with
  | @object _ fields housed attached increasing keys slot children name payload free attributes =>
  have hsorted : Keyed.Sorted fields := increasing.imp Text.bytes_lt_iff.mp
  refine congrArg View.object (hsorted.ext (Node.sorted_fields node) fun key => ?_)
  rw [Node.get?_fields h]
  cases hslot : Keyed.get? node.children key with
  | some nodes =>
    rw [slot key nodes hslot,
      (Node.childrenShownAs_iff hheld hslot _).mp (children key nodes hslot)]
    rfl
  | none =>
    have hfree : key ∉ Keyed.keys node.children := by simp [Keyed.mem_keys_iff, hslot]
    by_cases hreserved : key ∈ reservedSlots
    · -- The fields of every node are found before the attributes.
      rcases List.mem_pair.mp hreserved with rfl | rfl
      · rw [name hfree]
        rfl
      · rw [payload hfree]
        rfl
    · rw [View.get?_ownFields hreserved]
      cases hkey : Keyed.get? node.attributes key with
      | some value =>
        rw [free key value hkey hreserved hfree,
          (Node.attachedShownAs_iff hheld hkey _).mp (attributes key value hkey)]
        rfl
      | none =>
        refine Keyed.get?_eq_none_of_notMem fun hmem => ?_
        have hnot : key ∉ Keyed.keys node.attributes := by simp [Keyed.mem_keys_iff, hkey]
        exact ((keys key).mp hmem).elim hreserved (Or.elim · hfree hnot)

include h hheld in
/-- The view of the node shows it. -/
theorem Node.shownAs_view : node.ShownAs node.view := by
  have hget := Node.get?_fields h
  have hnone {key : String} (hfree : key ∉ Keyed.keys node.children) :
      Keyed.get? node.children key = none := Keyed.get?_eq_none_of_notMem hfree
  rw [Node.view_eq]
  refine @Node.ShownAs.object node node.fields
    (fun slot => ((Keyed.get? node.children slot).getD []).map Node.view)
    (fun key => ((Keyed.get? node.attributes key).map Attribute.view).getD default)
    ((Node.sorted_fields node).imp Text.bytes_lt_iff.mpr) (Node.mem_keys_fields h)
    ?slot ?children ?name ?payload ?free ?attributes
  case slot =>
    intro slot children hslot
    rw [hget, hslot]
    rfl
  case children =>
    intro slot children hslot
    exact (Node.childrenShownAs_iff hheld hslot _).mpr (by rw [hslot, Option.getD_some])
  case name =>
    intro hfree
    rw [hget, hnone hfree]
    rfl
  case payload =>
    intro hfree
    rw [hget, hnone hfree]
    rfl
  case free =>
    intro key value hkey hreserved hfree
    rw [hget, hnone hfree, View.get?_ownFields hreserved, hkey]
    rfl
  case attributes =>
    intro key value hkey
    exact (Node.attachedShownAs_iff hheld hkey _).mpr (by rw [hkey]; rfl)

end

/-- Exactly its view shows a node in which all slots are in order, so that every key at every depth
shows what takes precedence under it; and which nodes in it are primary does not show. -/
theorem Node.shownAs_iff_view {node : Node}
    (h : ∀ inner, node.Contains inner → Keyed.Sorted inner.children) :
    (∀ view, node.ShownAs view ↔ view = node.view) ∧
      ∀ node' : Node, node'.unflagged = node.unflagged → node'.view = node.view := by
  refine ⟨?_, fun node' heq => ?_⟩
  · induction hsize : sizeOf node using Nat.strong_induction_on generalizing node with
    | _ size ih =>
      have hheld : ∀ held, node.Holds held → ∀ view, held.ShownAs view ↔ view = held.view :=
        fun held hholds => ih _ (hsize ▸ hholds.sizeOf_lt)
          (fun inner hinner => h inner (.head hholds hinner)) rfl
      intro view
      refine ⟨Node.eq_view_of_shownAs (h node .refl) hheld, ?_⟩
      rintro rfl
      exact Node.shownAs_view (h node .refl) hheld
  · rw [← Node.view_unflagged node', heq, Node.view_unflagged]

/-- A function with a slot that is called like a field, an empty slot, attributes for both, for the
other field and for a free key, and a secondary node in a list, whose attributes collide again. -/
def collidingFunction : Node :=
  { Node.leaf "function" ["add"] with
    children := [("name", [.leaf "name" ["a"], .leaf "name" ["b"]]), ("note", [])]
    attributes := [("name", .text "other"), ("note", .flag true), ("payload", .number 1),
      ("related", .list [.text "x", .node { Node.leaf "type" [] with
        primary := false
        attributes := [("name", .text "y"), ("since", .number 3)] }])] }

/-- Its slots are in order at every depth. -/
theorem sorted_collidingFunction (inner : Node) (h : collidingFunction.Contains inner) :
    Keyed.Sorted inner.children := by
  have hmem := Node.mem_flatten_iff_contains.mpr h
  simp only [collidingFunction, Node.leaf, Node.flatten, Node.flattenSlots, Node.flattenAll,
    Node.flattenAttributes, Attribute.flatten, Attribute.flattenItems, List.append_nil,
    List.nil_append, List.cons_append, List.mem_cons, List.not_mem_nil, or_false] at hmem
  rcases hmem with rfl | rfl | rfl | rfl
  · exact List.pairwise_pair.mpr (by decide +kernel)
  all_goals exact .nil

/-- The slots of the function show, and of its attributes only the one under the free key. -/
theorem Node.shownAs_iff_view_collidingFunction :
    (∀ inner, collidingFunction.Contains inner → Keyed.Sorted inner.children) ∧
      (∀ view, collidingFunction.ShownAs view ↔ view = .object
        [("name", .list [(Node.leaf "name" ["a"]).view, (Node.leaf "name" ["b"]).view]),
          ("note", .list []), ("payload", .list [.text "add"]),
          ("related", .list [.text "x", .object
            [("name", .text "type"), ("payload", .list []), ("since", .number 3)]])]) ∧
      ∀ node' : Node, node'.unflagged = collidingFunction.unflagged →
        node'.view = collidingFunction.view :=
  ⟨sorted_collidingFunction, Node.shownAs_iff_view sorted_collidingFunction⟩

end DocTree
