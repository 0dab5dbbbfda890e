import DocTree.Proofs.Growth
import DocTree.Proofs.Ledger

/-!
# Assembly conserves the text

What a run books is what it took from the live links. Reading the ledger of assembly link by link
turns it into a balance: the paragraphs of the links that were live are those of the document, of
the links that are still live, and of the links that were dropped because nothing is registered for
their kind.
-/

namespace DocTree

open Sequence

/-- The nodes of a document at every depth. -/
def Document.flatten (document : Document) : List Node :=
  Node.flattenAll document.nodes

/-- The paragraphs of some links. -/
def Sequence.paragraphs (s : Sequence) (ids : List LinkId) : Multiset String :=
  (ids.flatMap fun id => Paragraph.split (s.data id) : List String)

/-- Whether a link was live, is removed, and was of a kind that nothing is registered for. -/
def Sequence.isLost (registry : Registry) (s s' : Sequence) (id : LinkId) : Bool :=
  s.isLive id && s'.state id == .removed && !registry.has (s.value id)

/-- Whether a link was live and is claimed. -/
def Sequence.isClaimedSince (s s' : Sequence) (id : LinkId) : Bool :=
  s.isLive id && s'.state id == .claimed

/-- Whether a link was live, is removed, and was of a registered kind. -/
def Sequence.isTaken (registry : Registry) (s s' : Sequence) (id : LinkId) : Bool :=
  s.isLive id && s'.state id == .removed && registry.has (s.value id)

/-- The balance between a sequence, its document and what is left of it. Each paragraph of a link
that was live is in a node of the document, in a link that is still live, or in a link that was
dropped because nothing is registered for its kind; and the nodes are as many as the links that were
claimed and those that were removed for a node. -/
structure Balanced (registry : Registry) (s s' : Sequence) (document : Document) : Prop where
  paragraphs : s.paragraphs (s.ids.filter s.isLive) =
    (document.flatten.flatMap Node.payload : List String) +
      s'.paragraphs (s'.ids.filter s'.isLive) +
      s.paragraphs (s.ids.filter (s.isLost registry s'))
  nodes : document.flatten.length =
    s.ids.countP (s.isClaimedSince s') + s.ids.countP (s.isTaken registry s')

variable {registry : Registry} {s s' : Sequence}

/-- One link more brings its own paragraphs, if it is among those that count. -/
theorem Sequence.paragraphs_filter_cons (s : Sequence) (p : LinkId → Bool) (id : LinkId)
    (ids : List LinkId) :
    s.paragraphs ((id :: ids).filter p) =
      (if p id then (Paragraph.split (s.data id) : Multiset String) else 0) +
        s.paragraphs (ids.filter p) := by
  cases h : p id <;> simp [paragraphs, h, ← Multiset.coe_add]

/-- The paragraphs of one link that was live are booked, still live, or lost. -/
theorem Sequence.Consumes.balance_single (h : Consumes s s') (registry : Registry) (id : LinkId) :
    (if s.isLive id then (Paragraph.split (s.data id) : Multiset String) else 0) =
      (registry.booked s s' id).1 +
        (if s'.isLive id then (Paragraph.split (s'.data id) : Multiset String) else 0) +
        (if s.isLost registry s' id then (Paragraph.split (s.data id) : Multiset String) else 0) := by
  have hback : s'.state id = .live → s.state id = .live := h.live_of
  by_cases hlive : s.state id = .live
  · have hbooked : registry.booked s s' id = registry.worth (s.link id).token (s'.state id) :=
      if_pos hlive
    rw [hbooked]
    cases hend : s'.state id with
    | live =>
      have hdata := (token_eq_iff.mp (h.token_of_live hend)).1
      simp [isLive, isLost, hlive, hend, hdata, Registry.worth]
    | claimed | emptied =>
      simp [isLive, isLost, hlive, hend, Registry.worth, Link.token, data]
    | removed =>
      cases hhas : registry.has (s.value id) <;>
        simp_all [isLive, isLost, Registry.worth, Link.token, data, value]
  · have hlive' : s'.state id ≠ .live := fun hlive' => hlive (hback hlive')
    simp [isLive, isLost, hlive, hlive', Registry.booked]

/-- The paragraphs of the links that were live are booked, still live, or lost. -/
theorem Sequence.Consumes.balance (h : Consumes s s') (registry : Registry) (ids : List LinkId) :
    s.paragraphs (ids.filter s.isLive) =
      (ids.map (registry.booked s s')).sum.1 + s'.paragraphs (ids.filter s'.isLive) +
        s.paragraphs (ids.filter (s.isLost registry s')) := by
  induction ids with
  | nil => rfl
  | cons id ids ih =>
    rw [paragraphs_filter_cons, paragraphs_filter_cons, paragraphs_filter_cons,
      h.balance_single registry id, ih, List.map_cons, List.sum_cons, Prod.fst_add]
    abel

/-- As many nodes are booked as links were claimed, or removed for a node. -/
theorem Registry.count_booked (registry : Registry) (s s' : Sequence) (ids : List LinkId) :
    (ids.map (registry.booked s s')).sum.2 =
      ids.countP (s.isClaimedSince s') + ids.countP (s.isTaken registry s') := by
  induction ids with
  | nil => rfl
  | cons id ids ih =>
    have hone : (registry.booked s s' id).2 =
        (if s.isClaimedSince s' id then 1 else 0) + (if s.isTaken registry s' id then 1 else 0) := by
      unfold booked
      cases hend : s'.state id <;> cases hhas : registry.has (s.value id) <;>
        by_cases hlive : s.state id = .live <;>
        simp_all [isLive, isClaimedSince, isTaken, worth, Link.token, value]
    rw [List.map_cons, List.sum_cons, Prod.snd_add, ih, hone, List.countP_cons, List.countP_cons]
    omega

/-- Assembly neither loses nor doubles a paragraph, and counts one node for each link that it claims
for good or takes out for a child. -/
theorem Sequence.assemble_balanced (hregistry : registry.Declared) (hs : s.WellFormed) :
    ∃ built, s.assemble registry = some built ∧
      Balanced registry s built.sequence built.result := by
  obtain ⟨done, hdone, hwalks⟩ := s.assemble_total hregistry hs
  have hconsumes := hwalks.consumes hregistry hs
  have hcontent := hwalks.content hregistry hs
  rw [Node.flattenAll, Node.content_nil, zero_add] at hcontent
  refine ⟨_, hdone, ?_, ?_⟩
  · have hids : done.sequence.ids = s.ids := by rw [ids, ids, hconsumes.size_eq]
    have hparagraphs := congrArg Prod.fst hcontent
    rw [hids, hconsumes.balance registry s.ids]
    exact congrArg (· + _ + _) hparagraphs.symm
  · exact (congrArg Prod.snd hcontent).trans (registry.count_booked s done.sequence s.ids)

/-- Lists hold lists, items and notes, an item absorbs the text after it, and nothing is registered
for notes. -/
def listKinds : List Kind :=
  [{ names := ["list"], children := ["list", "item", "note"] },
    { names := ["item"], primary := false, absorbNext := some "text" }]

/-- A list with one of each. -/
def listTokens : List Token :=
  [{ value := "list", data := "a\n\nb" }, { value := "item", data := "c" },
    { value := "text", data := "d" }, { value := "note", data := "e" },
    { value := "list", data := "f" }]

/-- The list in the list is built first, and takes the item up. -/
def listNodes : List Node :=
  [{ Node.leaf "list" ["a", "b"] with
      children := [("list", [{ Node.leaf "list" ["f"] with
        children := [("item", [{ Node.leaf "item" ["c", "d"] with primary := false }])] }])] }]

/-- The nodes that the lists are built to. -/
theorem Sequence.nodes_listTokens {registry : Registry}
    (hregistry : Registry.ofKinds listKinds = .ok registry) {built : Built Document}
    (hbuilt : (ofTokens listTokens).assemble registry = some built) :
    built.result.nodes = listNodes := by
  have hnodes : ((ofTokens listTokens).assemble registry).map (fun built => built.result.nodes) =
      some listNodes := by
    obtain rfl := Except.ok.inj hregistry
    cbv
  simpa [hbuilt] using hnodes

/-- The balance of a list with an item, a note and a list in it. -/
theorem Sequence.assemble_balanced_lists :
    ∃ registry, Registry.ofKinds listKinds = .ok registry ∧
      ∃ built, (ofTokens listTokens).assemble registry = some built ∧
        built.result.nodes = listNodes ∧
        Balanced registry (ofTokens listTokens) built.sequence built.result := by
  obtain ⟨registry, hregistry⟩ : ∃ registry, Registry.ofKinds listKinds = .ok registry := ⟨_, rfl⟩
  obtain ⟨built, hbuilt, hbalanced⟩ := assemble_balanced
    (Registry.declared_ofKinds listKinds hregistry) (ofTokens_spec listTokens).1
  exact ⟨registry, hregistry, built, hbuilt, nodes_listTokens hregistry hbuilt, hbalanced⟩

end DocTree
