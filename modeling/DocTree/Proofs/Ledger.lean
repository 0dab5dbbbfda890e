import DocTree.Proofs.Assembly
import DocTree.Proofs.Trees

/-!
# The ledger of a run

Every live link that a run uses up goes into the document in exactly one way: a claimed link is a
node with the paragraphs of its text, an emptied link has left its paragraphs to the node beside it,
and a removed link is a child if its kind is registered, and lost otherwise. The ledger of a run is
the sum over the links that it used up. Ledgers of consecutive runs add up, so that the ledger
follows the recursion of the builders, and each builder adds to its node what it books.
-/

namespace DocTree

open Sequence Construction

variable {registry : Registry} {s s' s'' : Sequence} {id found : LinkId} {ids : List LinkId}

/-- What a link brings into the document by the state that it ends in: its paragraphs, and how many
nodes. -/
def Registry.worth (registry : Registry) (token : Token) : LinkState → Multiset String × ℕ
  | .live => 0
  | .claimed => (Paragraph.split token.data, 1)
  | .emptied => (Paragraph.split token.data, 0)
  | .removed => if registry.has token.value then (Paragraph.split token.data, 1) else 0

/-- What one link brings into the document between two states of a sequence. -/
def Registry.booked (registry : Registry) (s s' : Sequence) (id : LinkId) : Multiset String × ℕ :=
  if s.state id = .live then registry.worth (s.link id).token (s'.state id) else 0

/-- What all links bring into the document between two states of a sequence. -/
def Registry.ledger (registry : Registry) (s s' : Sequence) : Multiset String × ℕ :=
  (s.ids.map (registry.booked s s')).sum

namespace Registry

/-- Where the states of the live links agree, so do the ledgers. -/
theorem ledger_congr (h : ∀ id < s.size, s.state id = .live →
    registry.worth (s.link id).token (s'.state id) =
      registry.worth (s.link id).token (s''.state id)) :
    registry.ledger s s' = registry.ledger s s'' := by
  refine congrArg List.sum (List.map_congr_left fun id hid => ?_)
  unfold booked
  split
  · next hlive => exact h id (List.mem_range.mp hid) hlive
  · rfl

/-- Doing nothing books nothing. -/
theorem ledger_self (registry : Registry) (s : Sequence) : registry.ledger s s = 0 := by
  refine List.sum_eq_zero fun entry hentry => ?_
  obtain ⟨id, -, rfl⟩ := List.mem_map.mp hentry
  unfold booked
  split
  · next hlive => simp [worth, hlive]
  · rfl

/-- The ledger of two consecutive runs is the sum of theirs. -/
theorem ledger_add (h : Consumes s s') (h' : Consumes s' s'') :
    registry.ledger s s'' = registry.ledger s s' + registry.ledger s' s'' := by
  unfold ledger
  rw [show s'.ids = s.ids by rw [ids, ids, h.size_eq], ← List.sum_map_add]
  refine congrArg List.sum (List.map_congr_left fun id _ => ?_)
  have hback : s'.state id = .live → s.state id = .live := h.live_of
  have hend := h'.state_eq id
  unfold booked
  by_cases hlive : s.state id = .live
  · by_cases hlive' : s'.state id = .live
    · simp [hlive, hlive', worth, h.token_of_live hlive']
    · simp [hlive, hlive', hend hlive']
  · have hlive' : s'.state id ≠ .live := fun hlive' => hlive (hback hlive')
    simp [hlive, hlive']

/-- A run that used up one link books that link alone. -/
theorem ledger_single (hid : id < s.size) (hlive : s.state id = .live)
    (hothers : ∀ other ≠ id, s'.state other = s.state other) :
    registry.ledger s s' = registry.worth (s.link id).token (s'.state id) := by
  have hzero : ∀ other ≠ id, registry.booked s s' other = 0 := by
    intro other hne
    unfold booked
    split
    · next hother => simp [hothers other hne, hother, worth]
    · rfl
  rw [ledger, List.sum_map_eq_nsmul_single id _ fun other hne _ => hzero other hne]
  have hcount : s.ids.count id = 1 :=
    List.count_eq_one_of_mem List.nodup_range (List.mem_range.mpr hid)
  rw [hcount, one_nsmul, booked, if_pos hlive]

/-- Claiming a live link books its paragraphs as a node. -/
theorem ledger_claim (registry : Registry) (hid : id < s.size) (hlive : s.state id = .live) :
    registry.ledger s (s.claim id) = ((Paragraph.split (s.data id) : Multiset String), 1) := by
  rw [ledger_single hid hlive fun other hne => by simp [state_claim hid, hne]]
  simp [state_claim hid, hlive, worth, Link.token, data]

/-- Emptying a live link books its paragraphs. -/
theorem ledger_empty (registry : Registry) (hid : id < s.size) (hlive : s.state id = .live) :
    registry.ledger s (s.empty id).1 = ((Paragraph.split (s.data id) : Multiset String), 0) := by
  have hstate := state_empty hid (show s.state id ≠ .removed by simp [hlive])
  rw [ledger_single hid hlive fun other hne => by simp [hstate, hne]]
  simp [hstate, worth, Link.token, data]

/-- Removing a live link of a kind that is not registered books nothing. -/
theorem ledger_remove (hs : s.WellFormed) (hid : id < s.size) (hlive : s.state id = .live)
    (hkind : registry.find? (s.value id) = none) : registry.ledger s (s.remove id).1 = 0 := by
  have hstate := hs.state_remove hid (show s.state id ≠ .removed by simp [hlive])
  rw [ledger_single hid hlive fun other hne => by simp [hstate, hne], hstate, if_pos rfl]
  exact if_neg (by simpa [has, Link.token, value] using hkind)

/-- A claimed link of a registered kind may be removed without a change to the ledger. -/
theorem ledger_remove_claimed (h : Consumes s s') (hid : id < s.size)
    (hclaimed : s'.state id = .claimed) (hkind : (registry.find? (s.value id)).isSome) :
    registry.ledger s (s'.remove id).1 = registry.ledger s s' := by
  refine ledger_congr fun other _ _ => ?_
  rw [h.wellFormed.state_remove (h.size_eq ▸ hid) (by simp [hclaimed])]
  split
  · next heq =>
    have hhas : registry.has (s.link id).token.value = true := hkind
    simp [heq, hclaimed, worth, hhas]
  · rfl

/-- Emptying a run books the paragraphs that are taken. -/
theorem ledger_takeParagraphs (registry : Registry) (hs : s.WellFormed) (h : s.IsRun ids) :
    registry.ledger s (takeParagraphs s ids).1 =
      (((takeParagraphs s ids).2 : Multiset String), 0) := by
  induction ids generalizing s with
  | nil => exact registry.ledger_self s
  | cons id ids ih =>
    have hid := h.lt_size id List.mem_cons_self
    have hlive := h.live id List.mem_cons_self
    have hempty := Consumes.empty hs hid hlive
    have htake := consumes_takeParagraphs hempty.wellFormed h.rest
    simp only [takeParagraphs]
    rw [ledger_add hempty htake, registry.ledger_empty hid hlive, ih hempty.wellFormed h.rest,
      empty_snd (by simp [hlive])]
    simp

end Registry

/-! ## The builders book what they build -/

namespace Construction

variable {kind name : String} {kinds : List String} {place : Option LinkId} {e e' : Extraction}
  {built : Built (Option Node)}

/-- A node that was begun from a live link holds what its beginning booked. -/
theorem content_begin (registry : Registry) (hs : s.WellFormed) (hid : id < s.size)
    (hlive : s.state id = .live) (kind : Kind) :
    Node.content (begin s id kind).node.flatten =
      registry.ledger s (begin s id kind).sequence := by
  obtain ⟨before, after, hbefore, hafter, hsequence, hnode⟩ := begin_spec hs hid kind
  have hclaim := Consumes.claim hs hid
  have htake := consumes_takeParagraphs hclaim.wellFormed hbefore
  have htake' := consumes_takeParagraphs htake.wellFormed hafter
  rw [hsequence, hnode, Registry.ledger_add (hclaim.trans htake) htake',
    Registry.ledger_add hclaim htake, registry.ledger_claim hid hlive,
    registry.ledger_takeParagraphs hclaim.wellFormed hbefore,
    registry.ledger_takeParagraphs htake.wellFormed hafter]
  simp only [Node.flatten, Node.flattenSlots, Node.flattenAttributes, Node.content_cons,
    List.append_nil, Node.content_nil, ← Multiset.coe_add, Prod.mk_add_mk, add_zero]
  rw [add_comm (Multiset.ofList (takeParagraphs (s.claim id) before).2)]

/-- Extraction adds to its node what it books. -/
theorem Extracts.content (h : Extracts registry id kinds place e e')
    (hs : e.sequence.WellFormed) :
    Node.content e'.node.flatten =
      Node.content e.node.flatten + registry.ledger e.sequence e'.sequence := by
  induction h with
  | done => simp [Registry.ledger_self]
  | pass _ _ ih => exact ih hs
  | exhaust _ _ _ ih => exact ih hs
  | @lose id kind _ _ e e' found hslot hfind hentry hrest ih =>
    obtain ⟨hlt, hlive, rfl⟩ := found_spec hslot hfind
    have hlose := consumes_lose id (e.sequence.value found) hs hlt hlive
    have hbooked : registry.ledger e.sequence (e.sequence.remove found).1 = 0 :=
      Registry.ledger_remove hs hlt hlive hentry
    calc Node.content e'.node.flatten
        = Node.content e.node.flatten +
            registry.ledger (e.sequence.remove found).1 e'.sequence := ih hlose.wellFormed
      _ = Node.content e.node.flatten + (registry.ledger e.sequence (e.sequence.remove found).1 +
            registry.ledger (e.sequence.remove found).1 e'.sequence) := by rw [hbooked, zero_add]
      _ = Node.content e.node.flatten + registry.ledger e.sequence e'.sequence := by
          rw [Registry.ledger_add hlose (hrest.consumes hlose.wellFormed)]
          rfl
  | @child id kind _ _ e e' done found entry built hslot hfind hentry _ hchild hrest ihchild ih =>
    obtain ⟨hlt, hlive, rfl⟩ := found_spec hslot hfind
    have hclaim := Consumes.claim hs hlt
    have hbegin := consumes_begin hs hlt built
    have hdone := hchild.consumes hbegin.wellFormed
    have hchild := consumes_child id (e.sequence.value found) hs hlt hlive hdone
    -- The child holds what was booked for it, and taking its link out changes nothing about that.
    have hbooked : Node.content done.node.flatten =
        registry.ledger e.sequence (done.sequence.remove found).1 := by
      rw [Registry.ledger_remove_claimed ((hclaim.trans hbegin).trans hdone) hlt
          (state_of_consumes_begin hs hlt hlive hdone) (by simp [hentry]),
        Registry.ledger_add (hclaim.trans hbegin) hdone,
        ← content_begin registry hs hlt hlive built]
      exact ihchild hbegin.wellFormed
    calc Node.content e'.node.flatten
        = Node.content (e.node.addChild (slotName (e.sequence.value found)) done.node).flatten +
            registry.ledger (done.sequence.remove found).1 e'.sequence := ih hchild.wellFormed
      _ = Node.content e.node.flatten + (registry.ledger e.sequence (done.sequence.remove found).1 +
            registry.ledger (done.sequence.remove found).1 e'.sequence) := by
          rw [Node.content_flatten_addChild, hbooked, add_assoc]
      _ = Node.content e.node.flatten + registry.ledger e.sequence e'.sequence := by
          rw [Registry.ledger_add hchild (hrest.consumes hchild.wellFormed)]
          rfl

/-- Building for a registered name from a live link gives a node that holds what was booked. -/
theorem Creates.content (h : Creates registry name s id built) (hs : s.WellFormed)
    (hid : id < s.size) (hlive : s.state id = .live) :
    Node.content (Node.flattenAll built.result.toList) = registry.ledger s built.sequence := by
  cases h with
  | absent => exact (registry.ledger_self s).symm
  | @declared _ kind done _ _ hdone =>
    have hbegin := consumes_begin hs hid kind
    have hclaim := (Consumes.claim hs hid).trans hbegin
    rw [show Node.flattenAll (present (done.finish id)).result.toList = done.node.flatten from
      Node.flattenAll_singleton done.node, hdone.content hbegin.wellFormed,
      content_begin registry hs hid hlive kind]
    exact (Registry.ledger_add hclaim (hdone.consumes hbegin.wellFormed)).symm

end Construction

namespace Assembly

variable {heads : List LinkId} {place : Option LinkId} {done done' : Built (List Node)}

/-- Assembly adds to the document what it books. -/
theorem Walks.content (hregistry : registry.Declared) (h : Walks registry place heads done done')
    (hs : done.sequence.WellFormed) :
    Node.content (Node.flattenAll done'.result) =
      Node.content (Node.flattenAll done.result) +
        registry.ledger done.sequence done'.sequence := by
  induction h with
  | done => simp [Registry.ledger_self]
  | turn _ ih => exact ih hs
  | @look id _ done done' built hbuilt hrest ih =>
    have hlook := (consumes_buildAt hregistry hs hbuilt).1
    have hbooked : Node.content (Node.flattenAll built.result.toList) =
        registry.ledger done.sequence built.sequence := by
      obtain ⟨built', hbuilt', hcase⟩ := buildAt_total hregistry hs id
      obtain rfl := Option.some.inj (hbuilt'.symm.trans hbuilt)
      rcases hcase with ⟨hnone, hsame⟩ | ⟨hid, hlive, -, hcreates⟩
      · rw [hnone, hsame]
        exact (registry.ledger_self _).symm
      · exact hcreates.content hs hid hlive
    calc Node.content (Node.flattenAll done'.result)
        = Node.content (Node.flattenAll (done.result ++ built.result.toList)) +
            registry.ledger built.sequence done'.sequence := ih hlook.wellFormed
      _ = Node.content (Node.flattenAll done.result) +
            registry.ledger done.sequence done'.sequence := by
          rw [Node.flattenAll_append, Node.content_append, hbooked, add_assoc,
            ← Registry.ledger_add hlook (hrest.consumes hregistry hlook.wellFormed)]

end Assembly

end DocTree
