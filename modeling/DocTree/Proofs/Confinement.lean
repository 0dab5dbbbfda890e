import DocTree.Proofs.Absorption

/-!
# Building stays on its chain

Whatever is built from a link uses up links of that link's chain and leaves every link of the other
chains as it is, its neighbours included. Everything that a builder reads or writes is reached by
walking from its own link, and a walk never leaves the chain. The chain shrinks on the way, so that
each further change is confined to what is left of it.
-/

namespace DocTree

namespace Sequence

variable {s s' s'' : Sequence} {id other : LinkId} {chain chain' : List LinkId}

/-- A link that is not removed stands on a chain of a well-formed sequence. -/
structure Stands (s : Sequence) (chain : List LinkId) (id : LinkId) : Prop where
  wellFormed : s.WellFormed
  isChain : s.IsChain chain
  mem : id ∈ chain
  state_ne : s.state id ≠ .removed

/-- One sequence comes from another by using up live links of one chain, and every other link stays
as it is. -/
structure ConsumesOn (s s' : Sequence) (links : List LinkId) : Prop extends Consumes s s' where
  isChain : s.IsChain links
  link_eq : ∀ id ∉ links, s'.link id = s.link id

namespace Stands

/-- The link lies in the sequence. -/
theorem lt_size (h : s.Stands chain id) : id < s.size :=
  h.isChain.lt_size id h.mem

/-- A walk from the link stays on its chain. -/
theorem mem_of_mem_trail (h : s.Stands chain id) (direction : Direction) :
    ∀ other ∈ s.trail direction id, other ∈ chain := by
  intro other hother
  obtain ⟨before, after, rfl⟩ := List.append_of_mem h.mem
  cases direction with
  | next =>
    rw [h.isChain.trail_next h.wellFormed] at hother
    exact List.mem_append_right _ hother
  | previous =>
    rw [h.isChain.trail_previous h.wellFormed] at hother
    rcases List.mem_cons.mp hother with rfl | hother
    · simp
    · exact List.mem_append_left _ (List.mem_reverse.mp hother)

/-- The head of the chain is on the chain. -/
theorem head_mem (h : s.Stands chain id) : s.head id ∈ chain :=
  List.mem_of_head? (h.isChain.head_eq h.wellFormed h.mem)

/-- Every link of the chain stands on it. -/
theorem of_mem (h : s.Stands chain id) (hother : other ∈ chain) : s.Stands chain other :=
  ⟨h.wellFormed, h.isChain, hother, h.isChain.state_ne h.wellFormed h.mem h.state_ne other hother⟩

/-- Where links of the chain are used up, a link that is not removed stands on what is left. -/
theorem of_consumes (h : s.Stands chain id) (hconsumes : Consumes s s')
    (hreach : s'.state id ≠ .removed) : s'.Stands (chain.filter s'.isReachable) id :=
  ⟨hconsumes.wellFormed, hconsumes.chain chain h.isChain,
    List.mem_filter.mpr ⟨h.mem, isReachable_iff.mpr hreach⟩, hreach⟩

end Stands

/-- All links of a link's chain, in order. -/
def chainOf (s : Sequence) (id : LinkId) : List LinkId :=
  s.iter (s.head id)

/-- A link's chain is the one that it is on. -/
theorem IsChain.chainOf_eq (hs : s.WellFormed) (h : s.IsChain chain) (hid : id ∈ chain) :
    s.chainOf id = chain := by
  obtain ⟨after, rfl⟩ := List.head?_eq_some_iff.mp (h.head_eq hs hid)
  have hchain : s.IsChain ([] ++ s.head id :: after) := h
  exact hchain.trail_next hs

/-- A link that is not removed stands on its chain. -/
theorem WellFormed.stands_chainOf (hs : s.WellFormed) (hid : id < s.size)
    (hreach : s.state id ≠ .removed) : s.Stands (s.chainOf id) id := by
  obtain ⟨before, after, hchain⟩ := hs.exists_chain hid
  have hmem : id ∈ before ++ id :: after := by simp
  rw [hchain.chainOf_eq hs hmem]
  exact ⟨hs, hchain, hmem, hreach⟩

namespace ConsumesOn

/-- Doing nothing stays on every chain. -/
theorem refl (hs : s.WellFormed) (h : s.IsChain chain) : ConsumesOn s s chain where
  toConsumes := .refl hs
  isChain := h
  link_eq _ _ := rfl

/-- What is left of the chain is a chain. -/
theorem isChain_rest (h : ConsumesOn s s' chain) : s'.IsChain (chain.filter s'.isReachable) :=
  h.chain chain h.isChain

/-- A change on what another change left of a chain is a change on the chain. -/
theorem trans (h : ConsumesOn s s' chain)
    (h' : ConsumesOn s' s'' (chain.filter s'.isReachable)) : ConsumesOn s s'' chain where
  toConsumes := h.toConsumes.trans h'.toConsumes
  isChain := h.isChain
  link_eq id hid := by
    have hrest : id ∉ chain.filter s'.isReachable := fun hmem =>
      hid (List.mem_of_mem_filter hmem)
    rw [h'.link_eq id hrest, h.link_eq id hid]

/-- A chain that has no link in common with the changed one stays. -/
theorem isChain_of_disjoint (h : ConsumesOn s s' chain) (hchain : s.IsChain chain')
    (hdisjoint : ∀ id ∈ chain', id ∉ chain) : s'.IsChain chain' := by
  refine hchain.of_bonds h.size_eq.ge (fun id hid => ?_) fun id hid => ?_
  · rw [previous, h.link_eq id (hdisjoint id hid), previous]
  · rw [next, h.link_eq id (hdisjoint id hid), next]

/-- Claiming a link stays on its chain. -/
theorem claim (h : s.Stands chain id) : ConsumesOn s (s.claim id) chain where
  toConsumes := .claim h.wellFormed h.lt_size
  isChain := h.isChain
  link_eq other hother := by
    have hne : other ≠ id := fun heq => hother (heq ▸ h.mem)
    exact link_modify_of_ne hne _

/-- Emptying a live link stays on its chain. -/
theorem empty (h : s.Stands chain id) (hlive : s.state id = .live) :
    ConsumesOn s (s.empty id).1 chain where
  toConsumes := .empty h.wellFormed h.lt_size hlive
  isChain := h.isChain
  link_eq other hother := by
    have hne : other ≠ id := fun heq => hother (heq ▸ h.mem)
    rw [Sequence.empty, if_pos (isReachable_iff.mpr h.state_ne), link_modify_of_ne hne]

/-- A link that was live and was not emptied since may be removed in the end. -/
theorem remove (h : ConsumesOn s s' chain) (hid : id ∈ chain) (hlive : s.state id = .live)
    (hend : s'.state id ≠ .emptied) : ConsumesOn s (s'.remove id).1 chain := by
  by_cases hremoved : s'.state id = .removed
  · rwa [remove_of_removed hremoved]
  have hstands : s'.Stands (chain.filter s'.isReachable) id :=
    ⟨h.wellFormed, h.isChain_rest, List.mem_filter.mpr ⟨hid, isReachable_iff.mpr hremoved⟩,
      hremoved⟩
  have hkept : s'.state id = .live ∨ s'.state id = .claimed := by
    cases hstate : s'.state id <;> simp_all
  refine ⟨h.toConsumes.remove hlive hkept (h.isChain.lt_size id hid), h.isChain,
    fun other hother => ?_⟩
  -- A link off the chain is no neighbour of the removed one.
  have hoff : other ∉ chain.filter s'.isReachable := fun hmem =>
    hother (List.mem_of_mem_filter hmem)
  have hne : other ≠ id := fun heq => hother (heq ▸ hid)
  have hnext : s'.next id ≠ some other := fun hn =>
    hoff (hstands.isChain.mem_of_next hstands.mem hn)
  have hprevious : s'.previous id ≠ some other := fun hp =>
    hoff (hstands.isChain.mem_of_previous hstands.mem hp)
  rw [link_remove hstands.lt_size hremoved h.wellFormed.previous_spec h.wellFormed.next_spec,
    if_neg hne, if_neg hnext, if_neg hprevious]
  exact h.link_eq other hother

end ConsumesOn

end Sequence

namespace Construction

open Sequence

variable {s s' : Sequence} {id : LinkId} {ids chain : List LinkId} {kind : Kind}

/-- Searching begins at the head of the chain of a link that is not removed. -/
theorem rewind_of_stands (h : s.Stands chain id) (first : Option LinkId) :
    rewind s id first = some (s.head id) := by
  have hreach : s.isReachable id = true := isReachable_iff.mpr h.state_ne
  simp [rewind, hreach]

/-- What is found from a place on a chain is on the chain. -/
theorem mem_of_find? {start found : LinkId} {kind : String} {direction : Direction}
    (h : s.Stands chain start) (hfind : s.find? start kind direction = some found) :
    found ∈ chain :=
  h.mem_of_mem_trail direction found (List.mem_of_find?_eq_some hfind)

/-- Emptying a run of a chain stays on the chain. -/
theorem takeParagraphs_confined (hs : s.WellFormed) (h : s.IsRun ids) (hchain : s.IsChain chain)
    (hmem : ∀ id ∈ ids, id ∈ chain) : ConsumesOn s (takeParagraphs s ids).1 chain := by
  induction ids generalizing s chain with
  | nil => exact .refl hs hchain
  | cons id ids ih =>
    have hlive := h.live id List.mem_cons_self
    have hstands : s.Stands chain id :=
      ⟨hs, hchain, hmem id List.mem_cons_self, by simp [hlive]⟩
    have hempty := ConsumesOn.empty hstands hlive
    have hrest : ∀ other ∈ ids, other ∈ chain.filter (s.empty id).1.isReachable := by
      intro other hother
      have hlive' := h.rest.live other hother
      exact List.mem_filter.mpr ⟨hmem other (List.mem_cons_of_mem _ hother),
        isReachable_iff.mpr (by simp [hlive'])⟩
    exact hempty.trans (ih hempty.wellFormed h.rest hempty.isChain_rest hrest)

/-- Absorbing a run beside a link stays on the link's chain. -/
theorem absorb_confined (h : s.Stands chain id) (node : String) (direction : Direction)
    (absorbed : Option String) :
    ConsumesOn s (absorb s id node direction absorbed).sequence chain := by
  cases absorbed with
  | none => exact .refl h.wellFormed h.isChain
  | some kind =>
    refine takeParagraphs_confined h.wellFormed
      (h.wellFormed.isRun_siblings h.lt_size kind direction) h.isChain fun other hother => ?_
    have hdrop := (WellFormed.siblings_subset kind direction other hother).1
    exact h.mem_of_mem_trail direction other (List.mem_of_mem_drop hdrop)

/-- A link that is claimed or was not live keeps its place while a run beside it is absorbed. -/
theorem stands_absorb (h : s.Stands chain id) (hused : s.state id ≠ .live) (node : String)
    (direction : Direction) (absorbed : Option String) :
    (absorb s id node direction absorbed).sequence.Stands
      (chain.filter (absorb s id node direction absorbed).sequence.isReachable) id := by
  have habsorb := absorb_confined h node direction absorbed
  refine h.of_consumes habsorb.toConsumes ?_
  rw [habsorb.state_eq id hused]
  exact h.state_ne

/-- A claimed link is not live. -/
theorem state_claim_ne_live (hid : id < s.size) : (s.claim id).state id ≠ .live := by
  rw [state_claim hid]
  split
  · simp
  · next hclaim => exact fun hlive => hclaim ⟨rfl, hlive⟩

/-- A claimed link stands where it stood. -/
theorem stands_claim (h : s.Stands chain id) : (s.claim id).Stands chain id := by
  refine ⟨h.wellFormed.claim h.lt_size, h.isChain.of_bonds (by simp) (by simp) (by simp), h.mem, ?_⟩
  rw [state_claim h.lt_size]
  split
  · simp
  · exact h.state_ne

/-- What stays on the chain of a claimed link stayed there when the link was claimed. -/
theorem confined_of_claim (h : s.Stands chain id) (hrest : ConsumesOn (s.claim id) s' chain) :
    ConsumesOn s s' chain := by
  have hclaim := stands_claim h
  have hall := hclaim.isChain.state_ne hclaim.wellFormed hclaim.mem hclaim.state_ne
  have hkept : chain.filter (s.claim id).isReachable = chain :=
    List.filter_eq_self.mpr fun other hother => isReachable_iff.mpr (hall other hother)
  exact (ConsumesOn.claim h).trans (hkept.symm ▸ hrest)

/-- Beginning a node from a claimed link stays on the link's chain. -/
theorem begin_confined (h : s.Stands chain id) (kind : Kind) :
    ConsumesOn (s.claim id) (begin s id kind).sequence chain := by
  have hclaim := stands_claim h
  have hused := state_claim_ne_live h.lt_size
  exact (absorb_confined hclaim _ .previous kind.absorbPrevious).trans
    (absorb_confined (stands_absorb hclaim hused _ .previous kind.absorbPrevious) _ .next
      kind.absorbNext)

/-- A link that a node was begun from is not live. -/
theorem state_begin_ne_live (hs : s.WellFormed) (hid : id < s.size) (kind : Kind) :
    (begin s id kind).sequence.state id ≠ .live :=
  fun hlive => state_claim_ne_live hid ((consumes_begin hs hid kind).live_of hlive)

/-- A link that a node was begun from stands on what is left of its chain. -/
theorem stands_begin (h : s.Stands chain id) (kind : Kind) :
    (begin s id kind).sequence.Stands
      (chain.filter (begin s id kind).sequence.isReachable) id := by
  have hbegin := (begin_confined h kind).toConsumes
  refine (stands_claim h).of_consumes hbegin ?_
  rw [hbegin.state_eq id (state_claim_ne_live h.lt_size)]
  exact (stands_claim h).state_ne

end Construction

end DocTree
