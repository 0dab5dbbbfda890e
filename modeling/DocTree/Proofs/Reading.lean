import DocTree.Proofs.Splicing

/-!
# Document order

Reading a sequence means reading its chains in the order in which their heads were pushed, each from
its head on. Assembly follows this order: at every moment some links of one chain are behind it,
some are ahead, and the heads of other chains wait. Looking at a link may take links of the chain at
hand out, but the chains that wait are still the same when their turn comes.
-/

namespace DocTree

namespace Sequence

variable {s s' : Sequence} {id head other : LinkId}
  {behind ahead behind' ahead' heads : List LinkId}

/-- All links that are in a chain, in document order. -/
def reading (s : Sequence) : List LinkId :=
  s.heads.flatMap s.iter

/-- A link begins a chain when it is not removed and nothing precedes it. -/
theorem mem_heads_iff :
    head ∈ s.heads ↔ head < s.size ∧ s.state head ≠ .removed ∧ s.previous head = none := by
  simp [heads, ids, isReachable]

/-- When a chain is all that is left, its head is the only one. -/
theorem IsChain.heads_eq {chain : List LinkId} (h : s.IsChain chain)
    (hall : ∀ id, id ∈ chain ↔ id < s.size ∧ s.state id ≠ .removed) :
    s.heads = chain.head?.toList := by
  have hmem : ∀ id, id ∈ s.heads ↔ id ∈ chain.head?.toList := by
    intro id
    rw [mem_heads_iff, Option.mem_toList]
    constructor
    · rintro ⟨hlt, hreach, hfirst⟩
      obtain ⟨before, after, rfl⟩ := List.append_of_mem ((hall id).mpr ⟨hlt, hreach⟩)
      rw [h.previous_eq, List.getLast?_eq_none_iff] at hfirst
      rw [hfirst]
      rfl
    · intro hhead
      obtain ⟨after, rfl⟩ := List.head?_eq_some_iff.mp hhead
      obtain ⟨hlt, hreach⟩ := (hall id).mp List.mem_cons_self
      exact ⟨hlt, hreach, (h.bonds [] id after rfl).1⟩
  have hnodup : s.heads.Nodup := List.nodup_range.filter _
  have hperm : s.heads.Perm chain.head?.toList :=
    (List.perm_ext_iff_of_nodup hnodup (by cases chain <;> simp)).mpr hmem
  cases chain with
  | nil => exact List.perm_nil.mp hperm
  | cons head after => exact List.perm_singleton.mp hperm

/-- What follows a link that nothing precedes is its whole chain. -/
theorem WellFormed.isChain_iter (hs : s.WellFormed) (hhead : head ∈ s.heads) :
    s.IsChain (s.iter head) := by
  obtain ⟨hlt, -, hprevious⟩ := mem_heads_iff.mp hhead
  obtain ⟨before, after, hchain⟩ := hs.exists_chain hlt
  have hbefore : before = [] := by
    rwa [hchain.previous_eq, List.getLast?_eq_none_iff] at hprevious
  subst hbefore
  rw [iter, hchain.trail_next hs]
  exact hchain

/-- Reading on from a link begins with the link. -/
theorem WellFormed.iter_eq_cons (hs : s.WellFormed) (hid : id < s.size) :
    ∃ after, s.iter id = id :: after :=
  ⟨_, hs.trail_eq .next hid⟩

/-- Reading on from the head of a chain begins with the head. -/
theorem WellFormed.head?_iter (hs : s.WellFormed) (hid : id < s.size) :
    (s.iter id).head? = some id := by
  obtain ⟨after, hiter⟩ := hs.iter_eq_cons hid
  rw [hiter, List.head?_cons]

/-- Reading meets exactly the links that are not removed. -/
theorem WellFormed.mem_reading_iff (hs : s.WellFormed) :
    id ∈ s.reading ↔ id < s.size ∧ s.state id ≠ .removed := by
  constructor
  · intro hid
    obtain ⟨head, hhead, hid⟩ := List.mem_flatMap.mp hid
    obtain ⟨hlt, hreach, -⟩ := mem_heads_iff.mp hhead
    have hchain := hs.isChain_iter hhead
    obtain ⟨after, hiter⟩ := hs.iter_eq_cons hlt
    exact ⟨hchain.lt_size id hid, hchain.state_ne hs (by simp [hiter]) hreach id hid⟩
  · rintro ⟨hlt, hreach⟩
    obtain ⟨before, after, hchain⟩ := hs.exists_chain hlt
    have hmem : id ∈ before ++ id :: after := by simp
    have hfirst := hchain.head_eq hs hmem
    have hheadmem := List.mem_of_head? hfirst
    obtain ⟨rest, hrest⟩ := List.head?_eq_some_iff.mp hfirst
    rw [hrest] at hchain hmem
    have hprevious : s.previous (s.head id) = none := by
      have hfirst' : s.IsChain ([] ++ s.head id :: rest) := hchain
      simpa using hfirst'.previous_eq
    have hhead : s.head id ∈ s.heads :=
      mem_heads_iff.mpr ⟨hs.head_lt hlt, hchain.state_ne hs hmem hreach _ (by simp), hprevious⟩
    refine List.mem_flatMap.mpr ⟨s.head id, hhead, ?_⟩
    have hfirst' : s.IsChain ([] ++ s.head id :: rest) := hchain
    rw [iter, hfirst'.trail_next hs]
    exact hmem

/-- How far reading has come: the chain at hand falls into links that are behind and links that are
ahead, and the heads of other chains wait. -/
structure Route (s : Sequence) (behind ahead heads : List LinkId) : Prop where
  wellFormed : s.WellFormed
  isChain : s.IsChain (behind ++ ahead)
  state_ne : ∀ id ∈ ahead, s.state id ≠ .removed
  waits : ∀ head ∈ heads, head ∈ s.heads ∧ head ∉ behind ++ ahead
  nodup : heads.Nodup

namespace Route

/-- At first all chains wait. -/
theorem start (hs : s.WellFormed) : s.Route [] [] s.heads where
  wellFormed := hs
  isChain := .nil
  state_ne := by simp
  waits _ hhead := ⟨hhead, by simp⟩
  nodup := List.nodup_range.filter _

/-- The chains that wait have no link in common with the one at hand. -/
theorem notMem_of_mem_iter (h : s.Route behind ahead heads) (hhead : head ∈ heads)
    (hid : id ∈ s.iter head) : id ∉ behind ++ ahead := by
  intro hmem
  obtain ⟨hmemHeads, hnot⟩ := h.waits head hhead
  have hchain := h.wellFormed.isChain_iter hmemHeads
  obtain ⟨after, hiter⟩ := h.wellFormed.iter_eq_cons (mem_heads_iff.mp hmemHeads).1
  rw [hchain.eq_of_mem h.wellFormed h.isChain hid hmem] at hiter
  exact hnot (hiter ▸ List.mem_cons_self)

/-- When a chain is at its end, the next one is ahead. -/
theorem turn (h : s.Route behind ahead (head :: heads)) : s.Route [] (s.iter head) heads where
  wellFormed := h.wellFormed
  isChain := h.wellFormed.isChain_iter (h.waits head List.mem_cons_self).1
  state_ne id hid := by
    obtain ⟨hhead, -⟩ := h.waits head List.mem_cons_self
    have hmem : id ∈ s.reading := List.mem_flatMap.mpr ⟨head, hhead, hid⟩
    exact (h.wellFormed.mem_reading_iff.mp hmem).2
  waits other hother := by
    obtain ⟨hhead, -⟩ := h.waits head List.mem_cons_self
    obtain ⟨hmem, -⟩ := h.waits other (List.mem_cons_of_mem _ hother)
    refine ⟨hmem, fun hsame => ?_⟩
    -- Two heads on one chain are one head.
    obtain ⟨after, hiter⟩ := h.wellFormed.iter_eq_cons (mem_heads_iff.mp hhead).1
    obtain ⟨after', hiter'⟩ := h.wellFormed.iter_eq_cons (mem_heads_iff.mp hmem).1
    have heq := (h.wellFormed.isChain_iter hhead).eq_of_mem h.wellFormed
      (h.wellFormed.isChain_iter hmem) hsame (by simp [hiter'])
    obtain ⟨rfl, -⟩ : head = other ∧ after = after' := by simpa [hiter, hiter'] using heq
    exact (List.nodup_cons.mp h.nodup).1 hother
  nodup := h.nodup.of_cons

/-- The next chain begins with its head. -/
theorem head?_iter (h : s.Route behind ahead (head :: heads)) : some head = (s.iter head).head? :=
  (h.wellFormed.head?_iter (mem_heads_iff.mp (h.waits head List.mem_cons_self).1).1).symm

/-- A change of the chain at hand leaves the chains that wait. -/
theorem of_consumes (h : s.Route behind ahead heads) (hconsumes : ConsumesOn s s' (behind ++ ahead))
    (hchain : s'.IsChain (behind' ++ ahead'))
    (hsubset : ∀ id ∈ behind' ++ ahead', id ∈ behind ++ ahead)
    (hreach : ∀ id ∈ ahead', s'.state id ≠ .removed) : s'.Route behind' ahead' heads where
  wellFormed := hconsumes.wellFormed
  isChain := hchain
  state_ne := hreach
  waits head hhead := by
    obtain ⟨hmem, hnot⟩ := h.waits head hhead
    obtain ⟨hlt, hreach, hprevious⟩ := mem_heads_iff.mp hmem
    have hlink := hconsumes.link_eq head hnot
    refine ⟨mem_heads_iff.mpr ⟨hconsumes.size_eq ▸ hlt, ?_, ?_⟩, fun hin => hnot (hsubset _ hin)⟩
    · rwa [state, hlink]
    · rwa [previous, hlink]
  nodup := h.nodup

/-- A chain that waits reads the same after a change of the chain at hand. -/
theorem iter_eq (h : s.Route behind ahead heads) (hconsumes : ConsumesOn s s' (behind ++ ahead))
    (hhead : head ∈ heads) : s'.iter head = s.iter head := by
  obtain ⟨hmem, -⟩ := h.waits head hhead
  obtain ⟨after, hiter⟩ := h.wellFormed.iter_eq_cons (mem_heads_iff.mp hmem).1
  have hchain : s'.IsChain ([] ++ head :: after) := hiter ▸
    hconsumes.isChain_of_disjoint (h.wellFormed.isChain_iter hmem)
      fun id hid => h.notMem_of_mem_iter hhead hid
  rw [hiter]
  exact hchain.trail_next hconsumes.wellFormed

/-- All chains that wait read the same after a change of the chain at hand. -/
theorem flatMap_iter_eq (h : s.Route behind ahead heads)
    (hconsumes : ConsumesOn s s' (behind ++ ahead)) :
    heads.flatMap s'.iter = heads.flatMap s.iter :=
  List.flatMap_congr fun _ hhead => h.iter_eq hconsumes hhead

end Route

end Sequence

end DocTree
