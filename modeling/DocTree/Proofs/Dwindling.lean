import DocTree.Proofs.Pruning

/-!
# How links go

Constructors may do more than use up live links: they may also take out links that are claimed or
emptied. Whatever they do, no link becomes live again or comes back, what stays live keeps its
token, and every chain loses just the links that are removed. This relation between the sequence
before and after is transitive and holds of every single removal, and the number of live links falls
along it.
-/

namespace DocTree

namespace Sequence

variable {s s' s'' : Sequence} {id other : LinkId} {chain : List LinkId}

/-- One sequence comes from another by changing no link but for the worse: a link that is live was
live with the same token, a removed link stays removed, and a chain loses the links that are
removed. -/
structure Dwindles (s s' : Sequence) : Prop where
  wellFormed : s'.WellFormed
  size_eq : s'.size = s.size
  live_of : ∀ id, s'.state id = .live → s.state id = .live ∧ (s'.link id).token = (s.link id).token
  removed_of : ∀ id, s.state id = .removed → s'.state id = .removed
  chain : ∀ chain, s.IsChain chain → s'.IsChain (chain.filter s'.isReachable)

/-- A removed link is a chain of its own, so that a chain without it is empty. -/
theorem IsChain.filter_isReachable (hs : s.WellFormed) (h : s.IsChain chain) :
    s.IsChain (chain.filter s.isReachable) := by
  by_cases hall : ∀ id ∈ chain, s.state id ≠ .removed
  · rw [List.filter_eq_self.mpr fun id hid => isReachable_iff.mpr (hall id hid)]
    exact h
  · have hnone : ∀ id ∈ chain, s.state id = .removed := by
      by_contra hsome
      push Not at hall hsome
      obtain ⟨id, hid, hreach⟩ := hsome
      obtain ⟨x, hx, hremoved⟩ := hall
      exact h.state_ne hs hid hreach x hx hremoved
    rw [List.filter_eq_nil_iff.mpr fun id hid => by simp [isReachable, hnone id hid]]
    exact .nil

namespace Dwindles

/-- Doing nothing changes nothing for the worse. -/
theorem refl (hs : s.WellFormed) : Dwindles s s where
  wellFormed := hs
  size_eq := rfl
  live_of _ hlive := ⟨hlive, rfl⟩
  removed_of _ hremoved := hremoved
  chain _ h := h.filter_isReachable hs

/-- A link that is not removed was not removed before. -/
theorem isReachable_of (h : Dwindles s s') (hreach : s'.isReachable id = true) :
    s.isReachable id = true := by
  rw [isReachable_iff] at hreach ⊢
  exact fun hremoved => hreach (h.removed_of id hremoved)

/-- What is left of some links in the end is left of those that were left meanwhile. -/
theorem filter_filter (h : Dwindles s s') (links : List LinkId) :
    (links.filter s.isReachable).filter s'.isReachable = links.filter s'.isReachable := by
  rw [List.filter_filter]
  refine List.filter_congr fun id _ => ?_
  cases hreach : s'.isReachable id with
  | true => rw [h.isReachable_of hreach, Bool.and_self]
  | false => rw [Bool.false_and]

/-- Two changes for the worse are one. -/
theorem trans (h : Dwindles s s') (h' : Dwindles s' s'') : Dwindles s s'' where
  wellFormed := h'.wellFormed
  size_eq := h'.size_eq.trans h.size_eq
  live_of id hlive := by
    obtain ⟨hlive', htoken'⟩ := h'.live_of id hlive
    obtain ⟨hlive, htoken⟩ := h.live_of id hlive'
    exact ⟨hlive, htoken'.trans htoken⟩
  removed_of id hremoved := h'.removed_of id (h.removed_of id hremoved)
  chain chain hchain := by
    rw [← h'.filter_filter]
    exact h'.chain _ (h.chain chain hchain)

/-- Removing a link of a well-formed sequence changes no other link but for its neighbours. -/
theorem remove (hs : s.WellFormed) (hid : id < s.size) : Dwindles s (s.remove id).1 := by
  by_cases hremoved : s.state id = .removed
  · rw [remove_of_removed hremoved]
    exact refl hs
  have hstate := hs.state_remove hid hremoved
  exact {
    wellFormed := hs.remove hid
    size_eq := size_remove s id
    live_of := fun other hlive => by
      rw [hstate] at hlive
      split at hlive
      · cases hlive
      · exact ⟨hlive, hs.token_remove hid hremoved other⟩
    removed_of := fun other hother => by
      rw [hstate]
      split
      · rfl
      · exact hother
    chain := fun chain hchain => by
      have hout := (hchain.filter_isReachable hs).remove hs hid hremoved
      rw [List.filter_filter] at hout
      rwa [List.filter_congr fun other _ => ?_]
      by_cases heq : other = id
      · simp [isReachable, hstate, heq]
      · simp [isReachable, hstate, heq] }

/-! ## The number of live links -/

/-- Among any links, those that are live afterwards were live before. -/
theorem countP_isLive_le (h : Dwindles s s') (ids : List LinkId) :
    ids.countP s'.isLive ≤ ids.countP s.isLive :=
  List.countP_mono_left fun id _ hlive => isLive_iff.mpr (h.live_of id (isLive_iff.mp hlive)).1

/-- There are no more live links afterwards. -/
theorem liveCount_le (h : Dwindles s s') : s'.liveCount ≤ s.liveCount := by
  unfold liveCount ids
  rw [h.size_eq]
  exact h.countP_isLive_le _

/-- If a live link is no longer live, there are fewer live ones. -/
theorem liveCount_lt (h : Dwindles s s') (hid : id < s.size) (hlive : s.state id = .live)
    (hend : s'.state id ≠ .live) : s'.liveCount < s.liveCount := by
  obtain ⟨before, after, hids⟩ := List.append_of_mem (List.mem_range.mpr hid)
  have hids' : s'.ids = before ++ id :: after := by rw [ids, h.size_eq, hids]
  have hbefore := h.countP_isLive_le before
  have hafter := h.countP_isLive_le after
  rw [liveCount, liveCount, hids', ids, hids]
  simp only [List.countP_append, List.countP_cons, isLive_iff.mpr hlive, if_true, isLive_iff, hend,
    if_false]
  omega

end Dwindles

end Sequence

end DocTree
