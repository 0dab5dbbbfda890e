import DocTree.Proofs.Dwindling

/-!
# How building uses links up

Building nodes claims, empties and removes links that were live, and leaves every other link alone
but for its neighbours. One relation between the sequence before and after says this. It is
transitive, so that it holds of a whole run as soon as it holds of single changes, and the number of
live links falls along it.
-/

namespace DocTree

namespace Sequence

variable {s s' s'' : Sequence} {id other : LinkId} {chain : List LinkId}

/-- One sequence comes from another by using live links up: no link is added, a link that was not
live keeps its state, every link keeps its token unless it was live and is emptied, and a chain
loses the links that are removed. -/
structure Consumes (s s' : Sequence) : Prop where
  wellFormed : s'.WellFormed
  size_eq : s'.size = s.size
  state_eq : ∀ id, s.state id ≠ .live → s'.state id = s.state id
  token_eq : ∀ id, (s'.link id).token =
    if s.state id = .live ∧ s'.state id = .emptied then {} else (s.link id).token
  chain : ∀ chain, s.IsChain chain → s'.IsChain (chain.filter s'.isReachable)

/-- No link is live and emptied at once. -/
theorem ite_live_emptied {α : Type} (state : LinkState) (a b : α) :
    (if state = .live ∧ state = .emptied then a else b) = b := by
  cases state <;> simp

namespace Consumes

/-- Doing nothing uses nothing up. -/
theorem refl (hs : s.WellFormed) : Consumes s s where
  wellFormed := hs
  size_eq := rfl
  state_eq _ _ := rfl
  token_eq id := (ite_live_emptied (s.state id) _ _).symm
  chain _ h := h.filter_isReachable hs

/-- A removed link stays removed. -/
theorem isReachable_of (h : Consumes s s') (hreach : s'.isReachable id = true) :
    s.isReachable id = true := by
  rw [isReachable_iff] at hreach ⊢
  intro hremoved
  exact hreach ((h.state_eq id (by simp [hremoved])).trans hremoved)

/-- A live link was live before. -/
theorem live_of (h : Consumes s s') (hlive : s'.state id = .live) : s.state id = .live := by
  by_contra hne
  exact hne ((h.state_eq id hne).symm.trans hlive)

/-- Using links up in two turns is using them up. -/
theorem trans (h : Consumes s s') (h' : Consumes s' s'') : Consumes s s'' where
  wellFormed := h'.wellFormed
  size_eq := h'.size_eq.trans h.size_eq
  state_eq id hid := by
    have heq := h.state_eq id hid
    exact (h'.state_eq id (heq ▸ hid)).trans heq
  token_eq id := by
    rw [h'.token_eq, h.token_eq]
    by_cases hlive : s.state id = .live
    · by_cases hlive' : s'.state id = .live
      · simp [hlive, hlive']
      · have hsame := h'.state_eq id hlive'
        simp [hlive, hlive', hsame]
    · have hlive' : s'.state id ≠ .live := fun hback => hlive (h.live_of hback)
      simp [hlive, hlive']
  chain chain hchain := by
    have hboth := h'.chain _ (h.chain chain hchain)
    rw [List.filter_filter] at hboth
    rwa [List.filter_congr fun id _ => ?_]
    cases hreach : s''.isReachable id with
    | true => rw [h'.isReachable_of hreach, Bool.and_self]
    | false => rw [Bool.false_and]

/-- A live link that was not used up keeps its token. -/
theorem token_of_live (h : Consumes s s') (hlive : s'.state id = .live) :
    (s'.link id).token = (s.link id).token := by
  rw [h.token_eq, if_neg (by simp [hlive])]

/-- Claiming a link uses it up. -/
theorem claim (hs : s.WellFormed) (hid : id < s.size) : Consumes s (s.claim id) where
  wellFormed := hs.claim hid
  size_eq := size_claim s id
  state_eq other hother := by
    rw [state_claim hid, if_neg]
    rintro ⟨rfl, hlive⟩
    exact hother hlive
  token_eq other := by
    have hsame : ((s.claim id).link other).token = (s.link other).token :=
      token_eq_iff.mpr ⟨data_claim s id other, value_claim s id other⟩
    rw [hsame, if_neg]
    rintro ⟨hlive, hemptied⟩
    rw [state_claim hid, hlive] at hemptied
    split at hemptied
    · cases hemptied
    · cases hemptied
  chain chain h := by
    have hreach : (s.claim id).isReachable = s.isReachable := funext fun other => by
      rw [isReachable, isReachable, state_claim hid]
      split
      · next hclaimed =>
        rw [hclaimed.1, hclaimed.2]
        rfl
      · rfl
    rw [hreach]
    exact (h.filter_isReachable hs).of_bonds (by simp) (by simp) (by simp)

/-- Emptying a live link uses it up. -/
theorem empty (hs : s.WellFormed) (hid : id < s.size) (hlive : s.state id = .live) :
    Consumes s (s.empty id).1 where
  wellFormed := hs.empty hid
  size_eq := size_empty s id
  state_eq other hother := by
    rw [state_empty hid (by simp [hlive]), if_neg]
    rintro rfl
    exact hother hlive
  token_eq other := by
    rw [state_empty hid (by simp [hlive]), token_empty hid (by simp [hlive])]
    by_cases heq : other = id
    · simp [heq, hlive]
    · rw [if_neg heq, if_neg heq, ite_live_emptied]
  chain chain h := by
    have hreach : (s.empty id).1.isReachable = s.isReachable := funext fun other => by
      rw [isReachable, isReachable, state_empty hid (by simp [hlive])]
      split
      · next heq =>
        rw [heq, hlive]
        rfl
      · rfl
    rw [hreach]
    exact (h.filter_isReachable hs).of_bonds (by simp) (by simp) (by simp)

/-- A link that was live, and was used up at most by a claim, may be removed in the end. -/
theorem remove (h : Consumes s s') (hlive : s.state id = .live)
    (hend : s'.state id = .live ∨ s'.state id = .claimed) (hid : id < s.size) :
    Consumes s (s'.remove id).1 := by
  have hid' : id < s'.size := h.size_eq ▸ hid
  have hreach : s'.state id ≠ .removed := by
    rcases hend with hend | hend <;> simp [hend]
  have hkept : s'.state id ≠ .emptied := by
    rcases hend with hend | hend <;> simp [hend]
  have hstate := h.wellFormed.state_remove hid' hreach
  exact {
    wellFormed := h.wellFormed.remove hid'
    size_eq := (size_remove s' id).trans h.size_eq
    state_eq := fun other hother => by
      rw [hstate, if_neg, h.state_eq other hother]
      rintro rfl
      exact hother hlive
    token_eq := fun other => by
      rw [h.wellFormed.token_remove hid' hreach, h.token_eq, hstate]
      by_cases heq : other = id
      · simp [heq, hkept]
      · simp [heq]
    chain := fun chain hchain => by
      have hout := (h.chain chain hchain).remove h.wellFormed hid' hreach
      rw [List.filter_filter] at hout
      rwa [List.filter_congr fun other _ => ?_]
      by_cases heq : other = id
      · simp [isReachable, hstate, heq]
      · simp [isReachable, hstate, heq] }

/-! ## The number of live links -/

/-- Using links up changes them for the worse. -/
theorem dwindles (h : Consumes s s') : Dwindles s s' where
  wellFormed := h.wellFormed
  size_eq := h.size_eq
  live_of _ hlive := ⟨h.live_of hlive, h.token_of_live hlive⟩
  removed_of id hremoved := (h.state_eq id (by simp [hremoved])).trans hremoved
  chain := h.chain

/-- There are no more live links afterwards. -/
theorem liveCount_le (h : Consumes s s') : s'.liveCount ≤ s.liveCount :=
  h.dwindles.liveCount_le

/-- Using up a link leaves fewer live ones. -/
theorem liveCount_lt (h : Consumes s s') (hid : id < s.size) (hlive : s.state id = .live)
    (hend : s'.state id ≠ .live) : s'.liveCount < s.liveCount :=
  h.dwindles.liveCount_lt hid hlive hend

end Consumes

end Sequence

end DocTree
