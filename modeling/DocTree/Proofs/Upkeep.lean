import DocTree.Proofs.WellFormed

/-!
# The operations keep sequences well-formed

Pushing, claiming and emptying leave every bond alone. Putting a link after another one and removing
a link rewrite the bonds around one place: the first adds a step to every walk that passes there,
the second drops one, and neither closes a circle.
-/

namespace DocTree

namespace Sequence

variable {s s' : Sequence} {id other : LinkId}

/-- The empty sequence is well-formed. -/
theorem wellFormed_empty : ({} : Sequence).WellFormed := by
  have hlink : ∀ id, ({} : Sequence).link id = {} := fun id => link_of_size_le (Nat.zero_le id)
  constructor
  case acyclic => exact acyclic_of_rank (fun _ => 0) (by simp [next, hlink])
  all_goals simp [next, previous, state, hlink]

namespace WellFormed

/-- A sequence with the same bonds as a well-formed one is well-formed if it has no more removed
links and its emptied links are bare. -/
theorem of_bonds (hs : s.WellFormed) (hsize : s.size ≤ s'.size)
    (hprevious : ∀ a, s'.previous a = s.previous a) (hnext : ∀ a, s'.next a = s.next a)
    (hremoved : ∀ a, s'.state a = .removed → s.state a = .removed)
    (hemptied : ∀ a, s'.state a = .emptied → s'.data a = "" ∧ s'.value a = "") : s'.WellFormed where
  previous_lt a b h := (hs.previous_lt a b (hprevious b ▸ h)).trans_le hsize
  next_lt a b h := (hs.next_lt a b (hnext a ▸ h)).trans_le hsize
  next_iff a b := by rw [hnext, hprevious, hs.next_iff]
  acyclic := by simpa only [hnext] using hs.acyclic
  removed a h := by rw [hprevious, hnext]; exact hs.removed a (hremoved a h)
  emptied := hemptied

/-- Pushing a link keeps a sequence well-formed. -/
theorem push (hs : s.WellFormed) (token : Token) : (s.push token).WellFormed := by
  refine hs.of_bonds (by simp) (by simp) (by simp) (by simp) fun a h => ?_
  rw [state_push] at h
  have hne : a ≠ s.size := by
    rintro rfl
    simp [state, link_of_size_le] at h
  simpa [data, value, link_push_of_ne hne] using hs.emptied a h

/-- Claiming a link keeps a sequence well-formed. -/
theorem claim (hs : s.WellFormed) (hid : id < s.size) : (s.claim id).WellFormed := by
  refine hs.of_bonds (by simp) (by simp) (by simp) (fun a h => ?_) fun a h => ?_
  all_goals
    rw [state_claim hid] at h
    split at h
    · cases h
  · exact h
  · simpa using hs.emptied a h

/-- Emptying a link keeps a sequence well-formed. -/
theorem empty (hs : s.WellFormed) (hid : id < s.size) : (s.empty id).1.WellFormed := by
  by_cases hreach : s.state id = .removed
  · rw [empty_of_removed hreach]
    exact hs
  · refine hs.of_bonds (by simp) (by simp) (by simp) (fun a h => ?_) fun a h => ?_
    · rw [state_empty hid hreach] at h
      split at h
      · cases h
      · exact h
    · rw [state_empty hid hreach] at h
      rw [← token_eq_blank_iff, token_empty hid hreach]
      split at h
      · next heq => rw [if_pos heq]
      · next hne =>
        rw [if_neg hne, token_eq_blank_iff]
        exact hs.emptied a h

/-! ## Linking after a link -/

section LinkAfter

variable {after : LinkId} (hs : s.WellFormed) (hafter : after < s.size) (hid : id < s.size)
  (hne : id ≠ after) (hprevious : s.previous id = none)

include hs hprevious in
/-- The link after `after` is in the sequence and is neither `after` nor the link that is linked. -/
theorem successor_spec (after next : LinkId) (h : s.next after = some next) :
    next < s.size ∧ next ≠ after ∧ next ≠ id := by
  refine ⟨(hs.next_spec next h).1, (hs.next_spec next h).2, ?_⟩
  rintro rfl
  simp [(hs.next_iff after next).mp h] at hprevious

include hs hafter hid hne hprevious

/-- A link put after `after` is followed by what followed `after`. -/
theorem next_linkAfter (other : LinkId) :
    (s.linkAfter after id).next other =
      if other = id then s.next after else if other = after then some id else s.next other := by
  rw [next, link_linkAfter hafter hid hne (hs.successor_spec hprevious after)]
  simp only [apply_ite Link.next, ite_self]
  rfl

/-- A link put after `after` is preceded by it, and precedes what followed `after`. -/
theorem previous_linkAfter (other : LinkId) :
    (s.linkAfter after id).previous other =
      if other = id then some after
      else if s.next after = some other then some id else s.previous other := by
  have hsuccessor := hs.successor_spec hprevious after
  rw [previous, link_linkAfter hafter hid hne hsuccessor]
  split_ifs with hself hafter' hnext hnext
  · rfl
  · exact absurd hafter' (hsuccessor other hnext).2.1
  · rw [hafter', previous]
  · rfl
  · rfl

/-- Linking changes no state. -/
theorem state_linkAfter (other : LinkId) : (s.linkAfter after id).state other = s.state other := by
  rw [state, link_linkAfter hafter hid hne (hs.successor_spec hprevious after)]
  split_ifs with hself hself
  · rw [hself, state]
  · rw [hself, state]
  · rfl
  · rfl

/-- Linking changes no token. -/
theorem token_linkAfter (other : LinkId) :
    ((s.linkAfter after id).link other).token = (s.link other).token := by
  rw [link_linkAfter hafter hid hne (hs.successor_spec hprevious after)]
  split_ifs with hself hself
  · rw [hself, Link.token, Link.token]
  · rw [hself, Link.token, Link.token]
  · rfl
  · rfl

/-- The bonds around a linked link have two sides. -/
theorem next_iff_linkAfter (hnext : s.next id = none) (a b : LinkId) :
    (s.linkAfter after id).next a = some b ↔ (s.linkAfter after id).previous b = some a := by
  have hab := hs.next_iff a b
  rw [hs.next_linkAfter hafter hid hne hprevious, hs.previous_linkAfter hafter hid hne hprevious]
  split_ifs <;> grind [hs.next_iff]

/-- Linking closes no circle: the new link stands halfway between `after` and what followed it. -/
theorem acyclic_linkAfter (a : LinkId) :
    ¬ Relation.TransGen (fun a b => (s.linkAfter after id).next a = some b) a a := by
  obtain ⟨behind, -, hbehind⟩ := hs.exists_ahead .previous
  have hstep : ∀ a b, s.next a = some b → b ≠ id ∧ behind a < behind b := by
    intro a b h
    have hback := (hs.next_iff a b).mp h
    exact ⟨fun heq => by simp [← heq, hback] at hprevious, hbehind b a hback⟩
  refine acyclic_of_rank (fun a => if a = id then 2 * behind after + 1 else 2 * behind a) ?_ a
  intro a b hab
  rw [hs.next_linkAfter hafter hid hne hprevious] at hab
  split_ifs at hab with ha ha'
  · obtain ⟨hb, hlt⟩ := hstep after b hab
    simp only [ha, hb, if_true, if_false]
    omega
  · obtain rfl := Option.some.inj hab
    simp only [if_true, ha', if_neg (Ne.symm hne)]
    omega
  · obtain ⟨hb, hlt⟩ := hstep a b hab
    simp only [ha, hb, if_false]
    omega

/-- Putting a detached link after another one keeps a sequence well-formed. -/
theorem linkAfter (hnext : s.next id = none) (hreach : s.state id ≠ .removed)
    (hreachAfter : s.state after ≠ .removed) : (s.linkAfter after id).WellFormed := by
  have hnext' := hs.next_linkAfter hafter hid hne hprevious
  have hprevious' := hs.previous_linkAfter hafter hid hne hprevious
  have hstate' := hs.state_linkAfter hafter hid hne hprevious
  have htoken' := hs.token_linkAfter hafter hid hne hprevious
  constructor
  case next_lt =>
    intro a b hab
    rw [size_linkAfter]
    rw [hnext'] at hab
    split_ifs at hab
    · exact hs.next_lt after b hab
    · exact Option.some.inj hab ▸ hid
    · exact hs.next_lt a b hab
  case previous_lt =>
    intro a b hab
    rw [size_linkAfter]
    rw [hprevious'] at hab
    split_ifs at hab
    · exact Option.some.inj hab ▸ hafter
    · exact Option.some.inj hab ▸ hid
    · exact hs.previous_lt a b hab
  case next_iff => exact hs.next_iff_linkAfter hafter hid hne hprevious hnext
  case acyclic => exact hs.acyclic_linkAfter hafter hid hne hprevious
  case removed =>
    intro a ha
    rw [hstate'] at ha
    have hid' : a ≠ id := fun heq => hreach (heq ▸ ha)
    have hafter' : a ≠ after := fun heq => hreachAfter (heq ▸ ha)
    have hbond : s.next after ≠ some a := fun h => (hs.state_of_next h).2 ha
    rw [hprevious', hnext', if_neg hid', if_neg hid', if_neg hbond, if_neg hafter']
    exact hs.removed a ha
  case emptied =>
    intro a h
    rw [hstate'] at h
    rw [← token_eq_blank_iff, htoken', token_eq_blank_iff]
    exact hs.emptied a h

end LinkAfter

/-! ## Pushing after a link -/

section PushAfter

variable (hs : s.WellFormed) {after : LinkId} (hafter : after < s.size) (token : Token)

/-- A link that was there before a push is still there. -/
theorem lt_size_push (h : id < s.size) (token : Token) : id < (s.push token).size := by
  rw [size_push]
  exact Nat.lt_succ_of_lt h

include hs hafter

/-- A link pushed after another one is followed by what followed that one. -/
theorem next_pushAfter (other : LinkId) :
    (s.pushAfter (some after) token).next other =
      if other = s.size then s.next after
      else if other = after then some s.size else s.next other := by
  rw [Sequence.pushAfter, (hs.push token).next_linkAfter (lt_size_push hafter token) (by simp)
    (Nat.ne_of_gt hafter) (by simp [previous_size])]
  simp only [next_push]

/-- A link pushed after another one is preceded by that one, and precedes what followed it. -/
theorem previous_pushAfter (other : LinkId) :
    (s.pushAfter (some after) token).previous other =
      if other = s.size then some after
      else if s.next after = some other then some s.size else s.previous other := by
  rw [Sequence.pushAfter, (hs.push token).previous_linkAfter (lt_size_push hafter token) (by simp)
    (Nat.ne_of_gt hafter) (by simp [previous_size])]
  simp only [next_push, previous_push]

/-- Pushing after a link changes no state. -/
theorem state_pushAfter (other : LinkId) :
    (s.pushAfter (some after) token).state other = s.state other := by
  rw [Sequence.pushAfter, (hs.push token).state_linkAfter (lt_size_push hafter token) (by simp)
    (Nat.ne_of_gt hafter) (by simp [previous_size]), state_push]

/-- Pushing after a link brings a new token, and changes no other. -/
theorem token_pushAfter (other : LinkId) :
    ((s.pushAfter (some after) token).link other).token =
      if other = s.size then token else (s.link other).token := by
  rw [Sequence.pushAfter, (hs.push token).token_linkAfter (lt_size_push hafter token) (by simp)
    (Nat.ne_of_gt hafter) (by simp [previous_size]), token_push]

end PushAfter

/-- Pushing a link after one that is in a chain keeps a sequence well-formed. -/
theorem pushAfter (hs : s.WellFormed) {after : Option LinkId} (token : Token)
    (hafter : ∀ link ∈ after, link < s.size ∧ s.state link ≠ .removed) :
    (s.pushAfter after token).WellFormed := by
  cases after with
  | none => exact hs.push token
  | some after =>
    obtain ⟨hlt, hreach⟩ := hafter after rfl
    have hblank : s.link s.size = {} := link_of_size_le le_rfl
    refine (hs.push token).linkAfter ?_ ?_ ?_ ?_ ?_ ?_ ?_
    · exact lt_size_push hlt token
    · rw [size_push]
      exact Nat.lt_succ_self _
    · exact (Nat.ne_of_lt hlt).symm
    · rw [previous_push, previous_size]
    · rw [next_push]
      simp [next, hblank]
    · rw [state_push]
      simp [state, hblank]
    · rwa [state_push]

/-! ## Removing a link -/

section Remove

variable (hs : s.WellFormed) (hid : id < s.size) (hreach : s.state id ≠ .removed)
include hs hid hreach

/-- What came before a removed link is followed by what came after it. -/
theorem next_remove (other : LinkId) :
    (s.remove id).1.next other =
      if other = id then none
      else if s.previous id = some other then s.next id else s.next other := by
  rw [next, link_remove hid hreach hs.previous_spec hs.next_spec, apply_ite Link.next]

/-- What came after a removed link is preceded by what came before it. -/
theorem previous_remove (other : LinkId) :
    (s.remove id).1.previous other =
      if other = id then none
      else if s.next id = some other then s.previous id else s.previous other := by
  rw [previous, link_remove hid hreach hs.previous_spec hs.next_spec, apply_ite Link.previous]

/-- Only the link that is removed changes its state. -/
theorem state_remove (other : LinkId) :
    (s.remove id).1.state other = if other = id then .removed else s.state other := by
  rw [state, link_remove hid hreach hs.previous_spec hs.next_spec, apply_ite Link.state]
  rfl

/-- Removing changes no token. -/
theorem token_remove (other : LinkId) :
    ((s.remove id).1.link other).token = (s.link other).token := by
  rw [link_remove hid hreach hs.previous_spec hs.next_spec]
  split
  · next hself => rw [hself, Link.token, Link.token]
  · rfl

/-- The bonds around a removed link have two sides. -/
theorem next_iff_remove (a b : LinkId) :
    (s.remove id).1.next a = some b ↔ (s.remove id).1.previous b = some a := by
  have hab := hs.next_iff a b
  have ha := hs.next_iff a id
  have hb := hs.next_iff id b
  have hself : s.next id ≠ some id ∧ s.previous id ≠ some id :=
    ⟨fun h => (hs.next_spec id h).2 rfl, fun h => (hs.previous_spec id h).2 rfl⟩
  rw [hs.next_remove hid hreach, hs.previous_remove hid hreach]
  split_ifs <;> grind

/-- The one new bond after a removal stands for the two that it replaces. -/
theorem next_of_next_remove {a b : LinkId} (hab : (s.remove id).1.next a = some b) :
    s.next a = some b ∨ s.next a = some id ∧ s.next id = some b := by
  rw [hs.next_remove hid hreach] at hab
  split_ifs at hab with _ ha
  · exact .inr ⟨(hs.next_iff a id).mpr ha, hab⟩
  · exact .inl hab

end Remove

/-- A link that was to be removed is removed. -/
theorem state_remove_self (hs : s.WellFormed) (hid : id < s.size) :
    (s.remove id).1.state id = .removed := by
  by_cases hreach : s.state id = .removed
  · rw [remove_of_removed hreach]
    exact hreach
  · rw [hs.state_remove hid hreach, if_pos rfl]

/-- Removing a link keeps a sequence well-formed. -/
theorem remove (hs : s.WellFormed) (hid : id < s.size) : (s.remove id).1.WellFormed := by
  by_cases hreach : s.state id = .removed
  · rw [remove_of_removed hreach]
    exact hs
  have hstate' := hs.state_remove hid hreach
  have htoken' := hs.token_remove hid hreach
  constructor
  case next_lt =>
    intro a b hab
    rw [size_remove]
    rcases hs.next_of_next_remove hid hreach hab with h | ⟨-, h⟩
    · exact hs.next_lt a b h
    · exact hs.next_lt id b h
  case previous_lt =>
    intro a b hab
    exact lt_size_of_next ((hs.next_iff_remove hid hreach a b).mpr hab)
  case next_iff => exact hs.next_iff_remove hid hreach
  case acyclic =>
    intro a hcycle
    have hsub : (fun a b => (s.remove id).1.next a = some b) ≤
        Relation.TransGen (fun a b => s.next a = some b) := by
      intro a b hab
      rcases hs.next_of_next_remove hid hreach hab with h | ⟨h, h'⟩
      · exact .single h
      · exact .tail (.single h) h'
    exact hs.acyclic a (Relation.transGen_minimal hsub a a hcycle)
  case removed =>
    intro a ha
    rw [hstate'] at ha
    rw [hs.previous_remove hid hreach, hs.next_remove hid hreach]
    split_ifs at ha ⊢ with h₁ h₂ h₃ h₃
    · exact ⟨rfl, rfl⟩
    · exact absurd ha (hs.state_of_next h₂).2
    · exact absurd ha (hs.state_of_next h₂).2
    · exact absurd ha (hs.state_of_next ((hs.next_iff a id).mpr h₃)).1
    · exact hs.removed a ha
  case emptied =>
    intro a h
    rw [hstate'] at h
    split at h
    · cases h
    · rw [← token_eq_blank_iff, htoken', token_eq_blank_iff]
      exact hs.emptied a h

end WellFormed

end Sequence

end DocTree
