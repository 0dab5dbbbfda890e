import DocTree.Proofs.Chains
import DocTree.Registry

/-!
# Bonds alone

Whatever has become of the links of a sequence, its bonds make threads that come to an end. This is
less than well-formedness, which also says what removed and emptied links look like, and it survives
more: a link may be pushed after a removed one. A sequence is threaded when it would be well-formed
with all its links live again; since no bond depends on a state, what is known about the bonds of
well-formed sequences carries over.
-/

namespace DocTree

namespace Sequence

variable {s s' s'' : Sequence} {id other : LinkId}

/-! ## Live again -/

/-- The sequence with every link live again. -/
def revived (s : Sequence) : Sequence :=
  { links := s.links.map fun link => { link with state := .live } }

/-- No link is added. -/
@[simp]
theorem size_revived (s : Sequence) : s.revived.size = s.size :=
  Array.size_map

/-- Each link is live and as it was otherwise. -/
theorem link_revived (s : Sequence) (id : LinkId) :
    s.revived.link id = { s.link id with state := .live } := by
  cases hget : s.links[id]? <;> simp [link, revived, hget]

/-- No bond depends on a state. -/
@[simp]
theorem previous_revived (s : Sequence) (id : LinkId) : s.revived.previous id = s.previous id := by
  rw [previous, link_revived, previous]

/-- No bond depends on a state. -/
@[simp]
theorem next_revived (s : Sequence) (id : LinkId) : s.revived.next id = s.next id := by
  rw [next, link_revived, next]

/-- No bond depends on a state. -/
@[simp]
theorem step_revived (s : Sequence) (direction : Direction) (id : LinkId) :
    s.revived.step direction id = s.step direction id := by
  cases direction
  · exact previous_revived s id
  · exact next_revived s id

/-- Every link is live. -/
@[simp]
theorem state_revived (s : Sequence) (id : LinkId) : s.revived.state id = .live := by
  rw [state, link_revived]

/-- A trail follows bonds only. -/
@[simp]
theorem trail_revived (s : Sequence) (direction : Direction) (id : LinkId) :
    s.revived.trail direction id = s.trail direction id := by
  have hcount (count : ℕ) : ∀ id,
      s.revived.trailUpTo direction count id = s.trailUpTo direction count id := by
    induction count with
    | zero => exact fun _ => rfl
    | succ count ih => simp [trailUpTo, ih]
  rw [trail, hcount, size_revived, trail]

/-- A change commutes with reviving if it makes the same of a link that is live again. -/
theorem revived_modify {f g : Link → Link}
    (h : ∀ link, { f link with state := .live } = g { link with state := .live })
    (s : Sequence) (id : LinkId) : (s.modify id f).revived = s.revived.modify id g := by
  simp only [revived, modify, mk.injEq]
  refine Array.ext (by simp) fun i hi _ => ?_
  by_cases heq : id = i
  · subst heq
    simp [Array.getElem_modify, h]
  · simp [Array.getElem_modify, heq]

/-- Setting a successor commutes with reviving. -/
theorem revived_setNext (s : Sequence) (id : LinkId) (next : Option LinkId) :
    (s.setNext id next).revived = s.revived.setNext id next :=
  revived_modify (fun _ => rfl) s id

/-- Setting a predecessor commutes with reviving. -/
theorem revived_setPrevious (s : Sequence) (id : LinkId) (previous : Option LinkId) :
    (s.setPrevious id previous).revived = s.revived.setPrevious id previous :=
  revived_modify (fun _ => rfl) s id

/-- Linking commutes with reviving. -/
theorem revived_linkAfter (s : Sequence) (after id : LinkId) :
    (s.linkAfter after id).revived = s.revived.linkAfter after id := by
  simp only [linkAfter, next_revived]
  cases s.next after <;> simp [revived_setNext, revived_setPrevious]

/-- Reviving twice is no more than reviving. -/
@[simp]
theorem revived_revived (s : Sequence) : s.revived.revived = s.revived := by
  simp [revived, Function.comp_def]

/-- Removing a link that is in a chain has the same effect on the bonds of the revived sequence. -/
theorem revived_remove (h : s.state id ≠ .removed) :
    (s.remove id).1.revived = (s.revived.remove id).1.revived := by
  have hreach : s.isReachable id = true := isReachable_iff.mpr h
  have hreach' : s.revived.isReachable id = true := isReachable_iff.mpr (by simp)
  have halone (t : Sequence) := revived_modify
    (f := fun link => { link with previous := none, next := none })
    (g := fun link => { link with previous := none, next := none }) (fun _ => rfl) t id
  have hmark (t : Sequence) := revived_modify
    (f := fun link => { link with state := .removed }) (g := fun link => link) (fun _ => rfl) t id
  -- Marking the link as removed is undone on both sides, and the bonds change alike.
  simp only [remove, hreach, hreach', if_true, hmark, previous_revived, next_revived]
  cases s.previous id <;> cases s.next id <;>
    simp only [revived_setNext, revived_setPrevious, halone, revived_revived]

/-! ## Threaded sequences -/

/-- The bonds of a sequence are those of a well-formed one. -/
def Threaded (s : Sequence) : Prop :=
  s.revived.WellFormed

/-- A well-formed sequence is threaded. -/
theorem WellFormed.threaded (hs : s.WellFormed) : s.Threaded :=
  hs.of_bonds (by simp) (by simp) (by simp) (by simp) (by simp)

namespace Threaded

/-- A sequence with the same bonds as a threaded one is threaded. -/
theorem of_bonds (hs : s.Threaded) (hsize : s.size ≤ s'.size)
    (hprevious : ∀ a, s'.previous a = s.previous a) (hnext : ∀ a, s'.next a = s.next a) :
    s'.Threaded :=
  WellFormed.of_bonds hs (by simpa using hsize) (by simpa using hprevious) (by simpa using hnext)
    (by simp) (by simp)

/-- A link that a link is bound to lies in the sequence. -/
theorem step_lt (hs : s.Threaded) (direction : Direction) (h : s.step direction id = some other) :
    other < s.size := by
  simpa using WellFormed.step_lt hs (step_revived s direction id ▸ h)

/-- A trail runs from its link along bonds until there are none. -/
theorem trail_spec (hs : s.Threaded) (direction : Direction) (hid : id < s.size) :
    (s.trail direction id).head? = some id ∧
      (s.trail direction id).IsChain (fun a b => s.step direction a = some b) ∧
      ∀ a ∈ (s.trail direction id).getLast?, s.step direction a = none := by
  have hid' : id < s.revived.size := by simpa using hid
  have htrail := WellFormed.trail_eq hs direction hid'
  obtain ⟨hlinked, hlast⟩ := WellFormed.trail_linked hs direction hid'
  simp only [trail_revived, step_revived] at htrail hlinked hlast
  exact ⟨by rw [htrail, List.head?_cons], hlinked, hlast⟩

/-- Both ends of a link's chain lie in the sequence. -/
theorem trail_last_lt (hs : s.Threaded) (direction : Direction) (hid : id < s.size) :
    (s.trail direction id).getLastD id < s.size := by
  have hmem : ∀ a ∈ s.revived.trail direction id, a < s.revived.size :=
    WellFormed.lt_of_mem_trail hs (by simpa using hid)
  simp only [trail_revived, size_revived] at hmem
  have hlast : (s.trail direction id).getLastD id ∈ id :: s.trail direction id :=
    List.getLastD_mem_cons
  rcases List.mem_cons.mp hlast with heq | hlast
  · rwa [heq]
  · exact hmem _ hlast

/-- The link that a target names lies in the sequence. -/
theorem resolve_lt (hs : s.Threaded) (hid : id < s.size) (target : Target) :
    ∀ other ∈ target.resolve s id, other < s.size := by
  intro other hother
  cases target with
  | self => exact Option.some.inj hother ▸ hid
  | previous => exact hs.step_lt .previous hother
  | next => exact hs.step_lt .next hother
  | head => exact Option.some.inj hother ▸ hs.trail_last_lt .previous hid
  | tail => exact Option.some.inj hother ▸ hs.trail_last_lt .next hid

/-- The link after a removed one lies in the sequence. -/
theorem remove_snd_lt (hs : s.Threaded) (id : LinkId) :
    ∀ next ∈ (s.remove id).2, next < (s.remove id).1.size := by
  intro next hnext
  rw [size_remove]
  by_cases hreach : s.state id = .removed
  · simp [remove_of_removed hreach] at hnext
  · rw [remove_snd hreach] at hnext
    exact hs.step_lt .next hnext

end Threaded

/-! ## Growth -/

/-- A sequence has at least the links of another one, and its bonds still make threads. -/
structure Extends (s s' : Sequence) : Prop where
  size_le : s.size ≤ s'.size
  threaded : s'.Threaded

namespace Extends

/-- A threaded sequence has its own links. -/
theorem refl (hs : s.Threaded) : Extends s s :=
  ⟨le_rfl, hs⟩

/-- Sequences extend one another in turn. -/
theorem trans (h : Extends s s') (h' : Extends s' s'') : Extends s s'' :=
  ⟨h.size_le.trans h'.size_le, h'.threaded⟩

/-- A link stays in the sequence. -/
theorem lt_size (h : Extends s s') (hid : id < s.size) : id < s'.size :=
  hid.trans_le h.size_le

/-- Pushing a link keeps the bonds. -/
theorem push (hs : s.Threaded) (token : Token) : Extends s (s.push token) :=
  ⟨by simp, hs.of_bonds (by simp) (by simp) (by simp)⟩

/-- Claiming a link keeps the bonds. -/
theorem claim (hs : s.Threaded) (id : LinkId) : Extends s (s.claim id) :=
  ⟨by simp, hs.of_bonds (by simp) (by simp) (by simp)⟩

/-- Emptying a link keeps the bonds. -/
theorem empty (hs : s.Threaded) (id : LinkId) : Extends s (s.empty id).1 :=
  ⟨by simp, hs.of_bonds (by simp) (by simp) (by simp)⟩

/-- Removing a link closes a gap, whatever stands beside it. -/
theorem remove (hs : s.Threaded) (hid : id < s.size) : Extends s (s.remove id).1 := by
  refine ⟨by simp, ?_⟩
  by_cases hreach : s.state id = .removed
  · rw [remove_of_removed hreach]
    exact hs
  · rw [Threaded, revived_remove hreach]
    exact (WellFormed.remove hs (by simpa using hid)).threaded

/-- Linking a link without neighbours opens a gap, whatever has become of the link before it. -/
theorem linkAfter (hs : s.Threaded) {after : LinkId} (hafter : after < s.size) (hid : id < s.size)
    (hne : id ≠ after) (hprevious : s.previous id = none) (hnext : s.next id = none) :
    Extends s (s.linkAfter after id) := by
  refine ⟨by simp, ?_⟩
  rw [Threaded, revived_linkAfter]
  exact WellFormed.linkAfter hs (by simpa using hafter) (by simpa using hid) hne
    (by simpa using hprevious) (by simpa using hnext) (by simp) (by simp)

/-- Pushing a link after another one keeps threads, whatever has become of that one. -/
theorem pushAfter (hs : s.Threaded) {after : Option LinkId} (hafter : ∀ link ∈ after, link < s.size)
    (token : Token) : Extends s (s.pushAfter after token) := by
  cases after with
  | none => exact push hs token
  | some after =>
    have hlt := hafter after rfl
    have hpush := push hs token
    refine hpush.trans (linkAfter hpush.threaded (hpush.lt_size hlt) ?_ ?_ ?_ ?_)
    · simp
    · exact (Nat.ne_of_lt hlt).symm
    · simp [previous_size]
    · rw [next_push]
      simp [next, link_of_size_le]

/-- Pruning keeps threads, and the first link that stays lies in the sequence. -/
theorem pruneFrom (fuel : ℕ) (hs : s.Threaded) (current kept : Option LinkId)
    (hcurrent : ∀ link ∈ current, link < s.size) (hkept : ∀ link ∈ kept, link < s.size) :
    Extends s (Sequence.pruneFrom fuel s current kept).1 ∧
      ∀ link ∈ (Sequence.pruneFrom fuel s current kept).2,
        link < (Sequence.pruneFrom fuel s current kept).1.size := by
  induction fuel generalizing s current kept with
  | zero => exact ⟨.refl hs, hkept⟩
  | succ fuel ih =>
    cases current with
    | none => exact ⟨.refl hs, hkept⟩
    | some id =>
      have hid := hcurrent id rfl
      rw [Sequence.pruneFrom]
      split
      · have hremove := remove hs hid
        obtain ⟨hrest, hfirst⟩ := ih hremove.threaded (s.remove id).2 kept
          (hs.remove_snd_lt id) (by simpa using hkept)
        exact ⟨hremove.trans hrest, hfirst⟩
      · refine ih hs _ _ (fun next hnext => hs.step_lt .next hnext) fun link hlink => ?_
        cases kept with
        | none => exact Option.some.inj hlink ▸ hid
        | some first => exact hkept link hlink

end Extends

end Sequence

end DocTree
