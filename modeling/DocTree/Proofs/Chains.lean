import DocTree.Proofs.Upkeep
import Mathlib.Data.List.Chain

/-!
# Chains as lists

A chain of a well-formed sequence is the list of its links in order. The list says everything about
the bonds of its links, every link is on exactly one chain, and walks are parts of the list.
Removing a link takes it out of its list, and pushing a link after another one puts it into the list
there; all other chains stay.
-/

namespace DocTree

namespace Sequence

/-- A list holds all links of a chain, in order: each link has the neighbours that the list gives
it. -/
structure IsChain (s : Sequence) (chain : List LinkId) : Prop where
  lt_size : ∀ id ∈ chain, id < s.size
  bonds : ∀ before id after, chain = before ++ id :: after →
    s.previous id = before.getLast? ∧ s.next id = after.head?

variable {s s' : Sequence} {id other : LinkId} {chain before after : List LinkId}

namespace IsChain

/-- The empty list is the chain of no link. -/
theorem nil : s.IsChain [] :=
  ⟨by simp, by simp⟩

/-- What comes before a link of a chain. -/
theorem previous_eq (h : s.IsChain (before ++ id :: after)) : s.previous id = before.getLast? :=
  (h.bonds before id after rfl).1

/-- What comes after a link of a chain. -/
theorem next_eq (h : s.IsChain (before ++ id :: after)) : s.next id = after.head? :=
  (h.bonds before id after rfl).2

/-- Sequences with the same bonds have the same chains. -/
theorem of_bonds (h : s.IsChain chain) (hsize : s.size ≤ s'.size)
    (hprevious : ∀ id ∈ chain, s'.previous id = s.previous id)
    (hnext : ∀ id ∈ chain, s'.next id = s.next id) : s'.IsChain chain where
  lt_size id hid := (h.lt_size id hid).trans_le hsize
  bonds before id after heq := by
    have hmem : id ∈ chain := by simp [heq]
    rw [hprevious id hmem, hnext id hmem]
    exact h.bonds before id after heq

/-- A list of bonded links that begins and ends with a free side is a chain. -/
theorem of_linked (hs : s.WellFormed) (hlt : ∀ id ∈ chain, id < s.size)
    (hlinked : chain.IsChain fun a b => s.next a = some b)
    (hfirst : ∀ a ∈ chain.head?, s.previous a = none)
    (hlast : ∀ a ∈ chain.getLast?, s.next a = none) : s.IsChain chain where
  lt_size := hlt
  bonds before id after heq := by
    subst heq
    rw [List.isChain_append, List.isChain_cons] at hlinked
    obtain ⟨-, ⟨hafter, -⟩, hbefore⟩ := hlinked
    constructor
    · cases hb : before.getLast? with
      | none => exact hfirst id (by simp [List.getLast?_eq_none_iff.mp hb])
      | some p => exact (hs.next_iff p id).mp (hbefore p hb id rfl)
    · cases ha : after.head? with
      | none => exact hlast id (by simp [List.head?_eq_none_iff.mp ha])
      | some n => exact hafter n ha

/-- The links of a chain are bonded one to the next. -/
theorem linked (h : s.IsChain chain) : chain.IsChain fun a b => s.next a = some b := by
  rw [List.isChain_iff_forall_rel_of_append_cons_cons]
  intro a b before after heq
  simpa using (h.bonds before a (b :: after) heq).2

/-- No link is on a chain twice. -/
theorem nodup (hs : s.WellFormed) (h : s.IsChain chain) : chain.Nodup := by
  have hreach : chain.IsChain (Relation.TransGen fun a b => s.next a = some b) :=
    h.linked.imp fun _ _ hab => .single hab
  refine (List.isChain_iff_pairwise.mp hreach).imp fun {a b} hab heq => ?_
  exact hs.acyclic a (heq ▸ hab)

/-- A link of a chain is none of the others. -/
theorem notMem (hs : s.WellFormed) (h : s.IsChain (before ++ id :: after)) :
    id ∉ before ++ after :=
  (List.nodup_cons.mp (List.nodup_middle.mp (h.nodup hs))).1

/-- The predecessor of a link of a chain is on the chain. -/
theorem mem_of_previous (h : s.IsChain chain) (hid : id ∈ chain) (hp : s.previous id = some other) :
    other ∈ chain := by
  obtain ⟨before, after, rfl⟩ := List.append_of_mem hid
  rw [h.previous_eq] at hp
  exact List.mem_append_left _ (List.mem_of_getLast? hp)

/-- The successor of a link of a chain is on the chain. -/
theorem mem_of_next (h : s.IsChain chain) (hid : id ∈ chain) (hn : s.next id = some other) :
    other ∈ chain := by
  obtain ⟨before, after, rfl⟩ := List.append_of_mem hid
  rw [h.next_eq] at hn
  exact List.mem_append_right _ (List.mem_cons_of_mem _ (List.mem_of_head? hn))

/-! ## Walks along a chain -/

/-- Going on from a link of a chain meets the rest of the chain. -/
theorem trail_next (hs : s.WellFormed) (h : s.IsChain (before ++ id :: after)) :
    s.trail .next id = id :: after := by
  induction after generalizing before id with
  | nil =>
    rw [hs.trail_eq .next (h.lt_size id (by simp))]
    simp [step, h.next_eq]
  | cons n rest ih =>
    have hrest : s.IsChain ((before ++ [id]) ++ n :: rest) := by simpa using h
    rw [hs.trail_eq .next (h.lt_size id (by simp))]
    simp [step, h.next_eq, ih hrest]

/-- Going back from a link of a chain meets what comes before it, in reverse. -/
theorem trail_previous (hs : s.WellFormed) (h : s.IsChain (before ++ id :: after)) :
    s.trail .previous id = id :: before.reverse := by
  induction before using List.reverseRecOn generalizing id after with
  | nil =>
    rw [hs.trail_eq .previous (h.lt_size id (by simp))]
    simp [step, h.previous_eq]
  | append_singleton rest p ih =>
    have hrest : s.IsChain (rest ++ p :: id :: after) := by simpa using h
    rw [hs.trail_eq .previous (h.lt_size id (by simp))]
    simp [step, h.previous_eq, ih hrest]

/-- The head of a link's chain is the first link of the list. -/
theorem head_eq (hs : s.WellFormed) (h : s.IsChain chain) (hid : id ∈ chain) :
    chain.head? = some (s.head id) := by
  obtain ⟨before, after, rfl⟩ := List.append_of_mem hid
  rw [head, h.trail_previous hs]
  cases before <;> simp [List.getLastD_eq_getLast?, List.getLast?_cons]

/-- The tail of a link's chain is the last link of the list. -/
theorem tail_eq (hs : s.WellFormed) (h : s.IsChain chain) (hid : id ∈ chain) :
    chain.getLast? = some (s.tail id) := by
  obtain ⟨before, after, rfl⟩ := List.append_of_mem hid
  rw [tail, h.trail_next hs]
  simp [List.getLastD_eq_getLast?, List.getLast?_cons]

/-- A link is on one chain only. -/
theorem eq_of_mem (hs : s.WellFormed) {chain' : List LinkId} (h : s.IsChain chain)
    (h' : s.IsChain chain') (hid : id ∈ chain) (hid' : id ∈ chain') : chain = chain' := by
  obtain ⟨before, after, rfl⟩ := List.append_of_mem hid
  obtain ⟨before', after', rfl⟩ := List.append_of_mem hid'
  have hnext := (h.trail_next hs).symm.trans (h'.trail_next hs)
  have hprevious := (h.trail_previous hs).symm.trans (h'.trail_previous hs)
  simp_all

/-- When one link of a chain is not removed, none of them is. -/
theorem state_ne (hs : s.WellFormed) (h : s.IsChain chain) (hid : id ∈ chain)
    (hreach : s.state id ≠ .removed) : ∀ x ∈ chain, s.state x ≠ .removed := by
  intro x hx hremoved
  obtain ⟨before, after, rfl⟩ := List.append_of_mem hx
  obtain ⟨hprevious, hnext⟩ := hs.removed x hremoved
  rw [h.previous_eq, List.getLast?_eq_none_iff] at hprevious
  rw [h.next_eq, List.head?_eq_none_iff] at hnext
  subst hprevious hnext
  obtain rfl : id = x := List.mem_singleton.mp hid
  exact hreach hremoved

end IsChain

/-- A trail runs along bonds in its direction until there are none. -/
theorem WellFormed.trail_linked (hs : s.WellFormed) (direction : Direction) (hid : id < s.size) :
    (s.trail direction id).IsChain (fun a b => s.step direction a = some b) ∧
      ∀ a ∈ (s.trail direction id).getLast?, s.step direction a = none := by
  revert hid
  refine hs.walk_induction direction (P := fun id =>
    (s.trail direction id).IsChain (fun a b => s.step direction a = some b) ∧
      ∀ a ∈ (s.trail direction id).getLast?, s.step direction a = none) ?_ id
  intro id hid ih
  rw [hs.trail_eq direction hid]
  cases hstep : s.step direction id with
  | none => simp [hstep]
  | some b =>
    obtain ⟨hlinked, hlast⟩ := ih b hstep
    rw [hs.trail_eq direction (hs.step_lt hstep)] at hlinked hlast
    simp only [Option.map_some, Option.getD_some]
    rw [hs.trail_eq direction (hs.step_lt hstep)]
    refine ⟨List.isChain_cons_cons.mpr ⟨hstep, hlinked⟩, ?_⟩
    rw [List.getLast?_cons_cons]
    exact hlast

/-- Every link of a well-formed sequence is on a chain. -/
theorem WellFormed.exists_chain (hs : s.WellFormed) (hid : id < s.size) :
    ∃ before after, s.IsChain (before ++ id :: after) := by
  obtain ⟨after, hafter⟩ : ∃ after, s.trail .next id = id :: after := ⟨_, hs.trail_eq .next hid⟩
  obtain ⟨back, hback⟩ : ∃ back, s.trail .previous id = id :: back :=
    ⟨_, hs.trail_eq .previous hid⟩
  obtain ⟨hnext, hlast⟩ := hafter ▸ hs.trail_linked .next hid
  obtain ⟨hprevious, hfirst⟩ := hback ▸ hs.trail_linked .previous hid
  refine ⟨back.reverse, after, .of_linked hs ?_ ?_ ?_ ?_⟩
  · intro a ha
    rw [List.mem_append, List.mem_reverse] at ha
    rcases ha with ha | ha
    · exact hs.lt_of_mem_trail hid a (hback ▸ List.mem_cons_of_mem _ ha)
    · exact hs.lt_of_mem_trail hid a (hafter ▸ ha)
  · have hleft : (back.reverse ++ [id]).IsChain fun a b => s.next a = some b := by
      rw [← List.reverse_cons, List.isChain_reverse]
      exact hprevious.imp fun a b hab => (hs.next_iff b a).mpr hab
    simpa using List.IsChain.append_overlap hleft hnext (by simp)
  · intro a ha
    refine hfirst a ?_
    rw [← List.head?_reverse, List.reverse_cons]
    cases hr : back.reverse <;> simp_all
  · intro a ha
    refine hlast a ?_
    simpa [List.getLast?_append] using ha

/-- The head of a link's chain lies in the sequence. -/
theorem WellFormed.head_lt (hs : s.WellFormed) (hid : id < s.size) : s.head id < s.size := by
  obtain ⟨before, after, hchain⟩ := hs.exists_chain hid
  exact hchain.lt_size _ (List.mem_of_head? (hchain.head_eq hs (by simp)))

/-! ## Changing chains -/

/-- A place in two joined lists is a place in the first or in the second. -/
theorem append_eq_append_cons {left right : List LinkId}
    (h : left ++ right = before ++ id :: after) :
    (∃ middle, left = before ++ id :: middle ∧ after = middle ++ right) ∨
      ∃ middle, right = middle ++ id :: after ∧ before = left ++ middle := by
  rcases List.append_eq_append_iff.mp h with ⟨middle, rfl, hright⟩ | ⟨middle, rfl, hafter⟩
  · exact .inr ⟨middle, hright, rfl⟩
  · rcases List.cons_eq_append_iff.mp hafter with ⟨rfl, rfl⟩ | ⟨rest, rfl, rfl⟩
    · exact .inr ⟨[], rfl, by simp⟩
    · exact .inl ⟨rest, rfl, rfl⟩

namespace IsChain

/-- Removing a link takes it out of its chain. -/
theorem remove_mid (hs : s.WellFormed) (h : s.IsChain (before ++ id :: after))
    (hreach : s.state id ≠ .removed) : (s.remove id).1.IsChain (before ++ after) := by
  have hid : id < s.size := h.lt_size id (by simp)
  refine ⟨fun x hx => ?_, fun first x last heq => ?_⟩
  · rw [size_remove]
    exact h.lt_size x (((List.sublist_cons_self id after).append_left before).subset hx)
  rw [hs.previous_remove hid hreach, hs.next_remove hid hreach, h.previous_eq, h.next_eq]
  rcases append_eq_append_cons heq with ⟨middle, rfl, rfl⟩ | ⟨middle, rfl, rfl⟩
  · -- The link at hand stands before the removed one.
    have hx : s.IsChain (first ++ x :: (middle ++ id :: after)) := by simpa using h
    have hnot := hx.notMem hs
    have hne : x ≠ id := fun heq => hnot (by simp [heq])
    have hafter : after.head? ≠ some x := fun hhead => hnot (by simp [List.mem_of_head? hhead])
    rw [hx.previous_eq, hx.next_eq, if_neg hne, if_neg hafter, if_neg hne]
    refine ⟨rfl, ?_⟩
    cases middle with
    | nil => simp
    | cons m rest =>
      have hlast : (first ++ x :: m :: rest).getLast? ≠ some x := by
        intro hlast
        rw [List.getLast?_append_cons, List.getLast?_cons_cons] at hlast
        exact hnot (List.mem_append_right _ (List.mem_append_left _ (List.mem_of_getLast? hlast)))
      rw [if_neg hlast]
      rfl
  · -- It stands after the removed one.
    have hx : s.IsChain ((before ++ id :: middle) ++ x :: last) := by simpa using h
    have hnot := hx.notMem hs
    have hne : x ≠ id := fun heq => hnot (by simp [heq])
    have hbefore : before.getLast? ≠ some x := fun hlast =>
      hnot (by simp [List.mem_of_getLast? hlast])
    rw [hx.previous_eq, hx.next_eq, if_neg hne, if_neg hbefore, if_neg hne]
    refine ⟨?_, rfl⟩
    cases middle with
    | nil => simp
    | cons m rest =>
      have hhead : (m :: rest ++ x :: last).head? ≠ some x := fun hhead => by
        obtain rfl : m = x := by simpa using hhead
        exact hnot (by simp)
      rw [if_neg hhead, List.getLast?_append_cons, List.getLast?_cons_cons,
        List.getLast?_append_cons]

/-- Removing a link leaves the other chains. -/
theorem remove_of_notMem (hs : s.WellFormed) (h : s.IsChain chain) (hid : id < s.size)
    (hreach : s.state id ≠ .removed) (hnot : id ∉ chain) : (s.remove id).1.IsChain chain := by
  refine h.of_bonds (by simp) (fun x hx => ?_) fun x hx => ?_
  · rw [hs.previous_remove hid hreach]
    have hne : x ≠ id := fun heq => hnot (heq ▸ hx)
    have hfree : s.next id ≠ some x := fun hn =>
      hnot (h.mem_of_previous hx ((hs.next_iff id x).mp hn))
    rw [if_neg hne, if_neg hfree]
  · rw [hs.next_remove hid hreach]
    have hne : x ≠ id := fun heq => hnot (heq ▸ hx)
    have hfree : s.previous id ≠ some x := fun hp =>
      hnot (h.mem_of_next hx ((hs.next_iff x id).mpr hp))
    rw [if_neg hne, if_neg hfree]

/-- Removing a link takes it out of every chain. -/
theorem remove (hs : s.WellFormed) (h : s.IsChain chain) (hid : id < s.size)
    (hreach : s.state id ≠ .removed) : (s.remove id).1.IsChain (chain.filter (· ≠ id)) := by
  by_cases hmem : id ∈ chain
  · obtain ⟨before, after, rfl⟩ := List.append_of_mem hmem
    have hfilter : (before ++ id :: after).filter (· ≠ id) = before ++ after := by
      rw [List.filter_append, List.filter_cons_of_neg (by simp), ← List.filter_append,
        List.filter_eq_self]
      intro x hx
      simpa using fun heq : x = id => h.notMem hs (heq ▸ hx)
    rw [hfilter]
    exact h.remove_mid hs hreach
  · have hfilter : chain.filter (· ≠ id) = chain := by
      rw [List.filter_eq_self]
      intro x hx
      simpa using fun heq : x = id => hmem (heq ▸ hx)
    rw [hfilter]
    exact h.remove_of_notMem hs hid hreach hmem

/-- A pushed link is a chain of its own. -/
theorem push_new (s : Sequence) (token : Token) : (s.push token).IsChain [s.size] where
  lt_size id hid := by
    rw [List.mem_singleton.mp hid, size_push]
    exact Nat.lt_succ_self _
  bonds before id after heq := by
    obtain ⟨rfl, rfl, rfl⟩ : before = [] ∧ id = s.size ∧ after = [] := by
      cases before <;> simp_all
    simp [previous, next, Link.ofToken]

/-- Pushing a link without neighbours leaves all chains. -/
theorem push (h : s.IsChain chain) (token : Token) : (s.push token).IsChain chain :=
  h.of_bonds (by simp) (by simp) (by simp)

/-- Pushing after a link puts the new link into its chain there. -/
theorem pushAfter_mid (hs : s.WellFormed) (h : s.IsChain (before ++ id :: after)) (token : Token) :
    (s.pushAfter (some id) token).IsChain (before ++ id :: s.size :: after) := by
  have hid : id < s.size := h.lt_size id (by simp)
  refine ⟨fun x hx => ?_, fun first x last heq => ?_⟩
  · rw [size_pushAfter]
    by_cases hx' : x = s.size
    · exact hx' ▸ Nat.lt_succ_self _
    · exact Nat.lt_succ_of_lt (h.lt_size x (by simpa [hx'] using hx))
  rw [hs.previous_pushAfter hid, hs.next_pushAfter hid, h.next_eq]
  have hsplit : (before ++ [id]) ++ s.size :: after = first ++ x :: last := by simpa using heq
  rcases append_eq_append_cons hsplit with ⟨middle, hleft, rfl⟩ | ⟨middle, hright, rfl⟩
  · -- The link at hand does not stand after `id`.
    have hx : s.IsChain (first ++ x :: (middle ++ after)) := by
      have hjoin : before ++ id :: after = first ++ x :: (middle ++ after) := by
        simpa using congrArg (· ++ after) hleft
      exact hjoin ▸ h
    have hnot := hx.notMem hs
    have hne : x ≠ s.size := Nat.ne_of_lt (hx.lt_size x (by simp))
    have hfree : after.head? ≠ some x := fun hhead => hnot (by simp [List.mem_of_head? hhead])
    rw [hx.previous_eq, hx.next_eq, if_neg hne, if_neg hne, if_neg hfree]
    refine ⟨rfl, ?_⟩
    cases middle using List.reverseRecOn with
    | nil =>
      obtain ⟨-, rfl⟩ : before = first ∧ id = x := by simpa using hleft
      simp
    | append_singleton rest m =>
      have hlast : before ++ [id] = (first ++ x :: rest) ++ [m] := by simpa using hleft
      obtain ⟨rfl, -⟩ := List.append_inj' hlast rfl
      have hid' : x ≠ id := fun heq => h.notMem hs (by simp [heq])
      rw [if_neg hid']
      cases rest <;> simp
  · cases middle with
    | nil =>
      obtain ⟨rfl, rfl⟩ : s.size = x ∧ after = last := by simpa using hright
      simp
    | cons m rest =>
      -- It stands after the new link.
      obtain ⟨rfl, rfl⟩ : s.size = m ∧ after = rest ++ x :: last := by simpa using hright
      have hx : s.IsChain ((before ++ id :: rest) ++ x :: last) := by simpa using h
      have hne : x ≠ s.size := Nat.ne_of_lt (hx.lt_size x (by simp))
      have hnot := hx.notMem hs
      have hid' : x ≠ id := fun heq => hnot (by simp [heq])
      rw [hx.previous_eq, hx.next_eq, if_neg hne, if_neg hne, if_neg hid']
      refine ⟨?_, rfl⟩
      cases rest with
      | nil => simp
      | cons r rest =>
        have hhead : (r :: rest ++ x :: last).head? ≠ some x := fun hhead => by
          obtain rfl : r = x := by simpa using hhead
          exact hnot (by simp)
        rw [if_neg hhead]
        simp [List.getLast?_append, List.getLast?_cons]

/-- Pushing after the last link of a chain prolongs it; pushing without neighbours begins one. -/
theorem pushAfter_end (hs : s.WellFormed) (h : s.IsChain chain) (token : Token) :
    (s.pushAfter chain.getLast? token).IsChain (chain ++ [s.size]) := by
  cases chain using List.reverseRecOn with
  | nil => exact push_new s token
  | append_singleton before last =>
    rw [List.getLast?_concat, List.append_assoc]
    exact h.pushAfter_mid hs token

/-- Pushing leaves every chain that the new link does not go to. -/
theorem pushAfter_of_notMem (hs : s.WellFormed) (h : s.IsChain chain) {after : Option LinkId}
    (hafter : ∀ link ∈ after, link < s.size ∧ link ∉ chain) (token : Token) :
    (s.pushAfter after token).IsChain chain := by
  cases after with
  | none => exact h.push token
  | some id =>
    obtain ⟨hid, hnot⟩ := hafter id rfl
    refine h.of_bonds (by simp) (fun x hx => ?_) fun x hx => ?_
    · have hne : x ≠ s.size := Nat.ne_of_lt (h.lt_size x hx)
      have hfree : s.next id ≠ some x := fun hn =>
        hnot (h.mem_of_previous hx ((hs.next_iff id x).mp hn))
      rw [hs.previous_pushAfter hid, if_neg hne, if_neg hfree]
    · have hne : x ≠ s.size := Nat.ne_of_lt (h.lt_size x hx)
      have hid' : x ≠ id := fun heq => hnot (heq ▸ hx)
      rw [hs.next_pushAfter hid, if_neg hne, if_neg hid']

end IsChain

end Sequence

end DocTree
