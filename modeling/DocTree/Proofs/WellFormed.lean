import DocTree.Proofs.Links
import Mathlib.Data.Finset.Card
import Mathlib.Logic.Relation

/-!
# Sequences whose links hang together

A sequence is well-formed when its neighbours are its own links, the link after a link has that
link before it, nobody comes back to a link by going on, removed links stand alone and emptied links
carry no text. Going on from a link then comes to an end, and the number of links still ahead is the
measure for every walk.
-/

namespace DocTree

namespace Sequence

/-- The links of a sequence hang together. The neighbours of a link lie in the sequence, successors
and predecessors are the two sides of one bond, and going on never comes back. A removed link has no
neighbours, and an emptied one neither text nor kind. -/
structure WellFormed (s : Sequence) : Prop where
  previous_lt : ∀ a b, s.previous b = some a → a < s.size
  next_lt : ∀ a b, s.next a = some b → b < s.size
  next_iff : ∀ a b, s.next a = some b ↔ s.previous b = some a
  acyclic : ∀ a, ¬ Relation.TransGen (fun a b => s.next a = some b) a a
  removed : ∀ a, s.state a = .removed → s.previous a = none ∧ s.next a = none
  emptied : ∀ a, s.state a = .emptied → s.data a = "" ∧ s.value a = ""

variable {s : Sequence} {id other : LinkId}

/-- A measure that grows along every bond rules out going in a circle. -/
theorem acyclic_of_rank {α : Type*} [Preorder α] (rank : LinkId → α)
    (h : ∀ a b, s.next a = some b → rank a < rank b) (a : LinkId) :
    ¬ Relation.TransGen (fun a b => s.next a = some b) a a := by
  intro hcycle
  have hlt : ∀ b, Relation.TransGen (fun a b => s.next a = some b) a b → rank a < rank b := by
    intro b hab
    induction hab with
    | single hab => exact h _ _ hab
    | tail _ hbc ih => exact ih.trans (h _ _ hbc)
  exact lt_irrefl _ (hlt a hcycle)

namespace WellFormed

/-- A removed link has no neighbour in either direction. -/
theorem step_of_removed (hs : s.WellFormed) (h : s.state id = .removed) (direction : Direction) :
    s.step direction id = none := by
  cases direction with
  | previous => exact (hs.removed id h).1
  | next => exact (hs.removed id h).2

/-- A neighbour lies in the sequence. -/
theorem step_lt (hs : s.WellFormed) {direction : Direction}
    (h : s.step direction id = some other) : other < s.size := by
  cases direction with
  | previous => exact hs.previous_lt other id h
  | next => exact hs.next_lt id other h

/-- A neighbour is in a chain. -/
theorem state_step (hs : s.WellFormed) {direction : Direction}
    (h : s.step direction id = some other) : s.state other ≠ .removed := by
  intro hremoved
  cases direction with
  | previous => simpa [(hs.removed other hremoved).2] using (hs.next_iff other id).mpr h
  | next => simpa [(hs.removed other hremoved).1] using (hs.next_iff id other).mp h

/-- A link with a neighbour is in a chain. -/
theorem state_of_step (hs : s.WellFormed) {direction : Direction}
    (h : s.step direction id = some other) : s.state id ≠ .removed := by
  intro hremoved
  simp [hs.step_of_removed hremoved] at h

/-- Both ends of a bond are in a chain. -/
theorem state_of_next (hs : s.WellFormed) (h : s.next id = some other) :
    s.state id ≠ .removed ∧ s.state other ≠ .removed :=
  ⟨hs.state_of_step (show s.step .next id = some other from h),
    hs.state_step (show s.step .next id = some other from h)⟩

/-- No direction leads back to where it started. -/
theorem acyclic_step (hs : s.WellFormed) (direction : Direction) (a : LinkId) :
    ¬ Relation.TransGen (fun a b => s.step direction a = some b) a a := by
  cases direction with
  | next => exact hs.acyclic a
  | previous =>
    intro hcycle
    refine hs.acyclic a (Relation.transGen_swap.mp ?_)
    refine Relation.TransGen.mono (fun x y hxy => ?_) a a hcycle
    exact (hs.next_iff y x).mpr hxy

/-- How many links are still ahead of each link gets less with every step. -/
theorem exists_ahead (hs : s.WellFormed) (direction : Direction) :
    ∃ ahead : LinkId → ℕ, (∀ a < s.size, ahead a < s.size) ∧
      ∀ a b, s.step direction a = some b → ahead b < ahead a := by
  classical
  let beyond (a : LinkId) : Finset LinkId :=
    {b ∈ Finset.range s.size | Relation.TransGen (fun a b => s.step direction a = some b) a b}
  have hself : ∀ a, a ∉ beyond a := by
    intro a ha
    exact hs.acyclic_step direction a (Finset.mem_filter.mp ha).2
  refine ⟨fun a => (beyond a).card, fun a ha => ?_, fun a b hab => Finset.card_lt_card ?_⟩
  · have hsub : beyond a ⊂ Finset.range s.size := by
      refine Finset.ssubset_iff_subset_ne.mpr ⟨Finset.filter_subset _ _, fun heq => hself a ?_⟩
      rw [heq]
      exact Finset.mem_range.mpr ha
    simpa using Finset.card_lt_card hsub
  · have hb : b ∈ beyond a :=
      Finset.mem_filter.mpr ⟨Finset.mem_range.mpr (hs.step_lt hab), .single hab⟩
    refine Finset.ssubset_iff_subset_ne.mpr ⟨fun c hc => ?_, fun heq => hself b (heq ▸ hb)⟩
    obtain ⟨hc, hbc⟩ := Finset.mem_filter.mp hc
    exact Finset.mem_filter.mpr ⟨hc, .head hab hbc⟩

/-- A link is not its own neighbour. -/
theorem step_ne (hs : s.WellFormed) {direction : Direction}
    (h : s.step direction id = some other) : other ≠ id := by
  rintro rfl
  exact hs.acyclic_step direction other (.single h)

/-- The link before a link lies in the sequence and is another one. -/
theorem previous_spec (hs : s.WellFormed) (previous : LinkId) (h : s.previous id = some previous) :
    previous < s.size ∧ previous ≠ id :=
  ⟨hs.previous_lt previous id h, hs.step_ne (show s.step .previous id = some previous from h)⟩

/-- The link after a link lies in the sequence and is another one. -/
theorem next_spec (hs : s.WellFormed) (next : LinkId) (h : s.next id = some next) :
    next < s.size ∧ next ≠ id :=
  ⟨hs.next_lt id next h, hs.step_ne (show s.step .next id = some next from h)⟩

/-- What holds of a link whenever it holds of its neighbour holds of all links. -/
theorem walk_induction (hs : s.WellFormed) (direction : Direction) {P : LinkId → Prop}
    (h : ∀ a < s.size, (∀ b, s.step direction a = some b → P b) → P a) :
    ∀ a < s.size, P a := by
  obtain ⟨ahead, -, hahead⟩ := hs.exists_ahead direction
  intro a ha
  induction hn : ahead a using Nat.strong_induction_on generalizing a with
  | _ n ih =>
    refine h a ha fun b hb => ih (ahead b) ?_ b (hs.step_lt hb) rfl
    exact hn ▸ hahead a b hb

/-! ## Trails -/

/-- A walk with a bound above the number of links ahead does not notice the bound. -/
theorem trailUpTo_eq (hs : s.WellFormed) {direction : Direction} {ahead : LinkId → ℕ}
    (hahead : ∀ a b, s.step direction a = some b → ahead b < ahead a) :
    ∀ {count count' : ℕ} {a : LinkId}, ahead a < count → ahead a < count' →
      s.trailUpTo direction count a = s.trailUpTo direction count' a
  | count + 1, count' + 1, a, h, h' => by
    simp only [trailUpTo]
    cases hstep : s.step direction a with
    | none => rfl
    | some b =>
      have hb := hahead a b hstep
      have hb' : ahead b < count ∧ ahead b < count' := by omega
      simp only [hs.trailUpTo_eq hahead hb'.1 hb'.2]

/-- The trail from a link is the link and then the trail from its neighbour. -/
theorem trail_eq (hs : s.WellFormed) (direction : Direction) (hid : id < s.size) :
    s.trail direction id = id :: ((s.step direction id).map (s.trail direction)).getD [] := by
  obtain ⟨ahead, hbound, hahead⟩ := hs.exists_ahead direction
  obtain ⟨n, hn⟩ : ∃ n, s.size = n + 1 :=
    Nat.exists_eq_add_one_of_ne_zero (Nat.ne_zero_of_lt hid)
  rw [trail, hn, trailUpTo]
  cases hstep : s.step direction id with
  | none => rfl
  | some b =>
    have hb := hahead id b hstep
    have hlt := hbound id hid
    have hb' := hbound b (hs.step_lt hstep)
    simp [trail, hs.trailUpTo_eq hahead (show ahead b < n by omega) hb']

/-- Every link on a trail lies in the sequence. -/
theorem lt_of_mem_trail (hs : s.WellFormed) {direction : Direction} (hid : id < s.size) :
    ∀ a ∈ s.trail direction id, a < s.size := by
  revert hid
  refine hs.walk_induction direction (P := fun id => ∀ a ∈ s.trail direction id, a < s.size) ?_ id
  intro id hid ih a ha
  rw [hs.trail_eq direction hid] at ha
  rcases List.mem_cons.mp ha with rfl | ha
  · exact hid
  · cases hstep : s.step direction id with
    | none => simp [hstep] at ha
    | some b => exact ih b hstep a (by simpa [hstep] using ha)

end WellFormed

end Sequence

end DocTree
