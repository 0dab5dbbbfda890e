import DocTree.Document
import DocTree.Proofs.Extraction

/-!
# Assembly without a budget

Assembly looks at one link after another. As long as the link that it looked at, or the one before
it, is still in the chain, the next link to look at is the first of those after it that are left; if
neither is, the walk is cut off. Either way fewer links are ahead each time, so that the walk of
every chain comes to an end within its budget, provided that each look comes to an end and uses up
links. Declared kinds provide this, and never take out the link under the cursor.
-/

namespace DocTree

namespace Assembly

open Sequence Construction

/-- The nodes so far, with what came of looking at one more link. -/
def add (done : Built (List Node)) (built : Built (Option Node)) : Built (List Node) :=
  { result := done.result ++ built.result.toList
    sequence := built.sequence
    events := done.events ++ built.events }

/-- Assembly goes from one state to another by looking at the links from a place on, and then at
those from each of the given heads on. -/
inductive Walks (registry : Registry) :
    Option LinkId → List LinkId → Built (List Node) → Built (List Node) → Prop where
  | done (done : Built (List Node)) : Walks registry none [] done done
  /-- A chain has come to its end, and the next one begins. -/
  | turn {head : LinkId} {heads : List LinkId} {done done' : Built (List Node)}
      (hrest : Walks registry (some head) heads done done') :
    Walks registry none (head :: heads) done done'
  | look {id : LinkId} {heads : List LinkId} {done done' : Built (List Node)}
      {built : Built (Option Node)} (hbuilt : buildAt registry done.sequence id = some built)
      (hrest : Walks registry (advance built.sequence id (done.sequence.previous id)) heads
        (add done built) done') :
    Walks registry (some id) heads done done'

variable {registry : Registry} {s s' : Sequence} {id : LinkId} {heads : List LinkId}
  {place : Option LinkId} {done done' : Built (List Node)} {built : Built (Option Node)}
  {budget : ℕ}

/-- Looking at a link comes to an end. It changes nothing, unless the link is live and of a
registered primary kind; then the node of the kind is built. -/
theorem buildAt_total (hregistry : registry.Declared) (hs : s.WellFormed) (id : LinkId) :
    ∃ built, buildAt registry s id = some built ∧
      (built.result = none ∧ built.sequence = s ∨
        id < s.size ∧ s.state id = .live ∧ registry.isPrimary (s.value id) = true ∧
          Creates registry (s.value id) s id built) := by
  simp only [buildAt]
  split
  · exact ⟨_, rfl, .inl ⟨rfl, rfl⟩⟩
  · next hlook =>
    split
    · exact ⟨_, rfl, .inl ⟨rfl, rfl⟩⟩
    · split
      · exact ⟨_, rfl, .inl ⟨rfl, rfl⟩⟩
      · next hprimary =>
        have hlive : s.isLive id = true ∧ s.value id ≠ "" := by simpa using hlook
        have hid := lt_size_of_value_ne hlive.2
        obtain ⟨built, hbuilt, hcreates⟩ := registry.create_total hregistry hs hid (s.value id)
        exact ⟨built, hbuilt,
          .inr ⟨hid, isLive_iff.mp hlive.1, by simpa using hprimary, hcreates⟩⟩

/-- Looking at a link uses up links, and leaves the link in its chain if it was in one. -/
theorem consumes_buildAt (hregistry : registry.Declared) (hs : s.WellFormed)
    (hbuilt : buildAt registry s id = some built) :
    Consumes s built.sequence ∧
      (built.sequence.state id = .removed → s.state id = .removed) := by
  obtain ⟨built', hbuilt', hcase⟩ := buildAt_total hregistry hs id
  obtain rfl := Option.some.inj (hbuilt'.symm.trans hbuilt)
  rcases hcase with ⟨-, hsame⟩ | ⟨hid, hlive, -, hcreates⟩
  · rw [hsame]
    exact ⟨.refl hs, fun h => h⟩
  · refine ⟨hcreates.consumes hs hid, fun hremoved => ?_⟩
    cases hcreates with
    | absent => exact hremoved
    | @declared _ kind done _ _ hdone =>
      have hclaimed : done.sequence.state id = .claimed := state_of_consumes_begin hs hid hlive
        (hdone.consumes (consumes_begin hs hid kind).wellFormed)
      cases hclaimed.symm.trans hremoved

/-! ## Going on -/

/-- Looking at a link took it out of its chain, and of what came before it nothing is left to go on
from. -/
def CutsOff (s : Sequence) (id : LinkId) (s' : Sequence) : Prop :=
  s'.state id = .removed ∧ ∀ anchor ∈ s.previous id, s'.state anchor = .removed

/-- A walk that is cut off does not go on. -/
theorem advance_of_cutsOff (h : CutsOff s id s') : advance s' id (s.previous id) = none := by
  obtain ⟨hremoved, hanchor⟩ := h
  unfold advance
  rw [if_neg (by simp [isReachable_iff, hremoved])]
  cases hprevious : s.previous id with
  | none => rfl
  | some anchor => simp [isReachable, hanchor anchor hprevious]

/-- A walk that is not cut off goes on with the first link that is left of those ahead. -/
theorem advance_eq_head? {before after : List LinkId} (hlook : Consumes s s')
    (hchain : s.IsChain (before ++ id :: after)) (h : ¬ CutsOff s id s') :
    advance s' id (s.previous id) = (after.filter s'.isReachable).head? := by
  have hchain' := hlook.chain _ hchain
  unfold advance
  by_cases hremoved : s'.state id = .removed
  · obtain ⟨anchor, hprevious, hanchor⟩ : ∃ anchor ∈ s.previous id, s'.state anchor ≠ .removed := by
      simpa [CutsOff, hremoved] using h
    rw [if_neg (by simp [isReachable_iff, hremoved]), hprevious]
    have hlast : before.getLast? = some anchor := by rwa [← hchain.previous_eq]
    obtain ⟨rest, rfl⟩ := List.getLast?_eq_some_iff.mp hlast
    have hleft : (rest ++ [anchor] ++ id :: after).filter s'.isReachable =
        rest.filter s'.isReachable ++ anchor :: after.filter s'.isReachable := by
      simp [List.filter_cons, isReachable, hremoved, hanchor]
    rw [hleft] at hchain'
    simp [isReachable_iff.mpr hanchor, hchain'.next_eq]
  · rw [List.filter_append, List.filter_cons_of_pos (isReachable_iff.mpr hremoved)] at hchain'
    rw [if_pos (isReachable_iff.mpr hremoved), hchain'.next_eq]

/-- What is left of some links is what is left of them up to one and what is left after it. -/
theorem filter_split (p : LinkId → Bool) (before : List LinkId) (id : LinkId)
    (after : List LinkId) :
    (before ++ [id]).filter p ++ after.filter p = (before ++ id :: after).filter p := by
  rw [← List.filter_append, List.append_assoc]
  rfl

/-- Where the walk of a chain goes on, it stands at the first of some links that end what is left of
the chain, and that were all ahead of it. -/
theorem advance_spec {before after : List LinkId} (hlook : Consumes s s')
    (hchain : s.IsChain (before ++ id :: after)) :
    ∃ before' after', s'.IsChain (before' ++ after') ∧ after'.length ≤ after.length ∧
      advance s' id (s.previous id) = after'.head? := by
  have hchain' := hlook.chain _ hchain
  by_cases hcut : CutsOff s id s'
  · exact ⟨_, [], by simpa using hchain', Nat.zero_le _, by simp [advance_of_cutsOff hcut]⟩
  · have hsplit : s'.IsChain
        ((before ++ [id]).filter s'.isReachable ++ after.filter s'.isReachable) :=
      filter_split _ before id after ▸ hchain'
    exact ⟨_, _, hsplit, List.length_filter_le _ _, advance_eq_head? hlook hchain hcut⟩

/-! ## Every walk comes to an end -/

/-- Looking at a link of a well-formed sequence comes to an end and uses up links. -/
def Steady (registry : Registry) : Prop :=
  ∀ s : Sequence, s.WellFormed → ∀ id,
    ∃ built, buildAt registry s id = some built ∧ Consumes s built.sequence

namespace Steady

variable (hregistry : Steady registry)
include hregistry

/-- Whatever came of looking at a link, links were used up. -/
theorem consumes_buildAt (hs : s.WellFormed) (hbuilt : buildAt registry s id = some built) :
    Consumes s built.sequence := by
  obtain ⟨built', hbuilt', hconsumes⟩ := hregistry s hs id
  exact Option.some.inj (hbuilt'.symm.trans hbuilt) ▸ hconsumes

/-- Assembly uses up links. -/
theorem consumes (h : Walks registry place heads done done') (hs : done.sequence.WellFormed) :
    Consumes done.sequence done'.sequence := by
  induction h with
  | done => exact .refl hs
  | turn _ ih => exact ih hs
  | look hbuilt _ ih =>
    have hlook := hregistry.consumes_buildAt hs hbuilt
    exact hlook.trans (ih hlook.wellFormed)

/-- The walk of the end of a chain comes to an end within a budget above the number of links. -/
theorem walk_total {before rest : List LinkId} (hs : done.sequence.WellFormed)
    (hchain : done.sequence.IsChain (before ++ rest)) (hbudget : rest.length < budget) :
    ∃ done', walk registry budget rest.head? done = some done' ∧
      ∀ heads done'', Walks registry none heads done' done'' →
        Walks registry rest.head? heads done done'' := by
  induction budget generalizing before rest done with
  | zero => exact absurd hbudget (Nat.not_lt_zero _)
  | succ budget ih =>
    cases rest with
    | nil => exact ⟨done, rfl, fun _ _ h => h⟩
    | cons id after =>
      obtain ⟨built, hbuilt, hlook⟩ := hregistry done.sequence hs id
      obtain ⟨before', after', hchain', hlength, hadvance⟩ := advance_spec hlook hchain
      have hless : after'.length < budget := by
        rw [List.length_cons] at hbudget
        omega
      have hnext : (add done built).sequence.WellFormed := hlook.wellFormed
      obtain ⟨done', hdone, hwalks⟩ := ih hnext hchain' hless
      rw [← hadvance] at hdone hwalks
      refine ⟨done', ?_, fun heads done'' h => .look hbuilt (hwalks heads done'' h)⟩
      simp only [List.head?_cons, walk, hbuilt]
      exact hdone

/-- The walk from a link comes to an end within its budget. -/
theorem walkHead_total {head : LinkId} (hs : done.sequence.WellFormed)
    (hhead : head < done.sequence.size) :
    ∃ done', walk registry (Assembly.budget done.sequence) (some head) done = some done' ∧
      ∀ heads done'', Walks registry none heads done' done'' →
        Walks registry (some head) heads done done'' := by
  obtain ⟨before, after, hchain⟩ := hs.exists_chain hhead
  have hlength := hchain.length_le hs
  rw [List.length_append] at hlength
  exact hregistry.walk_total hs hchain (by unfold Assembly.budget; omega)

/-- The walks from all heads come to an end. -/
theorem walkAll_total (hs : done.sequence.WellFormed)
    (hheads : ∀ head ∈ heads, head < done.sequence.size) :
    ∃ done', heads.foldlM
        (fun done head => walk registry (Assembly.budget done.sequence) (some head) done) done =
          some done' ∧ Walks registry none heads done done' := by
  induction heads generalizing done with
  | nil => exact ⟨done, rfl, .done done⟩
  | cons head heads ih =>
    obtain ⟨next, hnext, hwalks⟩ :=
      hregistry.walkHead_total hs (hheads head List.mem_cons_self)
    have hconsumes := hregistry.consumes (hwalks [] next (.done next)) hs
    obtain ⟨done', hdone, hrest⟩ := ih hconsumes.wellFormed fun other hother =>
      hconsumes.size_eq ▸ hheads other (List.mem_cons_of_mem _ hother)
    refine ⟨done', by simp [List.foldlM_cons, hnext, hdone], .turn ?_⟩
    exact hwalks heads done' hrest

end Steady

/-- Declared kinds are steady. -/
theorem steady_of_declared (hregistry : registry.Declared) : Steady registry := by
  intro s hs id
  obtain ⟨built, hbuilt, -⟩ := buildAt_total hregistry hs id
  exact ⟨built, hbuilt, (consumes_buildAt hregistry hs hbuilt).1⟩

/-- Assembly by declared kinds uses up links. -/
theorem Walks.consumes (hregistry : registry.Declared) (h : Walks registry place heads done done')
    (hs : done.sequence.WellFormed) : Consumes done.sequence done'.sequence :=
  (steady_of_declared hregistry).consumes h hs

end Assembly

/-- The head of a chain lies in its sequence. -/
theorem Sequence.lt_size_of_mem_heads {s : Sequence} {head : LinkId} (h : head ∈ s.heads) :
    head < s.size :=
  List.mem_range.mp (List.mem_of_mem_filter h)

/-- Assembly comes to an end. -/
theorem Assembly.Steady.assemble_total {registry : Registry} {s : Sequence}
    (hregistry : Steady registry) (hs : s.WellFormed) :
    ∃ done, s.assemble registry = some { done with result := { nodes := done.result } } ∧
      Walks registry none s.heads { result := [], sequence := s } done := by
  have hstart : ({ result := [], sequence := s } : Built (List Node)).sequence.WellFormed := hs
  obtain ⟨done, hdone, hwalks⟩ := hregistry.walkAll_total hstart fun _ =>
    Sequence.lt_size_of_mem_heads
  simp only at hdone
  exact ⟨done, by simp [Sequence.assemble, hdone], hwalks⟩

/-- Assembly by declared kinds comes to an end. -/
theorem Sequence.assemble_total {registry : Registry} {s : Sequence} (hregistry : registry.Declared)
    (hs : s.WellFormed) :
    ∃ done, s.assemble registry = some { done with result := { nodes := done.result } } ∧
      Assembly.Walks registry none s.heads { result := [], sequence := s } done :=
  (Assembly.steady_of_declared hregistry).assemble_total hs

end DocTree
