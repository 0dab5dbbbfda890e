import DocTree.Proofs.Growth
import DocTree.Proofs.Reading

/-!
# What assembly leaves behind

A walk is cut off when the constructor of the link under the cursor takes that link out and the link
before it is gone as well, or there never was one. Whatever was ahead on the chain is then not
looked at any more, and no later walk comes to it, because each walk stays on its own chain. So
assembly leaves a link that is owed a node exactly if, at some moment, it is cut off before such a
link.
-/

namespace DocTree

open Sequence

variable {registry : Registry} {s s' : Sequence} {id other : LinkId}
  {behind ahead after heads : List LinkId} {place : Option LinkId}
  {done done' : Built (List Node)} {built : Built (Option Node)}

/-- A link that is owed a node was owed one before links were used up. -/
theorem Registry.Pending.of_consumes (h : Consumes s s') (hpending : registry.Pending s' id) :
    registry.Pending s id := by
  obtain ⟨hlive, hvalue, hprimary⟩ := hpending
  have hsame := (token_eq_iff.mp (h.token_of_live hlive)).2
  exact ⟨h.live_of hlive, hsame ▸ hvalue, hsame ▸ hprimary⟩

/-- Whether a link is owed a node depends on the link alone. -/
theorem Registry.pending_congr (h : s'.link id = s.link id) :
    registry.Pending s' id ↔ registry.Pending s id := by
  simp only [Pending, state, value, h]

namespace Assembly

/-- Assembly, going on from a place and then from each of the heads, comes to look at a link of the
sequence as it is by then. -/
inductive Looks (registry : Registry) : Option LinkId → List LinkId → Built (List Node) →
    Sequence → LinkId → Built (Option Node) → Prop where
  /-- The link is the one at the place. -/
  | here {id : LinkId} {heads : List LinkId} {done : Built (List Node)}
      {built : Built (Option Node)} (hbuilt : buildAt registry done.sequence id = some built) :
    Looks registry (some id) heads done done.sequence id built
  /-- The link is met after the one at the place was looked at. -/
  | later {id other : LinkId} {heads : List LinkId} {done : Built (List Node)} {s : Sequence}
      {built look : Built (Option Node)} (hbuilt : buildAt registry done.sequence id = some built)
      (hrest : Looks registry (advance built.sequence id (done.sequence.previous id)) heads
        (add done built) s other look) :
    Looks registry (some id) heads done s other look
  /-- The link is met in the walk of a chain that waits. -/
  | turn {head id : LinkId} {heads : List LinkId} {done : Built (List Node)} {s : Sequence}
      {look : Built (Option Node)} (hrest : Looks registry (some head) heads done s id look) :
    Looks registry none (head :: heads) done s id look

/-- At some moment, assembly is cut off before a link that is owed a node. -/
def Forsakes (registry : Registry) (place : Option LinkId) (heads : List LinkId)
    (done : Built (List Node)) : Prop :=
  ∃ s id built, Looks registry place heads done s id built ∧ CutsOff s id built.sequence ∧
    ∃ other ∈ s.iter id, registry.Pending built.sequence other

/-- Nothing is forsaken when nothing is left to look at. -/
theorem not_forsakes_nil : ¬ Forsakes registry none [] done := by
  rintro ⟨s, id, built, hlooks, -⟩
  cases hlooks

/-- What is forsaken from the heads on is forsaken from the first of them on. -/
theorem forsakes_turn_iff {head : LinkId} :
    Forsakes registry none (head :: heads) done ↔ Forsakes registry (some head) heads done := by
  constructor
  · rintro ⟨s, id, built, hlooks, hrest⟩
    cases hlooks with
    | turn hlooks => exact ⟨s, id, built, hlooks, hrest⟩
  · rintro ⟨s, id, built, hlooks, hrest⟩
    exact ⟨s, id, built, .turn hlooks, hrest⟩

/-- Something is forsaken by the look at the link at hand, or later on. -/
theorem forsakes_look_iff (hbuilt : buildAt registry done.sequence id = some built) :
    Forsakes registry (some id) heads done ↔
      (CutsOff done.sequence id built.sequence ∧
        ∃ other ∈ done.sequence.iter id, registry.Pending built.sequence other) ∨
      Forsakes registry (advance built.sequence id (done.sequence.previous id)) heads
        (add done built) := by
  constructor
  · rintro ⟨s, other, look, hlooks, hrest⟩
    cases hlooks with
    | here hbuilt' =>
      obtain rfl := Option.some.inj (hbuilt'.symm.trans hbuilt)
      exact .inl hrest
    | later hbuilt' hlooks =>
      obtain rfl := Option.some.inj (hbuilt'.symm.trans hbuilt)
      exact .inr ⟨s, other, look, hlooks, hrest⟩
  · rintro (hrest | ⟨s, other, look, hlooks, hrest⟩)
    · exact ⟨_, _, _, .here hbuilt, hrest⟩
    · exact ⟨_, _, _, .later hbuilt hlooks, hrest⟩

/-! ## One look, and a whole run -/

/-- After a look, the walk stands before what is left of the links ahead, or is cut off. -/
theorem route_look (hregistry : registry.Splicing)
    (hroute : s.Route behind (id :: after) heads) (hbuilt : buildAt registry s id = some built) :
    ConsumesOn s built.sequence (behind ++ id :: after) ∧
      ¬ registry.Pending built.sequence id ∧
      ∃ behind' ahead', built.sequence.Route behind' ahead' heads ∧
        advance built.sequence id (s.previous id) = ahead'.head? ∧
        (CutsOff s id built.sequence ∧ behind' = [] ∧ ahead' = [] ∨
          ¬ CutsOff s id built.sequence ∧
            behind' = (behind ++ [id]).filter built.sequence.isReachable ∧
            ahead' = after.filter built.sequence.isReachable) ∧
        ∀ other ∈ behind' ++ ahead', other ∈ behind ++ id :: after := by
  obtain ⟨built', hbuilt', hlook, howed⟩ := buildAt_confined hregistry hroute.wellFormed
    hroute.isChain (show id ∈ behind ++ id :: after by simp)
  obtain rfl := Option.some.inj (hbuilt'.symm.trans hbuilt)
  refine ⟨hlook, howed, ?_⟩
  by_cases hcut : CutsOff s id built'.sequence
  · exact ⟨[], [], hroute.of_consumes hlook .nil (by simp) (by simp), advance_of_cutsOff hcut,
      .inl ⟨hcut, rfl, rfl⟩, by simp⟩
  · have hchain : built'.sequence.IsChain ((behind ++ [id]).filter built'.sequence.isReachable ++
        after.filter built'.sequence.isReachable) :=
      filter_split _ behind id after ▸ hlook.isChain_rest
    have hsubset : ∀ other ∈ (behind ++ [id]).filter built'.sequence.isReachable ++
        after.filter built'.sequence.isReachable, other ∈ behind ++ id :: after := by
      intro other hother
      rw [filter_split] at hother
      exact List.mem_of_mem_filter hother
    have hreach : ∀ other ∈ after.filter built'.sequence.isReachable,
        built'.sequence.state other ≠ .removed := fun other hother =>
      isReachable_iff.mp (List.mem_filter.mp hother).2
    exact ⟨_, _, hroute.of_consumes hlook hchain hsubset hreach,
      advance_eq_head? hlook.toConsumes hroute.isChain hcut, .inr ⟨hcut, rfl, rfl⟩, hsubset⟩

/-- Assembly leaves every link that is neither on the chain at hand nor on one that waits. -/
theorem Walks.link_eq (hregistry : registry.Splicing) (h : Walks registry place heads done done')
    (hroute : done.sequence.Route behind ahead heads) (hplace : place = ahead.head?)
    (hother : other ∉ behind ++ ahead) (hwaits : other ∉ heads.flatMap done.sequence.iter) :
    done'.sequence.link other = done.sequence.link other := by
  induction h generalizing behind ahead with
  | done => rfl
  | turn _ ih =>
    rw [List.flatMap_cons, List.mem_append, not_or] at hwaits
    exact ih hroute.turn hroute.head?_iter hwaits.1 hwaits.2
  | @look id heads done done' built hbuilt _ ih =>
    obtain ⟨rest, rfl⟩ := List.head?_eq_some_iff.mp hplace.symm
    obtain ⟨hlook, -, behind', ahead', hroute', hadvance, -, hsubset⟩ :=
      route_look hregistry hroute hbuilt
    rw [← hroute.flatMap_iter_eq hlook] at hwaits
    rw [ih hroute' hadvance (fun hmem => hother (hsubset other hmem)) hwaits]
    exact hlook.link_eq other hother

/-- Among the links ahead and those that wait, one that is owed a node is left in the end exactly if
assembly forsakes one. -/
theorem Walks.exists_pending_iff (hregistry : registry.Splicing)
    (h : Walks registry place heads done done') (hroute : done.sequence.Route behind ahead heads)
    (hplace : place = ahead.head?) :
    (∃ other ∈ ahead ++ heads.flatMap done.sequence.iter, registry.Pending done'.sequence other) ↔
      Forsakes registry place heads done := by
  induction h generalizing behind ahead with
  | done =>
    have hnil : ahead = [] := List.head?_eq_none_iff.mp hplace.symm
    simp [hnil, not_forsakes_nil]
  | @turn head heads done done' hrest ih =>
    have hnil : ahead = [] := List.head?_eq_none_iff.mp hplace.symm
    rw [forsakes_turn_iff, ← ih hroute.turn hroute.head?_iter, hnil]
    rfl
  | @look id heads done done' built hbuilt hrest ih =>
    obtain ⟨after, rfl⟩ := List.head?_eq_some_iff.mp hplace.symm
    obtain ⟨hlook, howed, behind', ahead', hroute', hadvance, hcase, -⟩ :=
      route_look hregistry hroute hbuilt
    have hiter : done.sequence.iter id = id :: after := hroute.isChain.trail_next hroute.wellFormed
    have hlater : Consumes built.sequence done'.sequence :=
      (steady_of_splicing hregistry).consumes hrest hroute'.wellFormed
    have hsettled : ¬ registry.Pending done'.sequence id := fun hpending =>
      howed (hpending.of_consumes hlater)
    have hwaiting : heads.flatMap (add done built).sequence.iter =
        heads.flatMap done.sequence.iter := hroute.flatMap_iter_eq hlook
    rw [forsakes_look_iff hbuilt, ← ih hroute' hadvance, hwaiting, hiter]
    rcases hcase with ⟨hcut, rfl, rfl⟩ | ⟨hcut, -, rfl⟩
    · -- What was ahead stays as the look left it, since the later walks are on other chains.
      have hstay : ∀ other ∈ id :: after,
          (registry.Pending done'.sequence other ↔ registry.Pending built.sequence other) := by
        intro other hother
        refine Registry.pending_congr (hrest.link_eq hregistry hroute' hadvance (by simp) ?_)
        intro hmem
        obtain ⟨head, hhead, hin⟩ := List.mem_flatMap.mp (hwaiting ▸ hmem)
        exact hroute.notMem_of_mem_iter hhead hin (List.mem_append_right _ hother)
      have hahead : (∃ other ∈ id :: after, registry.Pending done'.sequence other) ↔
          ∃ other ∈ id :: after, registry.Pending built.sequence other :=
        exists_congr fun other => and_congr_right fun hother => hstay other hother
      simp only [hcut, true_and, ← hahead, List.nil_append, List.mem_append, or_and_right,
        exists_or]
    · -- What the look took out is not owed a node any more.
      simp only [hcut, false_and, false_or, List.mem_append, List.mem_cons, List.mem_filter]
      refine exists_congr fun other => and_congr_left fun hpending => or_congr_left ?_
      have hne : other ≠ id := fun heq => hsettled (heq ▸ hpending)
      have hreach : built.sequence.isReachable other = true := by
        rw [isReachable_iff, hlater.live_of hpending.1]
        simp
      simp [hne, hreach]

/-- Looking at a link ahead does not cut the walk off when all kinds are declared. -/
theorem not_cutsOff_look (hregistry : registry.Declared)
    (hroute : s.Route behind (id :: after) heads) (hbuilt : buildAt registry s id = some built) :
    ¬ CutsOff s id built.sequence := by
  rintro ⟨hremoved, -⟩
  exact hroute.state_ne id List.mem_cons_self
    ((consumes_buildAt hregistry hroute.wellFormed hbuilt).2 hremoved)

/-- Declared kinds never cut a walk off. -/
theorem Looks.not_cutsOff (hregistry : registry.Declared)
    (h : Looks registry place heads done s id built)
    (hroute : done.sequence.Route behind ahead heads) (hplace : place = ahead.head?) :
    ¬ CutsOff s id built.sequence := by
  induction h generalizing behind ahead with
  | here hbuilt =>
    obtain ⟨rest, rfl⟩ := List.head?_eq_some_iff.mp hplace.symm
    exact not_cutsOff_look hregistry hroute hbuilt
  | later hbuilt _ ih =>
    obtain ⟨rest, rfl⟩ := List.head?_eq_some_iff.mp hplace.symm
    obtain ⟨-, -, behind', ahead', hroute', hadvance, -, -⟩ :=
      route_look hregistry.splicing hroute hbuilt
    exact ih hroute' hadvance
  | turn _ ih =>
    exact ih hroute.turn hroute.head?_iter

/-- Declared kinds leave no link that is owed a node. -/
theorem Walks.not_pending (hregistry : registry.Declared)
    (h : Walks registry none s.heads { result := [], sequence := s } done') (hs : s.WellFormed)
    (id : LinkId) : ¬ registry.Pending done'.sequence id := by
  intro hpending
  have hstart : ({ result := [], sequence := s } : Built (List Node)).sequence.Route [] []
      s.heads := .start hs
  have hbefore := hpending.of_consumes (h.consumes hregistry hstart.wellFormed)
  have hmem : id ∈ s.reading := hs.mem_reading_iff.mpr
    ⟨lt_size_of_value_ne hbefore.2.1, by simp [hbefore.1]⟩
  obtain ⟨s', look, built, hlooks, hcut, -⟩ :=
    (h.exists_pending_iff hregistry.splicing hstart rfl).mp ⟨id, hmem, hpending⟩
  exact hlooks.not_cutsOff hregistry hstart rfl hcut

end Assembly

/-! ## Exhaustion -/

/-- Assembly leaves no link that is owed a node exactly if it is never cut off before one: whenever
a constructor has taken the link under the cursor out and the link before it is gone as well, no
link further on in that chain is owed a node. -/
theorem Sequence.assemble_exhaustive_iff (hregistry : registry.Splicing) (hs : s.WellFormed) :
    ∃ built, s.assemble registry = some built ∧
      ((∀ id, ¬ registry.Pending built.sequence id) ↔
        ¬ Assembly.Forsakes registry none s.heads { result := [], sequence := s }) := by
  have hsteady := Assembly.steady_of_splicing hregistry
  obtain ⟨done, hdone, hwalks⟩ := hsteady.assemble_total hs
  have hstart : ({ result := [], sequence := s } : Built (List Node)).sequence.Route [] []
      s.heads := .start hs
  have hconsumes : Consumes s done.sequence := hsteady.consumes hwalks hstart.wellFormed
  have hleft := hwalks.exists_pending_iff hregistry hstart rfl
  refine ⟨_, hdone, ?_⟩
  -- A link that is left was in a chain, so that some walk had it ahead.
  have hmem : (∃ id, registry.Pending done.sequence id) ↔
      ∃ id ∈ [] ++ s.heads.flatMap s.iter, registry.Pending done.sequence id := by
    refine exists_congr fun id => (and_iff_right_of_imp fun hpending => ?_).symm
    have hbefore := hpending.of_consumes hconsumes
    exact hs.mem_reading_iff.mpr ⟨lt_size_of_value_ne hbefore.2.1, by simp [hbefore.1]⟩
  exact not_exists.symm.trans (not_congr (hmem.trans hleft))

/-- Notes are built by a constructor that takes each note out, headings by a declared kind. -/
def noteRegistry : Registry :=
  (({} : Registry).registerRecipe "note"
      { result := .node { names := ["note"] }, after := [.remove .self] }).insert "heading"
    { build := .declared { names := ["heading"] }, primary := true }

/-- The registry of notes and headings holds a constructor of each sort. -/
theorem noteRegistry_splicing : noteRegistry.Splicing := by
  have hnote : (Constructor.scripted
      { result := .node { names := ["note"] }, after := [.remove .self] }).Splices :=
    .inr ⟨_, _, rfl, rfl, rfl, rfl⟩
  exact (Registry.declared_empty.splicing.insert "note" hnote).insert "heading" (.inl ⟨_, rfl⟩)

/-- Two notes follow a heading. -/
def headedNotes : List Token :=
  [{ value := "heading", data := "a" }, { value := "note", data := "b" },
    { value := "note", data := "c" }]

/-- The condition for a heading and two notes. -/
theorem Sequence.assemble_exhaustive_iff_headedNotes :
    noteRegistry.Splicing ∧ (ofTokens headedNotes).WellFormed ∧
      ∃ built, (ofTokens headedNotes).assemble noteRegistry = some built ∧
        ((∀ id, ¬ noteRegistry.Pending built.sequence id) ↔
          ¬ Assembly.Forsakes noteRegistry none (ofTokens headedNotes).heads
            { result := [], sequence := ofTokens headedNotes }) :=
  ⟨noteRegistry_splicing, (ofTokens_spec headedNotes).1,
    assemble_exhaustive_iff noteRegistry_splicing (ofTokens_spec headedNotes).1⟩

/-- Two notes stand alone. -/
def bareNotes : List Token :=
  [{ value := "note", data := "b" }, { value := "note", data := "c" }]

/-- The first of two notes is built and taken out at the head of its chain; the second is left. -/
theorem Sequence.not_exhaustive_notes :
    noteRegistry.Splicing ∧ (ofTokens bareNotes).WellFormed ∧
      ∃ built, (ofTokens bareNotes).assemble noteRegistry = some built ∧
        noteRegistry.Pending built.sequence 1 := by
  have hstates : ((ofTokens bareNotes).assemble noteRegistry).map
      (fun built => (built.sequence.state 1, built.sequence.value 1)) =
        some (.live, "note") := by decide +kernel
  obtain ⟨built, hbuilt, hstate⟩ := Option.map_eq_some_iff.mp hstates
  obtain ⟨hlive, hvalue⟩ : built.sequence.state 1 = .live ∧ built.sequence.value 1 = "note" := by
    simpa using hstate
  refine ⟨noteRegistry_splicing, (ofTokens_spec _).1, built, hbuilt, hlive, ?_, ?_⟩
  · simp [hvalue]
  · rw [hvalue]
    decide +kernel

end DocTree
