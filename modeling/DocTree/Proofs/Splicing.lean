import DocTree.Proofs.Assembly
import DocTree.Proofs.Confinement

/-!
# Constructors that take their own link out

Beside declared kinds, a registry may hold constructors that build the node of a kind and then
remove the link that it was built from. Extraction finds its place again after such a child, since
the link of the node that is being built is claimed and stays where it is. So building still comes
to an end within the budget, still only uses up links, and never leaves the chain of its link; it
may just leave that link removed.
-/

namespace DocTree

/-- A recipe builds the node of a kind and then removes its link. What it makes of the node is left
open. -/
structure Recipe.Splices (recipe : Recipe) (kind : Kind) : Prop where
  before : recipe.before = []
  result : recipe.result = .node kind
  after : recipe.after = [.remove .self]

/-- A constructor is a declared kind, or builds by a kind and takes its link out. -/
def Constructor.Splices (build : Constructor) : Prop :=
  (∃ kind, build = .declared kind) ∨ ∃ recipe kind, build = .scripted recipe ∧ recipe.Splices kind

/-- Every entry is a declared kind, or builds by a kind and takes its link out. -/
def Registry.Splicing (registry : Registry) : Prop :=
  ∀ entry ∈ registry.entries, entry.2.build.Splices

/-- What is found in such a registry is such a constructor. -/
theorem Registry.Splicing.find? {registry : Registry} (h : registry.Splicing) {name : String}
    {entry : Entry} (hentry : registry.find? name = some entry) : entry.build.Splices := by
  obtain ⟨before, after, hentries, -⟩ := List.lookup_eq_some_iff.mp hentry
  exact h (name, entry) (by simp [hentries])

/-- Such a constructor may be added under any name. -/
theorem Registry.Splicing.insert {registry : Registry} (h : registry.Splicing) (name : String)
    {entry : Entry} (hbuild : entry.build.Splices) : (registry.insert name entry).Splicing := by
  intro other hother
  rcases Keyed.mem_insertWith hother with hold | ⟨-, -, hnew, -⟩
  · exact h other hold
  · exact hnew ▸ hbuild

/-- Declared kinds are among these registries. -/
theorem Registry.Declared.splicing {registry : Registry} (h : registry.Declared) :
    registry.Splicing :=
  fun entry hentry => .inl (h entry hentry)

namespace Construction

open Sequence

variable {registry : Registry} {s : Sequence} {id found : LinkId} {kind name : String}
  {chain : List LinkId} {e : Extraction} {built : Built (Option Node)} {budget : ℕ}

/-- What came of building for a name from a live link: the link was left alone because nothing is
registered for the name, or it was claimed, or it was removed. -/
def Settles (registry : Registry) (name : String) (s : Sequence) (id : LinkId) (s' : Sequence) :
    Prop :=
  registry.find? name = none ∧ s' = s ∨ s'.state id = .claimed ∨ s'.state id = .removed

/-- After building from a live link, the link is not emptied. -/
theorem Settles.state_ne (h : Settles registry name s id built.sequence)
    (hlive : s.state id = .live) : built.sequence.state id ≠ .emptied := by
  rcases h with ⟨-, hsame⟩ | hclaimed | hremoved
  · simp [hsame, hlive]
  · simp [hclaimed]
  · simp [hremoved]

/-- A search that begins on the chain of a live link of the kind goes on there after the link was
built from and dropped, and has fewer live links to meet. -/
theorem drop_confined (kind : String) (hstands : e.sequence.Stands chain id)
    (hused : e.sequence.state id ≠ .live) (hfound : found ∈ chain)
    (hlive : e.sequence.state found = .live) (hbuilt : ConsumesOn e.sequence built.sequence chain)
    (hend : built.sequence.state found ≠ .emptied) :
    let next := (e.addChild kind found built).drop id found
    ConsumesOn e.sequence next.1.sequence chain ∧
      next.1.sequence.liveCount < e.sequence.liveCount ∧
      next.1.sequence.Stands (chain.filter next.1.sequence.isReachable) id ∧
      ∀ start ∈ next.2, start ∈ chain.filter next.1.sequence.isReachable := by
  have hdropped := hbuilt.remove hfound hlive hend
  have hlt : found < e.sequence.size := hstands.isChain.lt_size found hfound
  have hlt' : found < built.sequence.size := hbuilt.size_eq ▸ hlt
  have hgone := hbuilt.wellFormed.state_remove_self hlt'
  have hless := hdropped.liveCount_lt hlt hlive (by simp [hgone])
  have hstands' : (built.sequence.remove found).1.Stands
      (chain.filter (built.sequence.remove found).1.isReachable) id := by
    refine hstands.of_consumes hdropped.toConsumes ?_
    rw [hdropped.state_eq id hused]
    exact hstands.state_ne
  simp only [Extraction.drop, sequence_addChild]
  refine ⟨hdropped, hless, hstands', fun start hstart => ?_⟩
  split at hstart
  · next hreach =>
    -- The search goes on with the link that came after the dropped one.
    have hreach' := isReachable_iff.mp hreach
    rw [remove_snd hreach'] at hstart
    have hrest := hbuilt.isChain_rest.mem_of_next (List.mem_filter.mpr ⟨hfound, hreach⟩) hstart
    have hne := (hbuilt.wellFormed.next_spec start hstart).2
    obtain ⟨hmem, hstate⟩ := List.mem_filter.mp hrest
    refine List.mem_filter.mpr ⟨hmem, ?_⟩
    rw [isReachable_iff, hbuilt.wellFormed.state_remove hlt' hreach', if_neg hne]
    exact isReachable_iff.mp hstate
  · rw [rewind_of_stands hstands'] at hstart
    exact Option.some.inj hstart ▸ hstands'.head_mem

/-- With a budget above what the live links need, each of the four functions comes to an end and
stays on the chain of its link. Building for a name from a live link settles what becomes of the
link. -/
structure Confined (registry : Registry) (budget : ℕ) : Prop where
  search : ∀ id kind e place chain, e.sequence.Stands chain id → e.sequence.state id ≠ .live →
    (∀ start ∈ place, start ∈ chain) → slotName kind ≠ "" →
    4 * e.sequence.liveCount + 1 ≤ budget →
    ∃ done, searchWithin registry budget id kind e place = some done ∧
      ConsumesOn e.sequence done.sequence chain
  extract : ∀ id kind e chain, e.sequence.Stands chain id → e.sequence.state id ≠ .live →
    4 * e.sequence.liveCount + 2 ≤ budget →
    ∃ done, extractWithin registry budget id kind e = some done ∧
      ConsumesOn e.sequence done.sequence chain
  construct : ∀ kind s id chain, s.Stands chain id → 4 * (s.claim id).liveCount + 3 ≤ budget →
    ∃ built, constructWithin registry budget kind s id = some built ∧
      ConsumesOn (s.claim id) built.sequence chain
  create : ∀ name s id chain, s.Stands chain id → s.state id = .live →
    4 * (s.claim id).liveCount + 4 ≤ budget →
    ∃ built, createWithin registry budget name s id = some built ∧
      ConsumesOn s built.sequence chain ∧ Settles registry name s id built.sequence

namespace Confined

/-- One step more goes to looking for the next link. -/
theorem search_succ (h : Confined registry budget) (id : LinkId) (kind : String) (e : Extraction)
    (place : Option LinkId) (chain : List LinkId) (hstands : e.sequence.Stands chain id)
    (hused : e.sequence.state id ≠ .live) (hplace : ∀ start ∈ place, start ∈ chain)
    (hslot : slotName kind ≠ "") (hbudget : 4 * e.sequence.liveCount + 1 ≤ budget + 1) :
    ∃ done, searchWithin registry (budget + 1) id kind e place = some done ∧
      ConsumesOn e.sequence done.sequence chain := by
  rw [searchWithin]
  cases hfind : place.bind fun start => e.sequence.find? start kind .next with
  | none => exact ⟨e, rfl, .refl hstands.wellFormed hstands.isChain⟩
  | some found =>
    obtain ⟨start, hstart, hfind'⟩ := Option.bind_eq_some_iff.mp hfind
    obtain ⟨hlt, hlive, -⟩ := found_spec hslot hfind
    have hfound := mem_of_find? (hstands.of_mem (hplace start hstart)) hfind'
    have hclaim : (e.sequence.claim found).liveCount < e.sequence.liveCount :=
      (Consumes.claim hstands.wellFormed hlt).liveCount_lt hlt hlive (state_claim_ne_live hlt)
    obtain ⟨built, hbuilt, hconfined, hsettles⟩ :=
      h.create kind e.sequence found chain (hstands.of_mem hfound) hlive (by omega)
    obtain ⟨hdrop, hless, hstands', hplace'⟩ := drop_confined kind hstands hused hfound hlive
      hconfined (hsettles.state_ne hlive)
    have hused' : ((e.addChild kind found built).drop id found).1.sequence.state id ≠ .live := by
      rwa [hdrop.state_eq id hused]
    obtain ⟨done, hdone, hrest⟩ :=
      h.search id kind _ _ _ hstands' hused' hplace' hslot (by omega)
    exact ⟨done, by simp only [hbuilt, hdone], hdrop.trans hrest⟩

/-- One step more goes to finding the place where a search begins. -/
theorem extract_succ (h : Confined registry budget) (id : LinkId) (kind : String) (e : Extraction)
    (chain : List LinkId) (hstands : e.sequence.Stands chain id)
    (hused : e.sequence.state id ≠ .live)
    (hbudget : 4 * e.sequence.liveCount + 2 ≤ budget + 1) :
    ∃ done, extractWithin registry (budget + 1) id kind e = some done ∧
      ConsumesOn e.sequence done.sequence chain := by
  rw [extractWithin]
  split
  · exact ⟨_, rfl, .refl hstands.wellFormed hstands.isChain⟩
  · next hslot =>
    refine h.search id kind e _ chain hstands hused (fun start hstart => ?_) hslot (by omega)
    rw [rewind_of_stands hstands] at hstart
    exact Option.some.inj hstart ▸ hstands.head_mem

/-- The child kinds are extracted one after another. -/
theorem extractAll (h : Confined registry budget) (id : LinkId) (kinds : List String)
    (hstands : e.sequence.Stands chain id) (hused : e.sequence.state id ≠ .live)
    (hbudget : 4 * e.sequence.liveCount + 2 ≤ budget) :
    ∃ done, kinds.foldlM (fun e kind => extractWithin registry budget id kind e) e = some done ∧
      ConsumesOn e.sequence done.sequence chain := by
  induction kinds generalizing e chain with
  | nil => exact ⟨e, rfl, .refl hstands.wellFormed hstands.isChain⟩
  | cons kind kinds ih =>
    obtain ⟨next, hnext, hconfined⟩ := h.extract id kind e chain hstands hused hbudget
    have hstate := hconfined.state_eq id hused
    have hstands' := hstands.of_consumes hconfined.toConsumes (hstate ▸ hstands.state_ne)
    have hless := hconfined.liveCount_le
    obtain ⟨done, hdone, hrest⟩ := ih hstands' (hstate ▸ hused) (by omega)
    exact ⟨done, by simp [List.foldlM_cons, hnext, hdone], hconfined.trans hrest⟩

/-- One step more goes to beginning a node. -/
theorem construct_succ (h : Confined registry budget) (declaration : Kind) (s : Sequence)
    (id : LinkId) (chain : List LinkId) (hstands : s.Stands chain id)
    (hbudget : 4 * (s.claim id).liveCount + 3 ≤ budget + 1) :
    ∃ built, constructWithin registry (budget + 1) declaration s id = some built ∧
      ConsumesOn (s.claim id) built.sequence chain := by
  have hbegin := begin_confined hstands declaration
  have hused := state_begin_ne_live hstands.wellFormed hstands.lt_size declaration
  have hless := hbegin.liveCount_le
  obtain ⟨done, hdone, hrest⟩ :=
    h.extractAll id declaration.children (stands_begin hstands declaration) hused (by omega)
  exact ⟨done.finish id, by simp [constructWithin, hdone, Extraction.finish], hbegin.trans hrest⟩

/-- One step more goes to looking the name up. -/
theorem create_succ (hregistry : registry.Splicing) (h : Confined registry budget) (name : String)
    (s : Sequence) (id : LinkId) (chain : List LinkId) (hstands : s.Stands chain id)
    (hlive : s.state id = .live) (hbudget : 4 * (s.claim id).liveCount + 4 ≤ budget + 1) :
    ∃ built, createWithin registry (budget + 1) name s id = some built ∧
      ConsumesOn s built.sequence chain ∧ Settles registry name s id built.sequence := by
  have hclaimed : (s.claim id).state id = .claimed := by simp [state_claim hstands.lt_size, hlive]
  -- What a kind builds stays on the chain and leaves the link claimed.
  have hconstruct : ∀ kind, ∃ built, constructWithin registry budget kind s id = some built ∧
      ConsumesOn s built.sequence chain ∧ built.sequence.state id = .claimed := by
    intro kind
    obtain ⟨built, hbuilt, hconfined⟩ := h.construct kind s id chain hstands (by omega)
    refine ⟨built, hbuilt, confined_of_claim hstands hconfined, ?_⟩
    rw [hconfined.state_eq id (by simp [hclaimed]), hclaimed]
  rw [createWithin]
  cases hentry : registry.find? name with
  | none => exact ⟨_, rfl, .refl hstands.wellFormed hstands.isChain, .inl ⟨hentry, rfl⟩⟩
  | some entry =>
    rcases hregistry.find? hentry with ⟨kind, hbuild⟩ | ⟨recipe, kind, hbuild, hsplices⟩
    · obtain ⟨built, hbuilt, hconfined, hstate⟩ := hconstruct kind
      exact ⟨present built, by simp [hbuild, hbuilt, present], hconfined, .inr (.inl hstate)⟩
    · obtain ⟨built, hbuilt, hconfined, hstate⟩ := hconstruct kind
      have hremoved := hconfined.remove hstands.mem hlive (by simp [hstate])
      refine ⟨{ built with
          result := some (recipe.finish built.result)
          sequence := (built.sequence.remove id).1 }, ?_, hremoved, .inr (.inr ?_)⟩
      · simp [hbuild, hsplices.before, hsplices.result, hsplices.after, RecipeStep.applyAll,
          RecipeStep.apply, Target.resolve, hbuilt]
      · exact hconfined.wellFormed.state_remove_self (hconfined.size_eq ▸ hstands.lt_size)

end Confined

/-- Every budget above what the live links need is enough to build on one chain. -/
theorem confined (hregistry : registry.Splicing) (budget : ℕ) : Confined registry budget := by
  induction budget with
  | zero => constructor <;> omega
  | succ budget ih =>
    exact ⟨ih.search_succ, ih.extract_succ, ih.construct_succ, ih.create_succ hregistry⟩

end Construction

open Construction

variable {registry : Registry} {s : Sequence} {id : LinkId} {chain : List LinkId}

/-- Building for a name from a live link comes to an end and stays on the link's chain. -/
theorem Registry.create_confined (hregistry : registry.Splicing) (hstands : s.Stands chain id)
    (hlive : s.state id = .live) (name : String) :
    ∃ built, registry.create name s id = some built ∧
      s.ConsumesOn built.sequence chain ∧ Settles registry name s id built.sequence := by
  have hless := (Sequence.Consumes.claim hstands.wellFormed hstands.lt_size).liveCount_le
  exact (confined hregistry (budget s)).create name s id chain hstands hlive
    (by unfold budget; omega)

/-- Building a node of a kind comes to an end and stays on the chain of the link. -/
theorem Kind.construct_confined (kind : Kind) (hregistry : registry.Splicing)
    (hstands : s.Stands chain id) :
    ∃ built, kind.construct registry s id = some built ∧ s.ConsumesOn built.sequence chain := by
  have hless := (Sequence.Consumes.claim hstands.wellFormed hstands.lt_size).liveCount_le
  obtain ⟨built, hbuilt, hconfined⟩ := (confined hregistry (budget s)).construct kind s id chain
    hstands (by unfold budget; omega)
  exact ⟨built, hbuilt, confined_of_claim hstands hconfined⟩

/-! ## Looking at a link -/

/-- A link is live, has a kind, and the kind is registered as primary: assembly owes it a node. -/
def Registry.Pending (registry : Registry) (s : Sequence) (id : LinkId) : Prop :=
  s.state id = .live ∧ s.value id ≠ "" ∧ registry.isPrimary (s.value id) = true

namespace Assembly

/-- From a link that is not owed a node, nothing is built; all there is to report is that its kind
is not registered. -/
theorem buildAt_of_not_pending (h : ¬ registry.Pending s id) :
    ∃ built, buildAt registry s id = some built ∧ built.result = none ∧ built.sequence = s ∧
      ∀ event ∈ built.events, event = .unregistered (s.value id) := by
  simp only [buildAt]
  split
  · exact ⟨_, rfl, rfl, rfl, by simp⟩
  · next hlook =>
    split
    · exact ⟨_, rfl, rfl, rfl, by simp⟩
    · split
      · exact ⟨_, rfl, rfl, rfl, by simp⟩
      · next hprimary =>
        have hlive : s.isLive id = true ∧ s.value id ≠ "" := by simpa using hlook
        exact absurd ⟨Sequence.isLive_iff.mp hlive.1, hlive.2, by simpa using hprimary⟩ h

/-- What is registered as primary is registered. -/
theorem exists_of_isPrimary {name : String} (h : registry.isPrimary name = true) :
    ∃ entry, registry.find? name = some entry ∧ entry.primary = true := by
  unfold Registry.isPrimary at h
  split at h
  · next entry hentry => exact ⟨entry, hentry, h⟩
  · cases h

/-- From a link that is owed a node, what is registered for its kind is built. -/
theorem buildAt_of_pending (h : registry.Pending s id) :
    buildAt registry s id = registry.create (s.value id) s id := by
  obtain ⟨hlive, hvalue, hprimary⟩ := h
  obtain ⟨entry, hentry, -⟩ := exists_of_isPrimary hprimary
  simp [buildAt, Sequence.isLive, hlive, hvalue, hprimary, Registry.has, hentry]

/-- Where kinds are declared, a look at a link that is owed a node builds what is declared for its
kind, and a look at any other link gives nothing. -/
theorem buildAt_cases {built : Built (Option Node)} (hregistry : registry.Declared)
    (hs : s.WellFormed) (hbuilt : buildAt registry s id = some built) :
    registry.Pending s id ∧ id < s.size ∧ Creates registry (s.value id) s id built ∨
      ¬ registry.Pending s id ∧ built.result = none ∧ built.sequence = s ∧
        ∀ event ∈ built.events, event = .unregistered (s.value id) := by
  by_cases hpending : registry.Pending s id
  · have hid := Sequence.lt_size_of_value_ne hpending.2.1
    obtain ⟨built', hcreate, hcreates⟩ := registry.create_total hregistry hs hid (s.value id)
    rw [buildAt_of_pending hpending, hcreate] at hbuilt
    exact .inl ⟨hpending, hid, Option.some.inj hbuilt ▸ hcreates⟩
  · obtain ⟨built', hbuilt', hnothing⟩ := buildAt_of_not_pending hpending
    obtain rfl := Option.some.inj (hbuilt'.symm.trans hbuilt)
    exact .inr ⟨hpending, hnothing⟩

/-- Looking at a link of a chain stays on the chain, and the link is owed no node afterwards. -/
theorem buildAt_confined (hregistry : registry.Splicing) (hs : s.WellFormed)
    (hchain : s.IsChain chain) (hid : id ∈ chain) :
    ∃ built, buildAt registry s id = some built ∧ s.ConsumesOn built.sequence chain ∧
      ¬ registry.Pending built.sequence id := by
  by_cases hpending : registry.Pending s id
  · have hlive := hpending.1
    have hstands : s.Stands chain id := ⟨hs, hchain, hid, by simp [hlive]⟩
    obtain ⟨built, hbuilt, hconfined, hsettles⟩ :=
      registry.create_confined hregistry hstands hlive (s.value id)
    obtain ⟨entry, hentry, -⟩ := exists_of_isPrimary hpending.2.2
    refine ⟨built, (buildAt_of_pending hpending).trans hbuilt, hconfined, fun hstill => ?_⟩
    rcases hsettles with ⟨hnone, -⟩ | hclaimed | hremoved
    · cases hnone.symm.trans hentry
    · cases hclaimed.symm.trans hstill.1
    · cases hremoved.symm.trans hstill.1
  · obtain ⟨built, hbuilt, -, hsame, -⟩ := buildAt_of_not_pending hpending
    exact ⟨built, hbuilt, hsame.symm ▸ .refl hs hchain, hsame.symm ▸ hpending⟩

/-- Registries of declared kinds and of constructors that take their link out are steady. -/
theorem steady_of_splicing (hregistry : registry.Splicing) : Steady registry := by
  intro s hs id
  by_cases hid : id < s.size
  · obtain ⟨before, after, hchain⟩ := hs.exists_chain hid
    obtain ⟨built, hbuilt, hconfined, -⟩ := buildAt_confined hregistry hs hchain
      (show id ∈ before ++ id :: after by simp)
    exact ⟨built, hbuilt, hconfined.toConsumes⟩
  · have hpending : ¬ registry.Pending s id := fun h =>
      hid (Sequence.lt_size_of_value_ne h.2.1)
    obtain ⟨built, hbuilt, -, hsame, -⟩ := buildAt_of_not_pending hpending
    exact ⟨built, hbuilt, hsame.symm ▸ .refl hs⟩

end Assembly

end DocTree
