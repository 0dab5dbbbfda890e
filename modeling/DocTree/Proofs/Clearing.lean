import DocTree.Proofs.Nesting
import DocTree.Proofs.Searching

/-!
# Chains cleared of child kinds

When a node was built, no live link of its child kinds is left on its chain, registered or not, and
the chain has kept its order: it has lost the links that were extracted, and no others. Declared
kinds ensure this, however they absorb and extract in turn, because the link of the node stays in
its place.

Constructors that take other links out than their own may take away the node's link and the first
link that extraction remembers. From then on the searches find nothing, so that a live link of a
child kind is left exactly if one is on the chain at such a stage.
-/

namespace DocTree

/-- No live link of a child kind is among some links; child kinds without a slot do not count. -/
def Kind.Clears (kind : Kind) (s : Sequence) (links : List LinkId) : Prop :=
  ∀ other ∈ links, s.state other = .live → s.value other ∈ kind.children →
    slotName (s.value other) = ""

namespace Construction

open Sequence Relation

variable {registry : Registry} {names : Set String} {s s' : Sequence} {id : LinkId} {kind : Kind}
  {place : Option LinkId} {chain : List LinkId} {done : Extraction} {stage stage' : Stage}

/-- The search for a child kind with a slot is lost, although a live link of the kind is among some
links. -/
def Stage.Abandons (stage : Stage) (links : List LinkId) (id : LinkId) : Prop :=
  stage.Lost id ∧ ∃ kind ∈ stage.kinds.head?, slotName kind ≠ "" ∧
    ∃ other ∈ links, stage.extraction.sequence.isLiveOf kind other = true

/-! ## Whole runs -/

/-- When all kinds are done, extraction goes on no more. -/
theorem eq_of_reaches_done (h : Reaches registry id ⟨[], place, done⟩ stage) :
    stage = ⟨[], place, done⟩ := by
  rcases h.cases_head with heq | ⟨next, hstep, -⟩
  · exact heq.symm
  · cases hstep

/-- What holds at some stage from one on holds there or from the next one on. -/
theorem exists_reaches_iff {P : Stage → Prop} (hstep : Advances registry id stage stage') :
    (∃ later, Reaches registry id stage later ∧ P later) ↔
      P stage ∨ ∃ later, Reaches registry id stage' later ∧ P later := by
  constructor
  · rintro ⟨later, hreaches, hlater⟩
    rcases hreaches.cases_head with rfl | ⟨next, hnext, hrest⟩
    · exact .inl hlater
    · obtain rfl := hstep.unique hnext
      exact .inr ⟨later, hrest, hlater⟩
  · rintro (hstage | ⟨later, hreaches, hlater⟩)
    · exact ⟨stage, .refl, hstage⟩
    · exact ⟨later, .head hstep hreaches, hlater⟩

/-- A lost search stays lost and changes nothing. -/
theorem lost_advance (hlost : stage.Lost id) (hstep : Advances registry id stage stage') :
    stage'.Lost id ∧ stage'.extraction.sequence = stage.extraction.sequence := by
  obtain ⟨hnone, hnowhere⟩ := hlost
  cases hstep with
  | pass => exact ⟨⟨hnowhere, hnowhere⟩, rfl⟩
  | exhaust => exact ⟨⟨hnowhere, hnowhere⟩, rfl⟩
  | take _ hfind =>
    simp only at hnone
    rw [hnone] at hfind
    cases hfind

/-- Once the search is lost, extraction changes nothing any more. -/
theorem lost_reaches (hlost : stage.Lost id) (hreaches : Reaches registry id stage stage') :
    stage'.extraction.sequence = stage.extraction.sequence := by
  induction hreaches using ReflTransGen.head_induction_on with
  | refl => rfl
  | head hstep _ ih =>
    obtain ⟨hlost', hsame⟩ := lost_advance hlost hstep
    exact (ih hlost').trans hsame

/-- On the way, links change at most for the worse. -/
theorem Tracks.dwindles (hregistry : registry.TrimsAmong names)
    (hreaches : Reaches registry id stage stage') (hkinds : ∀ kind ∈ stage.kinds, kind ∈ names)
    (h : Tracks chain id stage) :
    Dwindles stage.extraction.sequence stage'.extraction.sequence := by
  induction hreaches using ReflTransGen.head_induction_on with
  | refl => exact .refl h.onChain.wellFormed
  | head hstep _ ih =>
    obtain ⟨h', hdwindles, hsubset⟩ := h.advance hregistry hkinds hstep
    exact hdwindles.trans (ih (fun kind hkind => hkinds kind (hsubset kind hkind)) h')

/-- In the end a live link of some kind with a slot is left exactly if, on the way, the search for
the kind is lost with a live link of the kind on the chain. -/
theorem Tracks.exists_left_iff (hregistry : registry.TrimsAmong names)
    (hreaches : Reaches registry id stage ⟨[], place, done⟩)
    (hkinds : ∀ kind ∈ stage.kinds, kind ∈ names) (h : Tracks chain id stage) :
    (∃ kind ∈ stage.kinds, slotName kind ≠ "" ∧
        ∃ other ∈ chain, done.sequence.isLiveOf kind other = true) ↔
      ∃ later, Reaches registry id stage later ∧ later.Abandons chain id := by
  induction hreaches using ReflTransGen.head_induction_on with
  | refl =>
    constructor
    · rintro ⟨kind, hkind, -⟩
      cases hkind
    · rintro ⟨later, hlater, -, kind, hkind, -⟩
      rw [eq_of_reaches_done hlater] at hkind
      cases hkind
  | @head stage next hstep hrest ih =>
    obtain ⟨h', -, hsubset⟩ := h.advance hregistry hkinds hstep
    have hkinds' : ∀ kind ∈ next.kinds, kind ∈ names := fun kind hkind =>
      hkinds kind (hsubset kind hkind)
    have hlater : Dwindles next.extraction.sequence done.sequence :=
      h'.dwindles hregistry hrest hkinds'
    rw [exists_reaches_iff hstep, ← ih hkinds' h']
    cases hstep with
    | @pass kind kinds place e hslot => simp [Stage.Abandons, hslot]
    | @exhaust kind kinds place e hslot hfind =>
      have hnext : Advances registry id ⟨kind :: kinds, place, e⟩ ⟨kinds, e.place id, e⟩ :=
        .exhaust hslot hfind
      rw [List.exists_mem_cons_iff]
      refine or_congr_left ?_
      rcases h.exhausted hfind with hlost | hnone
      · -- Nothing changes any more, so that the links that are left now are left in the end.
        have hsame : done.sequence = e.sequence :=
          lost_reaches (lost_advance hlost hnext).1 hrest
        simp [Stage.Abandons, hlost, hslot, hsame]
      · have hleft : ∀ other ∈ chain, ¬ done.sequence.isLiveOf kind other = true :=
          fun other hother hlive =>
            Bool.false_ne_true ((hnone other hother).symm.trans (hlater.isLiveOf_of hlive))
        have hnow : ∀ other ∈ chain, ¬ e.sequence.isLiveOf kind other = true := by
          simpa using hnone
        constructor
        · rintro ⟨-, other, hother, hlive⟩
          exact absurd hlive (hleft other hother)
        · rintro ⟨-, kind', hkind', -, other, hother, hlive⟩
          obtain rfl := Option.some.inj hkind'
          exact absurd hlive (hnow other hother)
    | take _ hfind =>
      refine (or_iff_right ?_).symm
      rintro ⟨⟨hnone, -⟩, -⟩
      simp only at hnone
      rw [hnone] at hfind
      cases hfind

/-- When a search is lost, the node's link is removed. -/
theorem Stage.Lost.state_eq (h : stage.Lost id) :
    stage.extraction.sequence.state id = .removed := by
  have hnowhere : rewind stage.extraction.sequence id stage.extraction.first = none := h.2
  rw [rewind, Option.map_eq_none_iff, List.find?_eq_none] at hnowhere
  simpa [isReachable] using hnowhere id (by simp)

/-- If a search is lost on the way, the node's link is removed in the end. -/
theorem state_of_abandons (hreaches : Reaches registry id stage ⟨[], place, done⟩)
    (habandons : ∃ later, Reaches registry id stage later ∧ later.Abandons chain id) :
    done.sequence.state id = .removed := by
  obtain ⟨later, hlater, hlost, kind, hkind, -⟩ := habandons
  have hend : Reaches registry id later ⟨[], place, done⟩ := by
    have hunique : Relator.RightUnique (Advances registry id) :=
      fun _ _ _ hleft hright => hleft.unique hright
    rcases ReflTransGen.total_of_right_unique hunique hlater hreaches with hend | hback
    · exact hend
    · rw [eq_of_reaches_done hback] at hkind
      cases hkind
  have hsame : done.sequence = later.extraction.sequence := lost_reaches hlost hend
  exact hsame ▸ hlost.state_eq

/-! ## The start of a run -/

/-- Extraction for a node begins on the chain of the node's link. -/
theorem tracks_start (hstands : s.Stands chain id) (kind : Kind) :
    Tracks chain id (.start s id kind) := by
  have hbegun := stands_begin hstands kind
  have honChain : OnChain chain id (begin s id kind) := by
    refine ⟨hbegun.wellFormed, hbegun.isChain, hstands.mem, fun first hfirst => ?_⟩
    have hhead : (begin s id kind).first = some ((begin s id kind).sequence.head id) := rfl
    obtain rfl := Option.some.inj (hhead.symm.trans hfirst)
    exact List.mem_of_mem_filter hbegun.head_mem
  exact .begins honChain kind.children

/-- A chain is cleared of child kinds if no live link of one of them with a slot is on it. -/
theorem clears_iff : kind.Clears s' chain ↔
    ¬ ∃ child ∈ kind.children, slotName child ≠ "" ∧
      ∃ other ∈ chain, s'.isLiveOf child other = true := by
  simp only [isLiveOf_iff]
  constructor
  · rintro h ⟨child, hchild, hslot, other, hother, hlive, rfl⟩
    exact hslot (h other hother hlive hchild)
  · intro h other hother hlive hchild
    by_contra hslot
    exact h ⟨_, hchild, hslot, other, hother, hlive, rfl⟩

end Construction

open Construction Sequence

variable {registry : Registry} {s : Sequence} {id : LinkId} {chain : List LinkId}

/-- Building comes to an end. The chain is then cleared of child kinds if no search was lost with a
link to find, and only then; no search was if the node's link is still in its place. -/
theorem Kind.construct_clears {names : Set String} (kind : Kind)
    (hregistry : registry.TrimsAmong names) (hnames : ∀ child ∈ kind.children, child ∈ names)
    (hstands : s.Stands chain id) :
    ∃ done place, kind.construct registry s id = some (done.finish id) ∧
      Reaches registry id (.start s id kind) ⟨[], place, done⟩ ∧
      (kind.Clears done.sequence chain ↔
        ∀ stage, Reaches registry id (.start s id kind) stage → ¬ stage.Abandons chain id) ∧
      (done.sequence.state id ≠ .removed → kind.Clears done.sequence chain) := by
  have hless := (Consumes.claim hstands.wellFormed hstands.lt_size).liveCount_le
  obtain ⟨built, hbuilt, -⟩ := (ample hregistry (budget s)).construct kind s id
    hstands.wellFormed hstands.lt_size hnames (by unfold budget; omega)
  obtain ⟨done, rfl, hreaches⟩ := reaches_construct hbuilt
  have hclears : kind.Clears done.sequence chain ↔
      ∀ stage, Reaches registry id (.start s id kind) stage → ¬ stage.Abandons chain id := by
    have hleft := (tracks_start hstands kind).exists_left_iff hregistry hreaches hnames
    rw [clears_iff, ← not_exists_not]
    simpa [Stage.start] using not_congr hleft
  refine ⟨done, _, hbuilt, hreaches, hclears, fun hreach => hclears.mpr ?_⟩
  exact fun stage hstage habandons =>
    hreach (state_of_abandons hreaches ⟨stage, hstage, habandons⟩)

/-! ## Declared kinds -/

/-- With declared kinds, also with kinds that extract one another in a circle, no live link of a
child kind is left on the chain, registered or not. The chain keeps its order and loses the links
that are removed, and these were live. -/
theorem Kind.construct_orderly (kind : Kind) (hregistry : registry.Declared) (hs : s.WellFormed)
    (hid : id < s.size) (hreach : s.state id ≠ .removed) :
    ∃ built, kind.construct registry s id = some built ∧
      kind.Clears built.sequence (s.chainOf id) ∧
      built.sequence.chainOf id = (s.chainOf id).filter built.sequence.isReachable ∧
      ∀ other, built.sequence.state other = .removed → s.state other ≠ .removed →
        s.state other = .live := by
  have hstands := hs.stands_chainOf hid hreach
  obtain ⟨done, place, hbuilt, -, -, hclears⟩ :=
    kind.construct_clears hregistry.trimming.among (fun child _ => Set.mem_univ child) hstands
  obtain ⟨done', hbuilt', hextracts⟩ := kind.construct_total hregistry hs hid
  have hsame : done.sequence = done'.sequence :=
    congrArg Built.sequence (Option.some.inj (hbuilt.symm.trans hbuilt'))
  -- The node's link was claimed or used up before, so that extraction leaves it in its place.
  have hbegin := consumes_begin hs hid kind
  have hrest : Consumes (begin s id kind).sequence done.sequence :=
    hsame ▸ hextracts.consumes hbegin.wellFormed
  have hconsumes : Consumes s done.sequence := ((Consumes.claim hs hid).trans hbegin).trans hrest
  have hreach' : done.sequence.state id ≠ .removed := by
    rw [hrest.state_eq id (state_begin_ne_live hs hid kind)]
    exact (stands_begin hstands kind).state_ne
  refine ⟨_, hbuilt, hclears hreach', ?_, fun other hremoved hother => ?_⟩
  · have hstands' := hstands.of_consumes hconsumes hreach'
    exact hstands'.isChain.chainOf_eq hconsumes.wellFormed hstands'.mem
  · by_contra hlive
    exact hother ((hconsumes.state_eq other hlive).symm.trans hremoved)

/-- Chains of items and notes are extracted by a list, the items extract lists in turn, and nothing
is registered for notes. -/
theorem Kind.construct_orderly_circular :
    ∃ registry, Registry.ofKinds circularKinds = .ok registry ∧
      let s := ofTokens
        [{ value := "item", data := "a" }, { value := "note", data := "b" },
          { value := "list", data := "c" }, { value := "list", data := "d" },
          { value := "item", data := "e" }]
      let kind : Kind := { names := ["list"], children := ["list", "note", "item"] }
      ∃ built, kind.construct registry s 2 = some built ∧
        kind.Clears built.sequence (s.chainOf 2) ∧
        built.sequence.chainOf 2 = (s.chainOf 2).filter built.sequence.isReachable ∧
        ∀ other, built.sequence.state other = .removed → s.state other ≠ .removed →
          s.state other = .live :=
  ⟨_, rfl, Kind.construct_orderly _ (Registry.declared_ofKinds circularKinds rfl)
    (ofTokens_spec _).1 (by decide +kernel) (by decide +kernel)⟩

/-! ## Constructors that take links out -/

/-- With constructors that take links out after building, no live link of a child kind is left on
the chain exactly if no search is lost while there is one: whenever neither the node's link nor the
first link that extraction remembers is left, and a search stands nowhere, no live link of its kind
is on the chain. In particular none is left if the node's link is still in its place. -/
theorem Kind.construct_clears_iff (kind : Kind) (hregistry : registry.Trimming)
    (hs : s.WellFormed) (hid : id < s.size) (hreach : s.state id ≠ .removed) :
    ∃ built, kind.construct registry s id = some built ∧
      (kind.Clears built.sequence (s.chainOf id) ↔
        ∀ stage, Reaches registry id (.start s id kind) stage →
          ¬ stage.Abandons (s.chainOf id) id) ∧
      (built.sequence.state id ≠ .removed → kind.Clears built.sequence (s.chainOf id)) := by
  obtain ⟨done, place, hbuilt, -, hclears⟩ := kind.construct_clears hregistry.among
    (fun child _ => Set.mem_univ child) (hs.stands_chainOf hid hreach)
  exact ⟨_, hbuilt, hclears⟩

/-- The kind of cuts. -/
def cutKind : Kind := { names := ["cut"] }

/-- The kind of notes. -/
def noteKind : Kind := { names := ["note"] }

/-- A title holds cuts and notes. -/
def titleKind : Kind := { names := ["title"], children := ["cut", "note"] }

/-- Cuts are built by a constructor that then takes the head of the chain out, notes by the declared
kind. -/
def cutRegistry : Registry :=
  (({} : Registry).registerRecipe "cut"
      { result := .node cutKind, after := [.remove .head] }).insert "note"
    { build := .declared noteKind, primary := true }

/-- The registry of cuts and notes holds a constructor of each sort. -/
theorem cutRegistry_trimming : cutRegistry.Trimming := by
  have hcut : (Constructor.scripted
      { result := .node cutKind, after := [.remove .head] }).TrimsBy cutKind :=
    .inr ⟨_, rfl, rfl, rfl, by simp⟩
  exact (Registry.declared_empty.trimming.insert "cut" hcut).insert "note" (.inl rfl)

/-- The condition for a title in the middle of its chain. -/
theorem Kind.construct_clears_iff_middle :
    cutRegistry.Trimming ∧
      let s := ofTokens
        [{ value := "note", data := "a" }, { value := "title", data := "b" },
          { value := "cut", data := "c" }, { value := "note", data := "d" }]
      ∃ built, titleKind.construct cutRegistry s 1 = some built ∧
        (titleKind.Clears built.sequence (s.chainOf 1) ↔
          ∀ stage, Reaches cutRegistry 1 (.start s 1 titleKind) stage →
            ¬ stage.Abandons (s.chainOf 1) 1) ∧
        (built.sequence.state 1 ≠ .removed → titleKind.Clears built.sequence (s.chainOf 1)) :=
  ⟨cutRegistry_trimming, Kind.construct_clears_iff titleKind cutRegistry_trimming
    (ofTokens_spec _).1 (by decide +kernel) (by decide +kernel)⟩

/-- A title stands at the head of its chain. -/
def titleFirst : Sequence :=
  ofTokens [{ value := "title", data := "a" }, { value := "cut", data := "b" },
    { value := "note", data := "c" }]

/-- The cut takes the title's own link out, which is also the first link of the chain; the note is
not searched for any more. -/
theorem Kind.not_clears_titleFirst :
    cutRegistry.Trimming ∧ (∀ kind ∈ [cutKind, noteKind, titleKind], kind.fault? = none) ∧
      titleFirst.WellFormed ∧ 0 < titleFirst.size ∧ titleFirst.state 0 ≠ .removed ∧
      ∃ built, titleKind.construct cutRegistry titleFirst 0 = some built ∧
        ¬ titleKind.Clears built.sequence (titleFirst.chainOf 0) := by
  have hleft : (titleKind.construct cutRegistry titleFirst 0).map
      (fun built => (built.sequence.state 2, built.sequence.value 2)) =
        some (.live, "note") := by decide +kernel
  obtain ⟨built, hbuilt, hstate⟩ := Option.map_eq_some_iff.mp hleft
  obtain ⟨hlive, hvalue⟩ : built.sequence.state 2 = .live ∧ built.sequence.value 2 = "note" := by
    simpa using hstate
  refine ⟨cutRegistry_trimming, by decide +kernel, (ofTokens_spec _).1, by decide +kernel,
    by decide +kernel, built, hbuilt, fun hclears => ?_⟩
  have hslot := hclears 2 (by decide +kernel) hlive (by rw [hvalue]; decide +kernel)
  rw [hvalue] at hslot
  exact absurd hslot (by decide +kernel)

end DocTree
