import DocTree.Proofs.Absorption
import DocTree.Proofs.Declared

/-!
# Extraction without a budget

With declared kinds the builder's four functions describe one big-step relation: extraction goes
through the child kinds in order, and for each of them from one link of the kind to the next. Each
link that is found was live and no longer is when extraction goes on, so that every run comes to an
end. The relation holds of each run that is granted four steps for each live link and four more, and
has one outcome only, so that beyond that the budget makes no difference.
-/

namespace DocTree

namespace Construction

open Sequence

/-- Where extraction begins to search for the links of a kind. -/
def Extraction.place (e : Extraction) (id : LinkId) : Option LinkId :=
  rewind e.sequence id e.first

/-- What building gives when extraction has ended. -/
def Extraction.finish (e : Extraction) (id : LinkId) : Built Node :=
  { result := e.node, sequence := e.sequence, events := .opened id :: e.events ++ [.closed id] }

/-- What building for a registered name gives. -/
def present (built : Built Node) : Built (Option Node) :=
  { built with result := some built.result }

/-- Extraction for a link goes from one state to another by extracting the links of the given kinds
in order, beginning at a place with those of the first kind. -/
inductive Extracts (registry : Registry) :
    LinkId → List String → Option LinkId → Extraction → Extraction → Prop where
  | done (id : LinkId) (place : Option LinkId) (e : Extraction) :
    Extracts registry id [] place e e
  /-- A kind without a slot is passed over. -/
  | pass {id : LinkId} {kind : String} {kinds : List String} {place : Option LinkId}
      {e e' : Extraction} (hslot : slotName kind = "")
      (hrest : Extracts registry id kinds (e.place id)
        { e with events := e.events ++ [.noSlot e.node.name kind] } e') :
    Extracts registry id (kind :: kinds) place e e'
  /-- No link of the kind is left. -/
  | exhaust {id : LinkId} {kind : String} {kinds : List String} {place : Option LinkId}
      {e e' : Extraction} (hslot : slotName kind ≠ "")
      (hfind : (place.bind fun start => e.sequence.find? start kind .next) = none)
      (hrest : Extracts registry id kinds (e.place id) e e') :
    Extracts registry id (kind :: kinds) place e e'
  /-- A link of a kind that nothing is registered for is dropped. -/
  | lose {id : LinkId} {kind : String} {kinds : List String} {place : Option LinkId}
      {e e' : Extraction} {found : LinkId} (hslot : slotName kind ≠ "")
      (hfind : (place.bind fun start => e.sequence.find? start kind .next) = some found)
      (hentry : registry.find? kind = none)
      (hrest : Extracts registry id (kind :: kinds)
        ((e.addChild kind found { result := none, sequence := e.sequence }).drop id found).2
        ((e.addChild kind found { result := none, sequence := e.sequence }).drop id found).1 e') :
    Extracts registry id (kind :: kinds) place e e'
  /-- A link of a declared kind is built into a child and taken out. -/
  | child {id : LinkId} {kind : String} {kinds : List String} {place : Option LinkId}
      {e e' done : Extraction} {found : LinkId} {entry : Entry} {built : Kind}
      (hslot : slotName kind ≠ "")
      (hfind : (place.bind fun start => e.sequence.find? start kind .next) = some found)
      (hentry : registry.find? kind = some entry) (hbuild : entry.build = .declared built)
      (hchild : Extracts registry found built.children ((begin e.sequence found built).place found)
        (begin e.sequence found built) done)
      (hrest : Extracts registry id (kind :: kinds)
        ((e.addChild kind found (present (done.finish found))).drop id found).2
        ((e.addChild kind found (present (done.finish found))).drop id found).1 e') :
    Extracts registry id (kind :: kinds) place e e'

/-- Building for a name from a link gives nothing, or the node of the kind declared for it. -/
inductive Creates (registry : Registry) (name : String) (s : Sequence) (id : LinkId) :
    Built (Option Node) → Prop where
  | absent (hentry : registry.find? name = none) :
    Creates registry name s id { result := none, sequence := s }
  | declared {entry : Entry} {kind : Kind} {done : Extraction}
      (hentry : registry.find? name = some entry) (hbuild : entry.build = .declared kind)
      (hdone : Extracts registry id kind.children ((begin s id kind).place id) (begin s id kind)
        done) :
    Creates registry name s id (present (done.finish id))

variable {registry : Registry} {s s' : Sequence} {id found : LinkId} {kind name : String}
  {kinds : List String} {place : Option LinkId} {e e' done : Extraction}
  {built : Built (Option Node)} {declaration : Kind} {budget : ℕ}

/-! ## What extraction uses up -/

/-- What is found is a live link of the kind, on the trail from the place. -/
theorem find?_spec {start : LinkId} {direction : Direction}
    (h : s.find? start kind direction = some found) :
    s.state found = .live ∧ s.value found = kind ∧ found ∈ s.trail direction start := by
  have hfound := List.find?_some h
  simp only [Bool.and_eq_true, beq_iff_eq] at hfound
  exact ⟨isLive_iff.mp hfound.1, hfound.2, List.mem_of_find?_eq_some h⟩

/-- A link of a kind with a slot lies in the sequence. -/
theorem lt_size_of_slotName (hslot : slotName kind ≠ "") (hvalue : s.value found = kind) :
    found < s.size := by
  refine lt_size_of_value_ne fun hempty => hslot ?_
  rw [← hvalue, hempty]
  rfl

/-- What is found for a kind with a slot is a live link of the kind, and lies in the sequence. -/
theorem found_spec (hslot : slotName kind ≠ "")
    (hfind : (place.bind fun start => s.find? start kind .next) = some found) :
    found < s.size ∧ s.state found = .live ∧ s.value found = kind := by
  obtain ⟨start, -, hfind⟩ := Option.bind_eq_some_iff.mp hfind
  obtain ⟨hlive, hvalue, -⟩ := find?_spec hfind
  exact ⟨lt_size_of_slotName hslot hvalue, hlive, hvalue⟩

/-- Building from a live link leaves it claimed, whatever is extracted. -/
theorem state_of_consumes_begin (hs : s.WellFormed) (hid : id < s.size) (hlive : s.state id = .live)
    (h : Consumes (begin s id declaration).sequence s') : s'.state id = .claimed := by
  have hclaimed : (s.claim id).state id = .claimed := by simp [state_claim hid, hlive]
  have hafter := (consumes_begin hs hid declaration).trans h
  rw [hafter.state_eq id (by simp [hclaimed]), hclaimed]

/-- A node that was begun from a live link has claimed it. -/
theorem state_begin (hs : s.WellFormed) (hid : id < s.size) (hlive : s.state id = .live)
    (declaration : Kind) : (begin s id declaration).sequence.state id = .claimed :=
  state_of_consumes_begin hs hid hlive (.refl (consumes_begin hs hid declaration).wellFormed)

/-- Adding what came of building goes on with the sequence that building left. -/
theorem sequence_addChild (e : Extraction) (kind : String) (found : LinkId)
    (built : Built (Option Node)) : (e.addChild kind found built).sequence = built.sequence := by
  unfold Extraction.addChild
  split <;> rfl

/-- When a live link was left alone or claimed, dropping it uses it up. -/
theorem consumes_drop (id : LinkId) (kind : String) (h : Consumes e.sequence built.sequence)
    (hlt : found < e.sequence.size) (hlive : e.sequence.state found = .live)
    (hend : built.sequence.state found = .live ∨ built.sequence.state found = .claimed) :
    Consumes e.sequence ((e.addChild kind found built).drop id found).1.sequence := by
  have hdrop := h.remove hlive hend hlt
  rwa [← sequence_addChild e kind found built] at hdrop

/-- Building a child from a live link and dropping the link uses links up. -/
theorem consumes_child (id : LinkId) (kind : String) (hs : e.sequence.WellFormed)
    (hlt : found < e.sequence.size) (hlive : e.sequence.state found = .live)
    (hdone : Consumes (begin e.sequence found declaration).sequence done.sequence) :
    Consumes e.sequence
      ((e.addChild kind found (present (done.finish found))).drop id found).1.sequence := by
  have hbegin := (Consumes.claim hs hlt).trans (consumes_begin hs hlt declaration)
  have hbuilt : Consumes e.sequence (present (done.finish found)).sequence := hbegin.trans hdone
  exact consumes_drop id kind hbuilt hlt hlive
    (.inr (state_of_consumes_begin hs hlt hlive hdone))

/-- Dropping a link that nothing was built from uses it up. -/
theorem consumes_lose (id : LinkId) (kind : String) (hs : e.sequence.WellFormed)
    (hlt : found < e.sequence.size) (hlive : e.sequence.state found = .live) :
    Consumes e.sequence ((e.addChild kind found
      { result := none, sequence := e.sequence }).drop id found).1.sequence :=
  consumes_drop id kind (.refl hs) hlt hlive (.inl hlive)

/-- Extraction uses up links. -/
theorem Extracts.consumes (h : Extracts registry id kinds place e e')
    (hs : e.sequence.WellFormed) : Consumes e.sequence e'.sequence := by
  induction h with
  | done => exact .refl hs
  | pass _ _ ih => exact ih hs
  | exhaust _ _ _ ih => exact ih hs
  | lose hslot hfind _ _ ih =>
    obtain ⟨hlt, hlive, -⟩ := found_spec hslot hfind
    refine (consumes_lose _ _ hs hlt hlive).trans (ih ?_)
    exact (consumes_lose _ _ hs hlt hlive).wellFormed
  | child hslot hfind _ _ _ _ ihchild ih =>
    obtain ⟨hlt, hlive, -⟩ := found_spec hslot hfind
    have hdone := ihchild (consumes_begin hs hlt _).wellFormed
    refine (consumes_child _ _ hs hlt hlive hdone).trans (ih ?_)
    exact (consumes_child _ _ hs hlt hlive hdone).wellFormed

/-- Building for a name uses up links. -/
theorem Creates.consumes (h : Creates registry name s id built) (hs : s.WellFormed)
    (hid : id < s.size) : Consumes s built.sequence := by
  cases h with
  | absent => exact .refl hs
  | @declared _ kind _ _ _ hdone =>
    have hbegin := consumes_begin hs hid kind
    exact ((Consumes.claim hs hid).trans hbegin).trans (hdone.consumes hbegin.wellFormed)

/-- Building for a name from a live link and dropping the link uses up links, and leaves fewer live
ones. -/
theorem Creates.drop (h : Creates registry name e.sequence found built) (hs : e.sequence.WellFormed)
    (hlt : found < e.sequence.size) (hlive : e.sequence.state found = .live) (id : LinkId)
    (kind : String) :
    Consumes e.sequence ((e.addChild kind found built).drop id found).1.sequence ∧
      ((e.addChild kind found built).drop id found).1.sequence.liveCount <
        e.sequence.liveCount := by
  have hdrop : Consumes e.sequence ((e.addChild kind found built).drop id found).1.sequence := by
    cases h with
    | absent => exact consumes_lose id kind hs hlt hlive
    | declared _ _ hdone =>
      exact consumes_child id kind hs hlt hlive
        (hdone.consumes (consumes_begin hs hlt _).wellFormed)
  refine ⟨hdrop, hdrop.liveCount_lt hlt hlive ?_⟩
  have hbuilt := h.consumes hs hlt
  rw [← sequence_addChild e kind found built] at hbuilt
  simp [Extraction.drop, hbuilt.wellFormed.state_remove_self (hbuilt.size_eq ▸ hlt)]

/-! ## The budget is enough -/

/-- With a budget each of the four functions gives what the relation says, if the budget is above
what the live links need. -/
structure Total (registry : Registry) (budget : ℕ) : Prop where
  search : ∀ id kind e place, e.sequence.WellFormed → slotName kind ≠ "" →
    4 * e.sequence.liveCount + 1 ≤ budget →
    ∃ done, searchWithin registry budget id kind e place = some done ∧
      ∀ kinds e', Extracts registry id kinds (done.place id) done e' →
        Extracts registry id (kind :: kinds) place e e'
  extract : ∀ id kind e, e.sequence.WellFormed → 4 * e.sequence.liveCount + 2 ≤ budget →
    ∃ done, extractWithin registry budget id kind e = some done ∧
      ∀ kinds e', Extracts registry id kinds (done.place id) done e' →
        Extracts registry id (kind :: kinds) (e.place id) e e'
  construct : ∀ kind s id, s.WellFormed → id < s.size → 4 * (s.claim id).liveCount + 3 ≤ budget →
    ∃ done, constructWithin registry budget kind s id = some (done.finish id) ∧
      Extracts registry id kind.children ((begin s id kind).place id) (begin s id kind) done
  create : ∀ name s id, s.WellFormed → id < s.size → 4 * (s.claim id).liveCount + 4 ≤ budget →
    ∃ built, createWithin registry budget name s id = some built ∧
      Creates registry name s id built

namespace Total

/-- One step more goes to looking for the next link. -/
theorem search_succ (h : Total registry budget) (id : LinkId) (kind : String) (e : Extraction)
    (place : Option LinkId) (hs : e.sequence.WellFormed) (hslot : slotName kind ≠ "")
    (hbudget : 4 * e.sequence.liveCount + 1 ≤ budget + 1) :
    ∃ done, searchWithin registry (budget + 1) id kind e place = some done ∧
      ∀ kinds e', Extracts registry id kinds (done.place id) done e' →
        Extracts registry id (kind :: kinds) place e e' := by
  rw [searchWithin]
  cases hfind : place.bind fun start => e.sequence.find? start kind .next with
  | none => exact ⟨e, rfl, fun _ _ hrest => .exhaust hslot hfind hrest⟩
  | some found =>
    obtain ⟨hlt, hlive, -⟩ := found_spec hslot hfind
    have hclaim : (e.sequence.claim found).liveCount < e.sequence.liveCount :=
      (Consumes.claim hs hlt).liveCount_lt hlt hlive (by simp [state_claim hlt, hlive])
    obtain ⟨built, hbuilt, hcreates⟩ := h.create kind e.sequence found hs hlt (by omega)
    obtain ⟨hdrop, hless⟩ := hcreates.drop hs hlt hlive id kind
    obtain ⟨done, hdone, hrest⟩ := h.search id kind _
      ((e.addChild kind found built).drop id found).2 hdrop.wellFormed hslot (by omega)
    refine ⟨done, by simp only [hbuilt, hdone], fun kinds e' hgoing => ?_⟩
    cases hcreates with
    | absent hentry => exact .lose hslot hfind hentry (hrest kinds e' hgoing)
    | declared hentry hbuild hchild =>
      exact .child hslot hfind hentry hbuild hchild (hrest kinds e' hgoing)

/-- One step more goes to finding the place where a search begins. -/
theorem extract_succ (h : Total registry budget) (id : LinkId) (kind : String) (e : Extraction)
    (hs : e.sequence.WellFormed) (hbudget : 4 * e.sequence.liveCount + 2 ≤ budget + 1) :
    ∃ done, extractWithin registry (budget + 1) id kind e = some done ∧
      ∀ kinds e', Extracts registry id kinds (done.place id) done e' →
        Extracts registry id (kind :: kinds) (e.place id) e e' := by
  rw [extractWithin]
  split
  · next hslot => exact ⟨_, rfl, fun _ _ hrest => .pass hslot hrest⟩
  · next hslot => exact h.search id kind e _ hs hslot (by omega)

/-- The child kinds are extracted one after another. -/
theorem extractAll (h : Total registry budget) (id : LinkId) (kinds : List String)
    (hs : e.sequence.WellFormed)
    (hbudget : 4 * e.sequence.liveCount + 2 ≤ budget) :
    ∃ done, kinds.foldlM (fun e kind => extractWithin registry budget id kind e) e = some done ∧
      Extracts registry id kinds (e.place id) e done := by
  induction kinds generalizing e with
  | nil => exact ⟨e, rfl, .done id _ e⟩
  | cons kind kinds ih =>
    obtain ⟨next, hnext, hrest⟩ := h.extract id kind e hs hbudget
    have hconsumes := (hrest [] next (.done id _ next)).consumes hs
    have hless := hconsumes.liveCount_le
    obtain ⟨done, hdone, hall⟩ := ih hconsumes.wellFormed (by omega)
    exact ⟨done, by simp [List.foldlM_cons, hnext, hdone], hrest kinds done hall⟩

/-- One step more goes to beginning a node. -/
theorem construct_succ (h : Total registry budget) (declaration : Kind) (s : Sequence) (id : LinkId)
    (hs : s.WellFormed) (hid : id < s.size)
    (hbudget : 4 * (s.claim id).liveCount + 3 ≤ budget + 1) :
    ∃ done, constructWithin registry (budget + 1) declaration s id = some (done.finish id) ∧
      Extracts registry id declaration.children ((begin s id declaration).place id)
        (begin s id declaration) done := by
  have hbegin := consumes_begin hs hid declaration
  have hless := hbegin.liveCount_le
  obtain ⟨done, hdone, hall⟩ := h.extractAll id declaration.children hbegin.wellFormed
    (by omega)
  exact ⟨done, by simp [constructWithin, hdone, Extraction.finish], hall⟩

/-- One step more goes to looking the name up. -/
theorem create_succ (hregistry : registry.Declared) (h : Total registry budget) (name : String)
    (s : Sequence) (id : LinkId) (hs : s.WellFormed) (hid : id < s.size)
    (hbudget : 4 * (s.claim id).liveCount + 4 ≤ budget + 1) :
    ∃ built, createWithin registry (budget + 1) name s id = some built ∧
      Creates registry name s id built := by
  rw [createWithin]
  cases hentry : registry.find? name with
  | none => exact ⟨_, rfl, .absent hentry⟩
  | some entry =>
    obtain ⟨kind, hbuild⟩ := hregistry.find? hentry
    obtain ⟨done, hdone, hall⟩ := h.construct kind s id hs hid (by omega)
    exact ⟨present (done.finish id), by simp [hbuild, hdone, present],
      .declared hentry hbuild hall⟩

end Total

/-- With declared kinds every budget above what the live links need is enough. -/
theorem total (hregistry : registry.Declared) (budget : ℕ) : Total registry budget := by
  induction budget with
  | zero => constructor <;> omega
  | succ budget ih =>
    exact ⟨ih.search_succ, ih.extract_succ, ih.construct_succ, ih.create_succ hregistry⟩

/-! ## The outcome is the same for every budget -/

/-- Extraction comes to one outcome only. -/
theorem Extracts.unique {e'' : Extraction} (h : Extracts registry id kinds place e e')
    (h' : Extracts registry id kinds place e e'') : e' = e'' := by
  induction h generalizing e'' with
  | done => cases h'; rfl
  | pass hslot _ ih =>
    cases h' with
    | pass _ hrest => exact ih hrest
    | exhaust hslot' | lose hslot' | child hslot' => exact absurd hslot hslot'
  | exhaust hslot hfind _ ih =>
    cases h' with
    | pass hslot' => exact absurd hslot' hslot
    | exhaust _ _ hrest => exact ih hrest
    | lose _ hfind' | child _ hfind' => cases hfind'.symm.trans hfind
  | lose hslot hfind hentry _ ih =>
    cases h' with
    | pass hslot' => exact absurd hslot' hslot
    | exhaust _ hfind' => cases hfind'.symm.trans hfind
    | lose _ hfind' _ hrest =>
      obtain rfl := Option.some.inj (hfind'.symm.trans hfind)
      exact ih hrest
    | child _ _ hentry' => cases hentry'.symm.trans hentry
  | child hslot hfind hentry hbuild _ _ ihchild ih =>
    cases h' with
    | pass hslot' => exact absurd hslot' hslot
    | exhaust _ hfind' => cases hfind'.symm.trans hfind
    | lose _ _ hentry' => cases hentry'.symm.trans hentry
    | child _ hfind' hentry' hbuild' hchild' hrest' =>
      obtain rfl := Option.some.inj (hfind'.symm.trans hfind)
      obtain rfl := Option.some.inj (hentry'.symm.trans hentry)
      obtain rfl := Constructor.declared.inj (hbuild'.symm.trans hbuild)
      obtain rfl := ihchild hchild'
      exact ih hrest'

/-- Building for a name comes to one outcome only. -/
theorem Creates.unique {built' : Built (Option Node)} (h : Creates registry name s id built)
    (h' : Creates registry name s id built') : built = built' := by
  cases h with
  | absent hentry =>
    cases h' with
    | absent => rfl
    | declared hentry' => cases hentry'.symm.trans hentry
  | declared hentry hbuild hdone =>
    cases h' with
    | absent hentry' => cases hentry'.symm.trans hentry
    | declared hentry' hbuild' hdone' =>
      obtain rfl := Option.some.inj (hentry'.symm.trans hentry)
      obtain rfl := Constructor.declared.inj (hbuild'.symm.trans hbuild)
      obtain rfl := hdone.unique hdone'
      rfl

/-- Building from a link comes to the same end with every budget above what the live links need. -/
theorem constructWithin_eq (hregistry : registry.Declared) (declaration : Kind) (hs : s.WellFormed)
    (hid : id < s.size) :
    ∃ done, Extracts registry id declaration.children ((begin s id declaration).place id)
        (begin s id declaration) done ∧
      ∀ budget, 4 * s.liveCount + 3 ≤ budget →
        constructWithin registry budget declaration s id = some (done.finish id) := by
  have hless := (Consumes.claim hs hid).liveCount_le
  obtain ⟨done, -, hdone⟩ := (total hregistry (4 * s.liveCount + 3)).construct declaration s id hs
    hid (by omega)
  refine ⟨done, hdone, fun budget hbudget => ?_⟩
  obtain ⟨done', heq, hdone'⟩ := (total hregistry budget).construct declaration s id hs hid
    (by omega)
  rw [heq, hdone'.unique hdone]

/-- Extracting the links of a kind comes to the same end with every budget above what the live links
need. -/
theorem extractWithin_eq (hregistry : registry.Declared) (id : LinkId) (kind : String)
    (hs : e.sequence.WellFormed) :
    ∃ done, Extracts registry id [kind] (e.place id) e done ∧
      ∀ budget, 4 * e.sequence.liveCount + 2 ≤ budget →
        extractWithin registry budget id kind e = some done := by
  obtain ⟨done, -, hdone⟩ := (total hregistry (4 * e.sequence.liveCount + 2)).extract id kind e hs
    le_rfl
  refine ⟨done, hdone [] done (.done id _ done), fun budget hbudget => ?_⟩
  obtain ⟨done', heq, hdone'⟩ := (total hregistry budget).extract id kind e hs hbudget
  rw [heq, (hdone' [] done' (.done id _ done')).unique (hdone [] done (.done id _ done))]

/-- Building for a name from a live link comes to the same end with every budget above what the live
links need. -/
theorem createWithin_eq (hregistry : registry.Declared) (name : String) (hs : s.WellFormed)
    (hid : id < s.size) (hlive : s.state id = .live) :
    ∃ built, Creates registry name s id built ∧
      ∀ budget, 4 * s.liveCount ≤ budget →
        createWithin registry budget name s id = some built := by
  have hless : (s.claim id).liveCount < s.liveCount :=
    (Consumes.claim hs hid).liveCount_lt hid hlive (by simp [state_claim hid, hlive])
  obtain ⟨built, -, hbuilt⟩ := (total hregistry (4 * s.liveCount)).create name s id hs hid
    (by omega)
  refine ⟨built, hbuilt, fun budget hbudget => ?_⟩
  obtain ⟨built', heq, hbuilt'⟩ := (total hregistry budget).create name s id hs hid (by omega)
  rw [heq, hbuilt'.unique hbuilt]

end Construction

open Construction

variable {registry : Registry} {s : Sequence} {id : LinkId}

/-- Building for a name from a link comes to an end. -/
theorem Registry.create_total (hregistry : registry.Declared) (hs : s.WellFormed)
    (hid : id < s.size) (name : String) :
    ∃ built, registry.create name s id = some built ∧ Creates registry name s id built := by
  have hless := (Sequence.Consumes.claim hs hid).liveCount_le
  exact (total hregistry (budget s)).create name s id hs hid (by unfold budget; omega)

/-- Building a node of a kind from a link comes to an end. -/
theorem Kind.construct_total (kind : Kind) (hregistry : registry.Declared) (hs : s.WellFormed)
    (hid : id < s.size) :
    ∃ done, kind.construct registry s id = some (done.finish id) ∧
      Extracts registry id kind.children ((begin s id kind).place id) (begin s id kind) done := by
  have hless := (Sequence.Consumes.claim hs hid).liveCount_le
  exact (total hregistry (budget s)).construct kind s id hs hid (by unfold budget; omega)

end DocTree
