import DocTree.Proofs.Assembly
import DocTree.Proofs.Checked

/-!
# Building with checked access

The builders once more, over the operations that refuse every link outside the sequence. Recipes are
not followed here. Extraction holds on to three kinds of ids while links are removed: the link of
its node, the first link of the chain and the place to search on from. All three stay in the
sequence, so that a builder that starts from a link of a well-formed sequence is never refused one.
-/

namespace DocTree

namespace Checked

open Construction

/-- Empty links in order and split the text taken from each into paragraphs. -/
def takeParagraphs (s : Sequence) : List LinkId → Option (Sequence × List String)
  | [] => some (s, [])
  | id :: rest => do
    let (s, text) ← empty s id
    let (s, paragraphs) ← takeParagraphs s rest
    some (s, Paragraph.split text ++ paragraphs)

/-- Take the paragraphs of the run of a kind beside a link. -/
def absorb (s : Sequence) (id : LinkId) (node : String) (direction : Direction) :
    Option String → Option (Built (List String))
  | none => some { result := [], sequence := s }
  | some kind => do
    let run ← siblings s id kind direction
    let (taken, paragraphs) ← takeParagraphs s run
    some { result := paragraphs, sequence := taken
           events := if run.isEmpty then [] else [.absorbed node kind run.length direction] }

/-- The head of a link's chain, if the link is still in one. -/
def headOf (s : Sequence) (id : LinkId) : Option (Option LinkId) := do
  if ← isReachable s id then some (some (← head s id)) else some none

/-- Where to search a chain from. -/
def rewind (s : Sequence) (id : LinkId) (first : Option LinkId) : Option (Option LinkId) := do
  match ← headOf s id with
  | some head => some (some head)
  | none => first.elim (some none) (headOf s)

/-- Take a link out of the chain, and give the place to search on from. -/
def drop (e : Extraction) (id found : LinkId) : Option (Extraction × Option LinkId) := do
  let wasLinked ← isReachable e.sequence found
  let (s, next) ← remove e.sequence found
  let first := if e.first = some found then next else e.first
  let place ← if wasLinked then some next else rewind s id first
  some ({ e with sequence := s, first }, place)

/-- A node claimed from its link with the paragraphs of both absorbed runs. -/
def begin (s : Sequence) (id : LinkId) (kind : Kind) : Option Extraction := do
  let claimed ← claim s id
  let here ← link claimed id
  let before ← absorb claimed id here.value .previous kind.absorbPrevious
  let after ← absorb before.sequence id here.value .next kind.absorbNext
  let payload := before.result ++ Paragraph.split here.data ++ after.result
  some { sequence := after.sequence
         first := some (← head after.sequence id)
         node := { Node.leaf here.value payload with primary := kind.primary }
         events := before.events ++ after.events }

mutual

/-- Build a node from a link with what is registered under a name. -/
def createWithin (registry : Registry) :
    ℕ → String → Sequence → LinkId → Option (Built (Option Node))
  | 0, _, _, _ => none
  | budget + 1, name, s, id =>
    match registry.find? name with
    | none => some { result := none, sequence := s }
    | some entry =>
      match entry.build with
      | .declared kind => do
        let built ← constructWithin registry budget kind s id
        some { built with result := some built.result }
      | .scripted _ => none

/-- Build a node of a kind from a link. -/
def constructWithin (registry : Registry) : ℕ → Kind → Sequence → LinkId → Option (Built Node)
  | 0, _, _, _ => none
  | budget + 1, kind, s, id => do
    let start ← begin s id kind
    let done ← kind.children.foldlM (fun e child => extractWithin registry budget id child e) start
    some { result := done.node, sequence := done.sequence
           events := .opened id :: done.events ++ [.closed id] }

/-- Extract every link of one child kind from the chain of a link. -/
def extractWithin (registry : Registry) : ℕ → LinkId → String → Extraction → Option Extraction
  | 0, _, _, _ => none
  | budget + 1, id, kind, e =>
    if slotName kind = "" then
      some { e with events := e.events ++ [.noSlot e.node.name kind] }
    else do searchWithin registry budget id kind e (← rewind e.sequence id e.first)

/-- Extract the links of one child kind that are met from a place on. -/
def searchWithin (registry : Registry) :
    ℕ → LinkId → String → Extraction → Option LinkId → Option Extraction
  | 0, _, _, _, _ => none
  | budget + 1, id, kind, e, place => do
    match ← place.elim (some none) fun start => find? e.sequence start kind .next with
    | none => some e
    | some found =>
      let built ← createWithin registry budget kind e.sequence found
      let (e, place) ← drop (e.addChild kind found built) id found
      searchWithin registry budget id kind e place

end

/-- Build a node from a link with what is registered under a name. -/
def create (registry : Registry) (name : String) (s : Sequence) (id : LinkId) :
    Option (Built (Option Node)) :=
  createWithin registry (budget s) name s id

/-- Build a node of a kind from a link. -/
def construct (kind : Kind) (registry : Registry) (s : Sequence) (id : LinkId) :
    Option (Built Node) :=
  constructWithin registry (budget s) kind s id

/-- Build the top-level node of a link, if it is live and of a registered primary kind. -/
def buildAt (registry : Registry) (s : Sequence) (id : LinkId) : Option (Built (Option Node)) := do
  let here ← link s id
  let kind := here.value
  if here.state != .live || kind == "" then some { result := none, sequence := s }
  else if !registry.has kind then
    some { result := none, sequence := s, events := [.unregistered kind] }
  else if !registry.isPrimary kind then some { result := none, sequence := s }
  else create registry kind s id

/-- The link to go on with after a link was looked at. -/
def advance (s : Sequence) (id : LinkId) (anchor : Option LinkId) : Option (Option LinkId) := do
  if ← isReachable s id then step s .next id
  else anchor.elim (some none) fun anchor => do
    if ← isReachable s anchor then step s .next anchor else some none

/-- Walk a chain from a link to its end, adding each node that is built. -/
def walk (registry : Registry) :
    ℕ → Option LinkId → Built (List Node) → Option (Built (List Node))
  | 0, _, _ => none
  | _ + 1, none, done => some done
  | budget + 1, some id, done => do
    let anchor ← step done.sequence .previous id
    let built ← buildAt registry done.sequence id
    walk registry budget (← advance built.sequence id anchor)
      { result := done.result ++ built.result.toList
        sequence := built.sequence
        events := done.events ++ built.events }

/-- Build the document of a sequence. -/
def assemble (registry : Registry) (s : Sequence) : Option (Built Document) := do
  let done ← s.heads.foldlM
    (fun done head => walk registry (Assembly.budget done.sequence) (some head) done)
    { result := [], sequence := s : Built (List Node) }
  some { done with result := { nodes := done.result } }

/-! ## Nothing is refused -/

open Sequence

variable {registry : Registry} {s s' : Sequence} {id found : LinkId} {kind name : String}
  {kinds : List String} {ids : List LinkId} {place : Option LinkId} {e e' : Extraction}
  {built : Built (Option Node)} {budget : ℕ}

/-- Emptying a run is not refused. -/
theorem takeParagraphs_eq (hs : s.WellFormed) (h : s.IsRun ids) :
    takeParagraphs s ids = some (Construction.takeParagraphs s ids) := by
  induction ids generalizing s with
  | nil => rfl
  | cons id ids ih =>
    have hid := h.lt_size id List.mem_cons_self
    have hrest := ih (hs.empty hid) h.rest
    simp only [takeParagraphs, Construction.takeParagraphs, empty_eq hid, Option.bind_eq_bind,
      Option.bind_some, hrest]

/-- Absorbing a run is not refused. -/
theorem absorb_eq (hs : s.WellFormed) (hid : id < s.size) (node : String) (direction : Direction)
    (absorbed : Option String) :
    absorb s id node direction absorbed =
      some (Construction.absorb s id node direction absorbed) := by
  cases absorbed with
  | none => rfl
  | some kind =>
    simp only [absorb, Construction.absorb, siblings_eq hs hid, Option.bind_eq_bind,
      Option.bind_some, takeParagraphs_eq hs (hs.isRun_siblings hid kind direction)]

/-- Looking for the head of a link's chain is not refused. -/
theorem headOf_eq (hs : s.WellFormed) (hid : id < s.size) :
    headOf s id = some (if s.isReachable id then some (s.head id) else none) := by
  cases hreach : s.isReachable id <;>
    simp [headOf, isReachable_eq hid, hreach, head_eq hs hid]

/-- Finding the place to search from is not refused. -/
theorem rewind_eq {first : Option LinkId} (hs : s.WellFormed) (hid : id < s.size)
    (hfirst : ∀ link ∈ first, link < s.size) :
    rewind s id first = some (Construction.rewind s id first) := by
  cases hreach : s.isReachable id with
  | true => simp [rewind, Construction.rewind, headOf_eq hs hid, hreach]
  | false =>
    cases first with
    | none => simp [rewind, Construction.rewind, headOf_eq hs hid, hreach]
    | some first =>
      cases hreach' : s.isReachable first <;>
        simp [rewind, Construction.rewind, headOf_eq hs hid, headOf_eq hs (hfirst first rfl),
          hreach, hreach']

/-- Beginning a node is not refused. -/
theorem begin_eq (hs : s.WellFormed) (hid : id < s.size) (kind : Kind) :
    begin s id kind = some (Construction.begin s id kind) := by
  have hclaim := Consumes.claim hs hid
  have hclaimed : id < (s.claim id).size := hclaim.size_eq ▸ hid
  obtain ⟨before, hbefore, hsequence, -⟩ := absorb_spec hclaim.wellFormed hclaimed
    ((s.claim id).value id) .previous kind.absorbPrevious
  have htake := consumes_takeParagraphs hclaim.wellFormed hbefore
  rw [← hsequence] at htake
  have htaken := htake.size_eq ▸ hclaimed
  obtain ⟨after, hafter, hsequence', -⟩ := absorb_spec htake.wellFormed htaken
    ((s.claim id).value id) .next kind.absorbNext
  have htake' := consumes_takeParagraphs htake.wellFormed hafter
  rw [← hsequence'] at htake'
  have htaken' := htake'.size_eq ▸ htaken
  have hvalue : ((s.claim id).link id).value = (s.claim id).value id := rfl
  have hdata : ((s.claim id).link id).data = (s.claim id).data id := rfl
  simp only [begin, Construction.begin, claim_eq hid, link_eq hclaimed, Option.bind_eq_bind,
    Option.bind_some, hvalue, hdata, absorb_eq hclaim.wellFormed hclaimed,
    absorb_eq htake.wellFormed htaken, head_eq htake'.wellFormed htaken']

/-- The links hang together, and those that extraction holds on to, the node's and the first one,
lie in the sequence. -/
structure InArena (e : Extraction) (id : LinkId) : Prop where
  wellFormed : e.sequence.WellFormed
  id_lt : id < e.sequence.size
  first_lt : ∀ first ∈ e.first, first < e.sequence.size

namespace InArena

/-- The place where a search begins lies in the sequence. -/
theorem place_lt (h : InArena e id) : ∀ start ∈ e.place id, start < e.sequence.size := by
  intro start hstart
  obtain ⟨other, hother, rfl⟩ := Option.map_eq_some_iff.mp hstart
  refine h.wellFormed.head_lt ?_
  rcases List.mem_append.mp (List.mem_of_find?_eq_some hother) with hself | hfirst
  · rw [List.mem_singleton.mp hself]
    exact h.id_lt
  · exact h.first_lt other (Option.mem_toList.mp hfirst)

/-- It is so when a node was begun. -/
theorem start (hs : s.WellFormed) (hid : id < s.size) (kind : Kind) :
    InArena (Construction.begin s id kind) id := by
  have hbegin := (Consumes.claim hs hid).trans (consumes_begin hs hid kind)
  have hid' : id < (Construction.begin s id kind).sequence.size := hbegin.size_eq ▸ hid
  refine ⟨hbegin.wellFormed, hid', fun first hfirst => ?_⟩
  obtain rfl := Option.some.inj hfirst
  exact hbegin.wellFormed.head_lt hid'

/-- What building left goes on from the same first link. -/
theorem addChild (h : InArena e id) (kind : String) (found : LinkId) (built : Built (Option Node))
    (hbuilt : Consumes e.sequence built.sequence) : InArena (e.addChild kind found built) id := by
  have hsequence := sequence_addChild e kind found built
  have hfirst : (e.addChild kind found built).first = e.first := by
    unfold Extraction.addChild
    split <;> rfl
  refine ⟨hsequence ▸ hbuilt.wellFormed, ?_, ?_⟩
  · rw [hsequence, hbuilt.size_eq]
    exact h.id_lt
  · rw [hsequence, hbuilt.size_eq, hfirst]
    exact h.first_lt

/-- Dropping a link keeps all ids in the sequence, and so it is with the place to search on from. -/
theorem drop (h : InArena e id) (hfound : found < e.sequence.size) :
    InArena (e.drop id found).1 id ∧
      ∀ start ∈ (e.drop id found).2, start < (e.drop id found).1.sequence.size := by
  have hnext := h.wellFormed.threaded.remove_snd_lt found
  have hdrop : InArena (e.drop id found).1 id := by
    refine ⟨h.wellFormed.remove hfound, ?_, ?_⟩
    · exact (size_remove e.sequence found).symm ▸ h.id_lt
    · intro first hfirst
      simp only [Extraction.drop] at hfirst ⊢
      split at hfirst
      · exact hnext first hfirst
      · exact (size_remove e.sequence found).symm ▸ h.first_lt first hfirst
  refine ⟨hdrop, fun start hstart => ?_⟩
  simp only [Extraction.drop] at hstart
  split at hstart
  · exact hnext start hstart
  · exact hdrop.place_lt start hstart

/-- When something was built from a link, the link may be dropped. -/
theorem next (h : InArena e id) (kind : String) (built : Built (Option Node))
    (hbuilt : Consumes e.sequence built.sequence) (hfound : found < e.sequence.size) :
    InArena ((e.addChild kind found built).drop id found).1 id :=
  ((h.addChild kind found built hbuilt).drop
    (by rwa [sequence_addChild, hbuilt.size_eq])).1

end InArena

/-- Dropping a link is not refused. -/
theorem drop_eq (h : InArena e id) (hfound : found < e.sequence.size) :
    drop e id found = some (e.drop id found) := by
  have hdrop := (h.drop hfound).1
  have hrewind := rewind_eq hdrop.wellFormed hdrop.id_lt hdrop.first_lt
  simp only [Extraction.drop] at hrewind
  cases hreach : e.sequence.isReachable found <;>
    simp [drop, Extraction.drop, isReachable_eq hfound, remove_eq h.wellFormed hfound, hreach,
      hrewind]

/-- Extraction keeps all ids in the sequence. -/
theorem InArena.extracts (h : Extracts registry id kinds place e e') (hstart : InArena e id) :
    InArena e' id := by
  induction h with
  | done => exact hstart
  | pass _ _ ih => exact ih ⟨hstart.wellFormed, hstart.id_lt, hstart.first_lt⟩
  | exhaust _ _ _ ih => exact ih hstart
  | lose hslot hfind _ _ ih =>
    obtain ⟨hlt, -, -⟩ := found_spec hslot hfind
    exact ih (hstart.next _ _ (.refl hstart.wellFormed) hlt)
  | @child _ _ _ _ _ _ _ _ _ built hslot hfind _ _ hchild _ _ ih =>
    obtain ⟨hlt, -, -⟩ := found_spec hslot hfind
    have hbegin := consumes_begin hstart.wellFormed hlt built
    have hbuilt := ((Consumes.claim hstart.wellFormed hlt).trans hbegin).trans
      (hchild.consumes hbegin.wellFormed)
    exact ih (hstart.next _ (present _) hbuilt hlt)

/-- With a budget that is enough, each of the four functions does what its plain form does. -/
structure Agrees (registry : Registry) (budget : ℕ) : Prop where
  search : ∀ id kind e place, InArena e id → (∀ start ∈ place, start < e.sequence.size) →
    slotName kind ≠ "" → 4 * e.sequence.liveCount + 1 ≤ budget →
    searchWithin registry budget id kind e place =
      Construction.searchWithin registry budget id kind e place
  extract : ∀ id kind e, InArena e id → 4 * e.sequence.liveCount + 2 ≤ budget →
    extractWithin registry budget id kind e = Construction.extractWithin registry budget id kind e
  construct : ∀ kind s id, s.WellFormed → id < s.size → 4 * (s.claim id).liveCount + 3 ≤ budget →
    constructWithin registry budget kind s id =
      Construction.constructWithin registry budget kind s id
  create : ∀ name s id, s.WellFormed → id < s.size → 4 * (s.claim id).liveCount + 4 ≤ budget →
    createWithin registry budget name s id = Construction.createWithin registry budget name s id

namespace Agrees

/-- One step more goes to looking for the next link. -/
theorem search_succ (hregistry : registry.Declared) (h : Agrees registry budget) (id : LinkId)
    (kind : String) (e : Extraction) (place : Option LinkId) (he : InArena e id)
    (hplace : ∀ start ∈ place, start < e.sequence.size) (hslot : slotName kind ≠ "")
    (hbudget : 4 * e.sequence.liveCount + 1 ≤ budget + 1) :
    searchWithin registry (budget + 1) id kind e place =
      Construction.searchWithin registry (budget + 1) id kind e place := by
  have hs := he.wellFormed
  have hlook : (place.elim (some none) fun start => find? e.sequence start kind .next) =
      some (place.bind fun start => e.sequence.find? start kind .next) := by
    cases place with
    | none => rfl
    | some start => exact find?_eq hs (hplace start rfl) kind .next
  rw [searchWithin, Construction.searchWithin, hlook]
  cases hfind : place.bind fun start => e.sequence.find? start kind .next with
  | none => rfl
  | some found =>
    obtain ⟨hlt, hlive, -⟩ := found_spec hslot hfind
    have hclaim : (e.sequence.claim found).liveCount < e.sequence.liveCount :=
      (Consumes.claim hs hlt).liveCount_lt hlt hlive (by simp [state_claim hlt, hlive])
    obtain ⟨built, hbuilt, hcreates⟩ :=
      (total hregistry budget).create kind e.sequence found hs hlt (by omega)
    have hbuilt' := hcreates.consumes hs hlt
    have hless := (hcreates.drop hs hlt hlive id kind).2
    have hadd := he.addChild kind found built hbuilt'
    have hlt' : found < (e.addChild kind found built).sequence.size := by
      rwa [sequence_addChild, hbuilt'.size_eq]
    obtain ⟨hdrop, hplace'⟩ := hadd.drop hlt'
    simp only [Option.bind_eq_bind, Option.bind_some,
      h.create kind e.sequence found hs hlt (by omega), hbuilt, drop_eq hadd hlt']
    exact h.search id kind _ _ hdrop hplace' hslot (by omega)

/-- One step more goes to finding the place where a search begins. -/
theorem extract_succ (h : Agrees registry budget) (id : LinkId) (kind : String) (e : Extraction)
    (he : InArena e id) (hbudget : 4 * e.sequence.liveCount + 2 ≤ budget + 1) :
    extractWithin registry (budget + 1) id kind e =
      Construction.extractWithin registry (budget + 1) id kind e := by
  rw [extractWithin, Construction.extractWithin, rewind_eq he.wellFormed he.id_lt he.first_lt]
  split
  · rfl
  · next hslot => exact h.search id kind e _ he he.place_lt hslot (by omega)

/-- The child kinds are extracted one after another. -/
theorem extractAll (hregistry : registry.Declared) (h : Agrees registry budget) (id : LinkId)
    (kinds : List String) (he : InArena e id) (hbudget : 4 * e.sequence.liveCount + 2 ≤ budget) :
    kinds.foldlM (fun e kind => extractWithin registry budget id kind e) e =
      kinds.foldlM (fun e kind => Construction.extractWithin registry budget id kind e) e := by
  induction kinds generalizing e with
  | nil => rfl
  | cons kind kinds ih =>
    obtain ⟨next, hnext, hrest⟩ :=
      (total hregistry budget).extract id kind e he.wellFormed hbudget
    have hextracts := hrest [] next (.done id _ next)
    have hless := (hextracts.consumes he.wellFormed).liveCount_le
    simp only [List.foldlM_cons, h.extract id kind e he hbudget, hnext, Option.bind_eq_bind,
      Option.bind_some]
    exact ih (he.extracts hextracts) (by omega)

/-- One step more goes to beginning a node. -/
theorem construct_succ (hregistry : registry.Declared) (h : Agrees registry budget) (kind : Kind)
    (s : Sequence) (id : LinkId) (hs : s.WellFormed) (hid : id < s.size)
    (hbudget : 4 * (s.claim id).liveCount + 3 ≤ budget + 1) :
    constructWithin registry (budget + 1) kind s id =
      Construction.constructWithin registry (budget + 1) kind s id := by
  have hless := (consumes_begin hs hid kind).liveCount_le
  have hall := h.extractAll hregistry id kind.children (.start hs hid kind) (by omega)
  simp only [constructWithin, Construction.constructWithin, begin_eq hs hid, Option.bind_eq_bind,
    Option.bind_some, hall]

/-- One step more goes to looking the name up. -/
theorem create_succ (hregistry : registry.Declared) (h : Agrees registry budget) (name : String)
    (s : Sequence) (id : LinkId) (hs : s.WellFormed) (hid : id < s.size)
    (hbudget : 4 * (s.claim id).liveCount + 4 ≤ budget + 1) :
    createWithin registry (budget + 1) name s id =
      Construction.createWithin registry (budget + 1) name s id := by
  rw [createWithin, Construction.createWithin]
  cases hentry : registry.find? name with
  | none => rfl
  | some entry =>
    obtain ⟨kind, hbuild⟩ := hregistry.find? hentry
    simp only [hbuild, h.construct kind s id hs hid (by omega)]

end Agrees

/-- With declared kinds no budget that is enough leads to a refusal. -/
theorem agrees (hregistry : registry.Declared) (budget : ℕ) : Agrees registry budget := by
  induction budget with
  | zero => constructor <;> omega
  | succ budget ih =>
    exact ⟨ih.search_succ hregistry, ih.extract_succ, ih.construct_succ hregistry,
      ih.create_succ hregistry⟩

/-- Building for a name is not refused. -/
theorem create_eq (hregistry : registry.Declared) (hs : s.WellFormed) (hid : id < s.size)
    (name : String) : create registry name s id = registry.create name s id := by
  have hless := (Consumes.claim hs hid).liveCount_le
  exact (agrees hregistry (Construction.budget s)).create name s id hs hid
    (by unfold Construction.budget; omega)

/-- Building a node of a kind is not refused. -/
theorem construct_eq (hregistry : registry.Declared) (hs : s.WellFormed) (hid : id < s.size)
    (kind : Kind) : construct kind registry s id = kind.construct registry s id := by
  have hless := (Consumes.claim hs hid).liveCount_le
  exact (agrees hregistry (Construction.budget s)).construct kind s id hs hid
    (by unfold Construction.budget; omega)

/-- Looking at a link is not refused. -/
theorem buildAt_eq (hregistry : registry.Declared) (hs : s.WellFormed) (hid : id < s.size) :
    buildAt registry s id = Assembly.buildAt registry s id := by
  have hlive : ((s.link id).state != .live) = !s.isLive id := rfl
  have hvalue : (s.link id).value = s.value id := rfl
  simp only [buildAt, Assembly.buildAt, link_eq hid, Option.bind_eq_bind, Option.bind_some, hlive,
    hvalue, create_eq hregistry hs hid]

/-- Going on is not refused. -/
theorem advance_eq {anchor : Option LinkId} (hid : id < s.size)
    (hanchor : ∀ link ∈ anchor, link < s.size) :
    advance s id anchor = some (Assembly.advance s id anchor) := by
  have hstep : ∀ link < s.size, step s .next link = some (s.next link) := fun link hlink => by
    simp [step, link_eq hlink, Sequence.next]
  cases hreach : s.isReachable id with
  | true => simp [advance, Assembly.advance, isReachable_eq hid, hreach, hstep id hid]
  | false =>
    cases anchor with
    | none => simp [advance, Assembly.advance, isReachable_eq hid, hreach]
    | some anchor =>
      have hlt := hanchor anchor rfl
      cases hreach' : s.isReachable anchor <;>
        simp [advance, Assembly.advance, isReachable_eq hid, isReachable_eq hlt, hreach, hreach',
          hstep anchor hlt]

/-- The link to go on with lies in the sequence. -/
theorem advance_lt (hs : s.WellFormed) (id : LinkId) (anchor : Option LinkId) :
    ∀ next ∈ Assembly.advance s id anchor, next < s.size := by
  intro next hnext
  unfold Assembly.advance at hnext
  split at hnext
  · exact hs.next_lt id next hnext
  · split at hnext
    · split at hnext
      · exact hs.next_lt _ next hnext
      · cases hnext
    · cases hnext

/-- Walking a chain is not refused. -/
theorem walk_eq {done : Built (List Node)} (hregistry : registry.Declared)
    (hs : done.sequence.WellFormed) (hplace : ∀ id ∈ place, id < done.sequence.size) (budget : ℕ) :
    walk registry budget place done = Assembly.walk registry budget place done := by
  induction budget generalizing place done with
  | zero => rfl
  | succ budget ih =>
    cases place with
    | none => rfl
    | some id =>
      have hid := hplace id rfl
      obtain ⟨built, hbuilt, -⟩ := Assembly.buildAt_total hregistry hs id
      have hlook := (Assembly.consumes_buildAt hregistry hs hbuilt).1
      have hprevious : step done.sequence .previous id = some (done.sequence.previous id) := by
        simp [step, link_eq hid, Sequence.previous]
      have hanchor : ∀ link ∈ done.sequence.previous id, link < built.sequence.size := fun link h =>
        hlook.size_eq.symm ▸ hs.previous_lt link id h
      have hadd : (Assembly.add done built).sequence.WellFormed := hlook.wellFormed
      have hrest := ih hadd (advance_lt hadd id (done.sequence.previous id))
      simp only [walk, Assembly.walk, hprevious, buildAt_eq hregistry hs hid, hbuilt,
        Option.bind_eq_bind, Option.bind_some,
        advance_eq (hlook.size_eq.symm ▸ hid : id < built.sequence.size) hanchor]
      exact hrest

/-- Walking all chains is not refused. -/
theorem walkAll_eq {heads : List LinkId} {done : Built (List Node)} (hregistry : registry.Declared)
    (hs : done.sequence.WellFormed) (hheads : ∀ head ∈ heads, head < done.sequence.size) :
    heads.foldlM (fun done head => walk registry (Assembly.budget done.sequence) (some head) done)
        done =
      heads.foldlM
        (fun done head => Assembly.walk registry (Assembly.budget done.sequence) (some head) done)
        done := by
  induction heads generalizing done with
  | nil => simp only [List.foldlM_nil]
  | cons head heads ih =>
    have hhead := hheads head List.mem_cons_self
    obtain ⟨next, hnext, hwalks⟩ :=
      (Assembly.steady_of_declared hregistry).walkHead_total hs hhead
    have hconsumes := (hwalks [] next (.done next)).consumes hregistry hs
    have hplace : ∀ id ∈ some head, id < done.sequence.size := fun id hid =>
      Option.some.inj hid ▸ hhead
    have hwalk : walk registry (Assembly.budget done.sequence) (some head) done = some next :=
      (walk_eq hregistry hs hplace _).trans hnext
    rw [List.foldlM_cons, List.foldlM_cons, hwalk, hnext]
    exact ih hconsumes.wellFormed fun other hother =>
      hconsumes.size_eq.symm ▸ hheads other (List.mem_cons_of_mem _ hother)

/-- Building the document of a sequence is not refused. -/
theorem assemble_eq (hregistry : registry.Declared) (hs : s.WellFormed) :
    assemble registry s = s.assemble registry := by
  have hstart : ({ result := [], sequence := s } : Built (List Node)).sequence.WellFormed := hs
  simp only [assemble, Sequence.assemble]
  rw [walkAll_eq hregistry hstart fun _ => lt_size_of_mem_heads]

end Checked

end DocTree
