import DocTree.Proofs.Nesting

/-!
# The links that nodes are built from

A node claims its link before anything else happens, and whatever is tried, begun or absorbed later
on was live at that moment. So a link is tried at most once and begun at most once in a whole run,
the try coming first, and the link of a node is never absorbed: it ends claimed, or removed when the
node became a child. The same argument covers parents that are still being built, children that are
finished and nodes of earlier runs, since to all of them the link is simply no longer live.
-/

namespace DocTree

open Sequence Construction

variable {registry : Registry} {s s' s'' : Sequence} {id found : LinkId} {kind name : String}
  {events events' rest : List Event}

namespace Event

/-- The link that an event takes for a node: a child is tried on it, or a node is begun from it. -/
def source? : Event → Option LinkId
  | .attempted _ link | .opened link => some link
  | _ => none

/-- Of two events that take the same link, the earlier one is the try to build a child from it, and
the later one begins that child. -/
def InTurn (earlier later : Event) : Prop :=
  ∀ link, earlier.source? = some link → later.source? = some link →
    (∃ kind, earlier = .attempted kind link) ∧ later = .opened link

/-- An event that neither bounds a node nor tries a child takes no link. -/
theorem source?_eq_none {event : Event}
    (h : event.isBound = false ∧ event.isAttempt = false) : event.source? = none := by
  cases event with
  | opened link => cases h.1
  | attempted kind link => cases h.2
  | _ => rfl

end Event

open Event

namespace Construction

/-- What the events of a run take, they take for good, and no other event takes it: a node that is
begun from a live link leaves it claimed, or removed as that of a child, a link that a child is
tried on was live and is removed, and each link is tried once and begun once at most. -/
structure TakesOnce (s s' : Sequence) (events : List Event) : Prop where
  begun : ∀ link, .opened link ∈ events → s.state link = .live →
    s'.state link = .claimed ∨ s'.state link = .removed
  tried : ∀ kind link, .attempted kind link ∈ events →
    s.state link = .live ∧ s'.state link = .removed
  once : events.Pairwise InTurn

/-- The events of a run take links that were live. -/
structure TakesLive (s s' : Sequence) (events : List Event) : Prop
    extends TakesOnce s s' events where
  begun_live : ∀ link, .opened link ∈ events → s.state link = .live

namespace TakesLive

/-- Whatever is taken was live. -/
theorem live (h : TakesLive s s' events) {event : Event} (hevent : event ∈ events)
    (hsource : event.source? = some id) : s.state id = .live := by
  cases event with
  | opened link =>
    obtain rfl := Option.some.inj hsource
    exact h.begun_live link hevent
  | attempted kind link =>
    obtain rfl := Option.some.inj hsource
    exact (h.tried kind link hevent).1
  | _ => cases hsource

/-- Whatever is taken is live no more. -/
theorem not_live (h : TakesLive s s' events) {event : Event} (hevent : event ∈ events)
    (hsource : event.source? = some id) : s'.state id ≠ .live := by
  cases event with
  | opened link =>
    obtain rfl := Option.some.inj hsource
    rcases h.begun link hevent (h.begun_live link hevent) with hend | hend
    · simp [hend]
    · simp [hend]
  | attempted kind link =>
    obtain rfl := Option.some.inj hsource
    simp [(h.tried kind link hevent).2]
  | _ => cases hsource

/-- Events that take nothing take it once. -/
theorem of_quiet (h : ∀ event ∈ events, event.source? = none) : TakesLive s s' events where
  begun link hlink := nomatch h _ hlink
  tried kind link hlink := nomatch h _ hlink
  once := List.pairwise_iff_forall_sublist.mpr fun hsub link hfirst => by
    have hmem := hsub.subset List.mem_cons_self
    cases (h _ hmem).symm.trans hfirst
  begun_live link hlink := nomatch h _ hlink

/-- What one turn takes is live no more when the next one comes. -/
theorem trans (h : TakesLive s s' events) (h' : TakesLive s' s'' events')
    (hfirst : Consumes s s') (hsecond : Consumes s' s'') :
    TakesLive s s'' (events ++ events') where
  begun link hlink hlive := by
    rcases List.mem_append.mp hlink with hlink | hlink
    · have hend := h.not_live hlink rfl
      rw [hsecond.state_eq link hend]
      exact h.begun link hlink hlive
    · exact h'.begun link hlink (h'.begun_live link hlink)
  tried kind link hlink := by
    rcases List.mem_append.mp hlink with hlink | hlink
    · have hend := h.not_live hlink rfl
      rw [hsecond.state_eq link hend]
      exact h.tried kind link hlink
    · obtain ⟨hlive, hend⟩ := h'.tried kind link hlink
      exact ⟨hfirst.live_of hlive, hend⟩
  once := by
    apply List.pairwise_append.mpr
    refine ⟨h.once, h'.once, fun earlier hearlier later hlater link hfirst hthen => ?_⟩
    exact absurd (h'.live hlater hthen) (h.not_live hearlier hfirst)
  begun_live link hlink := by
    rcases List.mem_append.mp hlink with hlink | hlink
    · exact h.begun_live link hlink
    · exact hfirst.live_of (h'.begun_live link hlink)

/-- A node takes its link before anything else happens, and its link is taken by nothing else. -/
theorem node (h : TakesLive s' s'' rest) (hbegin : Consumes s s') (hend : s'.state id ≠ .live)
    (hfinal : s.state id = .live → s''.state id = .claimed) :
    TakesOnce s s'' (.opened id :: rest) where
  begun link hlink hlive := by
    rcases List.mem_cons.mp hlink with heq | hlink
    · obtain rfl := Event.opened.inj heq
      exact .inl (hfinal hlive)
    · exact h.begun link hlink (h.begun_live link hlink)
  tried kind link hlink := by
    rcases List.mem_cons.mp hlink with heq | hlink
    · cases heq
    · obtain ⟨hlive, hgone⟩ := h.tried kind link hlink
      exact ⟨hbegin.live_of hlive, hgone⟩
  once := by
    apply List.pairwise_cons.mpr
    refine ⟨fun later hlater link hfirst hthen => ?_, h.once⟩
    obtain rfl := Option.some.inj hfirst
    exact absurd (h.live hlater hthen) hend

/-- The try that a child comes of takes the link of the child, which is dropped. -/
theorem attempt (h : TakesLive s s' (.opened found :: rest)) (hconsumes : Consumes s s')
    (hfound : found < s.size) (hend : s'.state found = .claimed) (kind : String) :
    TakesLive s (s'.remove found).1 (.attempted kind found :: .opened found :: rest) := by
  have hfound' : found < s'.size := hconsumes.size_eq ▸ hfound
  have hstate := hconsumes.wellFormed.state_remove hfound' (by simp [hend])
  have hlive := h.begun_live found List.mem_cons_self
  constructor
  case begun_live =>
    intro link hlink
    exact h.begun_live link (by simpa using hlink)
  constructor
  case begun =>
    intro link hlink hlive
    rw [hstate]
    split
    · exact .inr rfl
    · exact h.begun link (by simpa using hlink) hlive
  case tried =>
    intro kind' link hlink
    rcases List.mem_cons.mp hlink with heq | hlink
    · obtain ⟨-, rfl⟩ := Event.attempted.inj heq
      exact ⟨hlive, by rw [hstate, if_pos rfl]⟩
    · obtain ⟨hlive', hgone⟩ := h.tried kind' link hlink
      refine ⟨hlive', ?_⟩
      rw [hstate]
      split
      · rfl
      · exact hgone
  case once =>
    apply List.pairwise_cons.mpr
    refine ⟨fun later hlater link hfirst hthen => ?_, h.once⟩
    obtain rfl := Option.some.inj hfirst
    rcases List.mem_cons.mp hlater with rfl | hlater
    · exact ⟨⟨kind, rfl⟩, rfl⟩
    · -- Only the beginning of the child takes the link again.
      obtain ⟨⟨kind', heq⟩, -⟩ := (List.pairwise_cons.mp h.once).1 later hlater found rfl hthen
      cases heq

end TakesLive

variable {kinds : List String} {place : Option LinkId} {e e' done : Extraction}
  {declaration : Kind} {built : Built (Option Node)}

/-- Building a node takes its own link and what the extraction of its children takes. -/
theorem takesOnce_finish (hs : s.WellFormed) (hid : id < s.size)
    (hdone : Consumes (begin s id declaration).sequence done.sequence)
    (hevents : done.events = (begin s id declaration).events ++ events)
    (h : TakesLive (begin s id declaration).sequence done.sequence events) :
    TakesOnce s done.sequence (done.finish id).events := by
  have hclaim := Consumes.claim hs hid
  have hbegin := consumes_begin hs hid declaration
  have hend := state_begin_ne_live hs hid declaration
  have hquiet : TakesLive (begin s id declaration).sequence (begin s id declaration).sequence
      (begin s id declaration).events :=
    .of_quiet fun event hevent => source?_eq_none (quiet_begin hevent)
  have hclosed : TakesLive done.sequence done.sequence [.closed id] :=
    .of_quiet (by simp [source?])
  have hrefl := Consumes.refl hbegin.wellFormed
  have hinner := hquiet.trans h hrefl hdone
  rw [← hevents] at hinner
  have hall := hinner.trans hclosed hdone (.refl hdone.wellFormed)
  exact hall.node (hclaim.trans hbegin) hend fun hlive =>
    state_of_consumes_begin hs hid hlive hdone

/-- Building a node from a live link takes live links. -/
theorem takesLive_finish (hs : s.WellFormed) (hid : id < s.size) (hlive : s.state id = .live)
    (hdone : Consumes (begin s id declaration).sequence done.sequence)
    (hevents : done.events = (begin s id declaration).events ++ events)
    (h : TakesLive (begin s id declaration).sequence done.sequence events) :
    TakesLive s done.sequence (done.finish id).events where
  toTakesOnce := takesOnce_finish hs hid hdone hevents h
  begun_live link hlink := by
    have hbegin := (Consumes.claim hs hid).trans (consumes_begin hs hid declaration)
    have hmem : link = id ∨ .opened link ∈ events := by
      have hquiet : .opened link ∉ (begin s id declaration).events := fun hmem =>
        nomatch (quiet_begin hmem).1
      simpa [Extraction.finish, hevents, hquiet] using hlink
    rcases hmem with rfl | hmem
    · exact hlive
    · exact hbegin.live_of (h.begun_live link hmem)

/-- A link that nothing comes of is taken by the try alone. -/
theorem takesLive_lose (hs : s.WellFormed) (hfound : found < s.size)
    (hlive : s.state found = .live) (node kind : String) :
    TakesLive s (s.remove found).1 [.attempted kind found, .dropped node kind] where
  begun link hlink := by simp at hlink
  tried kind' link hlink := by
    obtain ⟨-, rfl⟩ : kind' = kind ∧ link = found := by simpa using hlink
    exact ⟨hlive, hs.state_remove_self hfound⟩
  once := by simp [InTurn, source?]
  begun_live link hlink := by simp at hlink

/-- Extraction takes live links, each for one child. -/
theorem Extracts.takesLive (h : Extracts registry id kinds place e e')
    (hs : e.sequence.WellFormed) :
    ∃ events, e'.events = e.events ++ events ∧ TakesLive e.sequence e'.sequence events := by
  induction h with
  | done => exact ⟨[], by simp, .of_quiet (by simp)⟩
  | @pass _ kind _ _ e _ _ hrest ih =>
    obtain ⟨events, hevents, htakes⟩ := ih hs
    have hquiet : TakesLive e.sequence e.sequence [.noSlot e.node.name kind] :=
      .of_quiet (by simp [source?])
    refine ⟨_, by rw [hevents, List.append_assoc], ?_⟩
    exact hquiet.trans htakes (.refl hs) (hrest.consumes hs)
  | exhaust _ _ _ ih => exact ih hs
  | @lose id kind _ _ e _ found hslot hfind _ hrest ih =>
    obtain ⟨hlt, hlive, -⟩ := found_spec hslot hfind
    have hlose := consumes_lose id kind hs hlt hlive
    obtain ⟨events, hevents, htakes⟩ := ih hlose.wellFormed
    have hhere := takesLive_lose hs hlt hlive e.node.name kind
    refine ⟨_, ?_, hhere.trans htakes hlose (hrest.consumes hlose.wellFormed)⟩
    rw [hevents, events_lose, List.append_assoc]
  | @child id kind _ _ e _ done found _ declaration hslot hfind _ _ hchild hrest ihchild ih =>
    obtain ⟨hlt, hlive, -⟩ := found_spec hslot hfind
    have hbegin := consumes_begin hs hlt declaration
    have hdone := hchild.consumes hbegin.wellFormed
    have hdrop := consumes_child id kind hs hlt hlive hdone
    obtain ⟨inner, hinner, htaken⟩ := ihchild hbegin.wellFormed
    obtain ⟨events, hevents, htakes⟩ := ih hdrop.wellFormed
    have hfinish := takesLive_finish hs hlt hlive hdone hinner htaken
    have hhere := hfinish.attempt (((Consumes.claim hs hlt).trans hbegin).trans hdone) hlt
      (state_of_consumes_begin hs hlt hlive hdone) kind
    refine ⟨_, ?_, hhere.trans htakes hdrop (hrest.consumes hdrop.wellFormed)⟩
    rw [hevents, events_child, List.append_assoc]
    rfl

/-- Building for a name from a live link takes live links. -/
theorem Creates.takesLive (h : Creates registry name s id built) (hs : s.WellFormed)
    (hid : id < s.size) (hlive : s.state id = .live) :
    TakesLive s built.sequence built.events := by
  cases h with
  | absent => exact .of_quiet (by simp)
  | @declared _ declaration done _ _ hdone =>
    have hbegin := consumes_begin hs hid declaration
    obtain ⟨events, hevents, htakes⟩ := hdone.takesLive hbegin.wellFormed
    exact takesLive_finish hs hid hlive (hdone.consumes hbegin.wellFormed) hevents htakes

end Construction

/-- Assembly takes live links, each for one node. -/
theorem Assembly.Walks.takesLive {heads : List LinkId} {place : Option LinkId}
    {done done' : Built (List Node)} (hregistry : registry.Declared)
    (h : Walks registry place heads done done') (hs : done.sequence.WellFormed) :
    ∃ events, done'.events = done.events ++ events ∧
      TakesLive done.sequence done'.sequence events := by
  induction h with
  | done => exact ⟨[], by simp, .of_quiet (by simp)⟩
  | turn _ ih => exact ih hs
  | @look id heads done done' built hbuilt hrest ih =>
    have hlook := (consumes_buildAt hregistry hs hbuilt).1
    obtain ⟨events, hevents, htakes⟩ := ih hlook.wellFormed
    have hhere : TakesLive done.sequence built.sequence built.events := by
      rcases buildAt_cases hregistry hs hbuilt with ⟨hpending, hid, hcreates⟩ | ⟨-, -, -, hquiet⟩
      · exact hcreates.takesLive hs hid hpending.1
      · apply TakesLive.of_quiet
        intro event hevent
        rw [hquiet event hevent]
        rfl
    refine ⟨_, ?_, hhere.trans htakes hlook (hrest.consumes hregistry hlook.wellFormed)⟩
    rw [hevents]
    simp [add]

/-! ## Spent links -/

/-- A run leaves spent links alone: what was claimed, emptied or removed before it keeps its state,
its text and its kind. A link that was live is still live, claimed or removed with its text and its
kind, or it is emptied of both; and what the events take, they take for good. -/
structure LeavesSpent (s s' : Sequence) (events : List Event) : Prop where
  size_eq : s'.size = s.size
  spent : ∀ id, s.state id ≠ .live →
    s'.state id = s.state id ∧ s'.data id = s.data id ∧ s'.value id = s.value id
  live : ∀ id, s.state id = .live →
    (s'.state id = .live ∧ s'.data id = s.data id ∧ s'.value id = s.value id) ∨
    (s'.state id = .claimed ∧ s'.data id = s.data id ∧ s'.value id = s.value id) ∨
    (s'.state id = .emptied ∧ s'.data id = "" ∧ s'.value id = "") ∨
    (s'.state id = .removed ∧ s'.data id = s.data id ∧ s'.value id = s.value id)
  takes : TakesOnce s s' events

/-- Where links are used up and events take them once, spent links are left alone. -/
theorem Sequence.Consumes.leavesSpent {events : List Event} (h : Consumes s s')
    (htakes : TakesOnce s s' events) : LeavesSpent s s' events where
  size_eq := h.size_eq
  spent id hid := by
    have htoken := h.token_eq id
    rw [if_neg fun hemptied => hid hemptied.1] at htoken
    exact ⟨h.state_eq id hid, token_eq_iff.mp htoken⟩
  live id hid := by
    have htoken := h.token_eq id
    cases hend : s'.state id with
    | emptied =>
      rw [if_pos ⟨hid, hend⟩, token_eq_blank_iff] at htoken
      simpa using htoken
    | _ =>
      rw [if_neg (by simp [hend]), token_eq_iff] at htoken
      simpa using htoken
  takes := htakes

/-- Whatever is built, for whichever name or by whichever kind, spent links are left alone. -/
structure SparesSpent (registry : Registry) (s : Sequence) : Prop where
  construct : ∀ (kind : Kind) (id : LinkId), id < s.size → ∃ built,
    kind.construct registry s id = some built ∧ LeavesSpent s built.sequence built.events
  create : ∀ (name : String) (id : LinkId), id < s.size → ∃ built,
    registry.create name s id = some built ∧ LeavesSpent s built.sequence built.events
  assemble : ∃ built, s.assemble registry = some built ∧
    LeavesSpent s built.sequence built.events

/-- A node that was built from a link leaves spent links alone. -/
theorem Construction.leavesSpent_finish {declaration : Kind} {done : Extraction}
    (hs : s.WellFormed) (hid : id < s.size)
    (h : Extracts registry id declaration.children ((begin s id declaration).place id)
      (begin s id declaration) done) :
    LeavesSpent s done.sequence (done.finish id).events := by
  have hbegin := consumes_begin hs hid declaration
  have hdone := h.consumes hbegin.wellFormed
  obtain ⟨events, hevents, htakes⟩ := h.takesLive hbegin.wellFormed
  apply (((Consumes.claim hs hid).trans hbegin).trans hdone).leavesSpent
  exact takesOnce_finish hs hid hdone hevents htakes

/-- With declared kinds, spent links are never touched again: building leaves the state, the text
and the kind of every link that was claimed, emptied or removed before, and no node absorbs the link
that another node was begun from, nor is another child tried on it. -/
theorem Registry.Declared.sparesSpent (hregistry : registry.Declared) (hs : s.WellFormed) :
    SparesSpent registry s where
  construct kind id hid := by
    obtain ⟨done, hdone, hextracts⟩ := kind.construct_total hregistry hs hid
    exact ⟨_, hdone, leavesSpent_finish hs hid hextracts⟩
  create name id hid := by
    obtain ⟨built, hbuilt, hcreates⟩ := registry.create_total hregistry hs hid name
    refine ⟨built, hbuilt, ?_⟩
    cases hcreates with
    | absent =>
      have hnothing : TakesLive s s [] := .of_quiet (by simp)
      exact (Consumes.refl hs).leavesSpent hnothing.toTakesOnce
    | declared _ _ hextracts => exact leavesSpent_finish hs hid hextracts
  assemble := by
    obtain ⟨done, hdone, hwalks⟩ := s.assemble_total hregistry hs
    obtain ⟨events, hevents, htakes⟩ := hwalks.takesLive hregistry hs
    obtain rfl : done.events = events := hevents
    exact ⟨_, hdone, (hwalks.consumes hregistry hs).leavesSpent htakes.toTakesOnce⟩

/-- Lists and items of which the first list is claimed, the first item emptied and the second list
removed. -/
def spentLists : Sequence :=
  ((((ofTokens
    [{ value := "list", data := "a" }, { value := "item", data := "b" },
      { value := "list", data := "c" }, { value := "list", data := "d" },
      { value := "item", data := "e" }]).claim 0).empty 1).1.remove 2).1

/-- The spent lists hang together. -/
theorem spentLists_wellFormed : spentLists.WellFormed := by
  have hfresh := (ofTokens_spec [{ value := "list", data := "a" }, { value := "item", data := "b" },
    { value := "list", data := "c" }, { value := "list", data := "d" },
    { value := "item", data := "e" }]).1
  exact ((hfresh.claim (by decide)).empty (by decide)).remove (by decide)

/-- Kinds that extract each other in a circle leave the spent lists alone. -/
theorem Registry.Declared.sparesSpent_spentLists :
    ∃ registry, Registry.ofKinds circularKinds = .ok registry ∧ registry.Declared ∧
      spentLists.WellFormed ∧ SparesSpent registry spentLists :=
  have hdeclared := Registry.declared_ofKinds circularKinds rfl
  ⟨_, rfl, hdeclared, spentLists_wellFormed, hdeclared.sparesSpent spentLists_wellFormed⟩

end DocTree
