import DocTree.Proofs.Growth
import DocTree.Proofs.Splicing

/-!
# How deep and how often building happens

The events of a run show which nodes were open when. Building a child takes place while its parent
is open, so that a run nests as deep as children are found inside children, and each of them is
found on a link that was live and is claimed before anything further is searched. The number of live
links therefore bounds the nesting, and it bounds how many children are tried over a whole run: a
try costs the link that it was made on.
-/

namespace DocTree

namespace Event

/-- Whether an event opens or closes the building of a node. -/
def isBound : Event → Bool
  | .opened _ | .closed _ => true
  | _ => false

/-- Whether an event is a try to build a child. -/
def isAttempt : Event → Bool
  | .attempted _ _ => true
  | _ => false

/-- The greatest number of nodes that are open at once during some events, where some are open
before. -/
def depthFrom (before : ℕ) : List Event → ℕ
  | [] => before
  | .opened _ :: rest => depthFrom (before + 1) rest
  | .closed _ :: rest => max before (depthFrom (before - 1) rest)
  | _ :: rest => depthFrom before rest

/-- The greatest number of nodes that are open at once during some events. -/
def depth (events : List Event) : ℕ :=
  depthFrom 0 events

/-- How often a child was tried. -/
def attempts (events : List Event) : ℕ :=
  events.countP isAttempt

/-- Every node that is opened is closed again by the same link, and nodes are nested at most to a
depth. -/
inductive Nested : ℕ → List Event → Prop where
  | nil (bound : ℕ) : Nested bound []
  /-- An event neither opens nor closes a node. -/
  | plain {bound : ℕ} {event : Event} {events : List Event} (hevent : event.isBound = false)
      (hrest : Nested bound events) : Nested bound (event :: events)
  /-- A node is opened, and what happens until it is closed is nested less deep. -/
  | node {bound : ℕ} {inner events : List Event} (link : LinkId) (hinner : Nested bound inner)
      (hrest : Nested (bound + 1) events) :
    Nested (bound + 1) (.opened link :: inner ++ .closed link :: events)

variable {event : Event} {events events' : List Event} {bound bound' before : ℕ}

namespace Nested

/-- What is nested to a depth is nested to a greater one. -/
theorem mono (h : Nested bound events) (hle : bound ≤ bound') : Nested bound' events := by
  induction h generalizing bound' with
  | nil => exact .nil bound'
  | plain hevent _ ih => exact .plain hevent (ih hle)
  | node link _ _ ihinner ih =>
    obtain ⟨less, rfl⟩ : ∃ less, bound' = less + 1 :=
      Nat.exists_eq_add_one_of_ne_zero (Nat.ne_zero_of_lt hle)
    exact .node link (ihinner (Nat.le_of_succ_le_succ hle)) (ih hle)

/-- Two runs one after the other nest as deep as the deeper one. -/
theorem append (h : Nested bound events) (h' : Nested bound events') :
    Nested bound (events ++ events') := by
  induction h with
  | nil => exact h'
  | plain hevent _ ih => exact .plain hevent (ih h')
  | node link hinner _ _ ih =>
    have hnode := Nested.node link hinner (ih h')
    simpa using hnode

/-- Events that open and close no node are nested to every depth. -/
theorem of_plain (h : ∀ event ∈ events, event.isBound = false) : Nested bound events := by
  induction events with
  | nil => exact .nil bound
  | cons event events ih =>
    exact .plain (h event List.mem_cons_self) (ih fun other hother =>
      h other (List.mem_cons_of_mem _ hother))

/-- An event that opens and closes no node does not count. -/
theorem depthFrom_cons (h : event.isBound = false) (before : ℕ) (events : List Event) :
    depthFrom before (event :: events) = depthFrom before events := by
  cases event <;> first | rfl | cases h

/-- A run that is nested to a depth adds at most that many open nodes, and leaves as many open as
before. -/
theorem depthFrom_append_le (h : Nested bound events) (before : ℕ) (events' : List Event) :
    depthFrom before (events ++ events') ≤ max (before + bound) (depthFrom before events') := by
  induction h generalizing before events' with
  | nil => exact le_max_right _ _
  | plain hevent _ ih =>
    rw [List.cons_append, depthFrom_cons hevent]
    exact ih before events'
  | @node bound inner events link _ _ ihinner ih =>
    have hinner := ihinner (before + 1) (.closed link :: (events ++ events'))
    have hclosed : depthFrom (before + 1) (.closed link :: (events ++ events')) =
        max (before + 1) (depthFrom before (events ++ events')) := rfl
    have hopened : depthFrom before ((.opened link :: inner ++ .closed link :: events) ++ events') =
        depthFrom (before + 1) (inner ++ .closed link :: (events ++ events')) := by
      simp [depthFrom]
    rw [hclosed] at hinner
    rw [hopened]
    have hrest := ih before events'
    omega

/-- A run that is nested to a depth is not deeper. -/
theorem depth_le (h : Nested bound events) : depth events ≤ bound := by
  have hle := h.depthFrom_append_le 0 []
  simpa [depth, depthFrom] using hle

end Nested

/-- Tries add up. -/
theorem attempts_append (events events' : List Event) :
    attempts (events ++ events') = attempts events + attempts events' :=
  List.countP_append

end Event

open Sequence Construction Event

variable {registry : Registry} {s s' : Sequence} {id : LinkId} {kinds : List String}
  {place : Option LinkId} {e e' done : Extraction} {name : String} {s₀ : Sequence}

/-- Removing a link leaves no more live links. -/
theorem Sequence.WellFormed.liveCount_remove_le (hs : s.WellFormed) (hid : id < s.size) :
    (s.remove id).1.liveCount ≤ s.liveCount := by
  by_cases hreach : s.state id = .removed
  · rw [remove_of_removed hreach]
  · have hids : (s.remove id).1.ids = s.ids := by rw [ids, ids, size_remove]
    rw [liveCount, liveCount, hids]
    refine List.countP_mono_left fun other _ hlive => ?_
    rw [isLive_iff, hs.state_remove hid hreach] at hlive
    split at hlive
    · cases hlive
    · exact isLive_iff.mpr hlive

namespace Construction

/-- Some events were added in the course of building: they are nested to a depth, and together with
the links that are live in the end the tries are no more than the links that were live. -/
structure Spends (s s' : Sequence) (bound : ℕ) (events : List Event) : Prop where
  nested : Nested bound events
  attempts_le : attempts events + s'.liveCount ≤ s.liveCount

namespace Spends

variable {s'' : Sequence} {events events' : List Event} {bound bound' : ℕ}

/-- Events that neither bound a node nor try a child cost nothing. -/
theorem of_quiet (h : ∀ event ∈ events, event.isBound = false ∧ event.isAttempt = false)
    (hless : s'.liveCount ≤ s.liveCount) : Spends s s' bound events where
  nested := .of_plain fun event hevent => (h event hevent).1
  attempts_le := by
    have hnone : attempts events = 0 :=
      List.countP_eq_zero.mpr fun event hevent => by simp [(h event hevent).2]
    omega

/-- The bound on the nesting may be greater. -/
theorem mono (h : Spends s s' bound events) (hle : bound ≤ bound') : Spends s s' bound' events :=
  ⟨h.nested.mono hle, h.attempts_le⟩

/-- What is spent in two turns is spent in both together. -/
theorem trans (h : Spends s s' bound events) (h' : Spends s' s'' bound' events')
    (hle : bound' ≤ bound) : Spends s s'' bound (events ++ events') where
  nested := h.nested.append (h'.nested.mono hle)
  attempts_le := by
    have hsum := attempts_append events events'
    have hfirst := h.attempts_le
    have hsecond := h'.attempts_le
    omega

/-- A try that leaves fewer live links pays for itself, whatever its own events spend. -/
theorem attempt (h : Spends s s' bound events) (hless : s''.liveCount ≤ s'.liveCount)
    (hcost : s.liveCount < s₀.liveCount) (kind : String) (link : LinkId) :
    Spends s₀ s'' bound (.attempted kind link :: events) where
  nested := .plain rfl h.nested
  attempts_le := by
    have hone : attempts (.attempted kind link :: events) = attempts events + 1 :=
      List.countP_cons_of_pos rfl
    have hrest := h.attempts_le
    omega

end Spends

/-- Absorbing neither bounds a node nor tries a child. -/
theorem quiet_absorb {event : Event} {node : String} {direction : Direction}
    {absorbed : Option String} (h : event ∈ (absorb s id node direction absorbed).events) :
    event.isBound = false ∧ event.isAttempt = false := by
  cases absorbed with
  | none => cases h
  | some kind =>
    simp only [absorb] at h
    split at h
    · cases h
    · rw [List.mem_singleton.mp h]
      exact ⟨rfl, rfl⟩

/-- Beginning a node neither bounds a node nor tries a child. -/
theorem quiet_begin {event : Event} {kind : Kind} (h : event ∈ (begin s id kind).events) :
    event.isBound = false ∧ event.isAttempt = false := by
  rcases List.mem_append.mp h with h | h
  · exact quiet_absorb h
  · exact quiet_absorb h

/-- A node that was built nests one deeper than the extraction of its children. -/
theorem spends_finish {kind : Kind} {events : List Event} (hs : s.WellFormed) (hid : id < s.size)
    (hevents : done.events = (begin s id kind).events ++ events)
    (h : Spends (begin s id kind).sequence done.sequence (begin s id kind).sequence.liveCount
      events) :
    Spends (s.claim id) done.sequence ((s.claim id).liveCount + 1) (done.finish id).events := by
  have hless := (consumes_begin hs hid kind).liveCount_le
  have hbegin : Spends (s.claim id) (begin s id kind).sequence (s.claim id).liveCount
      (begin s id kind).events := .of_quiet (fun _ => quiet_begin) hless
  have hall := hbegin.trans h hless
  rw [← hevents] at hall
  refine ⟨.node id hall.nested (.nil _), ?_⟩
  have hsame : attempts (done.finish id).events = attempts done.events := by
    simp [Extraction.finish, attempts, isAttempt]
  rw [hsame]
  exact hall.attempts_le

/-- A link that nothing comes of is reported as tried and dropped. -/
theorem events_lose (e : Extraction) (id : LinkId) (kind : String) (found : LinkId) :
    ((e.addChild kind found { result := none, sequence := e.sequence }).drop id found).1.events =
      e.events ++ [.attempted kind found, .dropped e.node.name kind] := by
  simp [Extraction.drop, Extraction.addChild]

/-- A child is reported as tried, and then its own building is. -/
theorem events_child (e done : Extraction) (id : LinkId) (kind : String) (found : LinkId) :
    ((e.addChild kind found (present (done.finish found))).drop id found).1.events =
      e.events ++ .attempted kind found :: (done.finish found).events := by
  simp [Extraction.drop, Extraction.addChild, present]

/-- Extraction nests no deeper than there are live links, and each try costs one. -/
theorem Extracts.spends (h : Extracts registry id kinds place e e') (hs : e.sequence.WellFormed) :
    ∃ events, e'.events = e.events ++ events ∧
      Spends e.sequence e'.sequence e.sequence.liveCount events := by
  induction h with
  | done => exact ⟨[], by simp, .of_quiet (by simp) le_rfl⟩
  | @pass _ kind _ _ e _ _ _ ih =>
    obtain ⟨events, hevents, hspends⟩ := ih hs
    have hquiet : Spends e.sequence e.sequence e.sequence.liveCount
        [.noSlot e.node.name kind] := .of_quiet (by simp [isBound, isAttempt]) le_rfl
    exact ⟨_, by rw [hevents, List.append_assoc], hquiet.trans hspends le_rfl⟩
  | exhaust _ _ _ ih => exact ih hs
  | @lose id kind _ _ e _ found hslot hfind hentry _ ih =>
    obtain ⟨hlt, hlive, -⟩ := found_spec hslot hfind
    obtain ⟨hdrop, hless⟩ := (Creates.absent hentry).drop hs hlt hlive id kind
    obtain ⟨events, hevents, hspends⟩ := ih hdrop.wellFormed
    have hquiet : ∀ s, Spends s s e.sequence.liveCount [.dropped e.node.name kind] :=
      fun _ => .of_quiet (by simp [isBound, isAttempt]) le_rfl
    refine ⟨_, ?_, ((hquiet _).attempt le_rfl hless kind found).trans hspends hless.le⟩
    rw [hevents, events_lose, List.append_assoc]
  | @child id kind _ _ e _ done found _ built hslot hfind hentry hbuild hchild _ ihchild ih =>
    obtain ⟨hlt, hlive, -⟩ := found_spec hslot hfind
    obtain ⟨hdrop, hless⟩ := (Creates.declared hentry hbuild hchild).drop hs hlt hlive id kind
    obtain ⟨events, hevents, hspends⟩ := ih hdrop.wellFormed
    have hclaim := Consumes.claim hs hlt
    have hbegin := consumes_begin hs hlt built
    have hdone := hbegin.trans (hchild.consumes hbegin.wellFormed)
    -- The child nests one deeper, but its link was live and no longer is.
    have hcost : (e.sequence.claim found).liveCount < e.sequence.liveCount :=
      hclaim.liveCount_lt hlt hlive (state_claim_ne_live hlt)
    obtain ⟨inner, hinner, hspent⟩ := ihchild hbegin.wellFormed
    have hfinish := (spends_finish hs hlt hinner hspent).mono hcost
    have hlt' : found < done.sequence.size := by rwa [hdone.size_eq, hclaim.size_eq]
    have hremove := hdone.wellFormed.liveCount_remove_le hlt'
    refine ⟨_, ?_, (hfinish.attempt hremove hcost kind found).trans hspends hless.le⟩
    rw [hevents, events_child, List.append_assoc]

/-- Building for a name from a live link nests no deeper than there are live links. -/
theorem Creates.spends {built : Built (Option Node)} (h : Creates registry name s id built)
    (hs : s.WellFormed) (hid : id < s.size) (hlive : s.state id = .live) :
    Spends s built.sequence s.liveCount built.events := by
  cases h with
  | absent => exact .of_quiet (by simp) le_rfl
  | @declared _ kind done _ _ hdone =>
    have hcost : (s.claim id).liveCount < s.liveCount :=
      (Consumes.claim hs hid).liveCount_lt hid hlive (state_claim_ne_live hid)
    obtain ⟨events, hevents, hspends⟩ := hdone.spends (consumes_begin hs hid kind).wellFormed
    have hfinish := spends_finish hs hid hevents hspends
    exact ⟨hfinish.nested.mono hcost, hfinish.attempts_le.trans hcost.le⟩

end Construction

/-- Assembly nests no deeper than there are live links, and each try costs one. -/
theorem Assembly.Walks.spends {heads : List LinkId} {done done' : Built (List Node)}
    (hregistry : registry.Declared) (h : Walks registry place heads done done')
    (hs : done.sequence.WellFormed) :
    ∃ events, done'.events = done.events ++ events ∧
      Spends done.sequence done'.sequence done.sequence.liveCount events := by
  induction h with
  | done => exact ⟨[], by simp, .of_quiet (by simp) le_rfl⟩
  | turn _ ih => exact ih hs
  | @look id heads done done' built hbuilt _ ih =>
    have hlook := (consumes_buildAt hregistry hs hbuilt).1
    obtain ⟨events, hevents, hspends⟩ := ih hlook.wellFormed
    have hhere : Spends done.sequence built.sequence done.sequence.liveCount built.events := by
      rcases buildAt_cases hregistry hs hbuilt with
        ⟨hpending, hid, hcreates⟩ | ⟨-, -, hsame, hquiet⟩
      · exact hcreates.spends hs hid hpending.1
      · rw [hsame]
        refine .of_quiet (fun event hevent => ?_) le_rfl
        rw [hquiet event hevent]
        exact ⟨rfl, rfl⟩
    refine ⟨_, ?_, hhere.trans hspends hlook.liveCount_le⟩
    rw [hevents]
    simp [add]

/-! ## Termination -/

/-- Building comes to an end, however the kinds of a registry extract each other. That the outcome
is the same with every greater budget means that no budget cut it off. Nodes nest no deeper than
there are live links beside the outermost node, no more children are tried than there are live
links, and each turn of a search leaves fewer of them. -/
structure Terminates (registry : Registry) (s : Sequence) : Prop where
  construct : ∀ (kind : Kind) (id : LinkId), id < s.size → ∃ built : Built Node,
    (∀ budget ≥ 4 * s.liveCount + 4, constructWithin registry budget kind s id = some built) ∧
      depth built.events ≤ s.liveCount + 1 ∧ attempts built.events ≤ s.liveCount
  extract : ∀ (e : Extraction) (id : LinkId) (kind : String), e.sequence = s →
    ∃ (done : Extraction) (events : List Event),
      (∀ budget ≥ 4 * s.liveCount + 4, extractWithin registry budget id kind e = some done) ∧
        done.events = e.events ++ events ∧ depth events ≤ s.liveCount ∧
          attempts events ≤ s.liveCount
  turn : ∀ (e : Extraction) (id : LinkId) (kind : String) (place : Option LinkId) (found : LinkId),
    e.sequence = s → slotName kind ≠ "" →
    (place.bind fun start => s.find? start kind .next) = some found →
    ∃ built : Built (Option Node),
      (∀ budget ≥ 4 * s.liveCount + 4, createWithin registry budget kind s found = some built) ∧
        (∀ budget ≥ 4 * s.liveCount + 4, searchWithin registry (budget + 1) id kind e place =
          searchWithin registry budget id kind ((e.addChild kind found built).drop id found).1
            ((e.addChild kind found built).drop id found).2) ∧
        ((e.addChild kind found built).drop id found).1.sequence.liveCount < s.liveCount
  assemble : ∃ built, s.assemble registry = some built ∧ depth built.events ≤ s.liveCount ∧
    attempts built.events ≤ s.liveCount

/-- With declared kinds, also with kinds that extract themselves or each other in a circle, building
comes to an end on every well-formed sequence. -/
theorem Registry.Declared.terminates (hregistry : registry.Declared) (hs : s.WellFormed) :
    Terminates registry s where
  construct kind id hid := by
    obtain ⟨done, hdone, heq⟩ := constructWithin_eq hregistry kind hs hid
    obtain ⟨events, hevents, hspends⟩ := hdone.spends (consumes_begin hs hid kind).wellFormed
    have hless := (Consumes.claim hs hid).liveCount_le
    have hfinish := spends_finish hs hid hevents hspends
    have hdepth := hfinish.nested.depth_le
    have hattempts := hfinish.attempts_le
    exact ⟨_, fun budget hbudget => heq budget (by omega), by omega, by omega⟩
  extract e id kind hsame := by
    subst hsame
    obtain ⟨done, hdone, heq⟩ := extractWithin_eq hregistry id kind hs
    obtain ⟨events, hevents, hspends⟩ := hdone.spends hs
    have hattempts := hspends.attempts_le
    exact ⟨done, events, fun budget hbudget => heq budget (by omega), hevents,
      hspends.nested.depth_le, by omega⟩
  turn e id kind place found hsame hslot hfind := by
    subst hsame
    obtain ⟨hlt, hlive, -⟩ := found_spec hslot hfind
    obtain ⟨built, hcreates, heq⟩ := createWithin_eq hregistry kind hs hlt hlive
    refine ⟨built, fun budget hbudget => heq budget (by omega), fun budget hbudget => ?_,
      (hcreates.drop hs hlt hlive id kind).2⟩
    rw [searchWithin]
    simp only [hfind, heq budget (by omega)]
  assemble := by
    obtain ⟨done, hdone, hwalks⟩ := s.assemble_total hregistry hs
    obtain ⟨events, hevents, hspends⟩ := hwalks.spends hregistry hs
    obtain rfl : done.events = events := hevents
    exact ⟨_, hdone, hspends.nested.depth_le,
      (Nat.le_add_right _ _).trans hspends.attempts_le⟩

/-- Two kinds that extract each other, and one of them itself. -/
def circularKinds : List Kind :=
  [{ names := ["list"], children := ["list", "item"] },
    { names := ["item"], children := ["list"] }]

/-- Building ends with kinds that extract each other in a circle. -/
theorem Registry.Declared.terminates_circular :
    ∃ registry, Registry.ofKinds circularKinds = .ok registry ∧
      Terminates registry (ofTokens
        [{ value := "list", data := "a" }, { value := "item", data := "b" },
          { value := "list", data := "c" }, { value := "item", data := "d" }]) :=
  ⟨_, rfl, (Registry.declared_ofKinds circularKinds rfl).terminates (ofTokens_spec _).1⟩

end DocTree
