import DocTree.Proofs.Confinement
import DocTree.Proofs.Trimming

/-!
# Extraction stage by stage

Extraction for a node goes from stage to stage: a child kind is passed over, a search comes to its
end, or a link is found, built from and dropped. What carries a search is that no live link of the
kind is behind it on the chain. This holds when it begins at the head; it holds when it goes on
after the dropped link; and when the dropped link had already been taken out, the search begins anew
at the head.

A search may lose its place for good, though. It begins at the head of the chain of the node's own
link, or else of the first link that it remembers, and both may have been taken out by constructors.
The live links that are then left on the chain are exactly those that are left in the end.
-/

namespace DocTree

/-- Whether a link is live and of a kind. -/
def Sequence.isLiveOf (s : Sequence) (kind : String) (id : LinkId) : Bool :=
  s.isLive id && s.value id == kind

namespace Sequence

variable {s s' : Sequence} {id : LinkId} {kind : String}

/-- Being live and of a kind is a matter of state and value. -/
theorem isLiveOf_iff : s.isLiveOf kind id = true ↔ s.state id = .live ∧ s.value id = kind := by
  simp [isLiveOf, isLive_iff]

/-- A live link of a kind was one before links changed for the worse. -/
theorem Dwindles.isLiveOf_of (h : Dwindles s s') (hlive : s'.isLiveOf kind id = true) :
    s.isLiveOf kind id = true := by
  obtain ⟨hlive, hvalue⟩ := isLiveOf_iff.mp hlive
  obtain ⟨hlive', htoken⟩ := h.live_of id hlive
  exact isLiveOf_iff.mpr ⟨hlive', (token_eq_iff.mp htoken).2.symm.trans hvalue⟩

/-- A live link is in a chain. -/
theorem isReachable_of_isLiveOf (h : s.isLiveOf kind id = true) : s.isReachable id = true := by
  rw [isReachable_iff, (isLiveOf_iff.mp h).1]
  simp

end Sequence

namespace Construction

open Sequence Relation

/-- How far extraction for a node has come: the child kinds that are still to be searched for, where
the search for the first of them stands, and what was extracted so far. -/
structure Stage where
  kinds : List String
  place : Option LinkId
  extraction : Extraction

/-- The stage at which extraction for a node begins. -/
def Stage.start (s : Sequence) (id : LinkId) (kind : Kind) : Stage :=
  ⟨kind.children, (begin s id kind).place id, begin s id kind⟩

/-- Extraction for a link goes from one stage to the next. -/
inductive Advances (registry : Registry) (id : LinkId) : Stage → Stage → Prop where
  /-- A kind without a slot is passed over. -/
  | pass {kind : String} {kinds : List String} {place : Option LinkId} {e : Extraction}
      (hslot : slotName kind = "") :
    Advances registry id ⟨kind :: kinds, place, e⟩
      ⟨kinds, e.place id, { e with events := e.events ++ [.noSlot e.node.name kind] }⟩
  /-- The search for a kind has come to its end. -/
  | exhaust {kind : String} {kinds : List String} {place : Option LinkId} {e : Extraction}
      (hslot : slotName kind ≠ "")
      (hfind : (place.bind fun start => e.sequence.find? start kind .next) = none) :
    Advances registry id ⟨kind :: kinds, place, e⟩ ⟨kinds, e.place id, e⟩
  /-- A link is found, built from and dropped. -/
  | take {kind : String} {kinds : List String} {place : Option LinkId} {e : Extraction}
      {found : LinkId} {built : Built (Option Node)} {budget : ℕ} (hslot : slotName kind ≠ "")
      (hfind : (place.bind fun start => e.sequence.find? start kind .next) = some found)
      (hbuilt : createWithin registry budget kind e.sequence found = some built) :
    Advances registry id ⟨kind :: kinds, place, e⟩
      ⟨kind :: kinds, ((e.addChild kind found built).drop id found).2,
        ((e.addChild kind found built).drop id found).1⟩

/-- Extraction for a link comes from one stage to another. -/
abbrev Reaches (registry : Registry) (id : LinkId) : Stage → Stage → Prop :=
  ReflTransGen (Advances registry id)

variable {registry : Registry} {names : Set String} {s : Sequence} {id found : LinkId}
  {kind : String} {kinds : List String} {place : Option LinkId} {chain behind ahead : List LinkId}
  {e done : Extraction} {built : Built (Option Node)} {stage stage' : Stage} {budget : ℕ}

/-- From a stage, extraction goes on in one way only. -/
theorem Advances.unique (h : Advances registry id stage stage') {stage'' : Stage}
    (h' : Advances registry id stage stage'') : stage' = stage'' := by
  cases h with
  | pass hslot =>
    cases h' with
    | pass => rfl
    | exhaust hslot' | take hslot' => exact absurd hslot hslot'
  | exhaust hslot hfind =>
    cases h' with
    | pass hslot' => exact absurd hslot' hslot
    | exhaust => rfl
    | take _ hfind' => cases hfind.symm.trans hfind'
  | take hslot hfind hbuilt =>
    cases h' with
    | pass hslot' => exact absurd hslot' hslot
    | exhaust _ hfind' => cases hfind.symm.trans hfind'
    | take _ hfind' hbuilt' =>
      obtain rfl := Option.some.inj (hfind.symm.trans hfind')
      obtain rfl := createWithin_unique hbuilt hbuilt'
      rfl

/-! ## What the builder does, stage by stage -/

/-- A search goes through the stages of one kind. -/
theorem reaches_search (hslot : slotName kind ≠ "")
    (hdone : searchWithin registry budget id kind e place = some done) (kinds : List String) :
    Reaches registry id ⟨kind :: kinds, place, e⟩ ⟨kinds, done.place id, done⟩ := by
  induction budget generalizing e place with
  | zero => simp [searchWithin] at hdone
  | succ budget ih =>
    rw [searchWithin] at hdone
    split at hdone
    · next hfind =>
      obtain rfl := Option.some.inj hdone
      exact .single (.exhaust hslot hfind)
    · next found hfind =>
      split at hdone
      · cases hdone
      · next built hbuilt => exact .head (.take hslot hfind hbuilt) (ih hdone)

/-- Extracting one kind goes through its stages. -/
theorem reaches_extract (hdone : extractWithin registry budget id kind e = some done)
    (kinds : List String) :
    Reaches registry id ⟨kind :: kinds, e.place id, e⟩ ⟨kinds, done.place id, done⟩ := by
  cases budget with
  | zero => simp [extractWithin] at hdone
  | succ budget =>
    rw [extractWithin] at hdone
    by_cases hslot : slotName kind = ""
    · rw [if_pos hslot] at hdone
      obtain rfl := Option.some.inj hdone
      exact .single (.pass hslot)
    · rw [if_neg hslot] at hdone
      exact reaches_search hslot hdone kinds

/-- Extracting all kinds goes through all stages. -/
theorem reaches_extractAll
    (hdone : kinds.foldlM (fun e kind => extractWithin registry budget id kind e) e = some done) :
    Reaches registry id ⟨kinds, e.place id, e⟩ ⟨[], done.place id, done⟩ := by
  induction kinds generalizing e with
  | nil =>
    obtain rfl := Option.some.inj hdone
    exact .refl
  | cons kind kinds ih =>
    rw [List.foldlM_cons] at hdone
    obtain ⟨next, hnext, hrest⟩ := Option.bind_eq_some_iff.mp hdone
    exact (reaches_extract hnext kinds).trans (ih hrest)

/-- Building by a kind goes through all stages from the start. -/
theorem reaches_construct {declaration : Kind} {built : Built Node}
    (hbuilt : constructWithin registry budget declaration s id = some built) :
    ∃ done, built = done.finish id ∧
      Reaches registry id (.start s id declaration) ⟨[], done.place id, done⟩ := by
  cases budget with
  | zero => simp [constructWithin] at hbuilt
  | succ budget =>
    rw [constructWithin] at hbuilt
    obtain ⟨done, hdone, hfinish⟩ := Option.bind_eq_some_iff.mp hbuilt
    exact ⟨done, (Option.some.inj hfinish).symm, reaches_extractAll hdone⟩

/-! ## Where a search stands -/

/-- Extraction goes on along a chain, of which the node's link and the remembered first link are or
were links. -/
structure OnChain (chain : List LinkId) (id : LinkId) (e : Extraction) : Prop where
  wellFormed : e.sequence.WellFormed
  isChain : e.sequence.IsChain (chain.filter e.sequence.isReachable)
  mem : id ∈ chain
  first_mem : ∀ first ∈ e.first, first ∈ chain

namespace OnChain

/-- The head of what is left of the chain is the head of every link that is left. -/
theorem head?_eq (h : OnChain chain id e) {other : LinkId} (hmem : other ∈ chain)
    (hreach : e.sequence.isReachable other = true) :
    (chain.filter e.sequence.isReachable).head? = some (e.sequence.head other) :=
  h.isChain.head_eq h.wellFormed (List.mem_filter.mpr ⟨hmem, hreach⟩)

/-- Searching begins at the head or nowhere. -/
theorem place_cases (h : OnChain chain id e) :
    e.place id = none ∨ e.place id = (chain.filter e.sequence.isReachable).head? := by
  rw [Extraction.place, rewind]
  cases hfind : ([id] ++ e.first.toList).find? e.sequence.isReachable with
  | none => exact .inl rfl
  | some other =>
    have hmem : other ∈ chain := by
      rcases List.mem_append.mp (List.mem_of_find?_eq_some hfind) with hid | hfirst
      · exact List.mem_singleton.mp hid ▸ h.mem
      · exact h.first_mem other (Option.mem_toList.mp hfirst)
    exact .inr (h.head?_eq hmem (List.find?_some hfind)).symm

/-- From the first of some links that end the chain, searching finds the first live link of the kind
among them. -/
theorem find_eq (h : OnChain chain id e)
    (hsplit : chain.filter e.sequence.isReachable = behind ++ ahead) (kind : String) :
    (ahead.head?.bind fun start => e.sequence.find? start kind .next) =
      ahead.find? (e.sequence.isLiveOf kind) := by
  cases ahead with
  | nil => rfl
  | cons start rest =>
    have hchain := h.isChain
    rw [hsplit] at hchain
    rw [List.head?_cons, Option.bind_some, Sequence.find?, hchain.trail_next h.wellFormed]
    rfl

/-- After a link was built from and dropped, extraction goes on along the chain. -/
theorem drop (h : OnChain chain id e) (kind : String) (hfound : found ∈ chain)
    (hlive : e.sequence.state found = .live)
    (hbuilt : Dwindles e.sequence built.sequence) :
    OnChain chain id ((e.addChild kind found built).drop id found).1 := by
  have hmem : found ∈ chain.filter e.sequence.isReachable :=
    List.mem_filter.mpr ⟨hfound, isReachable_iff.mpr (by simp [hlive])⟩
  have hdrop := (dwindles_drop id kind hbuilt (h.isChain.lt_size found hmem) hlive).1
  refine ⟨hdrop.wellFormed, ?_, h.mem, fun first hfirst => ?_⟩
  · rw [← hdrop.filter_filter]
    exact hdrop.chain _ h.isChain
  · have hsame : (e.addChild kind found built).first = e.first := by
      unfold Extraction.addChild
      split <;> rfl
    simp only [Extraction.drop, sequence_addChild, hsame] at hfirst
    split at hfirst
    · -- The link after the dropped one is on what building left of the chain.
      by_cases hremoved : built.sequence.state found = .removed
      · rw [remove_of_removed hremoved] at hfirst
        cases hfirst
      · rw [remove_snd hremoved] at hfirst
        have hchain := hbuilt.chain _ h.isChain
        rw [hbuilt.filter_filter] at hchain
        have hmem := hchain.mem_of_next
          (List.mem_filter.mpr ⟨hfound, isReachable_iff.mpr hremoved⟩) hfirst
        exact List.mem_of_mem_filter hmem
    · exact h.first_mem first hfirst

end OnChain

/-- A search stands at the first of the links ahead, and no live link of the kind is behind. -/
def Faces (s : Sequence) (links : List LinkId) (kind : String) (place : Option LinkId) : Prop :=
  ∃ behind ahead, links = behind ++ ahead ∧ place = ahead.head? ∧
    ∀ other ∈ behind, s.isLiveOf kind other = false

/-- A search stands nowhere, and there is no place to begin anew. -/
def Stage.Lost (stage : Stage) (id : LinkId) : Prop :=
  stage.place = none ∧ stage.extraction.place id = none

/-- Extraction goes on along a chain, and either its search has no live link of its kind behind it,
or it is lost. -/
structure Tracks (chain : List LinkId) (id : LinkId) (stage : Stage) : Prop where
  onChain : OnChain chain id stage.extraction
  faces : ∀ kind ∈ stage.kinds.head?, stage.Lost id ∨
    Faces stage.extraction.sequence (chain.filter stage.extraction.sequence.isReachable) kind
      stage.place

namespace Tracks

/-- A search that begins has nothing behind it, or is lost. -/
theorem begins (h : OnChain chain id e) (kinds : List String) :
    Tracks chain id ⟨kinds, e.place id, e⟩ where
  onChain := h
  faces kind _ := by
    rcases h.place_cases with hnone | hhead
    · exact .inl ⟨hnone, hnone⟩
    · exact .inr ⟨[], _, rfl, hhead, by simp⟩

/-- The first live link of the kind on the chain is what is found; behind the links that follow it
there is none when it has been dropped. -/
theorem found_split (h : Tracks chain id ⟨kind :: kinds, place, e⟩)
    (hfind : (place.bind fun start => e.sequence.find? start kind .next) = some found) :
    ∃ before after, chain.filter e.sequence.isReachable = before ++ found :: after ∧
      e.sequence.isLiveOf kind found = true ∧
      ∀ other ∈ before, e.sequence.isLiveOf kind other = false := by
  rcases h.faces kind rfl with ⟨hnone, -⟩ | ⟨behind, ahead, hsplit, rfl, hbehind⟩
  · simp only at hnone
    rw [hnone] at hfind
    cases hfind
  · rw [h.onChain.find_eq hsplit, List.find?_eq_some_iff_append] at hfind
    obtain ⟨hlive, skipped, after, rfl, hskipped⟩ := hfind
    refine ⟨behind ++ skipped, after, by rw [hsplit, List.append_assoc], hlive, ?_⟩
    intro other hother
    rcases List.mem_append.mp hother with hother | hother
    · exact hbehind other hother
    · simpa using hskipped other hother

/-- When a search has come to its end, there is no live link of the kind on the chain, unless it was
lost. -/
theorem exhausted (h : Tracks chain id ⟨kind :: kinds, place, e⟩)
    (hfind : (place.bind fun start => e.sequence.find? start kind .next) = none) :
    Stage.Lost ⟨kind :: kinds, place, e⟩ id ∨
      ∀ other ∈ chain, e.sequence.isLiveOf kind other = false := by
  refine (h.faces kind rfl).imp_right fun ⟨behind, ahead, hsplit, hplace, hbehind⟩ => ?_
  simp only at hplace
  rw [hplace, h.onChain.find_eq hsplit, List.find?_eq_none] at hfind
  intro other hother
  by_contra hlive
  rw [Bool.not_eq_false] at hlive
  have hmem := List.mem_filter.mpr ⟨hother, isReachable_of_isLiveOf hlive⟩
  simp only at hsplit
  rw [hsplit] at hmem
  rcases List.mem_append.mp hmem with hmem | hmem
  · exact Bool.false_ne_true ((hbehind other hmem).symm.trans hlive)
  · exact hfind other hmem hlive

/-- After a link was built from and dropped, the search goes on with nothing behind it, or is
lost. -/
theorem drop (h : Tracks chain id ⟨kind :: kinds, place, e⟩)
    (hfind : (place.bind fun start => e.sequence.find? start kind .next) = some found)
    (hbuilt : Dwindles e.sequence built.sequence) :
    Tracks chain id ⟨kind :: kinds, ((e.addChild kind found built).drop id found).2,
      ((e.addChild kind found built).drop id found).1⟩ := by
  obtain ⟨before, after, hsplit, hlive, hbefore⟩ := h.found_split hfind
  have hmem : found ∈ chain.filter e.sequence.isReachable := by simp [hsplit]
  have hstate := (isLiveOf_iff.mp hlive).1
  have hlt := h.onChain.isChain.lt_size found hmem
  have honChain := h.onChain.drop kind (List.mem_of_mem_filter hmem) hstate hbuilt
  have hdrop := (dwindles_drop id kind hbuilt hlt hstate).1
  by_cases hremoved : built.sequence.state found = .removed
  · -- The link was taken out while it was built from, and the search begins anew.
    have hplace : ((e.addChild kind found built).drop id found).2 =
        ((e.addChild kind found built).drop id found).1.place id := by
      simp [Extraction.drop, Extraction.place, sequence_addChild, isReachable, hremoved]
    rw [hplace]
    exact .begins honChain _
  · refine ⟨honChain, fun other hother => .inr ?_⟩
    obtain rfl := Option.some.inj hother
    have hlt' : found < built.sequence.size := hbuilt.size_eq ▸ hlt
    have hreach := isReachable_iff.mpr hremoved
    have hgone := hbuilt.wellFormed.state_remove hlt' hremoved
    have hnot : found ∉ before ++ after :=
      (hsplit ▸ h.onChain.isChain).notMem h.onChain.wellFormed
    -- What building left of the links after the found one, dropping leaves as well.
    have hafter : after.filter built.sequence.isReachable =
        after.filter (built.sequence.remove found).1.isReachable := by
      refine List.filter_congr fun other hother => ?_
      have hne : other ≠ found := fun heq => hnot (List.mem_append_right _ (heq ▸ hother))
      rw [isReachable, isReachable, hgone, if_neg hne]
    have hchain := hbuilt.chain _ h.onChain.isChain
    simp only at hchain
    rw [hsplit, List.filter_append, List.filter_cons_of_pos hreach] at hchain
    refine ⟨before.filter ((e.addChild kind found built).drop id found).1.sequence.isReachable,
      after.filter ((e.addChild kind found built).drop id found).1.sequence.isReachable, ?_, ?_, ?_⟩
    · rw [← hdrop.filter_filter, hsplit, List.filter_append, List.filter_cons_of_neg]
      simp [Extraction.drop, sequence_addChild, isReachable, hgone]
    · simp only [Extraction.drop, sequence_addChild, hreach, if_true, remove_snd hremoved,
        hchain.next_eq, hafter]
    · intro other hother
      by_contra hlive'
      rw [Bool.not_eq_false] at hlive'
      have hback := hdrop.isLiveOf_of hlive'
      exact Bool.false_ne_true ((hbefore other (List.mem_of_mem_filter hother)).symm.trans hback)

/-- Whatever extraction does next, it goes on along the chain. -/
theorem advance (hregistry : registry.TrimsAmong names)
    (hkinds : ∀ kind ∈ stage.kinds, kind ∈ names) (h : Tracks chain id stage)
    (hstep : Advances registry id stage stage') :
    Tracks chain id stage' ∧
      Dwindles stage.extraction.sequence stage'.extraction.sequence ∧
      ∀ kind ∈ stage'.kinds, kind ∈ stage.kinds := by
  cases hstep with
  | @pass kind kinds place e hslot =>
    have honChain : OnChain chain id { e with events := e.events ++ [.noSlot e.node.name kind] } :=
      ⟨h.onChain.wellFormed, h.onChain.isChain, h.onChain.mem, h.onChain.first_mem⟩
    exact ⟨.begins honChain kinds, .refl h.onChain.wellFormed,
      fun other hother => List.mem_cons_of_mem _ hother⟩
  | exhaust hslot hfind =>
    exact ⟨.begins h.onChain _, .refl h.onChain.wellFormed,
      fun other hother => List.mem_cons_of_mem _ hother⟩
  | @take kind kinds place e found built budget hslot hfind hbuilt =>
    obtain ⟨hlt, hlive, -⟩ := found_spec hslot hfind
    have hdwindles := dwindles_createWithin hregistry h.onChain.wellFormed hlt
      (hkinds kind List.mem_cons_self) hbuilt
    exact ⟨h.drop hfind hdwindles, (dwindles_drop id kind hdwindles hlt hlive).1,
      fun other hother => hother⟩

end Tracks

end Construction

end DocTree
