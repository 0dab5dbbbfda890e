import DocTree.Proofs.Conservation
import DocTree.Proofs.Exhaustion
import DocTree.Proofs.Likeness

/-!
# Documents do not depend on the layout

How the links of a sequence lie in it is an accident of the order in which they were pushed and of
what was removed since. Assembly follows chains only, and what it does along a chain it does in the
same way along any chain that is alike. A sequence therefore has the nodes that its chains have,
each taken for itself and laid out afresh. A link that holds the blank token leaves no node behind,
so a chain may carry some in front of the part that the other one has.
-/

namespace DocTree

open Sequence

variable {registry : Registry} {rename : LinkId → LinkId} {lead chain : List LinkId}
  {s t : Sequence} {id found : LinkId}

namespace Construction

variable {kinds : List String} {kind name : String} {place place' : Option LinkId}
  {e e' f : Extraction} {built built' : Built (Option Node)}

/-- From two places, searches for any kind of children find the same link of the chain. -/
def FindsAlike (rename : LinkId → LinkId) (chain : List LinkId) (s t : Sequence)
    (place place' : Option LinkId) : Prop :=
  ∀ kind, slotName kind ≠ "" →
    (place'.bind fun start => t.find? start kind .next) =
        (place.bind fun start => s.find? start kind .next).map rename ∧
      ∀ found, (place.bind fun start => s.find? start kind .next) = some found → found ∈ chain

/-- From where the search for children begins, the same links are found. -/
theorem place_alike (h : Alike lead rename chain e.sequence f.sequence) (hid : id ∈ chain)
    (hreach : e.sequence.state id ≠ .removed) :
    FindsAlike rename chain e.sequence f.sequence (e.place id) (f.place (rename id)) := by
  intro kind hslot
  have hkind : kind ≠ "" := fun hempty => hslot (by rw [hempty]; rfl)
  rw [Extraction.place, Extraction.place, rewind_of_stands (h.stands' hid hreach),
    rewind_of_stands (h.stands hid hreach)]
  exact ⟨h.find?_head_eq hid hreach hkind, fun found hfind => h.mem_of_find?_head hid hreach hfind⟩

/-- From the same link of the chain, or from none, the same links are found. -/
theorem findsAlike_map (h : Alike lead rename chain s t)
    (hplace : ∀ start ∈ place, start ∈ chain ∧ s.state start ≠ .removed) :
    FindsAlike rename chain s t place (place.map rename) := by
  intro kind _
  cases place with
  | none => exact ⟨rfl, by simp⟩
  | some start =>
    obtain ⟨hmem, hreach⟩ := hplace start rfl
    exact ⟨h.find?_eq hmem hreach kind, fun found hfind =>
      (h.mem_of_mem_trail hmem hreach (find?_spec hfind).2.2).1⟩

/-- Adding the same child and dropping the same link leaves chains alike, and goes on with the same
node at places from which the same links are found. -/
theorem drop_alike (built built' : Built (Option Node))
    (h : Alike lead rename chain built.sequence built'.sequence)
    (hresult : built'.result = built.result) (hnode : f.node = e.node) (hfound : found ∈ chain)
    (hreach : built.sequence.state found ≠ .removed) (id : LinkId) (kind : String) :
    let next := (e.addChild kind found built).drop id found
    let next' := (f.addChild kind (rename found) built').drop (rename id) (rename found)
    Alike lead rename chain next.1.sequence next'.1.sequence ∧ next'.1.node = next.1.node ∧
      FindsAlike rename chain next.1.sequence next'.1.sequence next.2 next'.2 := by
  obtain ⟨hremove, hnext⟩ := h.remove hfound hreach
  have hstands := h.stands hfound hreach
  have hstands' := h.stands' hfound hreach
  simp only [Extraction.drop, sequence_addChild, isReachable_iff.mpr hreach,
    isReachable_iff.mpr hstands'.state_ne, if_true]
  refine ⟨hremove, ?_, hnext ▸ findsAlike_map hremove fun start hstart => ?_⟩
  · simp only [Extraction.addChild, hresult]
    split
    · rw [hnode]
    · exact hnode
  · rw [remove_snd hreach] at hstart
    obtain ⟨hmem, hstate⟩ := h.mem_of_next hfound hreach hstart
    have hne := (h.wellFormed.next_spec start hstart).2
    rw [h.wellFormed.state_remove hstands.lt_size hreach, if_neg hne]
    exact ⟨hmem, hstate⟩

/-- Extraction along a chain that is alike takes the same course. -/
theorem Extracts.alike (h : Extracts registry id kinds place e e')
    (halike : Alike lead rename chain e.sequence f.sequence) (hnode : f.node = e.node)
    (hid : id ∈ chain) (hused : e.sequence.state id ≠ .live)
    (hreach : e.sequence.state id ≠ .removed)
    (hplace : FindsAlike rename chain e.sequence f.sequence place place') :
    ∃ f', Extracts registry (rename id) kinds place' f f' ∧
      Alike lead rename chain e'.sequence f'.sequence ∧ f'.node = e'.node := by
  induction h generalizing f place' with
  | done id place => exact ⟨f, .done _ _ f, halike, hnode⟩
  | @pass id kind kinds _ e _ hslot _ ih =>
    obtain ⟨f', hrest, hlast⟩ :=
      ih (f := { f with events := f.events ++ [.noSlot f.node.name kind] }) halike hnode hid hused
        hreach (place_alike halike hid hreach)
    exact ⟨f', .pass hslot hrest, hlast⟩
  | @exhaust id kind kinds place e _ hslot hfind _ ih =>
    obtain ⟨f', hrest, hlast⟩ :=
      ih halike hnode hid hused hreach (place_alike halike hid hreach)
    obtain ⟨hfind', -⟩ := hplace kind hslot
    rw [hfind] at hfind'
    exact ⟨f', .exhaust hslot hfind' hrest, hlast⟩
  | @lose id kind _ place e _ found hslot hfind hentry _ ih =>
    obtain ⟨hlt, hlive, -⟩ := found_spec hslot hfind
    obtain ⟨hfind', hmem⟩ := hplace kind hslot
    have hfound := hmem found hfind
    rw [hfind] at hfind'
    obtain ⟨hdropped, hnode', hnext⟩ := drop_alike
      { result := none, sequence := e.sequence } { result := none, sequence := f.sequence }
      halike rfl hnode hfound (by simp [hlive]) id kind
    have hdrop := consumes_lose id kind halike.wellFormed hlt hlive
    have hsame := hdrop.state_eq id hused
    obtain ⟨f', hrest, hlast⟩ := ih hdropped hnode' hid (hsame ▸ hused) (hsame ▸ hreach) hnext
    exact ⟨f', .lose hslot hfind' hentry hrest, hlast⟩
  | @child id kind _ place e _ done found entry built hslot hfind hentry hbuild hchild _ ihchild
      ih =>
    obtain ⟨hlt, hlive, -⟩ := found_spec hslot hfind
    obtain ⟨hfind', hmem⟩ := hplace kind hslot
    have hfound := hmem found hfind
    rw [hfind] at hfind'
    -- The child takes the same course, and leaves its link claimed.
    obtain ⟨hbegin, hleaf, hleft⟩ := begin_alike halike hfound (by simp [hlive]) built
    have hconsumes := consumes_begin halike.wellFormed hlt built
    have hbegun := state_begin halike.wellFormed hlt hlive built
    obtain ⟨done', hchild', hdone, hresult⟩ :=
      ihchild hbegin hleaf hfound (by simp [hbegun]) hleft (place_alike hbegin hfound hleft)
    have hclaimed := state_of_consumes_begin halike.wellFormed hlt hlive
      (hchild.consumes hconsumes.wellFormed)
    obtain ⟨hdropped, hnode', hnext⟩ := drop_alike
      (present (done.finish found)) (present (done'.finish (rename found)))
      hdone (congrArg some hresult) hnode hfound
      (fun hremoved => by cases hclaimed.symm.trans hremoved) id kind
    have hdrop := consumes_child id kind halike.wellFormed hlt hlive
      (hchild.consumes hconsumes.wellFormed)
    have hsame := hdrop.state_eq id hused
    obtain ⟨f', hrest, hlast⟩ := ih hdropped hnode' hid (hsame ▸ hused) (hsame ▸ hreach) hnext
    exact ⟨f', .child hslot hfind' hentry hbuild hchild' hrest, hlast⟩

/-- Building for a name from the same live link gives the same. -/
theorem Creates.alike (h : Creates registry name s id built) (halike : Alike lead rename chain s t)
    (hid : id ∈ chain) (hlive : s.state id = .live) :
    ∃ built', Creates registry name t (rename id) built' ∧ built'.result = built.result ∧
      Alike lead rename chain built.sequence built'.sequence := by
  cases h with
  | absent hentry => exact ⟨_, .absent hentry, rfl, halike⟩
  | @declared _ kind done hentry hbuild hdone =>
    have hlt := (halike.stands hid (by simp [hlive])).lt_size
    obtain ⟨hbegin, hleaf, hleft⟩ := begin_alike halike hid (by simp [hlive]) kind
    have hbegun := state_begin halike.wellFormed hlt hlive kind
    obtain ⟨done', hdone', hlast, hnode⟩ :=
      hdone.alike hbegin hleaf hid (by simp [hbegun]) hleft (place_alike hbegin hid hleft)
    exact ⟨_, .declared hentry hbuild hdone', congrArg some hnode, hlast⟩

end Construction

namespace Assembly

variable {heads behind ahead : List LinkId} {head : LinkId} {place : Option LinkId}
  {done done' done'' other other' : Built (List Node)} {built : Built (Option Node)}

/-! ## The walk of one chain -/

/-- Looking at the same link gives the same node, and both walks go on with the same link. -/
theorem buildAt_alike (hregistry : registry.Declared) (halike : Alike lead rename chain s t)
    (hid : id ∈ chain) (hreach : s.state id ≠ .removed)
    (hbuilt : buildAt registry s id = some built) :
    ∃ built', buildAt registry t (rename id) = some built' ∧ built'.result = built.result ∧
      Alike lead rename chain built.sequence built'.sequence := by
  have howed : registry.Pending t (rename id) ↔ registry.Pending s id := by
    simp only [Registry.Pending, halike.state_eq id hid, halike.value_eq hid]
  by_cases hpending : registry.Pending s id
  · have hlt := (halike.stands hid hreach).lt_size
    have hlt' := (halike.stands' hid hreach).lt_size
    obtain ⟨look, hlook, hcreates⟩ :=
      registry.create_total hregistry halike.wellFormed hlt (s.value id)
    rw [buildAt_of_pending hpending, hlook] at hbuilt
    obtain rfl := Option.some.inj hbuilt
    obtain ⟨look', hlook', hcreates'⟩ :=
      registry.create_total hregistry halike.wellFormed' hlt' (s.value id)
    obtain ⟨built', hbuilt', hresult, hafter⟩ := hcreates.alike halike hid hpending.1
    obtain rfl := hcreates'.unique hbuilt'
    refine ⟨look', ?_, hresult, hafter⟩
    rw [buildAt_of_pending (howed.mpr hpending), halike.value_eq hid, hlook']
  · obtain ⟨look, hlook, hresult, hsame, -⟩ := buildAt_of_not_pending hpending
    obtain rfl := Option.some.inj (hlook.symm.trans hbuilt)
    obtain ⟨built', hbuilt', hresult', hsame', -⟩ :=
      buildAt_of_not_pending (howed.not.mpr hpending)
    exact ⟨built', hbuilt', hresult'.trans hresult.symm, hsame.symm ▸ hsame'.symm ▸ halike⟩

/-- The walk of a chain that is alike gives the same nodes. -/
theorem Walks.alike (hregistry : registry.Declared) (h : Walks registry place [] done done')
    (halike : Alike lead rename chain done.sequence other.sequence)
    (hplace : ∀ id ∈ place, id ∈ chain ∧ done.sequence.state id ≠ .removed) :
    ∃ nodes other', Walks registry (place.map rename) [] other other' ∧
      done'.result = done.result ++ nodes ∧ other'.result = other.result ++ nodes := by
  generalize hheads : ([] : List LinkId) = heads at h
  induction h generalizing other with
  | done done => exact ⟨[], other, .done other, by simp, by simp⟩
  | turn => cases hheads
  | @look id heads done done' built hbuilt _ ih =>
    obtain ⟨hid, hreach⟩ := hplace id rfl
    obtain ⟨built', hbuilt', hresult, hafter⟩ :=
      buildAt_alike hregistry halike hid hreach hbuilt
    have hreached : built.sequence.state id ≠ .removed := fun hremoved =>
      hreach ((consumes_buildAt hregistry halike.wellFormed hbuilt).2 hremoved)
    have hreached' := (hafter.stands' hid hreached).state_ne
    -- The link is still in its chain, so that both walks go on with its successor.
    have hadvance : advance built.sequence id (done.sequence.previous id) =
        built.sequence.next id := if_pos (isReachable_iff.mpr hreached)
    have hadvance' : advance built'.sequence (rename id)
        (other.sequence.previous (rename id)) = (built.sequence.next id).map rename :=
      (if_pos (isReachable_iff.mpr hreached')).trans (hafter.next_eq hid hreached)
    rw [hadvance] at ih
    have hadded : Alike lead rename chain (add done built).sequence
        (add other built').sequence := hafter
    obtain ⟨nodes, other', hwalks, hdone, hother⟩ := ih hadded
      (fun next hnext => hafter.mem_of_next hid hreached hnext) hheads
    subst hheads
    refine ⟨built.result.toList ++ nodes, other', .look hbuilt' (hadvance' ▸ hwalks), ?_, ?_⟩
    · rw [hdone]
      simp [add]
    · rw [hother]
      simp [add, hresult]

/-- Assembly walks the chain at hand to its end and then turns to the heads that wait. -/
theorem Walks.split (h : Walks registry place heads done done') :
    ∃ mid, Walks registry place [] done mid ∧ Walks registry none heads mid done' := by
  induction h with
  | done done => exact ⟨done, .done done, .done done⟩
  | turn hrest => exact ⟨_, .done _, .turn hrest⟩
  | look hbuilt _ ih =>
    obtain ⟨mid, hchain, hheads⟩ := ih
    exact ⟨mid, .look hbuilt hchain, hheads⟩

/-- Assembly comes to one outcome only. -/
theorem Walks.unique (h : Walks registry place heads done done')
    (h' : Walks registry place heads done done'') : done' = done'' := by
  induction h with
  | done => cases h'; rfl
  | turn _ ih =>
    cases h' with
    | turn hrest => exact ih hrest
  | look hbuilt _ ih =>
    cases h' with
    | look hbuilt' hrest =>
      obtain rfl := Option.some.inj (hbuilt'.symm.trans hbuilt)
      exact ih hrest

/-- The walk of a chain stays on the chain, and the other heads wait until its end. -/
theorem Walks.confined (hregistry : registry.Declared) (h : Walks registry place [] done done')
    (hroute : done.sequence.Route behind ahead heads) (hplace : place = ahead.head?) :
    ConsumesOn done.sequence done'.sequence (behind ++ ahead) ∧
      ∃ behind', done'.sequence.Route behind' [] heads := by
  generalize hnone : ([] : List LinkId) = none' at h
  induction h generalizing behind ahead with
  | done done =>
    have hnil : ahead = [] := List.head?_eq_none_iff.mp hplace.symm
    subst hnil
    exact ⟨.refl hroute.wellFormed hroute.isChain, behind, hroute⟩
  | turn => cases hnone
  | @look id _ done done' built hbuilt _ ih =>
    obtain ⟨after, rfl⟩ := List.head?_eq_some_iff.mp hplace.symm
    obtain ⟨hlook, -, behind', ahead', hroute', hadvance, hcase, -⟩ :=
      route_look hregistry.splicing hroute hbuilt
    obtain ⟨-, rfl, rfl⟩ := hcase.resolve_left fun h =>
      not_cutsOff_look hregistry hroute hbuilt h.1
    obtain ⟨hrest, hlast⟩ := ih hroute' hadvance hnone
    exact ⟨hlook.trans (filter_split _ behind id after ▸ hrest), hlast⟩

end Assembly

/-! ## A chain laid out afresh -/

/-- No link was used yet: every link that is not removed is live. -/
def Sequence.Fresh (s : Sequence) : Prop :=
  ∀ id < s.size, s.state id ≠ .removed → s.state id = .live

/-- A chain of live links holds tokens, behind some blank links. -/
structure Sequence.Holds (s : Sequence) (lead ids : List LinkId) (tokens : List Token) : Prop where
  wellFormed : s.WellFormed
  isChain : s.IsChain (lead ++ ids)
  live : ∀ id ∈ lead ++ ids, s.state id = .live
  blank : ∀ id ∈ lead, (s.link id).token = {}
  tokens_eq : ids.map (fun id => (s.link id).token) = tokens

namespace Sequence.Holds

variable {ids : List LinkId} {tokens : List Token}

/-- A sequence made of tokens holds them. -/
theorem ofTokens (tokens : List Token) :
    (Sequence.ofTokens tokens).Holds [] (List.range tokens.length) tokens := by
  obtain ⟨hs, hchain, htokens⟩ := ofTokens_spec tokens
  obtain ⟨-, hlive⟩ := ofTokens_fresh tokens
  exact ⟨hs, hchain, fun id _ => hlive id, by simp, htokens⟩

/-- A chain of live links holds its tokens. -/
theorem of_head {head : LinkId} (hs : s.WellFormed) (hhead : head ∈ s.heads)
    (hlive : ∀ id ∈ s.iter head, s.state id = .live) :
    s.Holds [] (s.iter head) (s.toTokens head) :=
  ⟨hs, hs.isChain_iter hhead, hlive, by simp, rfl⟩

/-- The tokens laid out afresh are alike to the links that hold them. -/
theorem alike (h : s.Holds lead ids tokens) :
    Alike lead (fun place => ids.getD place 0) (List.range tokens.length)
      (Sequence.ofTokens tokens) s := by
  have hfresh := Holds.ofTokens tokens
  have hlength : ids.length = tokens.length := by rw [← h.tokens_eq, List.length_map]
  have hids : (List.range tokens.length).map (fun place => ids.getD place 0) = ids := by
    refine List.ext_getElem (by simp [hlength]) fun i _ hi => ?_
    simp [hi]
  have hall : (List.range tokens.length).filter (Sequence.ofTokens tokens).isReachable =
      List.range tokens.length :=
    List.filter_eq_self.mpr fun id hid => by simp [isReachable, hfresh.live id hid]
  refine ⟨hfresh.wellFormed, h.wellFormed, ?_, ?_, ?_, h.blank, fun place hplace => ?_,
    fun place hplace => ?_⟩
  · rw [hall]
    exact hfresh.isChain
  · rw [hall, hids]
    exact h.isChain
  · rw [hids]
    exact h.isChain.nodup h.wellFormed
  · have hlt : place < tokens.length := List.mem_range.mp hplace
    have hget := congrArg (fun tokens => tokens[place]?) (h.tokens_eq.trans hfresh.tokens_eq.symm)
    simpa [hlt, hlength] using hget
  · have hlt : place < ids.length := hlength ▸ List.mem_range.mp hplace
    have hmem : ids.getD place 0 ∈ lead ++ ids := List.mem_append_right lead (by simp [hlt])
    rw [hfresh.live place hplace, h.live _ hmem]

end Sequence.Holds

namespace Assembly

variable {heads behind ids : List LinkId} {tokens : List Token} {place : Option LinkId}
  {done done' : Built (List Node)}

/-- The walk from the only head is the walk of its chain. -/
theorem Walks.of_toList (h : Walks registry none place.toList done done') :
    Walks registry place [] done done' := by
  cases place with
  | none => exact h
  | some head =>
    cases h with
    | turn hrest => exact hrest

/-- The walk goes past blank links without doing anything. -/
theorem Walks.past_blank (h : Walks registry (lead ++ ids).head? [] done done')
    (hchain : done.sequence.IsChain (behind ++ (lead ++ ids)))
    (hreach : ∀ id ∈ lead, done.sequence.state id ≠ .removed)
    (hblank : ∀ id ∈ lead, (done.sequence.link id).token = {}) :
    ∃ start, Walks registry ids.head? [] start done' ∧ start.result = done.result ∧
      start.sequence = done.sequence := by
  induction lead generalizing done behind with
  | nil => exact ⟨done, h, rfl, rfl⟩
  | cons id lead ih =>
    cases h with
    | @look _ _ _ _ built hbuilt hrest =>
      have hvalue := (token_eq_blank_iff.mp (hblank id List.mem_cons_self)).2
      have hpending : ¬ registry.Pending done.sequence id := fun h => h.2.1 hvalue
      obtain ⟨look, hlook, hresult, hsame, -⟩ := buildAt_of_not_pending hpending
      obtain rfl := Option.some.inj (hlook.symm.trans hbuilt)
      have hnext : advance look.sequence id (done.sequence.previous id) = (lead ++ ids).head? := by
        rw [hsame]
        exact (if_pos (isReachable_iff.mpr (hreach id List.mem_cons_self))).trans hchain.next_eq
      have hadded : (add done look).sequence = done.sequence := hsame
      have hchain' : (add done look).sequence.IsChain ((behind ++ [id]) ++ (lead ++ ids)) := by
        simpa [hadded] using hchain
      rw [hnext] at hrest
      obtain ⟨start, hwalks, hstart, hsequence⟩ := ih hrest hchain'
        (fun other hother => hadded ▸ hreach other (List.mem_cons_of_mem _ hother))
        (fun other hother => hadded ▸ hblank other (List.mem_cons_of_mem _ hother))
      refine ⟨start, hwalks, ?_, hsequence.trans hadded⟩
      simp [hstart, add, hresult]

/-- The walk of a chain that holds tokens gives the nodes of the tokens laid out afresh. -/
theorem Walks.document (hregistry : registry.Declared)
    (h : Walks registry (lead ++ ids).head? [] done done')
    (hholds : done.sequence.Holds lead ids tokens) :
    ∃ document : Built Document, (ofTokens tokens).assemble registry = some document ∧
      done'.result = done.result ++ document.result.nodes := by
  have hfresh := Holds.ofTokens tokens
  obtain ⟨hsize, hlive⟩ := ofTokens_fresh tokens
  have hheads : (ofTokens tokens).heads = (List.range tokens.length).head?.toList :=
    hfresh.isChain.heads_eq fun id => by simp [hsize, hlive]
  obtain ⟨fresh, hassemble, hwalks⟩ := assemble_total hregistry hfresh.wellFormed
  rw [hheads] at hwalks
  -- Behind the links that lead, both walks go along the tokens.
  have hchain : done.sequence.IsChain ([] ++ (lead ++ ids)) := hholds.isChain
  obtain ⟨start, hwalk, hresult, hsame⟩ := h.past_blank hchain
    (fun id hid => by simp [hholds.live id (List.mem_append_left ids hid)]) hholds.blank
  have hstart : Alike lead (fun place => ids.getD place 0) (List.range tokens.length)
      ({ result := [], sequence := ofTokens tokens } : Built (List Node)).sequence
      start.sequence := hsame ▸ hholds.alike
  have hplace : (List.range tokens.length).head?.map (fun place => ids.getD place 0) =
      ids.head? := by
    rw [← hholds.tokens_eq, List.length_map]
    cases ids <;> simp [List.head?_range]
  obtain ⟨nodes, other, hwalk', hnodes, hother⟩ :=
    hwalks.of_toList.alike hregistry hstart fun id hid =>
      ⟨List.mem_of_head? hid, by simp [hlive]⟩
  rw [hplace] at hwalk'
  obtain rfl := hwalk.unique hwalk'
  refine ⟨_, hassemble, ?_⟩
  rw [hother, hresult, hnodes]
  rfl

/-- The walks of chains of live links give the nodes of the chains laid out afresh, in the order of
their heads. -/
theorem Walks.documents (hregistry : registry.Declared) (h : Walks registry none heads done done')
    (hroute : done.sequence.Route behind [] heads)
    (hlive : ∀ head ∈ heads, ∀ id ∈ done.sequence.iter head, done.sequence.state id = .live) :
    ∃ documents : List (Built Document),
      List.Forall₂ (fun head document =>
          (ofTokens (done.sequence.toTokens head)).assemble registry = some document)
        heads documents ∧
      done'.result = done.result ++ documents.flatMap fun document => document.result.nodes := by
  induction heads generalizing done behind with
  | nil =>
    cases h
    exact ⟨[], .nil, by simp⟩
  | cons head heads ih =>
    cases h with
    | turn h =>
      obtain ⟨mid, hchain, hrest⟩ := h.split
      obtain ⟨hhead, -⟩ := hroute.waits head List.mem_cons_self
      have hfirst : some head = (done.sequence.iter head).head? := hroute.head?_iter
      rw [hfirst] at hchain
      obtain ⟨document, hdocument, hnodes⟩ := hchain.document hregistry
        (.of_head hroute.wellFormed hhead (hlive head List.mem_cons_self))
      rw [← hfirst] at hchain
      obtain ⟨hconfined, behind', hroute'⟩ :=
        hchain.confined hregistry hroute.turn hroute.head?_iter
      -- The chains that wait are still what they were.
      have hiter : ∀ other ∈ heads, mid.sequence.iter other = done.sequence.iter other :=
        fun other hother => hroute.turn.iter_eq hconfined hother
      have hlink : ∀ other ∈ heads, ∀ id ∈ done.sequence.iter other,
          mid.sequence.link id = done.sequence.link id := fun other hother id hid =>
        hconfined.link_eq id (hroute.turn.notMem_of_mem_iter hother hid)
      have htokens : ∀ other ∈ heads,
          mid.sequence.toTokens other = done.sequence.toTokens other := by
        intro other hother
        rw [toTokens, toTokens, hiter other hother]
        exact List.map_congr_left fun id hid => by rw [hlink other hother id hid]
      obtain ⟨documents, hdocuments, hresult⟩ := ih hrest hroute' fun other hother id hid => by
        rw [hiter other hother] at hid
        rw [state, hlink other hother id hid]
        exact hlive other (List.mem_cons_of_mem _ hother) id hid
      refine ⟨document :: documents, .cons hdocument ?_, ?_⟩
      · refine List.forall₂_iff_get.mpr ⟨hdocuments.length_eq, fun i hi hi' => ?_⟩
        rw [← htokens _ (List.get_mem heads ⟨i, hi⟩)]
        exact hdocuments.get hi hi'
      · rw [hresult, hnodes, List.flatMap_cons, List.append_assoc]

end Assembly

/-! ## Independence of the layout -/

/-- A document is made of the documents of the chains, each laid out afresh, in the order of the
heads. A sequence with the same tokens in its chains has the same nodes, wherever its links lie. -/
structure Chainwise (registry : Registry) (s : Sequence) (document : Document) : Prop where
  nodes : ∃ documents : List (Built Document),
    List.Forall₂ (fun head document =>
        (ofTokens (s.toTokens head)).assemble registry = some document) s.heads documents ∧
      document.nodes = documents.flatMap fun document => document.result.nodes
  layout : ∀ t : Sequence, t.WellFormed → t.Fresh →
    t.heads.map t.toTokens = s.heads.map s.toTokens →
    ∃ built, t.assemble registry = some built ∧ built.result.nodes = document.nodes

/-- Building a node and walking a chain change no link off the chain that they are on. -/
structure Isolated (registry : Registry) : Prop where
  construct : ∀ (s : Sequence) (kind : Kind) (chain : List LinkId) (id : LinkId), s.WellFormed →
    s.IsChain chain → id ∈ chain → s.state id ≠ .removed →
    ∃ built, kind.construct registry s id = some built ∧
      ∀ other ∉ chain, built.sequence.link other = s.link other
  walk : ∀ (s : Sequence) (head : LinkId), s.WellFormed → head ∈ s.heads →
    ∃ done, Assembly.walk registry (Assembly.budget s) (some head)
        { result := [], sequence := s } = some done ∧
      ∀ other ∉ s.iter head, done.sequence.link other = s.link other

/-- The nodes of a sequence whose links are all unused are those of its chains. -/
theorem Sequence.exists_documents (hregistry : registry.Declared) (hs : s.WellFormed)
    (hfresh : s.Fresh) :
    ∃ built, s.assemble registry = some built ∧ ∃ documents : List (Built Document),
      List.Forall₂ (fun head document =>
          (ofTokens (s.toTokens head)).assemble registry = some document) s.heads documents ∧
        built.result.nodes = documents.flatMap fun document => document.result.nodes := by
  obtain ⟨done, hdone, hwalks⟩ := assemble_total hregistry hs
  have hstart : ({ result := [], sequence := s } : Built (List Node)).sequence.Route [] []
      s.heads := .start hs
  obtain ⟨documents, hdocuments, hnodes⟩ := hwalks.documents hregistry hstart
    fun head hhead id hid => by
      have hmem : id ∈ s.reading := List.mem_flatMap.mpr ⟨head, hhead, hid⟩
      obtain ⟨hlt, hreach⟩ := hs.mem_reading_iff.mp hmem
      exact hfresh id hlt hreach
  exact ⟨_, hdone, documents, hdocuments, hnodes⟩

/-- With declared kinds, building along one chain changes no link of another chain. -/
theorem Registry.Declared.isolated (hregistry : registry.Declared) : Isolated registry where
  construct s kind chain id hs hchain hid hreach := by
    obtain ⟨built, hbuilt, hconfined⟩ :=
      kind.construct_confined hregistry.splicing ⟨hs, hchain, hid, hreach⟩
    exact ⟨built, hbuilt, hconfined.link_eq⟩
  walk s head hs hhead := by
    have hstart : ({ result := [], sequence := s } : Built (List Node)).sequence.WellFormed := hs
    obtain ⟨done, hdone, hwalks⟩ := (Assembly.steady_of_declared hregistry).walkHead_total hstart
      (lt_size_of_mem_heads hhead)
    have hroute : ({ result := [], sequence := s } : Built (List Node)).sequence.Route [] []
        [head] := by
      refine ⟨hs, .nil, by simp, fun other hother => ?_, by simp⟩
      exact ⟨List.mem_singleton.mp hother ▸ hhead, by simp⟩
    obtain ⟨hconfined, -⟩ := (hwalks [] done (.done done)).confined hregistry hroute.turn
      hroute.head?_iter
    exact ⟨done, hdone, hconfined.link_eq⟩

/-- The document of a sequence whose links are all unused is made of the documents of its chains,
and building along one chain changes no link of another one. -/
theorem Sequence.assemble_chainwise (hregistry : registry.Declared) (hs : s.WellFormed)
    (hfresh : s.Fresh) :
    ∃ built, s.assemble registry = some built ∧ Chainwise registry s built.result ∧
      Isolated registry := by
  obtain ⟨built, hbuilt, documents, hdocuments, hnodes⟩ := exists_documents hregistry hs hfresh
  refine ⟨built, hbuilt, ⟨⟨documents, hdocuments, hnodes⟩, fun t ht hfresh' hsame => ?_⟩,
    hregistry.isolated⟩
  obtain ⟨built', hbuilt', documents', hdocuments', hnodes'⟩ :=
    exists_documents hregistry ht hfresh'
  refine ⟨built', hbuilt', ?_⟩
  -- The same tokens have the same documents.
  have hunique : Relator.RightUnique fun (tokens : List Token) (document : Built Document) =>
      (ofTokens tokens).assemble registry = some document := fun _ _ _ h h' =>
    Option.some.inj (h.symm.trans h')
  have hleft : List.Forall₂ (fun tokens document =>
      (ofTokens tokens).assemble registry = some document) (s.heads.map s.toTokens) documents :=
    List.forall₂_map_left_iff.mpr hdocuments
  have hright : List.Forall₂ (fun tokens document =>
      (ofTokens tokens).assemble registry = some document) (t.heads.map t.toTokens) documents' :=
    List.forall₂_map_left_iff.mpr hdocuments'
  rw [hsame] at hright
  rw [hnodes, hnodes', List.right_unique_forall₂' hunique hleft hright]

/-- Two lists whose links lie scattered: the item of the first one was put in last, and a link in
between was removed. -/
def scatteredLists : Sequence :=
  ((((({} : Sequence).push { value := "list", data := "a" }).push
    { value := "note", data := "b" }).push { value := "list", data := "c" }).pushAfter (some 0)
      { value := "item", data := "d" }).remove 1 |>.1

/-- The scattered links hang together. -/
theorem scatteredLists_wellFormed : scatteredLists.WellFormed := by
  have hpushed := ((wellFormed_empty.push { value := "list", data := "a" }).push
    { value := "note", data := "b" }).push { value := "list", data := "c" }
  refine (hpushed.pushAfter _ fun link hlink => ?_).remove (by decide)
  obtain rfl := Option.some.inj hlink
  decide

/-- The scattered links that are not removed are live. -/
theorem scatteredLists_fresh : scatteredLists.Fresh := by
  unfold Fresh
  decide

/-- The first list takes its item up, whose link lies behind that of the second list. -/
def scatteredNodes : List Node :=
  [{ Node.leaf "list" ["a"] with
      children := [("item", [{ Node.leaf "item" ["d"] with primary := false }])] },
    Node.leaf "list" ["c"]]

/-- The document of the scattered lists. -/
theorem Sequence.assemble_chainwise_scattered :
    ∃ registry, Registry.ofKinds listKinds = .ok registry ∧
      scatteredLists.WellFormed ∧ scatteredLists.Fresh ∧ scatteredLists.heads = [0, 2] ∧
      ∃ built, scatteredLists.assemble registry = some built ∧
        built.result.nodes = scatteredNodes ∧
        Chainwise registry scatteredLists built.result ∧ Isolated registry := by
  obtain ⟨registry, hregistry⟩ : ∃ registry, Registry.ofKinds listKinds = .ok registry := ⟨_, rfl⟩
  obtain ⟨built, hbuilt, hdocument⟩ := assemble_chainwise
    (Registry.declared_ofKinds listKinds hregistry) scatteredLists_wellFormed scatteredLists_fresh
  have hnodes : (scatteredLists.assemble registry).map (fun built => built.result.nodes) =
      some scatteredNodes := by
    obtain rfl := Except.ok.inj hregistry
    cbv
  exact ⟨registry, hregistry, scatteredLists_wellFormed, scatteredLists_fresh, by decide, built,
    hbuilt, by simpa [hbuilt] using hnodes, hdocument⟩

end DocTree
