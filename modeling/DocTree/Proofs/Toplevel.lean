import DocTree.Proofs.Conservation
import DocTree.Proofs.Exhaustion

/-!
# The top level of a document

While a child is built its link is claimed, but it is removed again before its parent goes on, so
that building from a link leaves that link alone newly claimed. Assembly looks at every link once,
in document order, and the links that it has newly claimed in the end are therefore those that it
built from, in that order. Nothing is owed a node any more, so that a second run finds nothing to
do.
-/

namespace DocTree

open Sequence

variable {registry : Registry} {s s' s'' : Sequence} {id other : LinkId} {ids : List LinkId}

/-! ## Newly claimed links -/

/-- A link was live and is claimed. -/
theorem Sequence.isClaimedSince_iff :
    s.isClaimedSince s' id = true ↔ s.state id = .live ∧ s'.state id = .claimed := by
  simp [isClaimedSince, isLive]

/-- Nothing is newly claimed when nothing was done. -/
theorem Sequence.isClaimedSince_self (s : Sequence) (id : LinkId) :
    s.isClaimedSince s id = false := by
  rw [Bool.eq_false_iff, Ne, isClaimedSince_iff]
  rintro ⟨hlive, hclaimed⟩
  cases hlive.symm.trans hclaimed

/-- What is newly claimed after two turns was newly claimed in the first or in the second. -/
theorem Sequence.Consumes.isClaimedSince_trans (h : Consumes s s') (h' : Consumes s' s'')
    (id : LinkId) :
    s.isClaimedSince s'' id = (s.isClaimedSince s' id || s'.isClaimedSince s'' id) := by
  rw [Bool.eq_iff_iff, Bool.or_eq_true, isClaimedSince_iff, isClaimedSince_iff, isClaimedSince_iff]
  have hback : s'.state id = .live → s.state id = .live := h.live_of
  have hkept : s'.state id ≠ .live → s''.state id = s'.state id := h'.state_eq id
  by_cases hlive : s'.state id = .live
  · simp [hlive, hback hlive]
  · simp [hlive, hkept hlive]

/-- Claiming a live link claims that link. -/
theorem Sequence.isClaimedSince_claim (hid : id < s.size) (hlive : s.state id = .live) :
    s.isClaimedSince (s.claim id) other = true ↔ other = id := by
  rw [isClaimedSince_iff, state_claim hid]
  by_cases heq : other = id
  · simp [heq, hlive]
  · rw [if_neg fun h => heq h.1]
    refine iff_of_false ?_ heq
    rintro ⟨hother, hclaimed⟩
    cases hother.symm.trans hclaimed

namespace Construction

/-- Emptying a run claims nothing. -/
theorem isClaimedSince_takeParagraphs (hs : s.WellFormed) (h : s.IsRun ids) (other : LinkId) :
    s.isClaimedSince (takeParagraphs s ids).1 other = false := by
  induction ids generalizing s with
  | nil => exact isClaimedSince_self s other
  | cons id ids ih =>
    have hid := h.lt_size id List.mem_cons_self
    have hlive := h.live id List.mem_cons_self
    have hempty := Consumes.empty hs hid hlive
    have hnone : s.isClaimedSince (s.empty id).1 other = false := by
      rw [Bool.eq_false_iff, Ne, isClaimedSince_iff, state_empty hid (by simp [hlive])]
      rintro ⟨hother, hclaimed⟩
      split at hclaimed
      · cases hclaimed
      · cases hother.symm.trans hclaimed
    have hrest := consumes_takeParagraphs hempty.wellFormed h.rest
    simp only [takeParagraphs]
    rw [hempty.isClaimedSince_trans hrest, hnone, ih hempty.wellFormed h.rest, Bool.or_self]

/-- Beginning a node from a live link claims that link. -/
theorem isClaimedSince_begin (hs : s.WellFormed) (hid : id < s.size) (hlive : s.state id = .live)
    (kind : Kind) : s.isClaimedSince (begin s id kind).sequence other = true ↔ other = id := by
  obtain ⟨before, after, hbefore, hafter, hsequence, -⟩ := begin_spec hs hid kind
  have hclaim := Consumes.claim hs hid
  have htake := consumes_takeParagraphs hclaim.wellFormed hbefore
  have htake' := consumes_takeParagraphs htake.wellFormed hafter
  rw [hsequence, hclaim.isClaimedSince_trans (htake.trans htake'),
    htake.isClaimedSince_trans htake', isClaimedSince_takeParagraphs hclaim.wellFormed hbefore,
    isClaimedSince_takeParagraphs htake.wellFormed hafter, Bool.or_self, Bool.or_false]
  exact isClaimedSince_claim hid hlive

variable {kinds : List String} {place : Option LinkId} {e e' : Extraction} {name : String}
  {built : Built (Option Node)}

/-- A link from which nothing else was claimed is dropped, and then nothing is newly claimed. -/
theorem isClaimedSince_remove (hconsumes : Consumes s s') (hid : id < s.size)
    (hclaims : ∀ other, s.isClaimedSince s' other = true → other = id) (other : LinkId) :
    s.isClaimedSince (s'.remove id).1 other = false := by
  rw [Bool.eq_false_iff, Ne, isClaimedSince_iff]
  rintro ⟨hlive, hclaimed⟩
  have hgone := hconsumes.wellFormed.state_remove_self (hconsumes.size_eq ▸ hid)
  have hne : other ≠ id := by
    rintro rfl
    cases hgone.symm.trans hclaimed
  refine hne (hclaims other (isClaimedSince_iff.mpr ⟨hlive, ?_⟩))
  by_cases hreach : s'.state id = .removed
  · rwa [remove_of_removed hreach] at hclaimed
  · rwa [hconsumes.wellFormed.state_remove (hconsumes.size_eq ▸ hid) hreach, if_neg hne] at hclaimed

/-- Extraction leaves no link newly claimed. -/
theorem Extracts.isClaimedSince (h : Extracts registry id kinds place e e')
    (hs : e.sequence.WellFormed) :
    ∀ other, e.sequence.isClaimedSince e'.sequence other = false := by
  induction h with
  | done => exact isClaimedSince_self _
  | pass _ _ ih => exact ih hs
  | exhaust _ _ _ ih => exact ih hs
  | @lose id kind _ _ e _ found hslot hfind _ hrest ih =>
    intro other
    obtain ⟨hlt, hlive, -⟩ := found_spec hslot hfind
    have hlose := consumes_lose id kind hs hlt hlive
    have hnone : e.sequence.isClaimedSince ((e.addChild kind found
        { result := none, sequence := e.sequence }).drop id found).1.sequence other = false :=
      isClaimedSince_remove (.refl hs) hlt (by simp [isClaimedSince_self]) other
    rw [hlose.isClaimedSince_trans (hrest.consumes hlose.wellFormed), hnone,
      ih hlose.wellFormed other, Bool.or_self]
  | @child id kind _ _ e _ done found _ built hslot hfind _ _ hchild hrest ihchild ih =>
    intro other
    obtain ⟨hlt, hlive, -⟩ := found_spec hslot hfind
    have hbegin := (Consumes.claim hs hlt).trans (consumes_begin hs hlt built)
    have hdone := hchild.consumes hbegin.wellFormed
    have hdrop := consumes_child id kind hs hlt hlive hdone
    -- The link of the child alone is claimed while the child is built, and dropped then.
    have hclaims : ∀ other, e.sequence.isClaimedSince done.sequence other = true →
        other = found := by
      intro other hother
      rw [hbegin.isClaimedSince_trans hdone, ihchild hbegin.wellFormed other, Bool.or_false]
        at hother
      exact (isClaimedSince_begin hs hlt hlive built).mp hother
    have hnone : e.sequence.isClaimedSince ((e.addChild kind found
        (present (done.finish found))).drop id found).1.sequence other = false :=
      isClaimedSince_remove (hbegin.trans hdone) hlt hclaims other
    rw [hdrop.isClaimedSince_trans (hrest.consumes hdrop.wellFormed), hnone,
      ih hdrop.wellFormed other, Bool.or_self]

/-! ## The node of a link -/

/-- A child is added to the node; its name, its paragraphs and its rank stay. -/
theorem addChild_shell (e : Extraction) (kind : String) (found : LinkId)
    (built : Built (Option Node)) :
    (e.addChild kind found built).node.name = e.node.name ∧
      (e.addChild kind found built).node.payload = e.node.payload ∧
      (e.addChild kind found built).node.primary = e.node.primary := by
  unfold Extraction.addChild
  split
  · exact ⟨rfl, rfl, rfl⟩
  · exact ⟨rfl, rfl, rfl⟩

/-- Extraction leaves the name, the paragraphs and the rank of the node. -/
theorem Extracts.shell (h : Extracts registry id kinds place e e') :
    e'.node.name = e.node.name ∧ e'.node.payload = e.node.payload ∧
      e'.node.primary = e.node.primary := by
  induction h with
  | done => exact ⟨rfl, rfl, rfl⟩
  | pass _ _ ih => exact ih
  | exhaust _ _ _ ih => exact ih
  | @lose id kind _ _ e _ found _ _ _ _ ih =>
    obtain ⟨hname, hpayload, hprimary⟩ :=
      addChild_shell e kind found { result := none, sequence := e.sequence }
    exact ⟨ih.1.trans hname, ih.2.1.trans hpayload, ih.2.2.trans hprimary⟩
  | @child id kind _ _ e _ done found _ _ _ _ _ _ _ _ _ ih =>
    obtain ⟨hname, hpayload, hprimary⟩ :=
      addChild_shell e kind found (present (done.finish found))
    exact ⟨ih.1.trans hname, ih.2.1.trans hpayload, ih.2.2.trans hprimary⟩

end Construction

/-- A node is a top-level node for a token: it has the token's kind as its name, is primary, and
holds the paragraphs of the token's text one after the other. -/
structure Node.StandsFor (node : Node) (token : Token) : Prop where
  name_eq : node.name = token.value
  primary_eq : node.primary = true
  paragraphs : Paragraph.split token.data <:+: node.payload

namespace Construction

/-- Building for the kind of a live link, where that is primary, gives a top-level node for the link
and claims that link. -/
theorem Creates.standsFor {built : Built (Option Node)} (hregistry : registry.Registered)
    (h : Creates registry (s.value id) s id built) (hs : s.WellFormed) (hid : id < s.size)
    (hlive : s.state id = .live) (hprimary : registry.isPrimary (s.value id) = true) :
    ∃ node, built.result = some node ∧ node.StandsFor (s.link id).token ∧
      ∀ other, s.isClaimedSince built.sequence other = true ↔ other = id := by
  obtain ⟨entry, hentry, hrank⟩ := Assembly.exists_of_isPrimary hprimary
  cases h with
  | absent hnone => cases hnone.symm.trans hentry
  | @declared entry' kind done hentry' hbuild hdone =>
    obtain rfl := Option.some.inj (hentry'.symm.trans hentry)
    obtain ⟨before, after, -, -, -, hnode⟩ := begin_spec hs hid kind
    obtain ⟨hname, hpayload, hkind⟩ := hdone.shell
    have hbegin := consumes_begin hs hid kind
    refine ⟨done.node, rfl, ⟨?_, ?_, ?_⟩, fun other => ?_⟩
    · rw [hname, hnode]
      rfl
    · rw [hkind, hnode, ← hregistry.primary_eq hentry hbuild, hrank]
    · rw [hpayload, hnode]
      exact ⟨_, _, rfl⟩
    · have hall := ((Consumes.claim hs hid).trans hbegin).isClaimedSince_trans
        (hdone.consumes hbegin.wellFormed) other
      rw [hdone.isClaimedSince hbegin.wellFormed other, Bool.or_false] at hall
      rw [← isClaimedSince_begin hs hid hlive kind, ← hall]
      rfl

end Construction

namespace Assembly

variable {behind ahead heads : List LinkId} {place : Option LinkId}
  {done done' : Built (List Node)} {built : Built (Option Node)}

/-- A link that is owed a node gives a top-level node and is claimed, and a look at any other link
gives nothing. -/
theorem buildAt_standsFor (hregistry : registry.Registered) (hs : s.WellFormed)
    (hbuilt : buildAt registry s id = some built) :
    registry.Pending s id ∧ (∃ node, built.result = some node ∧
        node.StandsFor (s.link id).token ∧
        ∀ other, s.isClaimedSince built.sequence other = true ↔ other = id) ∨
      ¬ registry.Pending s id ∧ built.result = none ∧ built.sequence = s := by
  rcases buildAt_cases hregistry.declared hs hbuilt with
    ⟨hpending, hid, hcreates⟩ | ⟨hpending, hresult, hsame, -⟩
  · exact .inl ⟨hpending, hcreates.standsFor hregistry hs hid hpending.1 hpending.2.2⟩
  · exact .inr ⟨hpending, hresult, hsame⟩

/-- Assembly claims only links that were owed a node. -/
theorem Walks.pending_of_isClaimedSince (hregistry : registry.Registered)
    (h : Walks registry place heads done done') (hs : done.sequence.WellFormed) {other : LinkId}
    (hclaimed : done.sequence.isClaimedSince done'.sequence other = true) :
    registry.Pending done.sequence other := by
  induction h with
  | done => simp [isClaimedSince_self] at hclaimed
  | turn _ ih => exact ih hs hclaimed
  | @look id heads done done' built hbuilt hrest ih =>
    have hlook := (consumes_buildAt hregistry.declared hs hbuilt).1
    have hlater : Consumes built.sequence done'.sequence :=
      hrest.consumes hregistry.declared hlook.wellFormed
    rw [hlook.isClaimedSince_trans hlater, Bool.or_eq_true] at hclaimed
    rcases hclaimed with hnow | hthen
    · rcases buildAt_standsFor hregistry hs hbuilt with ⟨hpending, -, -, -, hclaims⟩ | ⟨-, -, hsame⟩
      · rwa [(hclaims other).mp hnow]
      · simp [hsame, isClaimedSince_self] at hnow
    · exact (ih hlook.wellFormed hthen).of_consumes hlook

/-- The tokens of the links that are claimed between two moments, among some links. -/
def claimedTokens (s s' : Sequence) (ids : List LinkId) : List Token :=
  (ids.filter (s.isClaimedSince s')).map fun id => (s.link id).token

/-- One link more brings its token, if it is claimed. -/
theorem claimedTokens_cons (s s' : Sequence) (id : LinkId) (ids : List LinkId) :
    claimedTokens s s' (id :: ids) =
      if s.isClaimedSince s' id then (s.link id).token :: claimedTokens s s' ids
      else claimedTokens s s' ids := by
  unfold claimedTokens
  rw [List.filter_cons]
  split <;> rfl

/-- Of the links that were ahead and those that wait, what assembly claims after a look is what it
claims of the links that the look left. -/
theorem claimedTokens_look (hroute : s.Route behind (id :: ahead) heads)
    (hlook : ConsumesOn s s' (behind ++ id :: ahead)) (hlater : Consumes s' s'')
    (hclaims : ∀ other, s.isClaimedSince s' other = true → other = id) :
    claimedTokens s s'' (ahead ++ heads.flatMap s.iter) =
      claimedTokens s' s'' (ahead.filter s'.isReachable ++ heads.flatMap s'.iter) := by
  have hother : ∀ other ∈ ahead ++ heads.flatMap s.iter, other ≠ id := by
    rintro other hmem rfl
    rcases List.mem_append.mp hmem with hahead | hwaits
    · exact hroute.isChain.notMem hroute.wellFormed (List.mem_append_right _ hahead)
    · obtain ⟨head, hhead, hin⟩ := List.mem_flatMap.mp hwaits
      exact hroute.notMem_of_mem_iter hhead hin (by simp)
  have hlate : (ahead ++ heads.flatMap s.iter).filter (s.isClaimedSince s'') =
      (ahead ++ heads.flatMap s.iter).filter (s'.isClaimedSince s'') := by
    refine List.filter_congr fun other hmem => ?_
    have hnow : s.isClaimedSince s' other = false := by
      rw [Bool.eq_false_iff]
      exact fun hclaimed => hother other hmem (hclaims other hclaimed)
    rw [hlook.isClaimedSince_trans hlater, hnow, Bool.false_or]
  have hreach : (ahead.filter s'.isReachable).filter (s'.isClaimedSince s'') =
      ahead.filter (s'.isClaimedSince s'') := by
    rw [List.filter_filter]
    refine List.filter_congr fun other _ => ?_
    cases hclaimed : s'.isClaimedSince s'' other with
    | false => rw [Bool.false_and]
    | true => simp [isReachable, (isClaimedSince_iff.mp hclaimed).1]
  rw [claimedTokens, claimedTokens, hlate, hroute.flatMap_iter_eq hlook, List.filter_append,
    List.filter_append, hreach, ← List.filter_append]
  -- What is claimed later on was live after the look, and kept its token.
  refine List.map_congr_left fun other hmem => ?_
  have hlive := (isClaimedSince_iff.mp (List.mem_filter.mp hmem).2).1
  exact (hlook.token_of_live hlive).symm

/-- The nodes that assembly adds are the top-level nodes of the links that it claims, in document
order. -/
theorem Walks.standsFor (hregistry : registry.Registered)
    (h : Walks registry place heads done done') (hroute : done.sequence.Route behind ahead heads)
    (hplace : place = ahead.head?) :
    ∃ nodes, done'.result = done.result ++ nodes ∧
      List.Forall₂ Node.StandsFor nodes (claimedTokens done.sequence done'.sequence
        (ahead ++ heads.flatMap done.sequence.iter)) := by
  induction h generalizing behind ahead with
  | done =>
    have hnil : ahead = [] := List.head?_eq_none_iff.mp hplace.symm
    exact ⟨[], by simp, by simp [hnil, claimedTokens]⟩
  | turn _ ih =>
    have hnil : ahead = [] := List.head?_eq_none_iff.mp hplace.symm
    rw [hnil]
    exact ih hroute.turn hroute.head?_iter
  | @look id heads done done' built hbuilt hrest ih =>
    obtain ⟨after, rfl⟩ := List.head?_eq_some_iff.mp hplace.symm
    obtain ⟨hlook, -, behind', ahead', hroute', hadvance, hcase, -⟩ :=
      route_look hregistry.declared.splicing hroute hbuilt
    obtain ⟨-, -, rfl⟩ := hcase.resolve_left fun h =>
      not_cutsOff_look hregistry.declared hroute hbuilt h.1
    have hlater : Consumes built.sequence done'.sequence :=
      hrest.consumes hregistry.declared hlook.wellFormed
    obtain ⟨nodes, hnodes, hstands⟩ := ih hroute' hadvance
    rcases buildAt_standsFor hregistry hroute.wellFormed hbuilt with
      ⟨-, node, hresult, hnode, hclaims⟩ | ⟨hpending, hresult, hsame⟩
    · -- The link at hand is claimed now, and its node comes first.
      have htokens := claimedTokens_look hroute hlook hlater fun other => (hclaims other).mp
      have hhead : done.sequence.isClaimedSince done'.sequence id = true := by
        rw [hlook.isClaimedSince_trans hlater, (hclaims id).mpr rfl, Bool.true_or]
      refine ⟨node :: nodes, by simp [hnodes, add, hresult], ?_⟩
      rw [List.cons_append, claimedTokens_cons, if_pos hhead, htokens]
      exact .cons hnode hstands
    · -- The link at hand is not owed a node, so that it is not claimed later on either.
      have htokens := claimedTokens_look hroute hlook hlater
        (by simp [hsame, isClaimedSince_self])
      have hhead : ¬ done.sequence.isClaimedSince done'.sequence id = true := fun hclaimed =>
        hpending ((Walks.look hbuilt hrest).pending_of_isClaimedSince hregistry
          hroute.wellFormed hclaimed)
      refine ⟨nodes, by simp [hnodes, add, hresult], ?_⟩
      rw [List.cons_append, claimedTokens_cons, if_neg hhead, htokens]
      exact hstands

/-- Where no link is owed a node, assembly does nothing. -/
theorem Walks.idle (h : Walks registry place heads done done')
    (hnone : ∀ id, ¬ registry.Pending done.sequence id) :
    done'.result = done.result ∧ done'.sequence = done.sequence := by
  induction h with
  | done => exact ⟨rfl, rfl⟩
  | turn _ ih => exact ih hnone
  | @look id heads done done' built hbuilt _ ih =>
    obtain ⟨built', hbuilt', hresult, hsame, -⟩ := buildAt_of_not_pending (hnone id)
    obtain rfl := Option.some.inj (hbuilt'.symm.trans hbuilt)
    have hnext : (add done built').sequence = done.sequence := hsame
    obtain ⟨hresult', hsame'⟩ := ih (hnext.symm ▸ hnone)
    exact ⟨by simp [hresult', add, hresult], hsame'.trans hnext⟩

end Assembly

/-! ## Top-level nodes -/

/-- The top-level nodes of a document are those of the links that assembly has newly claimed, in
document order: they have the kinds of these links as names, are primary, and hold the paragraphs of
the links' texts. A second assembly finds nothing to do. -/
theorem Sequence.assemble_claimed_in_order (hregistry : registry.Registered) (hs : s.WellFormed) :
    ∃ built, s.assemble registry = some built ∧
      built.result.nodes.map Node.name =
        (s.reading.filter (s.isClaimedSince built.sequence)).map s.value ∧
      List.Forall₂ (fun node id => node.primary = true ∧
          Paragraph.split (s.data id) <:+: node.payload)
        built.result.nodes (s.reading.filter (s.isClaimedSince built.sequence)) ∧
      ∃ again, built.sequence.assemble registry = some again ∧
        again.result.nodes = [] ∧ again.sequence = built.sequence := by
  obtain ⟨done, hdone, hwalks⟩ := assemble_total hregistry.declared hs
  have hstart : ({ result := [], sequence := s } : Built (List Node)).sequence.Route [] []
      s.heads := .start hs
  have hconsumes : Consumes s done.sequence :=
    hwalks.consumes hregistry.declared hstart.wellFormed
  obtain ⟨nodes, hnodes, hstands⟩ := hwalks.standsFor hregistry hstart rfl
  obtain rfl : done.result = nodes := hnodes
  have hlinks : List.Forall₂ (fun node id => node.StandsFor (s.link id).token) done.result
      (s.reading.filter (s.isClaimedSince done.sequence)) :=
    List.forall₂_map_right_iff.mp hstands
  refine ⟨_, hdone, ?_, hlinks.imp fun _ _ h => ⟨h.primary_eq, h.paragraphs⟩, ?_⟩
  · have hnames := hlinks.imp fun _ _ h => h.name_eq
    exact List.forall₂_eq_eq_eq ▸ (List.forall₂_map_left_iff.mpr
      (List.forall₂_map_right_iff.mpr hnames))
  · have hsettled : ∀ id, ¬ registry.Pending done.sequence id :=
      hwalks.not_pending hregistry.declared hs
    obtain ⟨again, hagain, hwalks'⟩ := assemble_total hregistry.declared hconsumes.wellFormed
    obtain ⟨hresult, hsame⟩ := hwalks'.idle hsettled
    exact ⟨_, hagain, hresult, hsame⟩

/-- The top-level nodes for a list that takes up another list: only the first one is claimed. -/
theorem Sequence.assemble_claimed_in_order_lists :
    ∃ registry, Registry.ofKinds listKinds = .ok registry ∧
      ∃ built, (ofTokens listTokens).assemble registry = some built ∧
        built.result.nodes = listNodes ∧
        (ofTokens listTokens).reading.filter
          ((ofTokens listTokens).isClaimedSince built.sequence) = [0] ∧
        built.result.nodes.map Node.name =
          ((ofTokens listTokens).reading.filter
            ((ofTokens listTokens).isClaimedSince built.sequence)).map (ofTokens listTokens).value ∧
        List.Forall₂ (fun node id => node.primary = true ∧
            Paragraph.split ((ofTokens listTokens).data id) <:+: node.payload)
          built.result.nodes ((ofTokens listTokens).reading.filter
            ((ofTokens listTokens).isClaimedSince built.sequence)) ∧
        ∃ again, built.sequence.assemble registry = some again ∧
          again.result.nodes = [] ∧ again.sequence = built.sequence := by
  obtain ⟨registry, hregistry⟩ : ∃ registry, Registry.ofKinds listKinds = .ok registry := ⟨_, rfl⟩
  obtain ⟨built, hbuilt, hinorder⟩ := assemble_claimed_in_order
    (Registry.registered_ofKinds listKinds hregistry) (ofTokens_spec listTokens).1
  have hclaimed : ((ofTokens listTokens).assemble registry).map (fun built =>
      (ofTokens listTokens).reading.filter
        ((ofTokens listTokens).isClaimedSince built.sequence)) = some [0] := by
    obtain rfl := Except.ok.inj hregistry
    cbv
  exact ⟨registry, hregistry, built, hbuilt, nodes_listTokens hregistry hbuilt,
    by simpa [hbuilt] using hclaimed, hinorder⟩

end DocTree
