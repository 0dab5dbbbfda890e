import DocTree.Proofs.Extraction
import DocTree.Proofs.ListView

/-!
# What a node takes from around its link

A node without child kinds changes its surroundings by absorption alone. The run before its link is
collected first and the run after it second, when the first is already emptied and the link itself
is claimed. Neither of these changes touches a link of the other run, so that both runs are those of
the sequence at hand, and the paragraphs stand in document order around those of the link.
-/

namespace DocTree

/-- A link whose token was taken. -/
def Link.emptied (link : Link) : Link :=
  { link with data := "", value := "", state := .emptied }

/-- A link that a node was built from. -/
def Link.claimed (link : Link) : Link :=
  { link with state := .claimed }

namespace Sequence

variable {s s' : Sequence} {id : LinkId} {before after ids run list : List LinkId}
  {direction : Direction}

/-! ## The run beside a link -/

/-- The run of a kind beside a link; without a kind there is none. -/
def runBeside (s : Sequence) (id : LinkId) (direction : Direction) : Option String → List LinkId
  | none => []
  | some kind => s.siblings id kind direction

/-- The run that a kind is absorbed from before a link: the longest end of what comes before the
link that can be absorbed, or nothing without a kind. -/
def IsRunBefore (s : Sequence) (before run : List LinkId) : Option String → Prop
  | none => run = []
  | some kind => LongestEnd (s.Absorbable kind) run before

/-- The run that a kind is absorbed from after a link: the longest beginning of what comes after the
link that can be absorbed, or nothing without a kind. -/
def IsRunAfter (s : Sequence) (after run : List LinkId) : Option String → Prop
  | none => run = []
  | some kind => LongestStart (s.Absorbable kind) run after

/-- The longest beginning depends on the property of the entries of the list alone. -/
theorem LongestStart.congr {P Q : LinkId → Prop} (h : LongestStart P run list)
    (hsame : ∀ id ∈ list, P id ↔ Q id) : LongestStart Q run list where
  starts := h.starts
  all id hid := (hsame id (h.starts.subset hid)).mp (h.all id hid)
  longest other hother hall :=
    h.longest other hother fun id hid => (hsame id (hother.subset hid)).mpr (hall id hid)

/-- The longest end depends on the property of the entries of the list alone. -/
theorem LongestEnd.congr {P Q : LinkId → Prop} (h : LongestEnd P run list)
    (hsame : ∀ id ∈ list, P id ↔ Q id) : LongestEnd Q run list where
  ends := h.ends
  all id hid := (hsame id (h.ends.subset hid)).mp (h.all id hid)
  longest other hother hall :=
    h.longest other hother fun id hid => (hsame id (hother.subset hid)).mpr (hall id hid)

/-- Whether a link can be absorbed depends on the link alone. -/
theorem absorbable_congr (h : s'.link id = s.link id) (kind : String) :
    s'.Absorbable kind id ↔ s.Absorbable kind id := by
  simp only [Absorbable, state, value, data, h]

/-- The run before a link is the same in a sequence with the same links there. -/
theorem IsRunBefore.congr {absorbed : Option String} (h : s'.IsRunBefore before run absorbed)
    (hsame : ∀ id ∈ before, s'.link id = s.link id) : s.IsRunBefore before run absorbed := by
  cases absorbed with
  | none => exact h
  | some kind => exact LongestEnd.congr h fun id hid => absorbable_congr (hsame id hid) kind

/-- The run after a link is the same in a sequence with the same links there. -/
theorem IsRunAfter.congr {absorbed : Option String} (h : s'.IsRunAfter after run absorbed)
    (hsame : ∀ id ∈ after, s'.link id = s.link id) : s.IsRunAfter after run absorbed := by
  cases absorbed with
  | none => exact h
  | some kind => exact LongestStart.congr h fun id hid => absorbable_congr (hsame id hid) kind

/-- The run before a link is part of what comes before it. -/
theorem IsRunBefore.subset {absorbed : Option String} (h : s.IsRunBefore before run absorbed) :
    run ⊆ before := by
  cases absorbed with
  | none => exact (show run = [] from h) ▸ List.nil_subset before
  | some kind => exact (LongestEnd.ends h).subset

/-- The run after a link is part of what comes after it. -/
theorem IsRunAfter.subset {absorbed : Option String} (h : s.IsRunAfter after run absorbed) :
    run ⊆ after := by
  cases absorbed with
  | none => exact (show run = [] from h) ▸ List.nil_subset after
  | some kind => exact (LongestStart.starts h).subset

/-- The run beside a link holds live links, each once. -/
theorem WellFormed.isRun_runBeside (hs : s.WellFormed) (hid : id < s.size) (direction : Direction)
    (absorbed : Option String) : s.IsRun (s.runBeside id direction absorbed) := by
  cases absorbed with
  | none => exact .nil
  | some kind => exact hs.isRun_siblings hid kind direction

/-- The run beside a link is the longest one on its side. -/
theorem IsChain.isRun_beside (hs : s.WellFormed) (h : s.IsChain (before ++ id :: after))
    (absorbed : Option String) :
    s.IsRunBefore before (s.runBeside id .previous absorbed) absorbed ∧
      s.IsRunAfter after (s.runBeside id .next absorbed) absorbed := by
  cases absorbed with
  | none => exact ⟨rfl, rfl⟩
  | some kind => exact ⟨(h.readsAs hs).siblings_previous kind, (h.readsAs hs).siblings_next kind⟩

/-- The paragraphs of some links, in their order. -/
def paragraphsOf (s : Sequence) (ids : List LinkId) : List String :=
  ids.flatMap fun id => Paragraph.split (s.data id)

/-- The paragraphs of links are the same in a sequence with the same links. -/
theorem paragraphsOf_congr (h : ∀ id ∈ ids, s'.link id = s.link id) :
    s'.paragraphsOf ids = s.paragraphsOf ids :=
  List.flatMap_congr fun id hid => by rw [data, data, h id hid]

/-! ## Links that change -/

/-- Claiming a link marks it if it is live, and changes no other link. -/
theorem link_claim (hid : id < s.size) (other : LinkId) :
    (s.claim id).link other =
      if other = id ∧ s.state id = .live then (s.link other).claimed
      else s.link other := by
  rw [claim, link_modify]
  by_cases heq : other = id
  · subst heq
    by_cases hlive : (s.link other).state = .live <;> simp [state, hid, hlive, Link.claimed]
  · simp [heq]

/-- Emptying a link that is in a chain takes its token and marks it, and changes no other link. -/
theorem link_empty (hid : id < s.size) (hreach : s.state id ≠ .removed) (other : LinkId) :
    (s.empty id).1.link other =
      if other = id then (s.link other).emptied
      else s.link other := by
  rw [← isReachable_iff] at hreach
  simp only [empty, hreach, if_true, link_modify, hid, and_true]
  refine ite_congr rfl (fun heq => ?_) fun _ => rfl
  rw [heq, Link.emptied]

/-- One sequence comes from another by emptying some links; nothing else changes. -/
structure Empties (s : Sequence) (ids : List LinkId) (s' : Sequence) : Prop where
  wellFormed : s'.WellFormed
  size_eq : s'.size = s.size
  link_eq : ∀ other, s'.link other =
    if other ∈ ids then (s.link other).emptied
    else s.link other

/-- Emptying links leaves every chain. -/
theorem Empties.isChain (h : Empties s ids s') (hchain : s.IsChain list) : s'.IsChain list := by
  refine hchain.of_bonds h.size_eq.ge (fun other _ => ?_) fun other _ => ?_
  · rw [previous, h.link_eq]
    split <;> rfl
  · rw [next, h.link_eq]
    split <;> rfl

/-- Emptying links in two turns is emptying them. -/
theorem Empties.trans {s'' : Sequence} {ids' : List LinkId} (h : Empties s ids s')
    (h' : Empties s' ids' s'') : Empties s (ids ++ ids') s'' where
  wellFormed := h'.wellFormed
  size_eq := h'.size_eq.trans h.size_eq
  link_eq other := by
    rw [h'.link_eq, h.link_eq]
    by_cases hmem : other ∈ ids
    · simp [hmem, Link.emptied]
    · simp [hmem]

end Sequence

namespace Construction

open Sequence

variable {s : Sequence} {id : LinkId} {ids before after : List LinkId}

/-- Emptying a run gives the paragraphs of its links in order, and changes nothing else. -/
theorem takeParagraphs_spec (hs : s.WellFormed) (h : s.IsRun ids) :
    (takeParagraphs s ids).2 = s.paragraphsOf ids ∧ Empties s ids (takeParagraphs s ids).1 := by
  induction ids generalizing s with
  | nil => exact ⟨rfl, hs, rfl, fun other => by simp [takeParagraphs]⟩
  | cons id ids ih =>
    have hid := h.lt_size id List.mem_cons_self
    have hreach : s.state id ≠ .removed := by simp [h.live id List.mem_cons_self]
    have hnot : id ∉ ids := (List.nodup_cons.mp h.nodup).1
    have hlink := link_empty hid hreach
    obtain ⟨hparagraphs, hwellFormed, hsize, hrest⟩ := ih (hs.empty hid) h.rest
    refine ⟨?_, hwellFormed, hsize.trans (size_empty s id), fun other => ?_⟩
    · have hsame : ∀ other ∈ ids, (s.empty id).1.link other = s.link other := by
        intro other hother
        have hne : other ≠ id := fun heq => hnot (heq ▸ hother)
        rw [hlink, if_neg hne]
      rw [paragraphsOf_congr hsame] at hparagraphs
      simp only [takeParagraphs, hparagraphs, empty_snd hreach]
      rfl
    · simp only [takeParagraphs, hrest, hlink, List.mem_cons]
      by_cases heq : other = id
      · simp [heq, hnot]
      · simp [heq]

/-- Absorbing empties the run beside the link and gives its paragraphs. -/
theorem absorb_eq_runBeside (hs : s.WellFormed) (hid : id < s.size) (node : String)
    (direction : Direction) (absorbed : Option String) :
    (absorb s id node direction absorbed).result =
        s.paragraphsOf (s.runBeside id direction absorbed) ∧
      Empties s (s.runBeside id direction absorbed)
        (absorb s id node direction absorbed).sequence := by
  have htaken := takeParagraphs_spec hs (hs.isRun_runBeside hid direction absorbed)
  cases absorbed with
  | none => exact htaken
  | some kind => exact htaken

end Construction

open Construction Sequence

variable {s s' : Sequence} {id other : LinkId} {kind : Kind} {before after left right : List LinkId}

/-- What beginning a node from a link between two runs gives: the node has the paragraphs of the run
before the link, of the link and of the run after it, and no children and attributes yet. The links
of the runs are emptied, the link is claimed if it was live, and nothing else changes; so all links
keep their neighbours. -/
structure AbsorbsRuns (kind : Kind) (s : Sequence) (left : List LinkId) (id : LinkId)
    (right : List LinkId) (node : Node) (s' : Sequence) : Prop where
  node_eq : node =
    { name := s.value id
      payload := s.paragraphsOf left ++ Paragraph.split (s.data id) ++ s.paragraphsOf right
      primary := kind.primary, children := [], attributes := [] }
  size_eq : s'.size = s.size
  link_eq : ∀ other, s'.link other =
    if other ∈ left ++ right then (s.link other).emptied
    else if other = id ∧ s.state id = .live then (s.link other).claimed
    else s.link other

/-- A node is begun by absorbing the longest runs of absorbable links on both sides of its link. -/
theorem Construction.begin_absorbs (hs : s.WellFormed) (hchain : s.IsChain (before ++ id :: after))
    (kind : Kind) :
    ∃ left right, s.IsRunBefore before left kind.absorbPrevious ∧
      s.IsRunAfter after right kind.absorbNext ∧
      AbsorbsRuns kind s left id right (begin s id kind).node (begin s id kind).sequence := by
  have hid : id < s.size := hchain.lt_size id (by simp)
  -- The run before the link is taken when the link is claimed.
  have hclaimed := hs.claim hid
  have hidClaimed : id < (s.claim id).size := by simpa using hid
  have hchainClaimed : (s.claim id).IsChain (before ++ id :: after) :=
    hchain.of_bonds (by simp) (by simp) (by simp)
  have hclaim : ∀ other ∈ before ++ after, (s.claim id).link other = s.link other := by
    intro other hother
    rw [link_claim hid, if_neg]
    rintro ⟨rfl, -⟩
    exact hchain.notMem hs hother
  obtain ⟨hrun, -⟩ := hchainClaimed.isRun_beside hclaimed kind.absorbPrevious
  have hleft := hrun.congr fun other hother => hclaim other (List.mem_append_left _ hother)
  obtain ⟨hresult, hempties⟩ :=
    absorb_eq_runBeside hclaimed hidClaimed (s.value id) .previous kind.absorbPrevious
  generalize (s.claim id).runBeside id .previous kind.absorbPrevious = left at *
  -- The run after the link is taken when the first run is emptied.
  generalize hfirst : absorb (s.claim id) id (s.value id) .previous kind.absorbPrevious = first at *
  have hidFirst : id < first.sequence.size := hempties.size_eq ▸ hidClaimed
  have hrest : ∀ other ∈ after, first.sequence.link other = s.link other := by
    intro other hother
    have hapart : other ∉ left := fun hmem =>
      (List.nodup_append.mp (hchain.nodup hs)).2.2 other (hleft.subset hmem) other
        (List.mem_cons_of_mem _ hother) rfl
    rw [hempties.link_eq, if_neg hapart, hclaim other (List.mem_append_right _ hother)]
  have hright := ((hempties.isChain hchainClaimed).isRun_beside hempties.wellFormed
    kind.absorbNext).2.congr hrest
  obtain ⟨hresult', hempties'⟩ :=
    absorb_eq_runBeside hempties.wellFormed hidFirst (s.value id) .next kind.absorbNext
  generalize first.sequence.runBeside id .next kind.absorbNext = right at *
  have hboth := hempties.trans hempties'
  refine ⟨left, right, hleft, hright, ?_, ?_, fun other => ?_⟩
  · rw [paragraphsOf_congr fun other hother => hclaim other
      (List.mem_append_left _ (hleft.subset hother))] at hresult
    rw [paragraphsOf_congr fun other hother => hrest other (hright.subset hother)] at hresult'
    simp only [begin, value_claim, data_claim, hfirst, hresult, hresult', Node.leaf]
  · simp only [begin, value_claim, hfirst]
    rw [hboth.size_eq, size_claim]
  · simp only [begin, value_claim, hfirst]
    rw [hboth.link_eq]
    split
    · next hmem =>
      have hbeside : other ∈ before ++ after := by
        rcases List.mem_append.mp hmem with hmem | hmem
        · exact List.mem_append_left _ (hleft.subset hmem)
        · exact List.mem_append_right _ (hright.subset hmem)
      rw [hclaim other hbeside]
    · exact link_claim hid other

/-- A node of a kind without child kinds is the one that was begun. -/
theorem Kind.construct_of_children_nil (hchildren : kind.children = []) (registry : Registry)
    (s : Sequence) (id : LinkId) :
    kind.construct registry s id = some ((begin s id kind).finish id) := by
  obtain ⟨budget, hbudget⟩ : ∃ budget, Construction.budget s = budget + 1 :=
    Nat.exists_eq_succ_of_ne_zero (by unfold Construction.budget; omega)
  rw [Kind.construct, hbudget, constructWithin, hchildren]
  rfl

/-- A node without child kinds takes exactly the longest runs of absorbable links on both sides of
its link. -/
theorem Kind.construct_absorbs (hchildren : kind.children = []) (registry : Registry)
    (hs : s.WellFormed) (hid : id < s.size) :
    ∃ before after left right built, s.IsChain (before ++ id :: after) ∧
      s.IsRunBefore before left kind.absorbPrevious ∧ s.IsRunAfter after right kind.absorbNext ∧
      kind.construct registry s id = some built ∧
      AbsorbsRuns kind s left id right built.result built.sequence := by
  obtain ⟨before, after, hchain⟩ := hs.exists_chain hid
  obtain ⟨left, right, hleft, hright, habsorbs⟩ := begin_absorbs hs hchain kind
  exact ⟨before, after, left, right, _, hchain, hleft, hright,
    kind.construct_of_children_nil hchildren registry s id, habsorbs⟩

/-- A heading takes the notes before it and the texts after it. -/
def headingKind : Kind :=
  { names := ["heading"], absorbPrevious := some "note", absorbNext := some "text" }

/-- A heading between notes and texts, one of which is blank. -/
def flankedHeading : List Token :=
  [{ value := "text", data := "a" }, { value := "note", data := "b" },
    { value := "note", data := "c" }, { value := "heading", data := "d" },
    { value := "text", data := "e" }, { value := "text" }, { value := "text", data := "f" }]

/-- The blank text ends the run after the heading. -/
example :
    (headingKind.construct {} (Sequence.ofTokens flankedHeading) 3).map (·.result.payload) =
      some ["b", "c", "d", "e"] := by
  decide +kernel

/-- What a heading between notes and texts takes. -/
theorem Kind.construct_absorbs_flankedHeading :
    headingKind.children = [] ∧ (ofTokens flankedHeading).WellFormed ∧
      3 < (ofTokens flankedHeading).size ∧
      ∃ before after left right built, (ofTokens flankedHeading).IsChain (before ++ 3 :: after) ∧
        (ofTokens flankedHeading).IsRunBefore before left headingKind.absorbPrevious ∧
        (ofTokens flankedHeading).IsRunAfter after right headingKind.absorbNext ∧
        headingKind.construct {} (ofTokens flankedHeading) 3 = some built ∧
        AbsorbsRuns headingKind (ofTokens flankedHeading) left 3 right built.result
          built.sequence :=
  ⟨rfl, (ofTokens_spec flankedHeading).1, by decide +kernel,
    Kind.construct_absorbs rfl {} (ofTokens_spec flankedHeading).1 (by decide +kernel)⟩

end DocTree
