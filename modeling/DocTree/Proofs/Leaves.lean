import DocTree.Proofs.Clearing
import DocTree.Proofs.KeyedLists

/-!
# Children without children

When each child kind is unregistered or declared to absorb and extract nothing, the children of a
node are known in full. Each live link of such a kind gives one leaf, and links of unregistered
kinds are removed without one. Under its slot a node then holds the leaves of the child kinds that
share the slot, kind by kind as they are declared and in chain order within a kind; kinds that are
declared again find nothing more.
-/

namespace DocTree

/-! ## What there is to collect -/

/-- A kind that absorbs and extracts nothing. -/
structure Kind.IsLeaf (kind : Kind) : Prop where
  absorbPrevious : kind.absorbPrevious = none
  absorbNext : kind.absorbNext = none
  children : kind.children = []

/-- Each of the given names is unregistered or declared to absorb and extract nothing. -/
def Registry.Leafy (registry : Registry) (names : List String) : Prop :=
  ∀ name ∈ names, ∀ entry, registry.find? name = some entry →
    ∃ kind, entry.build = .declared kind ∧ kind.IsLeaf

/-- Such names lead to no further names. -/
theorem Registry.Leafy.trimsAmong {registry : Registry} {names : List String}
    (h : registry.Leafy names) : registry.TrimsAmong {name | name ∈ names} := by
  intro name hname entry hentry
  obtain ⟨kind, hbuild, hleaf⟩ := h name hname entry hentry
  exact ⟨kind, .inl hbuild, by simp [hleaf.children]⟩

/-- The leaf that a link gives when a kind is declared for its value. -/
def Registry.leaf? (registry : Registry) (s : Sequence) (id : LinkId) : Option Node :=
  match registry.find? (s.value id) with
  | some { build := .declared kind, .. } =>
    some { Node.leaf (s.value id) (Paragraph.split (s.data id)) with primary := kind.primary }
  | _ => none

/-- The leaves that the live links of a kind give under a slot. -/
def Registry.leavesOf (registry : Registry) (s : Sequence) (links : List LinkId)
    (slot kind : String) : List Node :=
  if slot ≠ "" ∧ slotName kind = slot then
    (links.filter (s.isLiveOf kind)).filterMap (registry.leaf? s)
  else []

/-- The leaves that the live links of some kinds give under a slot: kind by kind, each kind once. -/
def Registry.leaves (registry : Registry) (s : Sequence) (links : List LinkId)
    (kinds : List String) (slot : String) : List Node :=
  kinds.eraseDups.flatMap (registry.leavesOf s links slot)

/-- Values that give nothing may be left out of a list before its repetitions are dropped. -/
theorem flatMap_eraseDups_filter {α β : Type} [BEq α] [LawfulBEq α] {f : α → List β} {a : α}
    (h : f a = []) (list : List α) :
    (list.filter (!· == a)).eraseDups.flatMap f = list.eraseDups.flatMap f := by
  induction hlength : list.length using Nat.strong_induction_on generalizing list with
  | _ length ih =>
    cases list with
    | nil => rfl
    | cons b rest =>
      by_cases hb : b = a
      · subst hb
        simp [List.eraseDups_cons, h]
      · have hshort : (rest.filter (!· == b)).length < length :=
          hlength ▸ Nat.lt_succ_of_le (List.length_filter_le _ _)
        have hrest := ih _ hshort _ rfl
        rw [List.filter_filter] at hrest
        simp [List.eraseDups_cons, hb, List.filter_filter, ← hrest, Bool.and_comm]

/-- A kind that gives nothing under a slot may be left out. -/
theorem Registry.leaves_cons_of_nil {registry : Registry} {s : Sequence} {links : List LinkId}
    {slot kind : String} (h : registry.leavesOf s links slot kind = []) (kinds : List String) :
    registry.leaves s links (kind :: kinds) slot = registry.leaves s links kinds slot := by
  rw [leaves, List.eraseDups_cons, List.flatMap_cons, h, List.nil_append,
    flatMap_eraseDups_filter h, leaves]

namespace Sequence

variable {s s' : Sequence} {found other : LinkId}

/-- One sequence comes from another by taking a link out: no other link changes its state, and none
its token. Which links are then neighbours is left open. -/
structure Loses (s s' : Sequence) (found : LinkId) : Prop where
  state_eq : ∀ other, s'.state other = if other = found then .removed else s.state other
  token_eq : ∀ other, (s'.link other).token = (s.link other).token

namespace Loses

/-- The other links stay live and of their kinds. -/
theorem isLiveOf_eq (h : Loses s s' found) (kind : String) (other : LinkId) :
    s'.isLiveOf kind other = (s.isLiveOf kind other && other != found) := by
  have hvalue := (token_eq_iff.mp (h.token_eq other)).2
  rw [isLiveOf, isLiveOf, isLive, isLive, h.state_eq, hvalue]
  by_cases heq : other = found <;> simp [heq]

/-- Each link gives the same leaf. -/
theorem leaf?_eq (h : Loses s s' found) (registry : Registry) :
    registry.leaf? s' = registry.leaf? s := by
  funext other
  obtain ⟨hdata, hvalue⟩ := token_eq_iff.mp (h.token_eq other)
  rw [Registry.leaf?, Registry.leaf?, hdata, hvalue]

/-- A link of one kind gives no leaves to other kinds. -/
theorem leavesOf_of_ne (h : Loses s s' found) (registry : Registry) (links : List LinkId)
    (slot : String) {kind : String} (hne : s.value found ≠ kind) :
    registry.leavesOf s' links slot kind = registry.leavesOf s links slot kind := by
  have hkept : s'.isLiveOf kind = s.isLiveOf kind := by
    funext other
    rw [h.isLiveOf_eq]
    by_cases heq : other = found
    · simp [heq, isLiveOf, hne]
    · simp [heq]
  rw [Registry.leavesOf, Registry.leavesOf, hkept, h.leaf?_eq]

/-- The first live link of a kind gives the first of its leaves. -/
theorem leavesOf_found (h : Loses s s' found) (registry : Registry)
    {links before after : List LinkId} {kind : String}
    (hsplit : links.filter s.isReachable = before ++ found :: after)
    (hnot : found ∉ before ++ after) (hlive : s.isLiveOf kind found = true)
    (hbefore : ∀ other ∈ before, s.isLiveOf kind other = false) (slot : String) :
    registry.leavesOf s links slot kind =
      (if slot ≠ "" ∧ slotName kind = slot then (registry.leaf? s found).toList else []) ++
        registry.leavesOf s' links slot kind := by
  have hlinks : links.filter (s.isLiveOf kind) = found :: after.filter (s.isLiveOf kind) := by
    have hreach : links.filter (s.isLiveOf kind) =
        (links.filter s.isReachable).filter (s.isLiveOf kind) := by
      rw [List.filter_filter]
      refine List.filter_congr fun other _ => ?_
      cases hother : s.isLiveOf kind other with
      | false => rfl
      | true => simp [isReachable_of_isLiveOf hother]
    have hnone : before.filter (s.isLiveOf kind) = [] :=
      List.filter_eq_nil_iff.mpr fun other hother => by simp [hbefore other hother]
    rw [hreach, hsplit, List.filter_append, hnone, List.filter_cons_of_pos hlive, List.nil_append]
  have hrest : links.filter (s'.isLiveOf kind) = after.filter (s.isLiveOf kind) := by
    have hother : links.filter (s'.isLiveOf kind) =
        (links.filter (s.isLiveOf kind)).filter (· != found) := by
      rw [List.filter_filter]
      exact List.filter_congr fun other _ => by rw [h.isLiveOf_eq, Bool.and_comm]
    rw [hother, hlinks, List.filter_cons_of_neg (by simp), List.filter_eq_self]
    intro other hmem
    have hafter := List.mem_of_mem_filter hmem
    simpa using fun heq : other = found => hnot (List.mem_append_right _ (heq ▸ hafter))
  rw [Registry.leavesOf, Registry.leavesOf, h.leaf?_eq, hlinks, hrest]
  split
  · cases hleaf : registry.leaf? s found <;> simp [hleaf]
  · rfl

/-- The first live link of the first kind gives the first of all leaves. -/
theorem leaves_found (h : Loses s s' found) (registry : Registry) {links before after : List LinkId}
    {kind : String} (hsplit : links.filter s.isReachable = before ++ found :: after)
    (hnot : found ∉ before ++ after) (hlive : s.isLiveOf kind found = true)
    (hbefore : ∀ other ∈ before, s.isLiveOf kind other = false) (kinds : List String)
    (slot : String) :
    registry.leaves s links (kind :: kinds) slot =
      (if slot ≠ "" ∧ slotName kind = slot then (registry.leaf? s found).toList else []) ++
        registry.leaves s' links (kind :: kinds) slot := by
  have hrest : (kinds.filter (!· == kind)).eraseDups.flatMap (registry.leavesOf s' links slot) =
      (kinds.filter (!· == kind)).eraseDups.flatMap (registry.leavesOf s links slot) := by
    refine List.flatMap_congr fun other hother => h.leavesOf_of_ne registry links slot ?_
    have hne : other ≠ kind := by simpa using (List.mem_filter.mp (List.mem_eraseDups.mp hother)).2
    rw [(isLiveOf_iff.mp hlive).2]
    exact hne.symm
  rw [Registry.leaves, Registry.leaves, List.eraseDups_cons, List.flatMap_cons, List.flatMap_cons,
    h.leavesOf_found registry hsplit hnot hlive hbefore, hrest, List.append_assoc]

end Loses

end Sequence

namespace Construction

open Sequence Relation

variable {registry : Registry} {s : Sequence} {id found : LinkId} {kind : String}
  {kinds : List String} {place : Option LinkId} {chain : List LinkId} {e done : Extraction}
  {built : Built (Option Node)} {stage : Stage} {budget : ℕ} {lists : String → List Node}

/-- From a link, the leaf is built, and at most the link is claimed. -/
theorem createWithin_leaf (hleafy : registry.Leafy kinds) (hkind : s.value found ∈ kinds)
    (hbuilt : createWithin registry budget (s.value found) s found = some built) :
    built.result = registry.leaf? s found ∧
      (built.sequence = s ∨ built.sequence = s.claim found) := by
  cases budget with
  | zero => simp [createWithin] at hbuilt
  | succ budget =>
    rw [createWithin] at hbuilt
    cases hentry : registry.find? (s.value found) with
    | none =>
      simp only [hentry] at hbuilt
      obtain rfl := Option.some.inj hbuilt
      exact ⟨by simp [Registry.leaf?, hentry], .inl rfl⟩
    | some entry =>
      obtain ⟨kind, hbuild, hleaf⟩ := hleafy _ hkind entry hentry
      simp only [hentry, hbuild] at hbuilt
      cases budget with
      | zero => simp [constructWithin] at hbuilt
      | succ budget =>
        have hbegin : begin s found kind =
            { sequence := s.claim found, first := some ((s.claim found).head found)
              node := { Node.leaf (s.value found) (Paragraph.split (s.data found)) with
                primary := kind.primary } } := by
          simp [begin, absorb, hleaf.absorbPrevious, hleaf.absorbNext]
        simp only [constructWithin, hleaf.children, hbegin, List.foldlM_nil, Option.pure_def,
          Option.bind_eq_bind, Option.bind_some] at hbuilt
        obtain rfl := Option.some.inj hbuilt
        obtain ⟨build, primary⟩ := entry
        obtain rfl : build = .declared kind := hbuild
        exact ⟨by simp [Registry.leaf?, hentry], .inr rfl⟩

/-- When a leaf was or was not built from a link, dropping the link takes it out. -/
theorem loses_drop (hs : e.sequence.WellFormed) (hid : found < e.sequence.size)
    (hlive : e.sequence.state found = .live)
    (hbuilt : built.sequence = e.sequence ∨ built.sequence = e.sequence.claim found)
    (id : LinkId) (kind : String) :
    Loses e.sequence ((e.addChild kind found built).drop id found).1.sequence found := by
  simp only [Extraction.drop, sequence_addChild]
  rcases hbuilt with hsame | hclaim
  · rw [hsame]
    exact ⟨hs.state_remove hid (by simp [hlive]), hs.token_remove hid (by simp [hlive])⟩
  · have hstate := state_claim (s := e.sequence) hid
    have hreach : (e.sequence.claim found).state found ≠ .removed := by simp [hstate, hlive]
    have hs' := hs.claim hid
    have hid' : found < (e.sequence.claim found).size := by simpa using hid
    rw [hclaim]
    constructor
    · intro other
      rw [hs'.state_remove hid' hreach, hstate]
      by_cases heq : other = found <;> simp [heq]
    · intro other
      rw [hs'.token_remove hid' hreach]
      exact token_eq_iff.mpr ⟨by simp, by simp⟩

/-- What is built from a link is filed under the slot of its kind. -/
theorem files_addChild (h : Keyed.Files e.node.children lists) (kind : String) (found : LinkId)
    (built : Built (Option Node)) :
    Keyed.Files (e.addChild kind found built).node.children
      fun slot => lists slot ++ if slotName kind = slot then built.result.toList else [] := by
  cases hresult : built.result with
  | none => simpa [Extraction.addChild, hresult] using h
  | some child =>
    have happend := h.append (slotName kind) child
    have hlists : (fun slot => lists slot ++ if slotName kind = slot then [child] else []) =
        fun slot => if slotName kind = slot then lists slot ++ [child] else lists slot := by
      funext slot
      split <;> simp
    simpa [Extraction.addChild, hresult, Node.addChild, hlists] using happend

/-! ## Whole runs -/

/-- What is done in the end holds the leaves of all links that were to be taken at some stage,
behind what was filed before. These links are removed, and no others. -/
structure Collects (registry : Registry) (chain : List LinkId) (stage : Stage) (done : Extraction) :
    Prop where
  files : ∀ lists, Keyed.Files stage.extraction.node.children lists →
    Keyed.Files done.node.children fun slot =>
      lists slot ++ registry.leaves stage.extraction.sequence chain stage.kinds slot
  state_eq : ∀ other, done.sequence.state other =
    if other ∈ chain ∧ stage.extraction.sequence.state other = .live ∧
        stage.extraction.sequence.value other ∈ stage.kinds ∧
        slotName (stage.extraction.sequence.value other) ≠ "" then .removed
    else stage.extraction.sequence.state other

namespace Collects

/-- When all kinds are done, nothing more is taken. -/
theorem nil : Collects registry chain ⟨[], place, e⟩ e where
  files lists h := by simpa [Registry.leaves] using h
  state_eq other := by simp

/-- A kind without a slot or without links on the chain is passed over. -/
theorem skip (hnone : slotName kind = "" ∨ ∀ other ∈ chain, e.sequence.isLiveOf kind other = false)
    {place' : Option LinkId} (h : Collects registry chain ⟨kinds, place', e⟩ done) :
    Collects registry chain ⟨kind :: kinds, place, e⟩ done where
  files lists hfiles := by
    have hskip (slot : String) : registry.leaves e.sequence chain (kind :: kinds) slot =
        registry.leaves e.sequence chain kinds slot := by
      refine Registry.leaves_cons_of_nil ?_ kinds
      rw [Registry.leavesOf]
      split
      · next hslot =>
        have hlinks := hnone.resolve_left fun hempty => hslot.1 (hslot.2 ▸ hempty)
        rw [List.filter_eq_nil_iff.mpr fun other hother => by simp [hlinks other hother]]
        rfl
      · rfl
    simpa only [hskip] using h.files lists hfiles
  state_eq other := by
    rw [h.state_eq]
    refine if_congr (and_congr_right fun hother => and_congr_right fun hlive =>
      and_congr_left fun hslot => ?_) rfl rfl
    have hne : e.sequence.value other ≠ kind := by
      rintro rfl
      have hnot := (hnone.resolve_left hslot) other hother
      exact Bool.false_ne_true (hnot.symm.trans (isLiveOf_iff.mpr ⟨hlive, rfl⟩))
    simp [hne]

/-- The first live link of the first kind is taken. -/
theorem take {e' : Extraction} (h : Loses e.sequence e'.sequence found) (hslot : slotName kind ≠ "")
    {before after : List LinkId}
    (hsplit : chain.filter e.sequence.isReachable = before ++ found :: after)
    (hnot : found ∉ before ++ after) (hlive : e.sequence.isLiveOf kind found = true)
    (hbefore : ∀ other ∈ before, e.sequence.isLiveOf kind other = false)
    (hfiles : ∀ lists, Keyed.Files e.node.children lists → Keyed.Files e'.node.children fun slot =>
      lists slot ++ if slotName kind = slot then (registry.leaf? e.sequence found).toList else [])
    {place' : Option LinkId} (hrest : Collects registry chain ⟨kind :: kinds, place', e'⟩ done) :
    Collects registry chain ⟨kind :: kinds, place, e⟩ done where
  files lists hlists := by
    have htaken := hrest.files _ (hfiles lists hlists)
    have heq (slot : String) : registry.leaves e.sequence chain (kind :: kinds) slot =
        (if slotName kind = slot then (registry.leaf? e.sequence found).toList else []) ++
          registry.leaves e'.sequence chain (kind :: kinds) slot := by
      rw [h.leaves_found registry hsplit hnot hlive hbefore kinds slot]
      congr 1
      exact if_congr (and_iff_right_of_imp fun heq => heq ▸ hslot) rfl rfl
    simpa only [heq, List.append_assoc] using htaken
  state_eq other := by
    have hmem : found ∈ chain.filter e.sequence.isReachable := by simp [hsplit]
    obtain ⟨hstate, hvalue⟩ := isLiveOf_iff.mp hlive
    rw [hrest.state_eq, h.state_eq, (token_eq_iff.mp (h.token_eq other)).2]
    by_cases heq : other = found
    · subst heq
      simp [hstate, hvalue, hslot, List.mem_of_mem_filter hmem]
    · simp [heq]

end Collects

/-- From a stage on, the leaves of all links that are to be taken are collected. -/
theorem Tracks.collects {names : List String} (hleafy : registry.Leafy names)
    (hreaches : Reaches registry id stage ⟨[], place, done⟩) (h : Tracks chain id stage)
    (hkinds : ∀ kind ∈ stage.kinds, kind ∈ names)
    (hreach : stage.extraction.sequence.isReachable id = true)
    (hused : stage.extraction.sequence.state id ≠ .live) :
    Collects registry chain stage done := by
  induction hreaches using ReflTransGen.head_induction_on with
  | refl => exact .nil
  | head hstep _ ih =>
    obtain ⟨h', -, hsubset⟩ := h.advance hleafy.trimsAmong hkinds hstep
    have hrest := ih h' fun kind hkind => hkinds kind (hsubset kind hkind)
    cases hstep with
    | @pass kind kinds place e hslot =>
      obtain ⟨hfiles, hstate⟩ := hrest hreach hused
      have hnext : Collects registry chain ⟨kinds, e.place id, e⟩ done := ⟨hfiles, hstate⟩
      exact .skip (.inl hslot) hnext
    | exhaust hslot hfind =>
      refine .skip (.inr ?_) (hrest hreach hused)
      exact (h.exhausted hfind).resolve_left fun hlost =>
        isReachable_iff.mp hreach hlost.state_eq
    | @take kind kinds place e found built budget hslot hfind hbuilt =>
      obtain ⟨before, after, hsplit, hlive, hbefore⟩ := h.found_split hfind
      obtain ⟨hstate, hvalue⟩ := isLiveOf_iff.mp hlive
      obtain ⟨hlt, -, -⟩ := found_spec hslot hfind
      subst hvalue
      obtain ⟨hresult, hsequence⟩ := createWithin_leaf hleafy (hkinds _ List.mem_cons_self) hbuilt
      have hloses :=
        loses_drop h.onChain.wellFormed hlt hstate hsequence id (e.sequence.value found)
      have hne : id ≠ found := fun heq => hused (heq ▸ hstate)
      have hkept := hloses.state_eq id
      rw [if_neg hne] at hkept
      refine .take hloses hslot hsplit ((hsplit ▸ h.onChain.isChain).notMem h.onChain.wellFormed)
        hlive hbefore (fun lists hlists => ?_) (hrest ?_ ?_)
      · exact hresult ▸ files_addChild hlists _ found built
      · exact isReachable_iff.mpr (hkept ▸ isReachable_iff.mp hreach)
      · exact hkept ▸ hused

end Construction

open Construction Sequence

/-- When each child kind is unregistered or declared to absorb and extract nothing, building comes
to an end, and the children of the node are exactly these: after the node's own absorption each link
of its chain, but for its own, that is live and of a child kind with a slot gives one leaf if the
kind is registered. The leaves are filed under the slots, kind by kind in declared order and in
chain order within a kind, and a slot without leaves is absent. All these links are removed, those
of unregistered kinds as well, and no other link changes its state. -/
theorem Kind.construct_leaves {registry : Registry} {s : Sequence} {id : LinkId} (kind : Kind)
    (hleafy : registry.Leafy kind.children) (hs : s.WellFormed) (hid : id < s.size)
    (hreach : s.state id ≠ .removed) :
    let begun := (begin s id kind).sequence
    ∃ built, kind.construct registry s id = some built ∧
      Keyed.Files built.result.children
        (registry.leaves begun ((s.chainOf id).filter (· ≠ id)) kind.children) ∧
      ∀ other, built.sequence.state other =
        if other ∈ s.chainOf id ∧ other ≠ id ∧ begun.state other = .live ∧
            begun.value other ∈ kind.children ∧ slotName (begun.value other) ≠ "" then .removed
        else begun.state other := by
  intro begun
  have hstands := hs.stands_chainOf hid hreach
  obtain ⟨done, place, hbuilt, hreaches, -⟩ :=
    kind.construct_clears hleafy.trimsAmong (fun child hchild => hchild) hstands
  have hused : begun.state id ≠ .live := state_begin_ne_live hs hid kind
  obtain ⟨hfiles, hstate⟩ := (tracks_start hstands kind).collects hleafy hreaches
    (fun child hchild => hchild) (isReachable_iff.mpr (stands_begin hstands kind).state_ne) hused
  -- The node's own link is claimed or was used up before, so that it gives no leaf.
  have hother (child : String) : ((s.chainOf id).filter (· ≠ id)).filter (begun.isLiveOf child) =
      (s.chainOf id).filter (begun.isLiveOf child) := by
    rw [List.filter_filter]
    refine List.filter_congr fun other _ => ?_
    cases hlive : begun.isLiveOf child other with
    | false => rfl
    | true =>
      have hne : other ≠ id := by
        rintro rfl
        exact hused (isLiveOf_iff.mp hlive).1
      simp [hne]
  have hleaves : registry.leaves begun ((s.chainOf id).filter (· ≠ id)) kind.children =
      registry.leaves begun (s.chainOf id) kind.children := by
    funext slot
    exact List.flatMap_congr fun child _ => by rw [Registry.leavesOf, Registry.leavesOf, hother]
  refine ⟨_, hbuilt, ?_, fun other => ?_⟩
  · rw [hleaves]
    exact hfiles _ .nil
  · rw [Extraction.finish, hstate]
    refine if_congr (and_congr_right fun _ => (and_iff_right_of_imp fun hlive => ?_).symm) rfl rfl
    rintro rfl
    exact hused hlive.1

/-- Remarks of two spellings are declared, one of them as not primary. -/
def remarkRegistry : Registry :=
  (({} : Registry).insert "@note"
      { build := .declared { names := ["@note"] }, primary := true }).insert "note"
    { build := .declared { names := ["note"], primary := false }, primary := false }

/-- A page holds remarks of both spellings, the first of them declared twice, figures, which are not
registered, and rules, which have no slot. -/
def pageKind : Kind :=
  { names := ["page"], children := ["@note", "fig", "note", "@note", "--"] }

/-- Remarks have no children. -/
theorem remarkRegistry_leafy : remarkRegistry.Leafy pageKind.children := by
  intro name hname entry hentry
  simp only [pageKind, List.mem_cons, List.not_mem_nil, or_false] at hname
  rcases hname with rfl | rfl | rfl | rfl | rfl <;> cases hentry
  all_goals exact ⟨_, rfl, rfl, rfl, rfl⟩

/-- A page among remarks, figures and rules. -/
def pageTokens : List Token :=
  [{ value := "note", data := "a" }, { value := "page", data := "b" },
    { value := "@note", data := "c" }, { value := "fig", data := "d" },
    { value := "--", data := "e" }, { value := "@note", data := "f" }]

/-- In the slot that they share, remarks stand spelling by spelling. -/
example :
    (remarkRegistry.leaves (ofTokens pageTokens) [0, 2, 3, 4, 5] pageKind.children "note").map
      Node.text = ["c", "f", "a"] := by
  decide +kernel

/-- What becomes of a page among remarks, figures and rules. -/
theorem Kind.construct_leaves_page :
    remarkRegistry.Leafy pageKind.children ∧
      let s := ofTokens pageTokens
      let begun := (begin s 1 pageKind).sequence
      ∃ built, pageKind.construct remarkRegistry s 1 = some built ∧
        Keyed.Files built.result.children
          (remarkRegistry.leaves begun ((s.chainOf 1).filter (· ≠ 1)) pageKind.children) ∧
        ∀ other, built.sequence.state other =
          if other ∈ s.chainOf 1 ∧ other ≠ 1 ∧ begun.state other = .live ∧
              begun.value other ∈ pageKind.children ∧ slotName (begun.value other) ≠ ""
          then .removed else begun.state other :=
  ⟨remarkRegistry_leafy, Kind.construct_leaves pageKind remarkRegistry_leafy
    (ofTokens_spec pageTokens).1 (by decide +kernel) (by decide +kernel)⟩

/-- A rule stays in its place, although its kind is a child kind and is not registered: it has no
slot. -/
theorem Kind.unregistered_rule_left :
    remarkRegistry.Leafy pageKind.children ∧ (ofTokens pageTokens).WellFormed ∧
      1 < (ofTokens pageTokens).size ∧ (ofTokens pageTokens).state 1 ≠ .removed ∧
      4 ∈ (ofTokens pageTokens).chainOf 1 ∧
      (begin (ofTokens pageTokens) 1 pageKind).sequence.state 4 = .live ∧
      (ofTokens pageTokens).value 4 ∈ pageKind.children ∧
      remarkRegistry.find? ((ofTokens pageTokens).value 4) = none ∧
      ∃ built, pageKind.construct remarkRegistry (ofTokens pageTokens) 1 = some built ∧
        built.sequence.state 4 ≠ .removed := by
  have hleft : (pageKind.construct remarkRegistry (ofTokens pageTokens) 1).map
      (fun built => built.sequence.state 4) = some .live := by decide +kernel
  obtain ⟨built, hbuilt, hlive⟩ := Option.map_eq_some_iff.mp hleft
  exact ⟨remarkRegistry_leafy, (ofTokens_spec _).1, by decide +kernel, by decide +kernel,
    by decide +kernel, by decide +kernel, by decide +kernel, rfl, built, hbuilt, by simp [hlive]⟩

end DocTree
