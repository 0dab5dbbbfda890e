import DocTree.Proofs.Growth

/-!
# Batches that are pruned

With the pruning classifier every batch leaves behind the links with text, and the sentinel goes. As
long as the batches with text follow each other, after any number of blank ones, each of them
prolongs one chain. A blank batch after that leaves no last link, so that the next batch begins a
chain of its own which the first link does not lead to.
-/

namespace DocTree

/-- The tokens with text. -/
def kept (tokens : List Token) : List Token :=
  tokens.filter fun token => token.data != ""

namespace Sequence

/-- Keeping the links with text keeps the tokens with text. -/
theorem map_token_withText (s : Sequence) (ids : List LinkId) :
    (s.withText ids).map (fun id => (s.link id).token) =
      kept (ids.map fun id => (s.link id).token) := by
  rw [kept, List.filter_map]
  rfl

end Sequence

namespace Intake

open Sequence

variable {intake : Intake} {tokens batch : List Token} {chain : List LinkId}

/-- Take batches in, one after another. -/
def parseAll (intake : Intake) (batches : List (List Token)) : Intake :=
  batches.foldl (fun intake batch => (intake.parse batch).1) intake

/-- What pruned batches leave when they form one sequence: the first link leads to the tokens with
text, and the last link ends their chain; without text there is neither. -/
structure Continuous (intake : Intake) (tokens : List Token) : Prop where
  text : tokens ≠ [] → ∃ first, intake.first = some first ∧
    intake.sequence.toTokens first = tokens ∧ intake.last = some (intake.sequence.tail first)
  blank : tokens = [] → intake.first = none ∧ intake.last = none

/-- The tokens are on one chain, from the first link of a pruning intake to the last, which it goes
on with. -/
structure Joined (intake : Intake) (chain : List LinkId) (tokens : List Token) : Prop where
  pruning : intake.classifier = .pruning
  wellFormed : intake.sequence.WellFormed
  isChain : intake.sequence.IsChain chain
  reachable : ∀ id ∈ chain, intake.sequence.state id ≠ .removed
  tokens_eq : chain.map (fun id => (intake.sequence.link id).token) = tokens
  first_eq : intake.first = chain.head?
  last_eq : intake.last = chain.getLast?

/-- A pruning intake does not go on with the chain of its first link: the last link, if there is
one, is on another chain. -/
structure Parted (intake : Intake) (chain : List LinkId) : Prop where
  pruning : intake.classifier = .pruning
  wellFormed : intake.sequence.WellFormed
  isChain : intake.sequence.IsChain chain
  first_eq : ∃ first, intake.first = some first ∧ chain.head? = some first
  last_notMem : ∀ last ∈ intake.last, last < intake.sequence.size ∧
    intake.sequence.state last ≠ .removed ∧ last ∉ chain

/-- Where the tokens are on one chain, the batches were continuous. -/
theorem Joined.continuous (h : intake.Joined chain tokens) : intake.Continuous tokens where
  text hne := by
    have hchain : chain ≠ [] := fun hnil => hne (by rw [← h.tokens_eq, hnil, List.map_nil])
    obtain ⟨first, after, rfl⟩ := List.exists_cons_of_ne_nil hchain
    have hlist : intake.sequence.IsChain ([] ++ first :: after) := h.isChain
    refine ⟨first, h.first_eq, ?_, ?_⟩
    · rw [toTokens, iter, hlist.trail_next h.wellFormed]
      exact h.tokens_eq
    · rw [h.last_eq, h.isChain.tail_eq h.wellFormed List.mem_cons_self]
  blank hnil := by
    obtain rfl : chain = [] := List.map_eq_nil_iff.mp (h.tokens_eq.trans hnil)
    exact ⟨h.first_eq, h.last_eq⟩

/-- Where the intake goes on elsewhere, the batches were not continuous. -/
theorem Parted.not_continuous (h : intake.Parted chain) (hne : tokens ≠ []) :
    ¬ intake.Continuous tokens := by
  intro hcontinuous
  obtain ⟨first, hfirst, -, hlast⟩ := hcontinuous.text hne
  obtain ⟨first', hfirst', hhead⟩ := h.first_eq
  obtain rfl := Option.some.inj (hfirst.symm.trans hfirst')
  have htail := h.isChain.tail_eq h.wellFormed (List.mem_of_head? hhead)
  exact (h.last_notMem _ hlast).2.2 (List.mem_of_getLast? htail)

/-! ## One batch -/

variable {intake' : Intake} {linked : Sequence} {last' : LinkId} {before after : List LinkId}

/-- The links of the next batch, the sentinel first. -/
def batchLinks (intake : Intake) (batch : List Token) : List LinkId :=
  intake.sequence.size :: List.range' (intake.sequence.size + 1) batch.length

/-- The link that the intake goes on with is in a chain. -/
def Follows (intake : Intake) : Prop :=
  ∀ link ∈ intake.last, link < intake.sequence.size ∧ intake.sequence.state link ≠ .removed

/-- What taking a batch in does: its tokens are put after the sentinel, and the chain is pruned from
the sentinel on. The first link is the first that was ever kept. The last token becomes the last
link if it is still there, and else the end of what is left. -/
structure Settled (intake : Intake) (before after : List LinkId) (batch : List Token)
    (linked : Sequence) (last' : LinkId) (intake' : Intake) : Prop where
  appended : Appended (intake.sequence.pushAfter intake.last {}) before intake.sequence.size after
    batch linked last'
  pruned : Pruned linked before (intake.batchLinks batch ++ after) intake'.sequence
  pruning : intake'.classifier = .pruning
  first_eq : intake'.first =
    intake.first.or (linked.withText (intake.batchLinks batch ++ after)).head?
  last_eq : intake'.last = if intake'.sequence.isReachable last' then some last'
    else (linked.withText (intake.batchLinks batch ++ after)).head?.map intake'.sequence.tail

/-- A batch is settled after a link that is in a chain, or after none. -/
theorem settled_parse (hpruning : intake.classifier = .pruning) (hs : intake.sequence.WellFormed)
    (hlast : intake.Follows) (hchain : (intake.sequence.pushAfter intake.last {}).IsChain
      (before ++ intake.sequence.size :: after)) (batch : List Token) :
    ∃ linked last', Settled intake before after batch linked last' (intake.parse batch).1 := by
  obtain ⟨classifier, s, first, last⟩ := intake
  obtain rfl : classifier = .pruning := hpruning
  have happends : Classifier.pruning.Appends := fun _ _ _ => rfl
  obtain ⟨hstate, happended⟩ := appended_batch happends hs hlast hchain batch
  obtain ⟨hpruned, hkept⟩ := pruned_pruneEmpty happended.wellFormed happended.chain
    (by simp [happended.state_eq, hstate])
  rw [size_pushAfter] at hpruned hkept
  refine ⟨_, _, happended, hpruned, rfl, ?_, ?_⟩
  · rw [batchLinks, List.cons_append, ← hkept]
    cases first <;> rfl
  · rw [batchLinks, List.cons_append, ← hkept]
    rfl

/-- The links of a batch are new. -/
theorem size_le_of_mem_batchLinks {id : LinkId} (hid : id ∈ intake.batchLinks batch) :
    intake.sequence.size ≤ id := by
  rcases List.mem_cons.mp hid with rfl | hid
  · exact le_rfl
  · exact Nat.le_of_succ_le (List.mem_range'_1.mp hid).1

namespace Settled

variable (h : Settled intake before after batch linked last' intake')
  (hs : intake.sequence.WellFormed) (hlast : intake.Follows)

include h hs hlast

/-- Linking the batch changes no state. -/
theorem state_linked (id : LinkId) : linked.state id = intake.sequence.state id := by
  rw [h.appended.state_eq, hs.state_pushAfter_of_lt fun link hlink => (hlast link hlink).1]

/-- Links that were there keep their tokens. -/
theorem token_of_lt {id : LinkId} (hid : id < intake.sequence.size) :
    (intake'.sequence.link id).token = (intake.sequence.link id).token := by
  rw [h.pruned.token_eq]
  exact h.appended.token_of_lt hs (fun link hlink => (hlast link hlink).1) hid

/-- The links that are kept of a batch hold the tokens with text. -/
theorem kept_eq : (linked.withText (intake.batchLinks batch)).map
    (fun id => (intake'.sequence.link id).token) = kept batch := by
  simp only [h.pruned.token_eq]
  rw [map_token_withText, batchLinks,
    h.appended.batch_eq hs fun link hlink => (hlast link hlink).1]
  rfl

/-- A link of a batch stays if it has text. -/
theorem state_of_mem {id : LinkId} (hid : id ∈ intake.batchLinks batch) :
    intake'.sequence.state id = if linked.data id = "" then .removed else .live := by
  have hlive : linked.state id = .live := by
    rw [h.state_linked hs hlast]
    simp [state, link_of_size_le (size_le_of_mem_batchLinks hid)]
  rw [h.pruned.state_eq, hlive]
  simp only [List.mem_append, hid, true_or, true_and]

omit hs hlast in
/-- The last token is the last link of the batch, or the sentinel if there is no token. -/
theorem getLast_batchLinks : (intake.batchLinks batch).getLast? = some last' := by
  have hend := h.appended.last_eq
  rwa [size_pushAfter] at hend

end Settled

/-- At the end of a chain, the last link is the last one that is kept of the batch. -/
theorem Settled.last_kept (h : Settled intake before [] batch linked last' intake')
    (hs : intake.sequence.WellFormed) (hlast : intake.Follows) :
    intake'.last = (linked.withText (intake.batchLinks batch)).getLast? := by
  have hend := h.getLast_batchLinks
  obtain ⟨init, hinit⟩ := List.getLast?_eq_some_iff.mp hend
  have hstate := h.state_of_mem hs hlast (List.mem_of_getLast? hend)
  have hchain := h.pruned.chain
  rw [h.last_eq, List.append_nil]
  rw [List.append_nil] at hchain
  by_cases hdata : linked.data last' = ""
  · rw [if_neg (by simp [isReachable, hstate, hdata])]
    cases hkept : linked.withText (intake.batchLinks batch) with
    | nil => rfl
    | cons link rest =>
      rw [hkept] at hchain
      have htail := hchain.tail_eq h.pruned.wellFormed (List.mem_append_right _ List.mem_cons_self)
      rw [List.getLast?_append_cons] at htail
      exact htail.symm
  · have hlast' : linked.withText [last'] = [last'] := List.filter_eq_self.mpr (by simp [hdata])
    rw [if_pos (by simp [isReachable, hstate, hdata]), hinit, withText, List.filter_append,
      ← withText, ← withText, hlast', List.getLast?_concat]

/-- The last link, if there is one, is on the chain of the links that are kept, and one of them is
there. -/
theorem Settled.mem_of_last (h : Settled intake before after batch linked last' intake')
    {link : LinkId} (hlink : intake'.last = some link) :
    link ∈ before ++ linked.withText (intake.batchLinks batch ++ after) ∧
      ∃ head, head ∈ linked.withText (intake.batchLinks batch ++ after) := by
  rw [h.last_eq] at hlink
  split at hlink
  · next hstay =>
    obtain rfl := Option.some.inj hlink
    have hmem := List.mem_append_left after (List.mem_of_getLast? h.getLast_batchLinks)
    have hdata : linked.data last' ≠ "" := by
      intro hdata
      rw [isReachable_iff, h.pruned.state_eq, if_pos ⟨hmem, hdata⟩] at hstay
      exact hstay rfl
    have hkept : last' ∈ linked.withText (intake.batchLinks batch ++ after) :=
      List.mem_filter.mpr ⟨hmem, by simpa using hdata⟩
    exact ⟨List.mem_append_right before hkept, last', hkept⟩
  · obtain ⟨head, hhead, rfl⟩ := Option.map_eq_some_iff.mp hlink
    have hkept := List.mem_of_head? hhead
    have htail := h.pruned.chain.tail_eq h.pruned.wellFormed (List.mem_append_right before hkept)
    exact ⟨List.mem_of_getLast? htail, head, hkept⟩

/-- Before it is pruned, the batch is on one chain. -/
theorem Settled.isChain (h : Settled intake before after batch linked last' intake') :
    linked.IsChain (before ++ (intake.batchLinks batch ++ after)) := by
  have hchain := h.appended.chain
  rwa [size_pushAfter] at hchain

/-- A batch that is settled after a link in a chain can be gone on with. -/
theorem Settled.follows (h : Settled intake before after batch linked last' intake')
    (hs : intake.sequence.WellFormed) (hlast : intake.Follows) : intake'.Follows := by
  intro link hlink
  obtain ⟨hmem, head, hkept⟩ := h.mem_of_last hlink
  obtain ⟨hnew, hdata⟩ := List.mem_filter.mp hkept
  have hsentinel : intake.sequence.size ∈ before ++ (intake.batchLinks batch ++ after) :=
    List.mem_append_right before List.mem_cons_self
  have hreach : linked.state head ≠ .removed := by
    refine h.isChain.state_ne h.appended.wellFormed hsentinel ?_ head
      (List.mem_append_right before hnew)
    rw [h.state_linked hs hlast, state_size]
    simp
  have hstay : intake'.sequence.state head ≠ .removed := by
    rwa [h.pruned.state_eq, if_neg (by simpa using fun _ => hdata)]
  refine ⟨h.pruned.chain.lt_size link hmem, ?_⟩
  exact h.pruned.chain.state_ne h.pruned.wellFormed (List.mem_append_right before hkept) hstay link
    hmem

/-- A chain of links that were there, and that the batch does not go to, stays apart from it. -/
theorem Settled.others (h : Settled intake before after batch linked last' intake')
    (hs : intake.sequence.WellFormed) (hchain : intake.sequence.IsChain chain)
    (hlast : ∀ link ∈ intake.last, link < intake.sequence.size ∧ link ∉ chain) :
    intake'.sequence.IsChain chain ∧ ∀ id ∈ intake.batchLinks batch ++ after, id ∉ chain := by
  have hfresh : intake.sequence.size ∉ chain := fun hmem =>
    Nat.lt_irrefl _ (hchain.lt_size _ hmem)
  have hold := h.appended.others chain (hchain.pushAfter_of_notMem hs hlast {}) hfresh
  have hapart : ∀ id ∈ intake.batchLinks batch ++ after, id ∉ chain := by
    intro id hid hmem
    have hsame := hold.eq_of_mem h.appended.wellFormed h.isChain hmem
      (List.mem_append_right before hid)
    exact hfresh (hsame ▸ List.mem_append_right before List.mem_cons_self)
  exact ⟨h.pruned.others chain hold hapart, hapart⟩

/-! ## Chains that go on and chains that are left -/

/-- The link that the intake goes on with is in a chain. -/
theorem Joined.follows (h : intake.Joined chain tokens) : intake.Follows := by
  intro link hlink
  rw [h.last_eq] at hlink
  have hmem := List.mem_of_getLast? hlink
  exact ⟨h.isChain.lt_size link hmem, h.reachable link hmem⟩

/-- The next batch is settled at the end of the chain. -/
theorem Joined.settled (h : intake.Joined chain tokens) (batch : List Token) :
    ∃ linked last', Settled intake chain [] batch linked last' (intake.parse batch).1 := by
  apply settled_parse h.pruning h.wellFormed h.follows
  rw [h.last_eq]
  exact h.isChain.pushAfter_end h.wellFormed {}

/-- A chain goes on with a batch that has text, and begins with the first such batch. -/
theorem Joined.parse (h : intake.Joined chain tokens) (batch : List Token)
    (hbatch : chain = [] ∨ kept batch ≠ []) :
    ∃ chain', (intake.parse batch).1.Joined chain' (tokens ++ kept batch) := by
  obtain ⟨linked, last', hsettled⟩ := h.settled batch
  have hkept := hsettled.kept_eq h.wellFormed h.follows
  have hchain := hsettled.pruned.chain
  rw [List.append_nil] at hchain
  refine ⟨chain ++ linked.withText (intake.batchLinks batch), hsettled.pruning,
    hsettled.pruned.wellFormed, hchain, ?_, ?_, ?_, ?_⟩
  · intro id hid
    rcases List.mem_append.mp hid with hid | hid
    · have hold : id ∉ intake.batchLinks batch := fun hnew =>
        Nat.not_lt.mpr (size_le_of_mem_batchLinks hnew) (h.isChain.lt_size id hid)
      rw [hsettled.pruned.state_eq, if_neg (by simp [hold]),
        hsettled.state_linked h.wellFormed h.follows]
      exact h.reachable id hid
    · obtain ⟨hmem, hdata⟩ := List.mem_filter.mp hid
      rw [hsettled.state_of_mem h.wellFormed h.follows hmem, if_neg (by simpa using hdata)]
      simp
  · have hsame : ∀ id ∈ chain, ((intake.parse batch).1.sequence.link id).token =
        (intake.sequence.link id).token := fun id hid =>
      hsettled.token_of_lt h.wellFormed h.follows (h.isChain.lt_size id hid)
    rw [List.map_append, hkept, List.map_congr_left hsame, h.tokens_eq]
  · rw [hsettled.first_eq, h.first_eq, List.head?_append, List.append_nil]
  · rw [hsettled.last_kept h.wellFormed h.follows, List.getLast?_append]
    rcases hbatch with rfl | hbatch
    · simp
    · have hne : linked.withText (intake.batchLinks batch) ≠ [] := fun hnil =>
        hbatch (by rw [← hkept, hnil, List.map_nil])
      rw [List.getLast?_eq_some_getLast hne]
      rfl

/-- A blank batch after a chain leaves no link to go on with. -/
theorem Joined.parted (h : intake.Joined chain tokens) (hchain : chain ≠ [])
    (hbatch : kept batch = []) : (intake.parse batch).1.Parted chain := by
  obtain ⟨linked, last', hsettled⟩ := h.settled batch
  have hnone : linked.withText (intake.batchLinks batch) = [] :=
    List.map_eq_nil_iff.mp ((hsettled.kept_eq h.wellFormed h.follows).trans hbatch)
  have hleft := hsettled.pruned.chain
  rw [List.append_nil, hnone, List.append_nil] at hleft
  obtain ⟨head, rest, rfl⟩ := List.exists_cons_of_ne_nil hchain
  refine ⟨hsettled.pruning, hsettled.pruned.wellFormed, hleft, ⟨head, ?_, rfl⟩, ?_⟩
  · rw [hsettled.first_eq, h.first_eq]
    rfl
  · rw [hsettled.last_kept h.wellFormed h.follows, hnone]
    simp

/-- Batches that go on elsewhere go on doing so. -/
theorem Parted.parse (h : intake.Parted chain) (batch : List Token) :
    (intake.parse batch).1.Parted chain := by
  have hfollows : intake.Follows := fun link hlink =>
    ⟨(h.last_notMem link hlink).1, (h.last_notMem link hlink).2.1⟩
  have hbegun := h.wellFormed.pushAfter {} hfollows
  obtain ⟨before, after, hnew⟩ := hbegun.exists_chain
    (show intake.sequence.size < (intake.sequence.pushAfter intake.last {}).size by simp)
  obtain ⟨linked, last', hsettled⟩ :=
    settled_parse h.pruning h.wellFormed hfollows hnew batch
  obtain ⟨hleft, hapart⟩ := hsettled.others h.wellFormed h.isChain fun link hlink =>
    ⟨(h.last_notMem link hlink).1, (h.last_notMem link hlink).2.2⟩
  obtain ⟨first, hfirst, hhead⟩ := h.first_eq
  refine ⟨hsettled.pruning, hsettled.pruned.wellFormed, hleft, ⟨first, ?_, hhead⟩,
    fun link hlink => ?_⟩
  · rw [hsettled.first_eq, hfirst]
    rfl
  · -- The end of what was kept is on the chain of the batch, which is not the one that was left.
    obtain ⟨hlt, hreach⟩ := hsettled.follows h.wellFormed hfollows link hlink
    refine ⟨hlt, hreach, fun hother => ?_⟩
    obtain ⟨hmem, head, hkept⟩ := hsettled.mem_of_last hlink
    have hsame := hleft.eq_of_mem hsettled.pruned.wellFormed hsettled.pruned.chain hother hmem
    exact hapart head (List.mem_filter.mp hkept).1 (hsame ▸ List.mem_append_right before hkept)

/-! ## All batches -/

/-- Once the intake goes on elsewhere, the batches are not continuous any more. -/
theorem Parted.parseAll (h : intake.Parted chain) (batches : List (List Token)) :
    (intake.parseAll batches).Parted chain := by
  induction batches generalizing intake with
  | nil => exact h
  | cons batch batches ih => exact ih (h.parse batch)

/-- Batches that come after a chain continue it exactly if all of them have text; batches that come
first are continuous exactly if no blank one comes after one with text. -/
theorem Joined.continuous_iff (h : intake.Joined chain tokens) (batches : List (List Token)) :
    (intake.parseAll batches).Continuous (tokens ++ batches.flatMap kept) ↔
      (tokens ≠ [] → ∀ batch ∈ batches, kept batch ≠ []) ∧
        batches.Pairwise fun earlier later => kept earlier ≠ [] → kept later ≠ [] := by
  induction batches generalizing intake chain tokens with
  | nil => simpa [Intake.parseAll] using h.continuous
  | cons batch batches ih =>
    have hstep : intake.parseAll (batch :: batches) = (intake.parse batch).1.parseAll batches := rfl
    have htokens : tokens = [] ↔ chain = [] := by
      rw [← h.tokens_eq, List.map_eq_nil_iff]
    rw [hstep, List.flatMap_cons, ← List.append_assoc, List.forall_mem_cons, List.pairwise_cons]
    by_cases htext : kept batch = []
    · by_cases hnone : tokens = []
      · -- Nothing was kept so far, and nothing is kept now.
        obtain ⟨chain', hjoined⟩ := h.parse batch (.inl (htokens.mp hnone))
        rw [ih hjoined]
        simp [htext, hnone]
      · have hparted := (h.parted (fun hnil => hnone (htokens.mpr hnil)) htext).parseAll batches
        exact iff_of_false (hparted.not_continuous (by simp [hnone])) fun hall =>
          (hall.1 hnone).1 htext
    · obtain ⟨chain', hjoined⟩ := h.parse batch (.inr htext)
      rw [ih hjoined]
      simp only [ne_eq, List.append_eq_nil_iff, htext, and_false, not_false_eq_true, forall_const,
        true_and]
      tauto

/-- A new intake goes on with no chain yet. -/
theorem joined_start : ({ classifier := .pruning } : Intake).Joined [] [] :=
  ⟨rfl, wellFormed_empty, .nil, by simp, rfl, rfl, rfl⟩

/-- Pruned batches form one continuous sequence exactly if no batch without text comes after a batch
with text. -/
theorem continuous_parseAll_iff (batches : List (List Token)) :
    (Intake.parseAll { classifier := .pruning } batches).Continuous (batches.flatMap kept) ↔
      batches.Pairwise fun earlier later => kept earlier ≠ [] → kept later ≠ [] := by
  simpa using joined_start.continuous_iff batches

/-- A blank batch between two batches with text parts them. -/
theorem not_continuous_blankBetween :
    ¬ (Intake.parseAll { classifier := .pruning }
      [[{ value := "p", data := "a" }], [{ value := "p" }], [{ value := "p", data := "b" }]]).Continuous
        [{ value := "p", data := "a" }, { value := "p", data := "b" }] := by
  intro hcontinuous
  have hall := (joined_start.continuous_iff [[{ value := "p", data := "a" }], [{ value := "p" }],
    [{ value := "p", data := "b" }]]).mp hcontinuous
  exact absurd hall.2 (by decide)

end Intake

end DocTree
