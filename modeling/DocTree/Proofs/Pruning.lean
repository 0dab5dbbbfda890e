import DocTree.Proofs.Chains

/-!
# Pruning filters a chain

Pruning from a link on keeps what comes before the link and, of the rest, the links with text. The
walk stands on the first link that was not looked at yet, whether the one before it was removed or
kept, so that one statement about the rest of the chain carries the whole walk. Outside the chain
nothing changes: every other link is on a chain of its own, which the walk never meets.
-/

namespace DocTree

namespace Sequence

variable {s s' s'' : Sequence} {id first : LinkId} {before rest after : List LinkId}

/-- The links of a list that have text. -/
def withText (s : Sequence) (ids : List LinkId) : List LinkId :=
  ids.filter fun id => s.data id != ""

/-- One sequence comes from another by removing exactly the links without text of the second part of
a chain. The links with text stay in order, no token changes, and every other chain stays. -/
structure Pruned (s : Sequence) (before rest : List LinkId) (s' : Sequence) : Prop where
  wellFormed : s'.WellFormed
  size_eq : s'.size = s.size
  token_eq : ∀ id, (s'.link id).token = (s.link id).token
  state_eq : ∀ id, s'.state id = if id ∈ rest ∧ s.data id = "" then .removed else s.state id
  chain : s'.IsChain (before ++ s.withText rest)
  others : ∀ chain, s.IsChain chain → (∀ id ∈ rest, id ∉ chain) → s'.IsChain chain

namespace Pruned

/-- Where there is nothing left to prune, nothing changes. -/
theorem refl (hs : s.WellFormed) (h : s.IsChain before) : Pruned s before [] s :=
  ⟨hs, rfl, fun _ => rfl, by simp, by simpa [withText] using h, fun _ h _ => h⟩

/-- A link with text is passed over. -/
theorem keep (hdata : s.data id ≠ "") (h : Pruned s (before ++ [id]) rest s') :
    Pruned s before (id :: rest) s' where
  wellFormed := h.wellFormed
  size_eq := h.size_eq
  token_eq := h.token_eq
  state_eq x := by
    rw [h.state_eq]
    by_cases heq : x = id
    · simp [heq, hdata]
    · simp [heq]
  chain := by simpa [withText, hdata] using h.chain
  others chain hchain hrest :=
    h.others chain hchain fun x hx => hrest x (List.mem_cons_of_mem _ hx)

/-- A link without text is removed. -/
theorem drop (hs : s.WellFormed) (hchain : s.IsChain (before ++ id :: rest))
    (hreach : s.state id ≠ .removed) (hdata : s.data id = "")
    (h : Pruned (s.remove id).1 before rest s') : Pruned s before (id :: rest) s' := by
  have hid : id < s.size := hchain.lt_size id (by simp)
  have htoken := hs.token_remove hid hreach
  have hdata' : ∀ x, (s.remove id).1.data x = s.data x := fun x => (token_eq_iff.mp (htoken x)).1
  exact {
    wellFormed := h.wellFormed
    size_eq := h.size_eq.trans (size_remove s id)
    token_eq := fun x => (h.token_eq x).trans (htoken x)
    state_eq := fun x => by
      rw [h.state_eq, hdata', hs.state_remove hid hreach]
      by_cases heq : x = id
      · simp [heq, hdata]
      · simp [heq]
    chain := by simpa [withText, hdata, hdata'] using h.chain
    others := fun chain hother hrest =>
      h.others chain (hother.remove_of_notMem hs hid hreach (hrest id (by simp)))
        fun x hx => hrest x (List.mem_cons_of_mem _ hx) }

end Pruned

/-- The walk prunes the rest of the chain, and gives the link kept first if there is one. -/
theorem pruned_pruneFrom (hs : s.WellFormed) (hchain : s.IsChain (before ++ rest))
    (hreach : ∀ id ∈ rest, s.state id ≠ .removed) {fuel : ℕ} (hfuel : rest.length < fuel)
    (kept : Option LinkId) :
    Pruned s before rest (pruneFrom fuel s rest.head? kept).1 ∧
      (pruneFrom fuel s rest.head? kept).2 = (kept <|> (s.withText rest).head?) := by
  induction rest generalizing s before fuel kept with
  | nil =>
    obtain ⟨fuel, rfl⟩ := Nat.exists_eq_add_one_of_ne_zero (Nat.ne_zero_of_lt hfuel)
    simp only [List.head?_nil, pruneFrom]
    exact ⟨.refl hs (by simpa using hchain), by simp [withText]⟩
  | cons id rest ih =>
    obtain ⟨fuel, rfl⟩ := Nat.exists_eq_add_one_of_ne_zero (Nat.ne_zero_of_lt hfuel)
    have hfuel' : rest.length < fuel := by simpa using hfuel
    have hid : id < s.size := hchain.lt_size id (by simp)
    simp only [List.head?_cons, pruneFrom]
    by_cases hdata : s.data id = ""
    · have htoken := hs.token_remove hid (hreach id (by simp))
      have hreach' : ∀ x ∈ rest, (s.remove id).1.state x ≠ .removed := fun x hx => by
        have hne : x ≠ id := fun heq => hchain.notMem hs (by simp [← heq, hx])
        rw [hs.state_remove hid (hreach id (by simp)), if_neg hne]
        exact hreach x (by simp [hx])
      obtain ⟨hpruned, hkept⟩ := ih (hs.remove hid)
        (hchain.remove_mid hs (hreach id (by simp))) hreach' hfuel' kept
      rw [if_pos hdata, remove_snd (hreach id (by simp)), hchain.next_eq]
      refine ⟨hpruned.drop hs hchain (hreach id (by simp)) hdata, hkept.trans ?_⟩
      simp only [withText, (token_eq_iff.mp (htoken _)).1]
      simp [hdata]
    · have hchain' : s.IsChain ((before ++ [id]) ++ rest) := by simpa using hchain
      obtain ⟨hpruned, hkept⟩ := ih hs hchain' (fun x hx => hreach x (by simp [hx])) hfuel'
        (kept <|> some id)
      rw [if_neg hdata, hchain.next_eq]
      refine ⟨hpruned.keep hdata, hkept.trans ?_⟩
      cases kept <;> simp [withText, hdata]

/-- A chain is no longer than its sequence. -/
theorem IsChain.length_le (hs : s.WellFormed) {chain : List LinkId} (h : s.IsChain chain) :
    chain.length ≤ s.size := by
  have hsub : chain ⊆ List.range s.size := fun id hid => List.mem_range.mpr (h.lt_size id hid)
  simpa using ((h.nodup hs).subperm hsub).length_le

/-- Pruning from a link on removes the links without text from there on, and gives the first link
that is kept. -/
theorem pruned_pruneEmpty (hs : s.WellFormed) (hchain : s.IsChain (before ++ first :: after))
    (hreach : s.state first ≠ .removed) :
    Pruned s before (first :: after) (s.pruneEmpty first).1 ∧
      (s.pruneEmpty first).2 = (s.withText (first :: after)).head? := by
  have hlength : (first :: after).length ≤ s.size := by
    have := hchain.length_le hs
    simp only [List.length_append] at this
    omega
  have hfuel : (first :: after).length < (s.size + 1) * (s.size + 1) :=
    Nat.lt_of_lt_of_le (Nat.lt_succ_of_le hlength) (Nat.le_mul_of_pos_left _ s.size.succ_pos)
  have hall := hchain.state_ne hs (by simp) hreach
  simpa [pruneEmpty] using pruned_pruneFrom hs hchain
    (fun id hid => hall id (List.mem_append_right _ hid)) hfuel none

/-- The links of the other chains are as they were in every respect. -/
theorem Pruned.link_eq (hs : s.WellFormed) (hchain : s.IsChain (before ++ rest))
    (h : Pruned s before rest s') (hid : id ∉ before ++ rest) : s'.link id = s.link id := by
  by_cases hlt : id < s.size
  · obtain ⟨front, back, hown⟩ := hs.exists_chain hlt
    -- The chain of the link shares no link with the pruned one, on which the link would be.
    have hapart : ∀ x ∈ rest, x ∉ front ++ id :: back := fun x hx hmem => by
      have heq := hchain.eq_of_mem hs hown (List.mem_append_right _ hx) hmem
      exact hid (heq ▸ by simp)
    have hkept := h.others _ hown hapart
    have htoken := token_eq_iff.mp (h.token_eq id)
    have hprevious : s'.previous id = s.previous id := by rw [hkept.previous_eq, hown.previous_eq]
    have hnext : s'.next id = s.next id := by rw [hkept.next_eq, hown.next_eq]
    have hstate : s'.state id = s.state id := by
      rw [h.state_eq, if_neg fun hmem => hid (List.mem_append_right _ hmem.1)]
    calc s'.link id
        = ⟨s'.data id, s'.value id, s'.previous id, s'.next id, s'.state id⟩ := rfl
      _ = ⟨s.data id, s.value id, s.previous id, s.next id, s.state id⟩ := by
        rw [htoken.1, htoken.2, hprevious, hnext, hstate]
      _ = s.link id := rfl
  · have hle : s.size ≤ id := Nat.le_of_not_lt hlt
    rw [link_of_size_le hle, link_of_size_le (h.size_eq.trans_le hle)]

/-- Pruning filters a chain from a link on: exactly the links without text are removed there, the
links before them and those with text stay in order, the first of the latter is given, and all
texts, kinds, other states and other chains are as they were. -/
theorem WellFormed.pruneEmpty_filters (hs : s.WellFormed)
    (hchain : s.IsChain (before ++ first :: after)) (hreach : s.state first ≠ .removed) :
    (s.pruneEmpty first).1.WellFormed ∧
      (∀ id, (s.pruneEmpty first).1.state id =
        if id ∈ first :: after ∧ s.data id = "" then .removed else s.state id) ∧
      (s.pruneEmpty first).1.IsChain (before ++ s.withText (first :: after)) ∧
      (s.pruneEmpty first).2 = (s.withText (first :: after)).head? ∧
      (∀ id, (s.pruneEmpty first).1.data id = s.data id ∧
        (s.pruneEmpty first).1.value id = s.value id) ∧
      ∀ id ∉ before ++ first :: after, (s.pruneEmpty first).1.link id = s.link id := by
  obtain ⟨hpruned, hkept⟩ := pruned_pruneEmpty hs hchain hreach
  exact ⟨hpruned.wellFormed, hpruned.state_eq, hpruned.chain, hkept,
    fun id => token_eq_iff.mp (hpruned.token_eq id), fun id hid => hpruned.link_eq hs hchain hid⟩

/-- Two blank lines, a line, an emptied line and a claimed one after a line, and a blank line of
another chain. -/
def gappedLines : Sequence :=
  let lines := ((({} : Sequence).pushAfter none { data := "a" }).pushAfter (some 0) {}).pushAfter
    (some 1) { value := "line" }
  let lines := (lines.pushAfter (some 2) { data := "b" }).pushAfter (some 3) { data := "c" }
  (((lines.pushAfter (some 4) { data := "d" }).pushAfter none {}).empty 4).1.claim 5

/-- The gapped lines hang together. -/
theorem gappedLines_wellFormed : gappedLines.WellFormed := by
  refine WellFormed.claim (WellFormed.empty ?_ (by decide)) (by decide)
  iterate 6 refine WellFormed.pushAfter ?_ _ (by decide)
  exact wellFormed_empty.pushAfter _ (by decide)

/-- Pruned from the second blank line on, the gapped lines keep a line and the claimed one there. -/
theorem WellFormed.pruneEmpty_filters_gappedLines :
    gappedLines.WellFormed ∧ gappedLines.IsChain ([0, 1] ++ 2 :: [3, 4, 5]) ∧
      gappedLines.state 2 ≠ .removed ∧
      (gappedLines.pruneEmpty 2).1.WellFormed ∧
      (∀ id, (gappedLines.pruneEmpty 2).1.state id =
        if id ∈ [2, 3, 4, 5] ∧ gappedLines.data id = "" then .removed else gappedLines.state id) ∧
      (gappedLines.pruneEmpty 2).1.IsChain [0, 1, 3, 5] ∧
      (gappedLines.pruneEmpty 2).2 = some 3 ∧
      (∀ id, (gappedLines.pruneEmpty 2).1.data id = gappedLines.data id ∧
        (gappedLines.pruneEmpty 2).1.value id = gappedLines.value id) ∧
      ∀ id ∉ [0, 1, 2, 3, 4, 5], (gappedLines.pruneEmpty 2).1.link id = gappedLines.link id := by
  have hs := gappedLines_wellFormed
  have hchain : gappedLines.IsChain ([0, 1] ++ 2 :: [3, 4, 5]) :=
    .of_linked hs (by decide) (by decide) (by decide) (by decide)
  exact ⟨hs, hchain, by decide, hs.pruneEmpty_filters hchain (by decide)⟩

end Sequence

end DocTree
