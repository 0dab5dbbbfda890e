import DocTree.Proofs.PrunedIntake

/-!
# Batches that are taken in as they are

With the plain classifier a batch becomes a blank sentinel link and one link for each token, under
the next free ids and behind all links that there are. So one chain holds all links in the order of
their ids, and reads as the batches, each behind a blank token; the intake remembers the two ends
of that chain, which is what lets the next batch go on with it.
-/

namespace DocTree

/-- A batch behind the blank token of its sentinel. -/
def marked (batch : List Token) : List Token :=
  {} :: batch

namespace Sequence

/-- New links come after all others, the sentinel of their batch first. -/
theorem ids_append {s linked : Sequence} {count : ℕ} (hsize : linked.size = s.size + 1 + count) :
    linked.ids = s.ids ++ s.size :: List.range' (s.size + 1) count := by
  have hrange := List.range'_append_1 (s := 0) (m := s.size) (n := count + 1)
  rw [Nat.zero_add, ← List.range_eq_range', ← List.range_eq_range', List.range'_succ] at hrange
  rw [ids, ids, hrange, hsize]
  congr 1
  omega

end Sequence

namespace Intake

open Sequence

variable {intake : Intake} {tokens batch : List Token} {batches : List (List Token)}

/-- The links of a plain intake hold the tokens on one chain, in the order of their ids and from the
first link to the last, and nothing has become of them. -/
structure Mirrors (intake : Intake) (tokens : List Token) : Prop where
  plain : intake.classifier = .plain
  wellFormed : intake.sequence.WellFormed
  isChain : intake.sequence.IsChain intake.sequence.ids
  tokens_eq : intake.sequence.ids.map (fun id => (intake.sequence.link id).token) = tokens
  live : ∀ id, intake.sequence.state id = .live
  first_eq : intake.first = intake.sequence.ids.head?
  last_eq : intake.last = intake.sequence.ids.getLast?

/-- A new intake holds no tokens. -/
theorem Mirrors.start : ({} : Intake).Mirrors [] where
  plain := rfl
  wellFormed := wellFormed_empty
  isChain := .nil
  tokens_eq := rfl
  live id := by rw [state, link_of_size_le (Nat.zero_le id)]
  first_eq := rfl
  last_eq := rfl

namespace Mirrors

/-- There is one link for each token. -/
theorem size_eq (h : intake.Mirrors tokens) : intake.sequence.size = tokens.length := by
  rw [← h.tokens_eq, List.length_map, ids, List.length_range]

/-- The link that the intake goes on with lies in the sequence. -/
theorem last_lt (h : intake.Mirrors tokens) :
    ∀ last ∈ intake.last, last < intake.sequence.size := by
  intro last hlast
  rw [h.last_eq] at hlast
  exact h.isChain.lt_size last (List.mem_of_getLast? hlast)

/-- A batch is put after the last link, behind its sentinel. -/
theorem appended (h : intake.Mirrors tokens) (batch : List Token) :
    ∃ linked last, Appended (intake.sequence.pushAfter intake.last {}) intake.sequence.ids
      intake.sequence.size [] batch linked last ∧
      intake.parse batch = ({ intake with
        sequence := linked
        first := intake.first <|> some intake.sequence.size
        last := some last }, some intake.sequence.size) := by
  obtain ⟨classifier, s, first, last⟩ := intake
  obtain rfl : classifier = .plain := h.plain
  have hlast : ∀ link ∈ last, link < s.size ∧ s.state link ≠ .removed := fun link hlink =>
    ⟨h.last_lt link hlink, by simp [show s.state link = .live from h.live link]⟩
  have hchain : (s.pushAfter last {}).IsChain (s.ids ++ [s.size]) := by
    rw [show last = s.ids.getLast? from h.last_eq]
    exact h.isChain.pushAfter_end h.wellFormed {}
  have hplain : Classifier.plain.Appends := fun _ _ _ => rfl
  obtain ⟨hstate, happended⟩ := appended_batch hplain h.wellFormed hlast hchain batch
  have hreach := isReachable_iff.mpr (happended.last_spec (by simp [hstate])).2
  refine ⟨_, _, happended, ?_⟩
  simp only [Intake.parse, Classifier.finalize, hreach, if_true]

/-- A batch is taken in whole, and the call gives its sentinel. -/
theorem parse (h : intake.Mirrors tokens) (batch : List Token) :
    (intake.parse batch).1.Mirrors (tokens ++ marked batch) ∧
      (intake.parse batch).2 = some intake.sequence.size := by
  obtain ⟨linked, last, happended, hparse⟩ := h.appended batch
  have hsize := happended.size_eq
  rw [size_pushAfter] at hsize
  have hids := ids_append hsize
  have hbatch := happended.batch_eq h.wellFormed h.last_lt
  have hchain := happended.chain
  have hend := happended.last_eq
  rw [size_pushAfter] at hchain hend
  rw [List.append_nil, ← hids] at hchain
  have hold : intake.sequence.ids.map (fun id => (linked.link id).token) = tokens := by
    rw [← h.tokens_eq]
    apply List.map_congr_left
    intro id hid
    exact happended.token_of_lt h.wellFormed h.last_lt (List.mem_range.mp hid)
  rw [hparse]
  refine ⟨?_, rfl⟩
  exact {
    plain := h.plain
    wellFormed := happended.wellFormed
    isChain := hchain
    tokens_eq := by rw [hids, List.map_append, hold, hbatch, marked]
    live := fun id => by
      rw [happended.state_eq, h.wellFormed.state_pushAfter_of_lt h.last_lt, h.live]
    first_eq := by
      rw [hids, List.head?_append, ← h.first_eq]
      cases intake.first <;> rfl
    last_eq := by
      rw [hids, List.getLast?_append, hend]
      rfl }

/-- As soon as there is a token, the chain begins with the link that was pushed first. -/
theorem head?_ids (h : intake.Mirrors tokens) (hne : tokens ≠ []) :
    intake.sequence.ids.head? = some 0 := by
  rw [ids, h.size_eq, List.head?_range, if_neg (by simpa using hne)]

/-- From each link on, the chain holds the tokens from its place on. -/
theorem toTokens_eq (h : intake.Mirrors tokens) {id : LinkId} (hid : id < intake.sequence.size) :
    intake.sequence.toTokens id = tokens.drop id := by
  have hlength : id < intake.sequence.ids.length := by rwa [ids, List.length_range]
  have hrest : intake.sequence.ids.drop id = id :: intake.sequence.ids.drop (id + 1) := by
    rw [List.drop_eq_getElem_cons hlength]
    simp [ids]
  have hchain : intake.sequence.IsChain
      (intake.sequence.ids.take id ++ id :: intake.sequence.ids.drop (id + 1)) := by
    rw [← hrest, List.take_append_drop]
    exact h.isChain
  rw [toTokens, iter, hchain.trail_next h.wellFormed, ← hrest, List.map_drop, h.tokens_eq]

/-- Batches are taken in whole, one after another. -/
theorem parseAll (h : intake.Mirrors tokens) (batches : List (List Token)) :
    (intake.parseAll batches).Mirrors (tokens ++ batches.flatMap marked) := by
  induction batches generalizing intake tokens with
  | nil =>
    rw [List.flatMap_nil, List.append_nil]
    exact h
  | cons batch batches ih =>
    have hrest := ih (h.parse batch).1
    rwa [List.append_assoc, ← List.flatMap_cons] at hrest

end Mirrors

/-- A new intake after some batches. -/
def taken (batches : List (List Token)) : Intake :=
  ({} : Intake).parseAll batches

/-- The tokens that a new intake holds are those of the batches, each behind a blank token. -/
theorem mirrors_taken (batches : List (List Token)) :
    (taken batches).Mirrors (batches.flatMap marked) :=
  Mirrors.start.parseAll batches

/-- What the call for a batch does between the batches before it and those after it. It gives the
link that it adds first, and after all batches that link is the blank one behind which the batch and
the later ones stand. -/
structure TakesIn (first : LinkId) (before : List (List Token)) (batch : List Token)
    (after : List (List Token)) : Prop where
  first_eq : ((taken before).parse batch).1.first = some first
  given_eq : ((taken before).parse batch).2 = some (taken before).sequence.size
  toTokens_eq : (taken (before ++ batch :: after)).sequence.toTokens (taken before).sequence.size =
    (batch :: after).flatMap marked

/-- What a new intake makes of batches. The first link is what the first call gives, and stays so;
it begins its chain, which holds all batches, each behind a blank token, and which the last link
ends. -/
structure TakesAll (first : LinkId) (batches : List (List Token)) : Prop where
  begun : ∀ batch ∈ batches.head?, (({} : Intake).parse batch).2 = some first
  calls : ∀ before batch after, batches = before ++ batch :: after →
    TakesIn first before batch after
  first_eq : (taken batches).first = some first
  head_eq : (taken batches).sequence.head first = first
  toTokens_eq : (taken batches).sequence.toTokens first = batches.flatMap marked
  last_eq : (taken batches).last = some ((taken batches).sequence.tail first)
  live : ∀ id < (taken batches).sequence.size, (taken batches).sequence.state id = .live

/-- A call that comes after some batches takes its batch in. -/
theorem takesIn (before : List (List Token)) (batch : List Token) (after : List (List Token)) :
    TakesIn 0 before batch after := by
  have hbefore := mirrors_taken before
  have hall := mirrors_taken (before ++ batch :: after)
  obtain ⟨hnext, hgiven⟩ := hbefore.parse batch
  have hlt : (taken before).sequence.size < (taken (before ++ batch :: after)).sequence.size := by
    rw [hbefore.size_eq, hall.size_eq]
    simp [marked]
  refine ⟨?_, hgiven, ?_⟩
  · exact hnext.first_eq.trans (hnext.head?_ids (by simp [marked]))
  · rw [hall.toTokens_eq hlt, hbefore.size_eq, List.flatMap_append, List.drop_left]

/-- A new intake makes one chain of all batches, each behind a sentinel. -/
theorem takesAll (hne : batches ≠ []) : ∃ first, TakesAll first batches := by
  have hall := mirrors_taken batches
  obtain ⟨batch, after, rfl⟩ := List.exists_cons_of_ne_nil hne
  have hlt : 0 < (taken (batch :: after)).sequence.size := by
    rw [hall.size_eq]
    simp [marked]
  have hids := hall.head?_ids (by simp [marked])
  have hmem := List.mem_of_head? hids
  refine ⟨0, ?_, ?_, ?_, ?_, ?_, ?_, fun id _ => hall.live id⟩
  · intro batch hbatch
    exact (Mirrors.start.parse batch).2
  · intro before batch after hsplit
    exact takesIn before batch after
  · exact hall.first_eq.trans hids
  · exact Option.some.inj ((hall.isChain.head_eq hall.wellFormed hmem).symm.trans hids)
  · exact hall.toTokens_eq hlt
  · exact hall.last_eq.trans (hall.isChain.tail_eq hall.wellFormed hmem)

/-- A text, nothing, and another text. -/
def interrupted : List (List Token) :=
  [[{ value := "text", data := "a" }], [], [{ value := "text", data := "b" }]]

/-- A batch without tokens leaves its sentinel between the other two. -/
theorem takesAll_interrupted : interrupted ≠ [] ∧ ∃ first, TakesAll first interrupted := by
  have hne : interrupted ≠ [] := by decide
  exact ⟨hne, takesAll hne⟩

end Intake

end DocTree
