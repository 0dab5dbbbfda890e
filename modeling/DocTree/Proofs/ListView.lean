import DocTree.Proofs.Growth

/-!
# What the operations are on lists

A link that is not removed splits its chain into what comes before it and what comes after it. In
terms of these two lists, walks are the lists themselves, searches and runs are parts of them, and
pushing and removing put one link in or take one out. The chain of the link at hand is the only one
that changes: a list that has no link in common with it is a chain afterwards exactly if it was one
before.
-/

namespace DocTree

namespace Sequence

variable {s s' : Sequence} {id : LinkId} {before after chain chain' run list other : List LinkId}

/-! ## Longest parts of a list -/

/-- A list is the longest beginning of another one with a property of all its entries. -/
structure LongestStart (P : LinkId → Prop) (run list : List LinkId) : Prop where
  starts : run <+: list
  all : ∀ id ∈ run, P id
  longest : ∀ other, other <+: list → (∀ id ∈ other, P id) → other <+: run

/-- A list is the longest end of another one with a property of all its entries. -/
structure LongestEnd (P : LinkId → Prop) (run list : List LinkId) : Prop where
  ends : run <:+ list
  all : ∀ id ∈ run, P id
  longest : ∀ other, other <:+ list → (∀ id ∈ other, P id) → other <:+ run

/-- A beginning whose entries all pass a test is part of what the test lets through at the start. -/
theorem starts_takeWhile {p : LinkId → Bool} (h : other <+: list) (hall : ∀ id ∈ other, p id) :
    other <+: list.takeWhile p := by
  induction list generalizing other with
  | nil =>
    rw [List.prefix_nil.mp h]
    exact List.nil_prefix
  | cons first list ih =>
    cases other with
    | nil => exact List.nil_prefix
    | cons entry other =>
      obtain ⟨rfl, hrest⟩ := List.cons_prefix_cons.mp h
      rw [List.takeWhile_cons_of_pos (hall entry List.mem_cons_self), List.cons_prefix_cons]
      exact ⟨rfl, ih hrest fun id hid => hall id (List.mem_cons_of_mem _ hid)⟩

/-- What a test lets through at the start is the longest such beginning. -/
theorem longestStart_takeWhile {P : LinkId → Prop} {p : LinkId → Bool} (hp : ∀ id, p id ↔ P id)
    (list : List LinkId) : LongestStart P (list.takeWhile p) list where
  starts := List.takeWhile_prefix p
  all id hid := (hp id).mp (List.all_eq_true.mp List.all_takeWhile id hid)
  longest _ h hall := starts_takeWhile h fun id hid => (hp id).mpr (hall id hid)

/-- Read backwards, the longest beginning is the longest end. -/
theorem LongestStart.reverse {P : LinkId → Prop} (h : LongestStart P run list.reverse) :
    LongestEnd P run.reverse list where
  ends := by
    rw [← List.reverse_prefix, List.reverse_reverse]
    exact h.starts
  all id hid := h.all id (List.mem_reverse.mp hid)
  longest other hother hall := by
    rw [← List.reverse_prefix, List.reverse_reverse]
    apply h.longest
    · exact List.reverse_prefix.mpr hother
    · intro id hid
      exact hall id (List.mem_reverse.mp hid)

/-! ## Reading -/

/-- A search for a kind may stop at a link. -/
def Matches (s : Sequence) (kind : String) (id : LinkId) : Prop :=
  s.state id = .live ∧ s.value id = kind

instance (s : Sequence) (kind : String) (id : LinkId) : Decidable (s.Matches kind id) :=
  inferInstanceAs (Decidable (_ ∧ _))

/-- A link may be absorbed as one of a kind. -/
def Absorbable (s : Sequence) (kind : String) (id : LinkId) : Prop :=
  s.state id = .live ∧ s.value id = kind ∧ s.data id ≠ ""

/-- The test for absorbable links tells them. -/
theorem isAbsorbable_iff (kind : String) (id : LinkId) :
    s.isAbsorbable kind id = true ↔ s.Absorbable kind id := by
  simp [isAbsorbable, isLive, Absorbable, and_assoc]

/-- What walks and searches from a link give when its chain is a list. The head and the tail are its
first and its last link, a walk and the tokens go from the link to the end, a search finds the first
live link of a kind in its direction from the link on, and the runs beside the link are as long as
there are absorbable links. -/
structure ReadsAs (s : Sequence) (before : List LinkId) (id : LinkId) (after : List LinkId) :
    Prop where
  head_eq : (before ++ id :: after).head? = some (s.head id)
  tail_eq : (before ++ id :: after).getLast? = some (s.tail id)
  iter_eq : s.iter id = id :: after
  toTokens_eq : s.toTokens id =
    (id :: after).map fun other => { value := s.value other, data := s.data other }
  find_next : ∀ kind, s.find? id kind .next = (id :: after).find? (s.Matches kind ·)
  find_previous : ∀ kind,
    s.find? id kind .previous = (id :: before.reverse).find? (s.Matches kind ·)
  siblings_next : ∀ kind, LongestStart (s.Absorbable kind) (s.siblings id kind .next) after
  siblings_previous : ∀ kind,
    LongestEnd (s.Absorbable kind) (s.siblings id kind .previous) before

/-- A search looks along the trail for a live link of the kind. -/
theorem find?_eq (s : Sequence) (id : LinkId) (kind : String) (direction : Direction) :
    s.find? id kind direction = (s.trail direction id).find? (s.Matches kind ·) := by
  have htest : (fun other => s.isLive other && s.value other == kind) =
      fun other => decide (s.Matches kind other) := by
    funext other
    rw [Bool.eq_iff_iff, decide_eq_true_iff]
    simp [isLive, Matches]
  rw [find?, htest]

/-- Walks and searches along a chain read the list of its links. -/
theorem IsChain.readsAs (hs : s.WellFormed) (h : s.IsChain (before ++ id :: after)) :
    s.ReadsAs before id after where
  head_eq := h.head_eq hs (by simp)
  tail_eq := h.tail_eq hs (by simp)
  iter_eq := h.trail_next hs
  toTokens_eq := by
    rw [toTokens, iter, h.trail_next hs]
    rfl
  find_next kind := by rw [find?_eq, h.trail_next hs]
  find_previous kind := by rw [find?_eq, h.trail_previous hs]
  siblings_next kind := by
    rw [siblings, h.trail_next hs]
    exact longestStart_takeWhile (isAbsorbable_iff kind) after
  siblings_previous kind := by
    rw [siblings, h.trail_previous hs]
    apply LongestStart.reverse
    exact longestStart_takeWhile (isAbsorbable_iff kind) before.reverse

/-! ## Changing -/

/-- A change replaces one chain by another and leaves all other chains as they are. -/
structure Rechained (s s' : Sequence) (chain chain' : List LinkId) : Prop where
  wellFormed : s'.WellFormed
  isChain : s'.IsChain chain'
  others : ∀ other, (∀ id ∈ other, id ∉ chain ∧ id ∉ chain') →
    (s'.IsChain other ↔ s.IsChain other)

/-- When a change leaves the other chains, it makes no new ones of their links. -/
theorem IsChain.of_others (hs : s.WellFormed) (hs' : s'.WellFormed) (hchain : s.IsChain chain)
    (hkept : ∀ other, s.IsChain other → (∀ id ∈ other, id ∉ chain) → s'.IsChain other)
    (h : s'.IsChain other) (hother : ∀ id ∈ other, id < s.size ∧ id ∉ chain) :
    s.IsChain other := by
  cases other with
  | nil => exact .nil
  | cons first rest =>
    obtain ⟨hlt, hnot⟩ := hother first List.mem_cons_self
    obtain ⟨before, after, hfirst⟩ := hs.exists_chain hlt
    have hmem : first ∈ before ++ first :: after := by simp
    have hdisjoint : ∀ id ∈ before ++ first :: after, id ∉ chain := by
      intro id hid hin
      exact hnot (hfirst.eq_of_mem hs hchain hid hin ▸ hmem)
    have hsame := h.eq_of_mem hs' (hkept _ hfirst hdisjoint) List.mem_cons_self hmem
    rw [hsame]
    exact hfirst

/-- What pushing a token after a link does when the link's chain is a list: a live link with the
token comes right after it, and all other links keep their states, texts and kinds. -/
structure PushesInto (s : Sequence) (before : List LinkId) (id : LinkId) (after : List LinkId)
    (token : Token) : Prop extends
    Rechained s (s.pushAfter (some id) token) (before ++ id :: after)
      (before ++ id :: s.size :: after) where
  size_eq : (s.pushAfter (some id) token).size = s.size + 1
  new : (s.pushAfter (some id) token).state s.size = .live ∧
    (s.pushAfter (some id) token).data s.size = token.data ∧
    (s.pushAfter (some id) token).value s.size = token.value
  old : ∀ other < s.size, (s.pushAfter (some id) token).state other = s.state other ∧
    (s.pushAfter (some id) token).data other = s.data other ∧
    (s.pushAfter (some id) token).value other = s.value other

/-- Pushing after a link of a chain puts the new link into the list there. -/
theorem IsChain.pushesInto (hs : s.WellFormed) (h : s.IsChain (before ++ id :: after))
    (hreach : s.state id ≠ .removed) (token : Token) : s.PushesInto before id after token := by
  have hid : id < s.size := h.lt_size id (by simp)
  have htoken := hs.token_pushAfter hid token
  have hpushed : (s.pushAfter (some id) token).WellFormed := by
    apply hs.pushAfter token
    intro link hlink
    exact Option.some.inj hlink ▸ ⟨hid, hreach⟩
  have hkept : ∀ other, s.IsChain other → (∀ link ∈ other, link ∉ before ++ id :: after) →
      (s.pushAfter (some id) token).IsChain other := by
    intro other hother hdisjoint
    apply hother.pushAfter_of_notMem hs
    intro link hlink
    obtain rfl := Option.some.inj hlink
    exact ⟨hid, fun hmem => hdisjoint _ hmem (by simp)⟩
  constructor
  case toRechained =>
    refine ⟨hpushed, h.pushAfter_mid hs token, fun other hother => ⟨fun hchain => ?_, ?_⟩⟩
    · apply IsChain.of_others hs hpushed h hkept hchain
      refine fun link hlink => ⟨?_, (hother link hlink).1⟩
      have hlt := hchain.lt_size link hlink
      have hne : link ≠ s.size := by
        rintro rfl
        exact (hother _ hlink).2 (by simp)
      rw [size_pushAfter] at hlt
      exact Nat.lt_of_le_of_ne (Nat.le_of_lt_succ hlt) hne
    · intro hchain
      exact hkept other hchain fun link hlink => (hother link hlink).1
  case size_eq => simp
  case new =>
    refine ⟨?_, ?_⟩
    · rw [hs.state_pushAfter hid, state_size]
    · have hnew := htoken s.size
      rw [if_pos rfl] at hnew
      exact ⟨congrArg Token.data hnew, congrArg Token.value hnew⟩
  case old =>
    intro other hother
    have hold := htoken other
    rw [if_neg (Nat.ne_of_lt hother)] at hold
    exact ⟨hs.state_pushAfter hid token other, token_eq_iff.mp hold⟩

/-- What removing a link does when its chain is a list: the result is the first link that came
after, no other link changes its state and none its text and kind, and removing the link again
changes nothing and gives nothing. -/
structure RemovesFrom (s : Sequence) (before : List LinkId) (id : LinkId) (after : List LinkId) :
    Prop extends Rechained s (s.remove id).1 (before ++ id :: after) (before ++ after) where
  size_eq : (s.remove id).1.size = s.size
  next_eq : (s.remove id).2 = after.head?
  state_eq : ∀ other,
    (s.remove id).1.state other = if other = id then .removed else s.state other
  text_eq : ∀ other, (s.remove id).1.data other = s.data other ∧
    (s.remove id).1.value other = s.value other
  again : (s.remove id).1.remove id = ((s.remove id).1, none)

/-- Removing a link of a chain takes it out of the list. -/
theorem IsChain.removesFrom (hs : s.WellFormed) (h : s.IsChain (before ++ id :: after))
    (hreach : s.state id ≠ .removed) : s.RemovesFrom before id after := by
  have hid : id < s.size := h.lt_size id (by simp)
  have hremoved := hs.remove hid
  have hkept : ∀ other, s.IsChain other → (∀ link ∈ other, link ∉ before ++ id :: after) →
      (s.remove id).1.IsChain other := by
    intro other hother hdisjoint
    apply hother.remove_of_notMem hs hid hreach
    intro hmem
    exact hdisjoint id hmem (by simp)
  constructor
  case toRechained =>
    refine ⟨hremoved, h.remove_mid hs hreach, fun other hother => ⟨fun hchain => ?_, ?_⟩⟩
    · apply IsChain.of_others hs hremoved h hkept hchain
      refine fun link hlink => ⟨?_, (hother link hlink).1⟩
      rw [← size_remove s id]
      exact hchain.lt_size link hlink
    · intro hchain
      exact hkept other hchain fun link hlink => (hother link hlink).1
  case size_eq => exact size_remove s id
  case next_eq => rw [remove_snd hreach, h.next_eq]
  case state_eq => exact hs.state_remove hid hreach
  case text_eq => exact fun other => token_eq_iff.mp (hs.token_remove hid hreach other)
  case again => exact remove_of_removed (hs.state_remove_self hid)

/-! ## The list of a link -/

/-- Every operation on a link that is not removed is the operation on the list of its chain: the
chain splits at the link in exactly one way, walks and searches read the two parts, and pushing
after the link and removing it change the list there and leave everything else. -/
theorem WellFormed.refines_lists (hs : s.WellFormed) (hid : id < s.size)
    (hreach : s.state id ≠ .removed) :
    ∃ before after, s.IsChain (before ++ id :: after) ∧
      (∀ chain, s.IsChain chain → id ∈ chain → chain = before ++ id :: after) ∧
      s.ReadsAs before id after ∧ (∀ token, s.PushesInto before id after token) ∧
      s.RemovesFrom before id after := by
  obtain ⟨before, after, h⟩ := hs.exists_chain hid
  refine ⟨before, after, h, fun chain hchain hmem => ?_, h.readsAs hs,
    fun token => h.pushesInto hs hreach token, h.removesFrom hs hreach⟩
  exact hchain.eq_of_mem hs h hmem (by simp)

/-- Texts of which one is claimed and one emptied. -/
def usedTexts : Sequence :=
  (((ofTokens
    [{ value := "t", data := "a" }, { value := "t", data := "b" }, { value := "t", data := "c" },
      { value := "t", data := "d" }, { value := "t", data := "e" }]).claim 1).empty 4).1

/-- The used texts hang together. -/
theorem usedTexts_wellFormed : usedTexts.WellFormed := by
  have hfresh := (ofTokens_spec [{ value := "t", data := "a" }, { value := "t", data := "b" },
    { value := "t", data := "c" }, { value := "t", data := "d" }, { value := "t", data := "e" }]).1
  exact (hfresh.claim (by decide)).empty (by decide)

/-- A text between a claimed and an emptied one, seen as part of a list. -/
theorem WellFormed.refines_lists_usedTexts :
    usedTexts.WellFormed ∧ 3 < usedTexts.size ∧ usedTexts.state 3 ≠ .removed ∧
    ∃ before after, usedTexts.IsChain (before ++ 3 :: after) ∧
      (∀ chain, usedTexts.IsChain chain → 3 ∈ chain → chain = before ++ 3 :: after) ∧
      usedTexts.ReadsAs before 3 after ∧ (∀ token, usedTexts.PushesInto before 3 after token) ∧
      usedTexts.RemovesFrom before 3 after :=
  ⟨usedTexts_wellFormed, by decide, by decide,
    usedTexts_wellFormed.refines_lists (by decide) (by decide)⟩

end Sequence

end DocTree
