import DocTree.Intake
import DocTree.Proofs.Pruning

/-!
# Tokens added to a chain

Most classifiers put every token after the last link, so that a batch adds one link for each token
right after that link, under the next free ids. Chains made of tokens alone come about in the same
way.
-/

namespace DocTree

/-- The classifier puts every token after the last link. -/
def Classifier.Appends (classifier : Classifier) : Prop :=
  ∀ s token last, classifier.classify s token last = (s.pushAfter (some last) token, s.size)

namespace Sequence

variable {s s' : Sequence} {before after : List LinkId} {last last' : LinkId} {token : Token}
  {tokens : List Token}

/-- Pushing after a link or without neighbours changes no state. -/
theorem WellFormed.state_pushAfter_of_lt (hs : s.WellFormed) {link : Option LinkId}
    (hlink : ∀ id ∈ link, id < s.size) (token : Token) (id : LinkId) :
    (s.pushAfter link token).state id = s.state id := by
  cases link with
  | none => exact state_push s token id
  | some link => exact hs.state_pushAfter (hlink link rfl) token id

/-- Pushing after a link or without neighbours brings a new token, and changes no other. -/
theorem WellFormed.token_pushAfter_of_lt (hs : s.WellFormed) {link : Option LinkId}
    (hlink : ∀ id ∈ link, id < s.size) (token : Token) (id : LinkId) :
    ((s.pushAfter link token).link id).token =
      if id = s.size then token else (s.link id).token := by
  cases link with
  | none => exact token_push s token id
  | some link => exact hs.token_pushAfter (hlink link rfl) token id

/-- One sequence comes from another by putting tokens after a link of a chain. The last link is then
the last one of the new links, or else the link at hand; new links are live, and everything else
stays. -/
structure Appended (s : Sequence) (before : List LinkId) (last : LinkId) (after : List LinkId)
    (tokens : List Token) (s' : Sequence) (last' : LinkId) : Prop where
  wellFormed : s'.WellFormed
  size_eq : s'.size = s.size + tokens.length
  chain : s'.IsChain (before ++ last :: (List.range' s.size tokens.length ++ after))
  last_eq : (last :: List.range' s.size tokens.length).getLast? = some last'
  state_eq : ∀ id, s'.state id = s.state id
  token_eq : ∀ id < s.size, (s'.link id).token = (s.link id).token
  tokens_eq : (List.range' s.size tokens.length).map (fun id => (s'.link id).token) = tokens
  others : ∀ chain, s.IsChain chain → last ∉ chain → s'.IsChain chain

namespace Appended

/-- Without tokens nothing changes. -/
theorem nil (hs : s.WellFormed) (h : s.IsChain (before ++ last :: after)) :
    Appended s before last after [] s last :=
  ⟨hs, rfl, h, rfl, fun _ => rfl, fun _ _ => rfl, rfl, fun _ h _ => h⟩

/-- The first token is put after the link at hand, and the others after the first. -/
theorem cons (hs : s.WellFormed) (hlast : last < s.size)
    (hrest : Appended (s.pushAfter (some last) token) (before ++ [last]) s.size after tokens s'
      last') :
    Appended s before last after (token :: tokens) s' last' := by
  have hrange : List.range' s.size (token :: tokens).length =
      s.size :: List.range' (s.pushAfter (some last) token).size tokens.length := by
    rw [size_pushAfter, List.length_cons, List.range'_succ]
  have htoken := hs.token_pushAfter hlast token
  have hlt : ∀ id < s.size, id < (s.pushAfter (some last) token).size := fun id hid => by
    rw [size_pushAfter]
    exact Nat.lt_succ_of_lt hid
  exact {
    wellFormed := hrest.wellFormed
    size_eq := by rw [hrest.size_eq, size_pushAfter, List.length_cons]; omega
    chain := by
      rw [hrange]
      simpa using hrest.chain
    last_eq := by
      rw [hrange, List.getLast?_cons_cons]
      exact hrest.last_eq
    state_eq := fun id => (hrest.state_eq id).trans (hs.state_pushAfter hlast token id)
    token_eq := fun id hid => by
      rw [hrest.token_eq id (hlt id hid), htoken, if_neg (Nat.ne_of_lt hid)]
    tokens_eq := by
      rw [hrange, List.map_cons, hrest.tokens_eq, hrest.token_eq s.size (by simp), htoken,
        if_pos rfl]
    others := fun chain hchain hnot =>
      have hafter : ∀ link ∈ some last, link < s.size ∧ link ∉ chain := fun link hlink =>
        Option.some.inj hlink ▸ ⟨hlast, hnot⟩
      hrest.others chain (hchain.pushAfter_of_notMem hs hafter token) fun hmem =>
        Nat.lt_irrefl _ (hchain.lt_size s.size hmem) }

/-- The last link lies in the sequence, and is in a chain if the link at hand is in one. -/
theorem last_spec (h : Appended s before last after tokens s' last')
    (hreach : s.state last ≠ .removed) :
    last' < s'.size ∧ s'.state last' ≠ .removed := by
  have hmem : last' ∈ last :: List.range' s.size tokens.length := List.mem_of_getLast? h.last_eq
  refine ⟨h.chain.lt_size last' ?_, ?_⟩
  · rcases List.mem_cons.mp hmem with rfl | hmem
    · simp
    · simp [hmem]
  · rw [h.state_eq]
    rcases List.mem_cons.mp hmem with rfl | hmem
    · exact hreach
    · have hnew : s.size ≤ last' := (List.mem_range'_1.mp hmem).1
      simp [state, link_of_size_le hnew]

end Appended

/-- A batch is put after a link of a chain. -/
theorem appended_classifyAll {classifier : Classifier} (hclassifier : classifier.Appends)
    (hs : s.WellFormed) (h : s.IsChain (before ++ last :: after)) (hreach : s.state last ≠ .removed)
    (tokens : List Token) :
    Appended s before last after tokens (Intake.classifyAll classifier s last tokens).1
      (Intake.classifyAll classifier s last tokens).2 := by
  induction tokens generalizing s before last with
  | nil => exact .nil hs h
  | cons token tokens ih =>
    have hlast : last < s.size := h.lt_size last (by simp)
    have hchain : (s.pushAfter (some last) token).IsChain
        ((before ++ [last]) ++ s.size :: after) := by
      simpa using h.pushAfter_mid hs token
    have hpush : (s.pushAfter (some last) token).WellFormed :=
      hs.pushAfter token fun link hlink => by
        obtain rfl := Option.some.inj hlink
        exact ⟨hlast, hreach⟩
    have hnew : (s.pushAfter (some last) token).state s.size ≠ .removed := by
      rw [hs.state_pushAfter hlast, state_size]
      simp
    have hrest := ih hpush hchain hnew
    simp only [Intake.classifyAll, hclassifier s token last]
    exact .cons hs hlast hrest

/-- A batch is put after its sentinel, which is live, wherever the sentinel was pushed. -/
theorem appended_batch {classifier : Classifier} (hclassifier : classifier.Appends)
    (hs : s.WellFormed) {link : Option LinkId}
    (hlink : ∀ id ∈ link, id < s.size ∧ s.state id ≠ .removed)
    (h : (s.pushAfter link {}).IsChain (before ++ s.size :: after)) (tokens : List Token) :
    (s.pushAfter link {}).state s.size = .live ∧
      Appended (s.pushAfter link {}) before s.size after tokens
        (Intake.classifyAll classifier (s.pushAfter link {}) s.size tokens).1
        (Intake.classifyAll classifier (s.pushAfter link {}) s.size tokens).2 := by
  have hstate : (s.pushAfter link {}).state s.size = .live := by
    rw [hs.state_pushAfter_of_lt fun id hid => (hlink id hid).1, state_size]
  have hreach : (s.pushAfter link {}).state s.size ≠ .removed := by simp [hstate]
  exact ⟨hstate, appended_classifyAll hclassifier (hs.pushAfter {} hlink) h hreach tokens⟩

namespace Appended

variable {link : Option LinkId}

/-- A batch leaves the links that were there their tokens. -/
theorem token_of_lt (h : Appended (s.pushAfter link {}) before s.size after tokens s' last')
    (hs : s.WellFormed) (hlink : ∀ id ∈ link, id < s.size) {id : LinkId} (hid : id < s.size) :
    (s'.link id).token = (s.link id).token := by
  have hlt : id < (s.pushAfter link {}).size := by
    rw [size_pushAfter]
    exact Nat.lt_succ_of_lt hid
  rw [h.token_eq id hlt, hs.token_pushAfter_of_lt hlink, if_neg (Nat.ne_of_lt hid)]

/-- The sentinel holds a blank token, and the links after it hold the tokens of the batch. -/
theorem batch_eq (h : Appended (s.pushAfter link {}) before s.size after tokens s' last')
    (hs : s.WellFormed) (hlink : ∀ id ∈ link, id < s.size) :
    (s.size :: List.range' (s.size + 1) tokens.length).map (fun id => (s'.link id).token) =
      {} :: tokens := by
  have hsentinel : (s'.link s.size).token = {} := by
    rw [h.token_eq s.size (by simp), hs.token_pushAfter_of_lt hlink, if_pos rfl]
  have hnew := h.tokens_eq
  rw [size_pushAfter] at hnew
  rw [List.map_cons, hsentinel, hnew]

end Appended

/-- Every token goes after the last link when a sequence is made of tokens. -/
theorem foldl_pushAfter (s : Sequence) (last : LinkId) (tokens : List Token) :
    tokens.foldl (fun (s, last) token => (s.pushAfter last token, some s.size)) (s, some last) =
      ((Intake.classifyAll .plain s last tokens).1,
        some (Intake.classifyAll .plain s last tokens).2) := by
  induction tokens generalizing s last with
  | nil => rfl
  | cons token tokens ih => exact ih _ _

/-- A sequence made of tokens comes about by putting them after the link of the first one. -/
theorem appended_ofTokens (token : Token) (tokens : List Token) :
    ∃ last, Appended (({} : Sequence).push token) [] 0 [] tokens (ofTokens (token :: tokens))
      last := by
  have hreach : (({} : Sequence).push token).state 0 ≠ .removed := by
    rw [state_push]
    simp [state, show ({} : Sequence).link 0 = {} from rfl]
  have hchain : (({} : Sequence).push token).IsChain ([] ++ 0 :: []) := IsChain.push_new {} token
  have hplain : Classifier.plain.Appends := fun _ _ _ => rfl
  have happended :=
    appended_classifyAll hplain (wellFormed_empty.push token) hchain hreach tokens
  have heq : ofTokens (token :: tokens) =
      (Intake.classifyAll .plain (({} : Sequence).push token) 0 tokens).1 :=
    congrArg Prod.fst (foldl_pushAfter (({} : Sequence).push token) 0 tokens)
  exact ⟨_, heq ▸ happended⟩

/-- A sequence made of tokens is one chain of links that hold them, in order. -/
theorem ofTokens_spec (tokens : List Token) :
    (ofTokens tokens).WellFormed ∧ (ofTokens tokens).IsChain (List.range tokens.length) ∧
      (List.range tokens.length).map (fun id => ((ofTokens tokens).link id).token) = tokens := by
  cases tokens with
  | nil => exact ⟨wellFormed_empty, .nil, rfl⟩
  | cons token tokens =>
    obtain ⟨last, happended⟩ := appended_ofTokens token tokens
    have hrange : List.range (token :: tokens).length = 0 :: List.range' 1 tokens.length := by
      rw [List.length_cons, List.range_eq_range', List.range'_succ]
    have hchain : (ofTokens (token :: tokens)).IsChain
        (0 :: (List.range' 1 tokens.length ++ [])) := happended.chain
    rw [List.append_nil] at hchain
    rw [hrange]
    refine ⟨happended.wellFormed, hchain, ?_⟩
    rw [List.map_cons, happended.token_eq 0 (by simp), token_push]
    exact congrArg (token :: ·) happended.tokens_eq

/-- A sequence made of tokens has one link for each, and all of them are live. -/
theorem ofTokens_fresh (tokens : List Token) :
    (ofTokens tokens).size = tokens.length ∧ ∀ id, (ofTokens tokens).state id = .live := by
  have hlink : ∀ id, ({} : Sequence).link id = {} := fun id => link_of_size_le (Nat.zero_le id)
  have hblank : ∀ id, ({} : Sequence).state id = .live := fun id => by rw [state, hlink]
  cases tokens with
  | nil => exact ⟨rfl, hblank⟩
  | cons token tokens =>
    obtain ⟨last, happended⟩ := appended_ofTokens token tokens
    refine ⟨?_, fun id => ?_⟩
    · rw [happended.size_eq, size_push, List.length_cons, Nat.add_comm, ← Nat.add_assoc]
      rfl
    · rw [happended.state_eq, state_push]
      exact hblank id

end Sequence

end DocTree
