import DocTree.Proofs.Assembly
import DocTree.Proofs.Growth

/-!
# Batches after assembly

An intake goes on after the link that the last batch ended with. Assembly may have removed that link
in the meantime, and a sentinel that is put after a removed link takes the batch out of everybody's
sight: the chain begins with a link that no walk starts from. As long as no batch follows a removed
link, every state of every run is intact; the first batch that follows one breaks it.
-/

namespace DocTree

namespace Sequence

variable {s : Sequence} {id last after other : LinkId}

/-- No link that is in a chain stands beside a removed link, and its chain does not begin with
one. -/
structure Intact (s : Sequence) : Prop where
  neighbours : ∀ id < s.size, s.state id ≠ .removed → ∀ direction other,
    s.step direction id = some other → s.state other ≠ .removed
  head : ∀ id < s.size, s.state id ≠ .removed → s.state (s.head id) ≠ .removed

/-- Well-formed sequences are intact. -/
theorem WellFormed.intact (hs : s.WellFormed) : s.Intact where
  neighbours _ _ _ _ _ hstep := hs.state_step hstep
  head id hid hreach := by
    obtain ⟨before, after, hchain⟩ := hs.exists_chain hid
    have hhead : s.head id ∈ before ++ id :: after :=
      List.mem_of_head? (hchain.head_eq hs (by simp))
    exact hchain.state_ne hs (by simp) hreach _ hhead

/-- Pushing after a link that nothing follows points the two at each other, whatever else is wrong
with the sequence. -/
theorem link_pushAfter_of_next (hafter : after < s.size) (hfree : s.next after = none)
    (token : Token) (other : LinkId) :
    (s.pushAfter (some after) token).link other =
      if other = s.size then { Link.ofToken token with previous := some after }
      else if other = after then { s.link after with next := some s.size }
      else s.link other := by
  have hlt : after < (s.push token).size := WellFormed.lt_size_push hafter token
  have hfree' : (s.push token).next after = none := (next_push s token after).trans hfree
  rw [pushAfter, link_linkAfter hlt (by simp) (Nat.ne_of_gt hafter) (by simp [hfree']) other, hfree',
    link_push_size, link_push_of_ne (Nat.ne_of_lt hafter)]
  by_cases hnew : other = s.size
  · simp [hnew, Link.ofToken]
  · simp [hnew, link_push_of_ne hnew]

/-- A batch changes neither the predecessor nor the state of a link that was there, whatever else is
wrong with the sequence. -/
theorem previous_classifyAll {classifier : Classifier} (hclassifier : classifier.Appends)
    (hlast : last < s.size) (hfree : s.next last = none) (tokens : List Token) :
    ∀ id < s.size,
      (Intake.classifyAll classifier s last tokens).1.previous id = s.previous id ∧
        (Intake.classifyAll classifier s last tokens).1.state id = s.state id := by
  induction tokens generalizing s last with
  | nil => exact fun _ _ => ⟨rfl, rfl⟩
  | cons token tokens ih =>
    intro id hid
    have hlink := link_pushAfter_of_next hlast hfree token
    have hnew : s.size < (s.pushAfter (some last) token).size := by simp
    have hfree' : (s.pushAfter (some last) token).next s.size = none := by
      simp [next, hlink, Link.ofToken]
    obtain ⟨hprevious, hstate⟩ := ih hnew hfree' id (hid.trans hnew)
    simp only [Intake.classifyAll, hclassifier s token last]
    rw [hprevious, hstate, previous, state, hlink, if_neg (Nat.ne_of_lt hid)]
    split <;> simp_all [previous, state]

end Sequence

/-- What is done with an intake: a batch is taken in, or a document is built by declared kinds from
all that was taken in. -/
inductive Turn where
  | parse (tokens : List Token)
  | assemble (registry : Registry) (declared : registry.Declared)

/-- The intake after a turn. -/
def Turn.run (intake : Intake) : Turn → Option Intake
  | parse tokens => some (intake.parse tokens).1
  | assemble registry _ =>
    (intake.sequence.assemble registry).map fun built =>
      { intake with sequence := built.sequence }

namespace Intake

variable {intake : Intake}

/-- The intake after some turns. -/
def after (intake : Intake) (turns : List Turn) : Option Intake :=
  turns.foldlM Turn.run intake

/-- The next batch does not follow a removed link. -/
def Resumable (intake : Intake) : Prop :=
  ∀ last ∈ intake.last, intake.sequence.state last ≠ .removed

/-- The links of a plain intake hang together, and the one to go on after is among them. -/
structure Ready (intake : Intake) : Prop where
  plain : intake.classifier = .plain
  wellFormed : intake.sequence.WellFormed
  last_lt : ∀ last ∈ intake.last, last < intake.sequence.size

namespace Ready

/-- A new intake is ready. -/
theorem start : ({} : Intake).Ready :=
  ⟨rfl, Sequence.wellFormed_empty, by simp⟩

/-- Assembly comes to an end and leaves an intake ready. -/
theorem assemble (h : intake.Ready) {registry : Registry} (declared : registry.Declared) :
    ∃ intake', (Turn.assemble registry declared).run intake = some intake' ∧ intake'.Ready := by
  obtain ⟨done, hdone, hwalks⟩ := intake.sequence.assemble_total declared h.wellFormed
  have hconsumes := hwalks.consumes declared h.wellFormed
  refine ⟨{ intake with sequence := done.sequence }, by simp [Turn.run, hdone], h.plain,
    hconsumes.wellFormed, fun last hlast => ?_⟩
  exact hconsumes.size_eq.symm ▸ h.last_lt last hlast

/-- A batch that does not follow a removed link leaves an intake ready. -/
theorem parse (h : intake.Ready) (hresume : intake.Resumable) (tokens : List Token) :
    (intake.parse tokens).1.Ready := by
  obtain ⟨classifier, s, first, last⟩ := intake
  obtain rfl : classifier = .plain := h.plain
  have hlast : ∀ link ∈ last, link < s.size ∧ s.state link ≠ .removed := fun link hlink =>
    ⟨h.last_lt link hlink, hresume link hlink⟩
  have hsentinel : s.size < (s.pushAfter last {}).size := by simp
  obtain ⟨before, after, hchain⟩ := (h.wellFormed.pushAfter {} hlast).exists_chain hsentinel
  have hplain : Classifier.plain.Appends := fun _ _ _ => rfl
  obtain ⟨hstate, happended⟩ := Sequence.appended_batch hplain h.wellFormed hlast hchain tokens
  obtain ⟨hlt, hreach⟩ := happended.last_spec (by simp [hstate])
  refine ⟨rfl, happended.wellFormed, fun link hlink => ?_⟩
  simp only [Intake.parse, Classifier.finalize, Sequence.isReachable_iff.mpr hreach, if_true]
    at hlink
  obtain rfl := Option.some.inj hlink
  exact hlt

/-- A batch that follows a removed link stands beside it. -/
theorem not_intact_parse (h : intake.Ready) (hresume : ¬ intake.Resumable) (tokens : List Token) :
    ¬ (intake.parse tokens).1.sequence.Intact := by
  obtain ⟨classifier, s, first, last⟩ := intake
  obtain rfl : classifier = .plain := h.plain
  simp only [Resumable, not_forall, not_not] at hresume
  obtain ⟨last, rfl, hremoved⟩ := hresume
  have hlt : last < s.size := h.last_lt last rfl
  have hplain : Classifier.plain.Appends := fun _ _ _ => rfl
  have hlink := Sequence.link_pushAfter_of_next hlt (h.wellFormed.removed last hremoved).2 {}
  have hsentinel : s.size < (s.pushAfter (some last) {}).size := by simp
  have hfree : (s.pushAfter (some last) {}).next s.size = none := by
    simp [Sequence.next, hlink, Link.ofToken]
  have hbatch := Sequence.previous_classifyAll hplain hsentinel hfree tokens
  obtain ⟨hprevious, hstate⟩ := hbatch s.size hsentinel
  have hbond : (Intake.parse ⟨.plain, s, first, some last⟩ tokens).1.sequence.previous s.size =
      some last := by
    refine hprevious.trans ?_
    simp [Sequence.previous, hlink]
  have hlive : (Intake.parse ⟨.plain, s, first, some last⟩ tokens).1.sequence.state s.size =
      .live := by
    refine hstate.trans ?_
    simp [Sequence.state, hlink, Link.ofToken]
  have hstill : (Intake.parse ⟨.plain, s, first, some last⟩ tokens).1.sequence.state last =
      .removed := by
    refine (hbatch last (hlt.trans hsentinel)).2.trans ?_
    rw [← hremoved, Sequence.state, hlink, if_neg (Nat.ne_of_lt hlt), if_pos rfl, Sequence.state]
  intro hintact
  exact hintact.neighbours s.size (Sequence.lt_size_of_previous hbond) (by simp [hlive]) .previous
    last hbond hstill

end Ready

/-- The turns after the first go on from where it led. -/
theorem after_cons {next : Intake} {turn : Turn} (hrun : turn.run intake = some next)
    (turns : List Turn) : intake.after (turn :: turns) = next.after turns := by
  simp [after, List.foldlM_cons, hrun]

/-- What holds of all states of a run holds of its start and of all states after the first turn. -/
theorem forall_prefix_cons {P : Intake → Prop} {next : Intake} {turn : Turn}
    (hrun : turn.run intake = some next) (turns : List Turn) :
    (∀ before, before <+: turn :: turns →
        ∃ intake', intake.after before = some intake' ∧ P intake') ↔
      P intake ∧
        ∀ before, before <+: turns → ∃ intake', next.after before = some intake' ∧ P intake' := by
  constructor
  · refine fun h => ⟨?_, fun before hbefore => ?_⟩
    · obtain ⟨intake', hafter, hP⟩ := h [] List.nil_prefix
      obtain rfl := Option.some.inj hafter
      exact hP
    · have hall := h (turn :: before) (List.cons_prefix_cons.mpr ⟨rfl, hbefore⟩)
      rwa [after_cons hrun] at hall
  · rintro ⟨hstart, hrest⟩ before hbefore
    rcases List.prefix_cons_iff.mp hbefore with rfl | ⟨tail, rfl, htail⟩
    · exact ⟨intake, rfl, hstart⟩
    · rw [after_cons hrun]
      exact hrest tail htail

/-- What holds before every batch of a run holds of its start, if the first turn is a batch, and
before every later batch. -/
theorem forall_batch_cons {P : Intake → Prop} {next : Intake} {turn : Turn}
    (hrun : turn.run intake = some next) (turns : List Turn) :
    (∀ before tokens, before ++ [.parse tokens] <+: turn :: turns →
        ∃ intake', intake.after before = some intake' ∧ P intake') ↔
      (∀ tokens, turn = .parse tokens → P intake) ∧
        ∀ before tokens, before ++ [.parse tokens] <+: turns →
          ∃ intake', next.after before = some intake' ∧ P intake' := by
  constructor
  · refine fun h => ⟨fun tokens hturn => ?_, fun before tokens hbefore => ?_⟩
    · obtain ⟨intake', hafter, hP⟩ := h [] tokens (by simp [hturn])
      obtain rfl := Option.some.inj hafter
      exact hP
    · have hall := h (turn :: before) tokens (List.cons_prefix_cons.mpr ⟨rfl, hbefore⟩)
      rwa [after_cons hrun] at hall
  · rintro ⟨hstart, hrest⟩ before tokens hbefore
    cases before with
    | nil => exact ⟨intake, rfl, hstart tokens (List.cons_prefix_cons.mp hbefore).1.symm⟩
    | cons first before =>
      obtain ⟨hfirst, htail⟩ := List.cons_prefix_cons.mp (List.cons_append ▸ hbefore)
      rw [hfirst, after_cons hrun]
      exact hrest before tokens htail

/-- Every state of a run from a ready intake is intact exactly if no batch of it follows a removed
link. -/
theorem Ready.intact_iff (h : intake.Ready) (turns : List Turn) :
    (∀ before, before <+: turns →
        ∃ intake', intake.after before = some intake' ∧ intake'.sequence.Intact) ↔
      ∀ before tokens, before ++ [.parse tokens] <+: turns →
        ∃ intake', intake.after before = some intake' ∧ intake'.Resumable := by
  induction turns generalizing intake with
  | nil =>
    refine ⟨fun _ before tokens hbefore => ?_, fun _ before hbefore => ?_⟩
    · simp at hbefore
    · obtain rfl := List.prefix_nil.mp hbefore
      exact ⟨intake, rfl, h.wellFormed.intact⟩
  | cons turn turns ih =>
    cases turn with
    | assemble registry declared =>
      obtain ⟨next, hrun, hnext⟩ := h.assemble declared
      rw [forall_prefix_cons hrun, forall_batch_cons hrun, ih hnext]
      exact and_congr_left' ⟨fun _ _ hturn => (nomatch hturn), fun _ => h.wellFormed.intact⟩
    | parse tokens =>
      have hrun : (Turn.parse tokens).run intake = some (intake.parse tokens).1 := rfl
      rw [forall_prefix_cons hrun, forall_batch_cons hrun]
      by_cases hresume : intake.Resumable
      · rw [ih (h.parse hresume tokens)]
        exact and_congr_left' ⟨fun _ _ _ => hresume, fun _ => h.wellFormed.intact⟩
      · -- The state right after the batch is not intact.
        refine iff_of_false (fun hall => ?_) fun hall => hresume (hall.1 tokens rfl)
        obtain ⟨intake', hafter, hintact⟩ := hall.2 [] List.nil_prefix
        obtain rfl := Option.some.inj hafter
        exact h.not_intact_parse hresume tokens hintact

/-- In a run of a new intake, no link ever stands beside a removed link or on a chain that begins
with one exactly if no batch follows a link that assembly has removed. -/
theorem intact_iff_resumable (turns : List Turn) :
    (∀ before, before <+: turns →
        ∃ intake, Intake.after {} before = some intake ∧ intake.sequence.Intact) ↔
      ∀ before tokens, before ++ [.parse tokens] <+: turns →
        ∃ intake, Intake.after {} before = some intake ∧ intake.Resumable :=
  Ready.start.intact_iff turns

/-- The kind of a chapter that takes paragraphs out as children. -/
def chapterRegistry : Registry :=
  ({} : Registry).insert "f"
    { build := .declared { names := ["f"], children := ["p"] }, primary := true }

/-- A paragraph ends the first batch, assembly removes it, and the second batch follows it. -/
def chapterTurns : List Turn :=
  [.parse [{ value := "f", data := "x" }, { value := "p", data := "y" }],
    .assemble chapterRegistry (Registry.declared_empty.insert "f" _ true),
    .parse [{ value := "f", data := "z" }]]

/-- After the second batch, its sentinel stands behind a removed link. -/
theorem not_intact_chapterTurns :
    ∃ intake, Intake.after {} chapterTurns = some intake ∧ ¬ intake.sequence.Intact := by
  have hstates : (Intake.after {} chapterTurns).map (fun intake =>
      (intake.sequence.state 3, intake.sequence.previous 3, intake.sequence.state 2)) =
        some (.live, some 2, .removed) := by decide +kernel
  obtain ⟨intake, hafter, hstates⟩ := Option.map_eq_some_iff.mp hstates
  obtain ⟨hlive, hprevious, hremoved⟩ : intake.sequence.state 3 = .live ∧
      intake.sequence.previous 3 = some 2 ∧ intake.sequence.state 2 = .removed := by
    simpa using hstates
  refine ⟨intake, hafter, fun hintact => ?_⟩
  exact hintact.neighbours 3 (Sequence.lt_size_of_previous hprevious) (by simp [hlive]) .previous 2
    hprevious hremoved

end Intake

end DocTree
