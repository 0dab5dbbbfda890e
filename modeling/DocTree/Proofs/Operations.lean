import DocTree.Proofs.CheckedBuilding
import DocTree.Proofs.Growth

/-!
# Sequences in use

Everything that a sequence goes through is an operation: a link is pushed, linked, claimed, emptied
or removed, a chain is pruned, a node is built, or a document. With declared kinds every operation
on links of a well-formed sequence comes to an end, is refused no link on its way, and leaves a
well-formed sequence. Sequences that come from the empty one are therefore well-formed throughout.
-/

namespace DocTree

/-- What a sequence goes through. -/
inductive Operation where
  /-- A link is added without neighbours. -/
  | push (token : Token)
  /-- A link is added right after another one, or without neighbours. -/
  | pushAfter (after : Option LinkId) (token : Token)
  /-- A link is put after another one. -/
  | linkAfter (after id : LinkId)
  | claim (id : LinkId)
  | empty (id : LinkId)
  | remove (id : LinkId)
  /-- The links without text are removed from a link on. -/
  | pruneEmpty (first : LinkId)
  | create (registry : Registry) (name : String) (id : LinkId)
  | construct (kind : Kind) (registry : Registry) (id : LinkId)
  | assemble (registry : Registry)

namespace Operation

/-- When an operation may be carried out: the links that it names are in the sequence, a link that
it links to is in a chain and a link that it links has no neighbours, and nodes are built by
declared kinds. -/
def Admissible (s : Sequence) : Operation → Prop
  | push _ => True
  | pushAfter after _ => ∀ link ∈ after, link < s.size ∧ s.state link ≠ .removed
  | linkAfter after id => (after < s.size ∧ s.state after ≠ .removed) ∧ id < s.size ∧ id ≠ after ∧
      s.previous id = none ∧ s.next id = none ∧ s.state id ≠ .removed
  | claim id | empty id | remove id => id < s.size
  | pruneEmpty first => first < s.size ∧ s.state first ≠ .removed
  | create registry _ id | construct _ registry id => registry.Declared ∧ id < s.size
  | assemble registry => registry.Declared

/-- The sequence after an operation, if it comes to an end. -/
def run (s : Sequence) : Operation → Option Sequence
  | push token => some (s.push token)
  | pushAfter after token => some (s.pushAfter after token)
  | linkAfter after id => some (s.linkAfter after id)
  | claim id => some (s.claim id)
  | empty id => some (s.empty id).1
  | remove id => some (s.remove id).1
  | pruneEmpty first => some (s.pruneEmpty first).1
  | create registry name id => (registry.create name s id).map Built.sequence
  | construct kind registry id => (kind.construct registry s id).map Built.sequence
  | assemble registry => (s.assemble registry).map Built.sequence

/-- The sequence after an operation, if it comes to an end and neither reads nor writes a link
outside the sequence. -/
def runChecked (s : Sequence) : Operation → Option Sequence
  | push token => some (s.push token)
  | pushAfter after token => Checked.pushAfter s after token
  | linkAfter after id => Checked.linkAfter s after id
  | claim id => Checked.claim s id
  | empty id => (Checked.empty s id).map Prod.fst
  | remove id => (Checked.remove s id).map Prod.fst
  | pruneEmpty first => (Checked.pruneEmpty s first).map Prod.fst
  | create registry name id => (Checked.create registry name s id).map Built.sequence
  | construct kind registry id => (Checked.construct kind registry s id).map Built.sequence
  | assemble registry => (Checked.assemble registry s).map Built.sequence

variable {s s' : Sequence} {operation : Operation}

/-- An admissible operation is refused no link. -/
theorem runChecked_eq (hs : s.WellFormed) (h : operation.Admissible s) :
    operation.runChecked s = operation.run s := by
  cases operation with
  | push token => rfl
  | pushAfter after token =>
    exact Checked.pushAfter_eq hs (fun link hlink => (h link hlink).1) token
  | linkAfter after id => exact Checked.linkAfter_eq hs h.1.1 h.2.1
  | claim id => exact Checked.claim_eq h
  | empty id => simp [runChecked, run, Checked.empty_eq h]
  | remove id => simp [runChecked, run, Checked.remove_eq hs h]
  | pruneEmpty first => simp [runChecked, run, Checked.pruneEmpty_eq hs h.1]
  | create registry name id => simp [runChecked, run, Checked.create_eq h.1 hs h.2]
  | construct kind registry id => simp [runChecked, run, Checked.construct_eq h.1 hs h.2]
  | assemble registry => simp [runChecked, run, Checked.assemble_eq h hs]

/-- An admissible operation comes to an end and leaves a well-formed sequence. -/
theorem run_total (hs : s.WellFormed) (h : operation.Admissible s) :
    ∃ s', operation.run s = some s' ∧ s'.WellFormed := by
  cases operation with
  | push token => exact ⟨_, rfl, hs.push token⟩
  | pushAfter after token => exact ⟨_, rfl, hs.pushAfter token h⟩
  | linkAfter after id =>
    obtain ⟨⟨hafter, hreachAfter⟩, hid, hne, hprevious, hnext, hreach⟩ := h
    exact ⟨_, rfl, hs.linkAfter hafter hid hne hprevious hnext hreach hreachAfter⟩
  | claim id => exact ⟨_, rfl, hs.claim h⟩
  | empty id => exact ⟨_, rfl, hs.empty h⟩
  | remove id => exact ⟨_, rfl, hs.remove h⟩
  | pruneEmpty first =>
    obtain ⟨before, after, hchain⟩ := hs.exists_chain h.1
    exact ⟨_, rfl, (Sequence.pruned_pruneEmpty hs hchain h.2).1.wellFormed⟩
  | create registry name id =>
    obtain ⟨built, hbuilt, hcreates⟩ := registry.create_total h.1 hs h.2 name
    exact ⟨built.sequence, by simp [run, hbuilt], (hcreates.consumes hs h.2).wellFormed⟩
  | construct kind registry id =>
    obtain ⟨done, hdone, hextracts⟩ := kind.construct_total h.1 hs h.2
    exact ⟨done.sequence, by simp [run, hdone, Construction.Extraction.finish],
      (hextracts.consumes (Construction.consumes_begin hs h.2 kind).wellFormed).wellFormed⟩
  | assemble registry =>
    obtain ⟨done, hdone, hwalks⟩ := s.assemble_total h hs
    exact ⟨done.sequence, by simp [run, hdone], (hwalks.consumes h hs).wellFormed⟩

/-- The sequences that come from the empty one by admissible operations. -/
inductive Reachable : Sequence → Prop where
  | start : Reachable {}
  | step {s s' : Sequence} {operation : Operation} (hs : Reachable s)
      (h : operation.Admissible s) (hrun : operation.run s = some s') : Reachable s'

/-- Every sequence in use is well-formed. -/
theorem Reachable.wellFormed (h : Reachable s) : s.WellFormed := by
  induction h with
  | start => exact Sequence.wellFormed_empty
  | step _ h hrun ih =>
    obtain ⟨s', hrun', hs'⟩ := run_total ih h
    exact Option.some.inj (hrun'.symm.trans hrun) ▸ hs'

/-- The empty sequence is well-formed, and every admissible operation on a well-formed sequence
comes to an end without reading or writing a link outside the sequence, and leaves a well-formed
sequence. -/
theorem wellFormed_preserved :
    ({} : Sequence).WellFormed ∧
      ∀ (s : Sequence) (operation : Operation), s.WellFormed → operation.Admissible s →
        ∃ s', operation.run s = some s' ∧ operation.runChecked s = some s' ∧ s'.WellFormed := by
  refine ⟨Sequence.wellFormed_empty, fun s operation hs h => ?_⟩
  obtain ⟨s', hrun, hs'⟩ := run_total hs h
  exact ⟨s', hrun, (runChecked_eq hs h).trans hrun, hs'⟩

/-- A document is built from a list in a list. -/
theorem wellFormed_preserved_list :
    ∃ registry, Registry.ofKinds [{ names := ["list"], children := ["list"] }] = .ok registry ∧
      (assemble registry).Admissible (Sequence.ofTokens [{ value := "list" }, { value := "list" }]) ∧
      ∃ s', (assemble registry).run
          (Sequence.ofTokens [{ value := "list" }, { value := "list" }]) = some s' ∧
        (assemble registry).runChecked
          (Sequence.ofTokens [{ value := "list" }, { value := "list" }]) = some s' ∧
        s'.WellFormed :=
  have hdeclared := Registry.declared_ofKinds [{ names := ["list"], children := ["list"] }] rfl
  ⟨_, rfl, hdeclared, wellFormed_preserved.2 _ _ (Sequence.ofTokens_spec _).1 hdeclared⟩

end Operation

end DocTree
