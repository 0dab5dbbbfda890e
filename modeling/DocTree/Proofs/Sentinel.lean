import DocTree.Proofs.Layout
import DocTree.Proofs.PlainIntake

/-!
# The sentinel does not show

An intake puts a blank link before every batch, and a pruning one removes it again together with the
links without text. Neither can be seen in the document: all that is left of the sequence is one
chain which holds the tokens, maybe behind a blank link. Assembly goes past the blank link, and from
there on does what it does with the tokens alone.
-/

namespace DocTree

open Sequence

variable {registry : Registry} {s : Sequence} {lead ids : List LinkId} {tokens : List Token}

/-- All that is left of a sequence is one chain of live links, which holds the tokens behind some
blank links. -/
structure Sequence.HoldsOnly (s : Sequence) (lead ids : List LinkId) (tokens : List Token) : Prop
    extends s.Holds lead ids tokens where
  mem_iff : ∀ id, id ∈ lead ++ ids ↔ id < s.size ∧ s.state id ≠ .removed

/-- Two sequences are assembled to the same document. -/
def SameDocument (registry : Registry) (s t : Sequence) : Prop :=
  ∃ built built', s.assemble registry = some built ∧ t.assemble registry = some built' ∧
    built.result = built'.result

/-- A sequence that holds nothing but tokens is assembled to the document of the tokens alone. -/
theorem Sequence.HoldsOnly.sameDocument (h : s.HoldsOnly lead ids tokens)
    (hregistry : registry.Declared) : SameDocument registry s (Sequence.ofTokens tokens) := by
  obtain ⟨done, hdone, hwalks⟩ := assemble_total hregistry h.wellFormed
  rw [h.isChain.heads_eq h.mem_iff] at hwalks
  obtain ⟨document, hdocument, hnodes⟩ := hwalks.of_toList.document hregistry h.toHolds
  exact ⟨_, document, hdone, hdocument, congrArg Document.mk hnodes⟩

/-! ## What intakes hold -/

namespace Intake

/-- A plain batch is held behind the sentinel. -/
theorem holds_plain (tokens : List Token) :
    (({} : Intake).parse tokens).1.sequence.HoldsOnly [0] (List.range' 1 tokens.length) tokens := by
  obtain ⟨hmirrors, -⟩ := Mirrors.start.parse tokens
  have hsize := hmirrors.size_eq
  have hids : (({} : Intake).parse tokens).1.sequence.ids = [0] ++ List.range' 1 tokens.length := by
    rw [ids, hsize, List.range_eq_range']
    simp [marked, List.range'_succ]
  have htokens := hmirrors.tokens_eq
  rw [hids] at htokens
  simp only [List.map_cons, marked, List.nil_append, List.singleton_append,
    List.cons.injEq] at htokens
  exact {
    wellFormed := hmirrors.wellFormed
    isChain := hids ▸ hmirrors.isChain
    mem_iff := fun id => by simp [← hids, ids, hmirrors.live]
    live := fun id _ => hmirrors.live id
    blank := fun id hid => by
      rw [List.mem_singleton.mp hid]
      exact htokens.1
    tokens_eq := htokens.2 }

/-- Of a pruned batch the tokens with text are held, and the sentinel is gone. -/
theorem holds_pruned (tokens : List Token) :
    ∃ ids, (({ classifier := .pruning } : Intake).parse tokens).1.sequence.HoldsOnly [] ids
      (kept tokens) := by
  obtain ⟨linked, last, hsettled⟩ := joined_start.settled tokens
  have hs : ({ classifier := .pruning } : Intake).sequence.WellFormed := wellFormed_empty
  have hfollows : ({ classifier := .pruning } : Intake).Follows := joined_start.follows
  have hsize := hsettled.pruned.size_eq.trans hsettled.appended.size_eq
  rw [size_pushAfter] at hsize
  have hids : (({ classifier := .pruning } : Intake).parse tokens).1.sequence.ids =
      ({ classifier := .pruning } : Intake).batchLinks tokens := by
    have hzero : ({ classifier := .pruning } : Intake).sequence.size = 0 := rfl
    rw [ids, hsize, batchLinks, hzero, Nat.zero_add, Nat.add_comm, List.range_eq_range',
      List.range'_succ, Nat.zero_add]
  have hchain := hsettled.pruned.chain
  rw [List.append_nil] at hchain
  refine ⟨linked.withText (({ classifier := .pruning } : Intake).batchLinks tokens), ?_⟩
  exact {
    wellFormed := hsettled.pruned.wellFormed
    isChain := hchain
    mem_iff := fun id => by
      rw [List.nil_append, withText, List.mem_filter, ← hids, ids, List.mem_range]
      refine and_congr_right fun hlt => ?_
      have hid : id ∈ (({ classifier := .pruning } : Intake).parse tokens).1.sequence.ids :=
        List.mem_range.mpr hlt
      rw [hsettled.state_of_mem hs hfollows (hids ▸ hid)]
      by_cases hdata : linked.data id = "" <;> simp [hdata]
    live := fun id hid => by
      obtain ⟨hmem, hdata⟩ := List.mem_filter.mp hid
      rw [hsettled.state_of_mem hs hfollows hmem, if_neg (by simpa using hdata)]
    blank := by simp
    tokens_eq := hsettled.kept_eq hs hfollows }

/-- What a fresh intake takes in with its first batch is assembled to the document of the tokens
laid out by themselves, and so it is when the batch is pruned, of the tokens with text. -/
theorem parse_sameDocument (hregistry : registry.Declared) (tokens : List Token) :
    SameDocument registry (({} : Intake).parse tokens).1.sequence (Sequence.ofTokens tokens) ∧
      SameDocument registry (({ classifier := .pruning } : Intake).parse tokens).1.sequence
        (Sequence.ofTokens (kept tokens)) := by
  obtain ⟨ids, hpruned⟩ := holds_pruned tokens
  exact ⟨(holds_plain tokens).sameDocument hregistry, hpruned.sameDocument hregistry⟩

/-- A blank item comes before the list that would take it in. -/
def lateList : List Token :=
  [{ value := "item" }, { value := "item", data := "a" }, { value := "list", data := "b" },
    { value := "", data := "c" }, { value := "item", data := "d" }]

/-- The list takes all items up, and the text without a kind is left. -/
def lateNodes (items : List Node) : List Node :=
  [{ Node.leaf "list" ["b"] with children := [("item", items)] }]

/-- With lists that take items in, the sentinel before the items does not show. -/
theorem parse_sameDocument_lateList :
    ∃ registry, Registry.ofKinds listKinds = .ok registry ∧
      (SameDocument registry (({} : Intake).parse lateList).1.sequence
          (Sequence.ofTokens lateList) ∧
        SameDocument registry (({ classifier := .pruning } : Intake).parse lateList).1.sequence
          (Sequence.ofTokens (kept lateList))) ∧
      ((({} : Intake).parse lateList).1.sequence.assemble registry).map
          (fun built => built.result.nodes) = some
        (lateNodes ([[], ["a"], ["d"]].map fun payload =>
          { Node.leaf "item" payload with primary := false })) ∧
      ((({ classifier := .pruning } : Intake).parse lateList).1.sequence.assemble registry).map
          (fun built => built.result.nodes) = some
        (lateNodes ([["a"], ["d"]].map fun payload =>
          { Node.leaf "item" payload with primary := false })) := by
  obtain ⟨registry, hregistry⟩ : ∃ registry, Registry.ofKinds listKinds = .ok registry := ⟨_, rfl⟩
  refine ⟨registry, hregistry,
    parse_sameDocument (Registry.declared_ofKinds listKinds hregistry) lateList, ?_⟩
  obtain rfl := Except.ok.inj hregistry
  constructor <;> cbv

end Intake

end DocTree
