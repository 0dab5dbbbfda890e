import DocTree.Construction
import DocTree.Proofs.Consumption

/-!
# Claiming a link and absorbing the runs beside it

The run of a kind beside a link is part of the link's chain, so that no link is on it twice and the
link itself is not on it. Emptying such a run uses up exactly its links, and gives the paragraphs of
their texts in order. A node that was begun has therefore the paragraphs of its own link between
those of two runs of live links.
-/

namespace DocTree

namespace Sequence

variable {s s' : Sequence} {id other : LinkId} {ids : List LinkId} {kind : String}
  {direction : Direction}

/-- The list holds live links, each once. -/
structure IsRun (s : Sequence) (ids : List LinkId) : Prop where
  nodup : ids.Nodup
  lt_size : ∀ id ∈ ids, id < s.size
  live : ∀ id ∈ ids, s.state id = .live

/-- The empty list is a run. -/
theorem IsRun.nil : s.IsRun [] :=
  ⟨by simp, by simp, by simp⟩

/-- What follows on a run is still a run when the first link has been emptied. -/
theorem IsRun.rest (h : s.IsRun (id :: ids)) : (s.empty id).1.IsRun ids where
  nodup := h.nodup.of_cons
  lt_size other hother := by
    rw [size_empty]
    exact h.lt_size other (List.mem_cons_of_mem _ hother)
  live other hother := by
    have hlive := h.live id List.mem_cons_self
    have hne : other ≠ id := fun heq => (List.nodup_cons.mp h.nodup).1 (heq ▸ hother)
    rw [state_empty (h.lt_size id List.mem_cons_self) (by simp [hlive]), if_neg hne]
    exact h.live other (List.mem_cons_of_mem _ hother)

namespace WellFormed

/-- A trail meets no link twice. -/
theorem nodup_trail (hs : s.WellFormed) (direction : Direction) (hid : id < s.size) :
    (s.trail direction id).Nodup := by
  obtain ⟨before, after, hchain⟩ := hs.exists_chain hid
  have hnodup := hchain.nodup hs
  cases direction with
  | next =>
    rw [hchain.trail_next hs]
    exact (List.nodup_append.mp hnodup).2.1
  | previous =>
    rw [hchain.trail_previous hs, ← List.nodup_reverse]
    have hback : (before ++ [id]).Nodup := hnodup.sublist (by simp)
    simpa using hback

/-- The run of a kind beside a link is part of the trail from there, without the link itself. -/
theorem siblings_subset (kind : String) (direction : Direction) :
    ∀ other ∈ s.siblings id kind direction,
      other ∈ (s.trail direction id).drop 1 ∧ s.isAbsorbable kind other = true := by
  intro other hother
  have hrun : other ∈ ((s.trail direction id).drop 1).takeWhile (s.isAbsorbable kind) := by
    cases direction <;> simpa [siblings] using hother
  exact ⟨(List.takeWhile_sublist _).mem hrun, List.all_eq_true.mp List.all_takeWhile other hrun⟩

/-- The run of a kind beside a link holds live links, each once. -/
theorem isRun_siblings (hs : s.WellFormed) (hid : id < s.size) (kind : String)
    (direction : Direction) : s.IsRun (s.siblings id kind direction) where
  nodup := by
    have hrun : (((s.trail direction id).drop 1).takeWhile (s.isAbsorbable kind)).Nodup :=
      ((hs.nodup_trail direction hid).sublist (List.drop_sublist _ _)).sublist
        (List.takeWhile_sublist _)
    cases direction <;> simpa [siblings] using hrun
  lt_size other hother :=
    hs.lt_of_mem_trail hid other
      (List.mem_of_mem_drop (siblings_subset kind direction other hother).1)
  live other hother := by
    have habsorbable := (siblings_subset kind direction other hother).2
    simp only [isAbsorbable, Bool.and_eq_true] at habsorbable
    exact isLive_iff.mp habsorbable.1.1

end WellFormed

end Sequence

namespace Construction

open Sequence

variable {s : Sequence} {id : LinkId} {ids : List LinkId} {kind : Kind}

/-- Emptying a run uses up its links. -/
theorem consumes_takeParagraphs (hs : s.WellFormed) (h : s.IsRun ids) :
    Consumes s (takeParagraphs s ids).1 := by
  induction ids generalizing s with
  | nil => exact .refl hs
  | cons id ids ih =>
    have hid := h.lt_size id List.mem_cons_self
    have hempty := Consumes.empty hs hid (h.live id List.mem_cons_self)
    exact hempty.trans (ih hempty.wellFormed h.rest)

/-- What is absorbed is the text of a run, which is emptied. -/
theorem absorb_spec (hs : s.WellFormed) (hid : id < s.size) (node : String) (direction : Direction)
    (absorbed : Option String) :
    ∃ run, s.IsRun run ∧
      (absorb s id node direction absorbed).sequence = (takeParagraphs s run).1 ∧
      (absorb s id node direction absorbed).result = (takeParagraphs s run).2 := by
  cases absorbed with
  | none => exact ⟨[], .nil, rfl, rfl⟩
  | some kind =>
    exact ⟨s.siblings id kind direction, hs.isRun_siblings hid kind direction, rfl, rfl⟩

/-- A node is begun by claiming its link and emptying one run after the other. -/
theorem begin_spec (hs : s.WellFormed) (hid : id < s.size) (kind : Kind) :
    ∃ before after, (s.claim id).IsRun before ∧
      (takeParagraphs (s.claim id) before).1.IsRun after ∧
      (begin s id kind).sequence =
        (takeParagraphs (takeParagraphs (s.claim id) before).1 after).1 ∧
      (begin s id kind).node =
        { name := s.value id
          payload := (takeParagraphs (s.claim id) before).2 ++ Paragraph.split (s.data id) ++
            (takeParagraphs (takeParagraphs (s.claim id) before).1 after).2
          primary := kind.primary, children := [], attributes := [] } := by
  have hclaim := Consumes.claim hs hid
  obtain ⟨before, hbefore, hsequence, hresult⟩ := absorb_spec hclaim.wellFormed
    (hclaim.size_eq ▸ hid) (s.value id) .previous kind.absorbPrevious
  have htaken := consumes_takeParagraphs hclaim.wellFormed hbefore
  obtain ⟨after, hafter, hsequence', hresult'⟩ := absorb_spec htaken.wellFormed
    (htaken.size_eq ▸ hclaim.size_eq ▸ hid) (s.value id) .next kind.absorbNext
  refine ⟨before, after, hbefore, hafter, ?_, ?_⟩
  · simp only [begin, value_claim, hsequence]
    exact hsequence'
  · simp only [begin, Node.leaf, value_claim, data_claim, hsequence, hresult, hresult']

/-- Claiming a link and absorbing the runs beside it uses up links. -/
theorem consumes_begin (hs : s.WellFormed) (hid : id < s.size) (kind : Kind) :
    Consumes (s.claim id) (begin s id kind).sequence := by
  obtain ⟨before, after, hbefore, hafter, hsequence, -⟩ := begin_spec hs hid kind
  have hclaim := Consumes.claim hs hid
  have htaken := consumes_takeParagraphs hclaim.wellFormed hbefore
  rw [hsequence]
  exact htaken.trans (consumes_takeParagraphs htaken.wellFormed hafter)

end Construction

end DocTree
