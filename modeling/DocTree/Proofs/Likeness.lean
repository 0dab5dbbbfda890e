import DocTree.Proofs.Confinement
import Mathlib.Data.List.Find

/-!
# Chains that are alike

Two sequences may hold the same chain under different ids: the links of the one, renamed, are those
of the other, with the same tokens and states, however the chains lie in their sequences and
whatever else is there. In the other sequence blank links may come before the chain; no search stops
at them and no run goes over them. Every operation that goes along a chain gives the same answer on
both, up to the renaming, and every operation that changes a link leaves the two chains alike, so
that building a node does the same on both.
-/

namespace DocTree

namespace Sequence

/-- A chain of one sequence is also in another one, under other ids and behind some blank links that
lead it. Both may have lost some links, but the same ones, and the links have the same tokens and
states. -/
structure Alike (lead : List LinkId) (rename : LinkId → LinkId) (chain : List LinkId)
    (s t : Sequence) : Prop where
  wellFormed : s.WellFormed
  wellFormed' : t.WellFormed
  isChain : s.IsChain (chain.filter s.isReachable)
  isChain' : t.IsChain (lead ++ (chain.filter s.isReachable).map rename)
  nodup : (lead ++ chain.map rename).Nodup
  blank : ∀ id ∈ lead, (t.link id).token = {}
  token_eq : ∀ id ∈ chain, (t.link (rename id)).token = (s.link id).token
  state_eq : ∀ id ∈ chain, t.state (rename id) = s.state id

variable {rename : LinkId → LinkId} {lead chain : List LinkId} {s t : Sequence}
  {id other : LinkId} {kind : String} {direction : Direction}

namespace Alike

/-- Different links have different new names. -/
theorem rename_iff (h : Alike lead rename chain s t) (hid : id ∈ chain) (hother : other ∈ chain) :
    rename other = rename id ↔ other = id :=
  ⟨List.inj_on_of_nodup_map (List.nodup_append.mp h.nodup).2.1 hother hid, congrArg rename⟩

/-- No link is renamed to one that leads. -/
theorem rename_notMem (h : Alike lead rename chain s t) (hid : id ∈ chain) : rename id ∉ lead :=
  fun hmem => (List.nodup_append.mp h.nodup).2.2 _ hmem _ (List.mem_map_of_mem hid) rfl

/-- Links have the same texts. -/
theorem data_eq (h : Alike lead rename chain s t) (hid : id ∈ chain) :
    t.data (rename id) = s.data id :=
  (token_eq_iff.mp (h.token_eq id hid)).1

/-- Links have the same kinds. -/
theorem value_eq (h : Alike lead rename chain s t) (hid : id ∈ chain) :
    t.value (rename id) = s.value id :=
  (token_eq_iff.mp (h.token_eq id hid)).2

/-- A link that is not removed stands on what is left of the chain. -/
theorem stands (h : Alike lead rename chain s t) (hid : id ∈ chain)
    (hreach : s.state id ≠ .removed) :
    s.Stands (chain.filter s.isReachable) id :=
  ⟨h.wellFormed, h.isChain, List.mem_filter.mpr ⟨hid, isReachable_iff.mpr hreach⟩, hreach⟩

/-- The renamed link stands on what is left of the renamed chain. -/
theorem stands' (h : Alike lead rename chain s t) (hid : id ∈ chain)
    (hreach : s.state id ≠ .removed) :
    t.Stands (lead ++ (chain.filter s.isReachable).map rename) (rename id) :=
  ⟨h.wellFormed', h.isChain', List.mem_append_right lead
    (List.mem_map_of_mem (List.mem_filter.mpr ⟨hid, isReachable_iff.mpr hreach⟩)),
    h.state_eq id hid ▸ hreach⟩

/-- What is left of a chain falls into what is before a link and what is after it. -/
theorem exists_split (h : Alike lead rename chain s t) (hid : id ∈ chain)
    (hreach : s.state id ≠ .removed) :
    ∃ before after, s.IsChain (before ++ id :: after) ∧
      t.IsChain ((lead ++ before.map rename) ++ rename id :: after.map rename) := by
  obtain ⟨before, after, hsplit⟩ := List.append_of_mem (h.stands hid hreach).mem
  have hchain := h.isChain
  have hchain' := h.isChain'
  rw [hsplit] at hchain hchain'
  exact ⟨before, after, hchain, by simpa using hchain'⟩

/-! ## Going along a chain -/

/-- The links after a link are the same. -/
theorem next_eq (h : Alike lead rename chain s t) (hid : id ∈ chain)
    (hreach : s.state id ≠ .removed) :
    t.next (rename id) = (s.next id).map rename := by
  obtain ⟨before, after, hchain, hchain'⟩ := h.exists_split hid hreach
  rw [hchain.next_eq, hchain'.next_eq, List.head?_map]

/-- The next link is on the chain as well. -/
theorem mem_of_next (h : Alike lead rename chain s t) (hid : id ∈ chain)
    (hreach : s.state id ≠ .removed) (hnext : s.next id = some other) :
    other ∈ chain ∧ s.state other ≠ .removed := by
  have hmem := h.isChain.mem_of_next (h.stands hid hreach).mem hnext
  exact (List.mem_filter.mp hmem).imp_right isReachable_iff.mp

/-- A walk onwards meets the same links. -/
theorem trail_next_eq (h : Alike lead rename chain s t) (hid : id ∈ chain)
    (hreach : s.state id ≠ .removed) :
    t.trail .next (rename id) = (s.trail .next id).map rename := by
  obtain ⟨before, after, hchain, hchain'⟩ := h.exists_split hid hreach
  rw [hchain.trail_next h.wellFormed, hchain'.trail_next h.wellFormed']
  rfl

/-- A walk backwards meets the same links, and then those that lead. -/
theorem trail_previous_eq (h : Alike lead rename chain s t) (hid : id ∈ chain)
    (hreach : s.state id ≠ .removed) :
    t.trail .previous (rename id) = (s.trail .previous id).map rename ++ lead.reverse := by
  obtain ⟨before, after, hchain, hchain'⟩ := h.exists_split hid hreach
  rw [hchain.trail_previous h.wellFormed, hchain'.trail_previous h.wellFormed', List.reverse_append,
    ← List.map_reverse]
  rfl

/-- A walk stays on what is left of the chain. -/
theorem mem_of_mem_trail (h : Alike lead rename chain s t) (hid : id ∈ chain)
    (hreach : s.state id ≠ .removed) (hother : other ∈ s.trail direction id) :
    other ∈ chain ∧ s.state other ≠ .removed := by
  have hmem := (h.stands hid hreach).mem_of_mem_trail direction other hother
  exact (List.mem_filter.mp hmem).imp_right isReachable_iff.mp

/-- A search stops at the same links of the chain. -/
theorem find?_map_eq (h : Alike lead rename chain s t) {ids : List LinkId}
    (hids : ∀ id ∈ ids, id ∈ chain) (kind : String) :
    (ids.map rename).find? (fun other => t.isLive other && t.value other == kind) =
      (ids.find? fun other => s.isLive other && s.value other == kind).map rename := by
  rw [List.find?_map]
  congr 1
  refine List.find?_congr fun other hother => ?_
  have hmem := hids other hother
  simp [isLive, h.state_eq other hmem, h.value_eq hmem]

/-- A search onwards from a link finds the same link. -/
theorem find?_eq (h : Alike lead rename chain s t) (hid : id ∈ chain)
    (hreach : s.state id ≠ .removed) (kind : String) :
    t.find? (rename id) kind .next = (s.find? id kind .next).map rename := by
  rw [find?, find?, h.trail_next_eq hid hreach]
  exact h.find?_map_eq (fun other hother => (h.mem_of_mem_trail hid hreach hother).1) kind

/-- A search from the beginning of the chain finds the same link, since it does not stop at links
that lead. -/
theorem find?_head_eq (h : Alike lead rename chain s t) (hid : id ∈ chain)
    (hreach : s.state id ≠ .removed) (hkind : kind ≠ "") :
    t.find? (t.head (rename id)) kind .next = (s.find? (s.head id) kind .next).map rename := by
  have hall : s.trail .next (s.head id) = chain.filter s.isReachable :=
    h.isChain.chainOf_eq h.wellFormed (h.stands hid hreach).mem
  have hall' : t.trail .next (t.head (rename id)) =
      lead ++ (chain.filter s.isReachable).map rename :=
    h.isChain'.chainOf_eq h.wellFormed' (h.stands' hid hreach).mem
  have hlead : lead.find? (fun other => t.isLive other && t.value other == kind) = none := by
    refine List.find?_eq_none.mpr fun other hother => ?_
    simp [(token_eq_blank_iff.mp (h.blank other hother)).2, hkind.symm]
  rw [find?, find?, hall, hall', List.find?_append, hlead, Option.none_or]
  exact h.find?_map_eq (fun other hother => List.mem_of_mem_filter hother) kind

/-- A search from the beginning of the chain stays on it. -/
theorem mem_of_find?_head (h : Alike lead rename chain s t) (hid : id ∈ chain)
    (hreach : s.state id ≠ .removed) (hfind : s.find? (s.head id) kind .next = some other) :
    other ∈ chain := by
  have hhead := (h.stands hid hreach).of_mem (h.stands hid hreach).head_mem
  exact List.mem_of_mem_filter
    (hhead.mem_of_mem_trail .next other (List.mem_of_find?_eq_some hfind))

/-- Whether a link may be absorbed is the same. -/
theorem isAbsorbable_eq (h : Alike lead rename chain s t) (hid : id ∈ chain) (kind : String) :
    t.isAbsorbable kind (rename id) = s.isAbsorbable kind id := by
  simp [isAbsorbable, isLive, h.state_eq id hid, h.value_eq hid, h.data_eq hid]

/-- No link that leads may be absorbed. -/
theorem isAbsorbable_lead (h : Alike lead rename chain s t) (hid : id ∈ lead) (kind : String) :
    t.isAbsorbable kind id = false := by
  simp [isAbsorbable, (token_eq_blank_iff.mp (h.blank id hid)).1]

/-- What a list begins with is the same under other names. -/
theorem takeWhile_map_rename {p q : LinkId → Bool} {ids : List LinkId}
    (h : ∀ id ∈ ids, p (rename id) = q id) :
    (ids.map rename).takeWhile p = (ids.takeWhile q).map rename := by
  induction ids with
  | nil => rfl
  | cons id ids ih =>
    have hrest := ih fun other hother => h other (List.mem_cons_of_mem _ hother)
    simp only [List.map_cons, List.takeWhile_cons, h id List.mem_cons_self, hrest]
    split <;> rfl

/-- A run does not go over the links that lead. -/
theorem takeWhile_append_lead (h : Alike lead rename chain s t) (ids : List LinkId)
    (kind : String) :
    (ids ++ lead.reverse).takeWhile (t.isAbsorbable kind) =
      ids.takeWhile (t.isAbsorbable kind) := by
  have hlead : lead.reverse.takeWhile (t.isAbsorbable kind) = [] := by
    cases hreverse : lead.reverse with
    | nil => rfl
    | cons first rest =>
      have hfirst : first ∈ lead := List.mem_reverse.mp (hreverse ▸ List.mem_cons_self)
      exact List.takeWhile_cons_of_neg (by simp [h.isAbsorbable_lead hfirst])
  rw [List.takeWhile_append, hlead, List.append_nil]
  split
  · next hlength => exact ((List.takeWhile_prefix _).eq_of_length hlength).symm
  · rfl

/-- The run of a kind beside a link is the same. -/
theorem siblings_eq (h : Alike lead rename chain s t) (hid : id ∈ chain)
    (hreach : s.state id ≠ .removed) (kind : String) (direction : Direction) :
    t.siblings (rename id) kind direction = (s.siblings id kind direction).map rename := by
  have hrun : (((s.trail direction id).drop 1).map rename).takeWhile (t.isAbsorbable kind) =
      (((s.trail direction id).drop 1).takeWhile (s.isAbsorbable kind)).map rename := by
    refine takeWhile_map_rename fun other hother => ?_
    exact h.isAbsorbable_eq
      (h.mem_of_mem_trail hid hreach (List.mem_of_mem_drop hother)).1 kind
  cases direction with
  | next =>
    rw [siblings, h.trail_next_eq hid hreach, ← List.map_drop]
    exact hrun
  | previous =>
    have hlength : 1 ≤ ((s.trail .previous id).map rename).length := by
      obtain ⟨before, after, hchain, -⟩ := h.exists_split hid hreach
      simp [hchain.trail_previous h.wellFormed]
    rw [siblings, siblings, h.trail_previous_eq hid hreach, List.drop_append_of_le_length hlength,
      h.takeWhile_append_lead, ← List.map_drop, hrun]
    exact List.map_reverse.symm

/-- The run of a kind beside a link is on what is left of the chain. -/
theorem mem_of_mem_siblings (h : Alike lead rename chain s t) (hid : id ∈ chain)
    (hreach : s.state id ≠ .removed) (hother : other ∈ s.siblings id kind direction) :
    other ∈ chain ∧ s.state other ≠ .removed :=
  h.mem_of_mem_trail hid hreach
    (List.mem_of_mem_drop (WellFormed.siblings_subset kind direction other hother).1)

/-! ## Changing a link -/

/-- Chains stay alike when the same is done to the same link of both, and no link is moved. -/
theorem of_bonds {s' t' : Sequence} (h : Alike lead rename chain s t) (hs' : s'.WellFormed)
    (ht' : t'.WellFormed) (hsize : s.size ≤ s'.size) (hsize' : t.size ≤ t'.size)
    (hprevious : ∀ a, s'.previous a = s.previous a) (hnext : ∀ a, s'.next a = s.next a)
    (hprevious' : ∀ a, t'.previous a = t.previous a) (hnext' : ∀ a, t'.next a = t.next a)
    (hreach : ∀ a, s'.isReachable a = s.isReachable a)
    (hblank : ∀ a ∈ lead, (t'.link a).token = {})
    (htoken : ∀ a ∈ chain, (t'.link (rename a)).token = (s'.link a).token)
    (hstate : ∀ a ∈ chain, t'.state (rename a) = s'.state a) : Alike lead rename chain s' t' where
  wellFormed := hs'
  wellFormed' := ht'
  isChain := by
    rw [List.filter_congr fun a _ => hreach a]
    exact h.isChain.of_bonds hsize (fun a _ => hprevious a) fun a _ => hnext a
  isChain' := by
    rw [List.filter_congr fun a _ => hreach a]
    exact h.isChain'.of_bonds hsize' (fun a _ => hprevious' a) fun a _ => hnext' a
  nodup := h.nodup
  blank := hblank
  token_eq := htoken
  state_eq := hstate

/-- Claiming a link leaves chains alike. -/
theorem claim (h : Alike lead rename chain s t) (hid : id ∈ chain)
    (hreach : s.state id ≠ .removed) :
    Alike lead rename chain (s.claim id) (t.claim (rename id)) := by
  have hlt := (h.stands hid hreach).lt_size
  have hlt' := (h.stands' hid hreach).lt_size
  refine h.of_bonds (h.wellFormed.claim hlt) (h.wellFormed'.claim hlt') (by simp) (by simp)
    (by simp) (by simp) (by simp) (by simp) (fun a => ?_) (fun a ha => ?_) (fun a ha => ?_)
    fun a ha => ?_
  · rw [isReachable, isReachable, state_claim hlt]
    split
    · next hclaim =>
      rw [hclaim.1, hclaim.2]
      rfl
    · rfl
  · rw [token_eq_blank_iff, data_claim, value_claim]
    exact token_eq_blank_iff.mp (h.blank a ha)
  · rw [token_eq_iff, data_claim, data_claim, value_claim, value_claim]
    exact ⟨h.data_eq ha, h.value_eq ha⟩
  · rw [state_claim hlt, state_claim hlt', h.state_eq a ha, h.state_eq id hid]
    simp only [h.rename_iff hid ha]

/-- Emptying a link leaves chains alike, and gives the same text. -/
theorem empty (h : Alike lead rename chain s t) (hid : id ∈ chain)
    (hreach : s.state id ≠ .removed) :
    Alike lead rename chain (s.empty id).1 (t.empty (rename id)).1 ∧
      (t.empty (rename id)).2 = (s.empty id).2 := by
  have hlt := (h.stands hid hreach).lt_size
  have hlt' := (h.stands' hid hreach).lt_size
  have hreach' := (h.stands' hid hreach).state_ne
  constructor
  · refine h.of_bonds (h.wellFormed.empty hlt) (h.wellFormed'.empty hlt') (by simp) (by simp)
      (by simp) (by simp) (by simp) (by simp) (fun a => ?_) (fun a ha => ?_) (fun a ha => ?_)
      fun a ha => ?_
    · rw [isReachable, isReachable, state_empty hlt hreach]
      split
      · next heq =>
        rw [heq]
        cases hstate : s.state id <;> first | rfl | exact absurd hstate hreach
      · rfl
    · have hne : a ≠ rename id := fun heq => h.rename_notMem hid (heq ▸ ha)
      rw [token_empty hlt' hreach', if_neg hne, h.blank a ha]
    · rw [token_empty hlt hreach, token_empty hlt' hreach', h.token_eq a ha]
      simp only [h.rename_iff hid ha]
    · rw [state_empty hlt hreach, state_empty hlt' hreach', h.state_eq a ha]
      simp only [h.rename_iff hid ha]
  · rw [empty_snd hreach, empty_snd hreach', h.data_eq hid]

/-- Removing a link leaves chains alike, and gives the same successor. -/
theorem remove (h : Alike lead rename chain s t) (hid : id ∈ chain)
    (hreach : s.state id ≠ .removed) :
    Alike lead rename chain (s.remove id).1 (t.remove (rename id)).1 ∧
      (t.remove (rename id)).2 = (s.remove id).2.map rename := by
  have hlt := (h.stands hid hreach).lt_size
  have hlt' := (h.stands' hid hreach).lt_size
  have hreach' := (h.stands' hid hreach).state_ne
  have hstate := h.wellFormed.state_remove hlt hreach
  have hstate' := h.wellFormed'.state_remove hlt' hreach'
  have hleft : chain.filter (s.remove id).1.isReachable =
      (chain.filter s.isReachable).filter (· ≠ id) := by
    rw [List.filter_filter]
    refine List.filter_congr fun a _ => ?_
    rw [isReachable, isReachable, hstate]
    by_cases heq : a = id
    · simp [heq]
    · simp [heq]
  have hlead : lead.filter (· ≠ rename id) = lead :=
    List.filter_eq_self.mpr fun a ha => by
      simpa using fun heq : a = rename id => h.rename_notMem hid (heq ▸ ha)
  have hleft' : lead ++ ((chain.filter s.isReachable).filter (· ≠ id)).map rename =
      (lead ++ (chain.filter s.isReachable).map rename).filter (· ≠ rename id) := by
    rw [List.filter_append, hlead, List.filter_map]
    congr 2
    refine List.filter_congr fun a ha => ?_
    simp [h.rename_iff hid (List.mem_of_mem_filter ha)]
  constructor
  · exact {
      wellFormed := h.wellFormed.remove hlt
      wellFormed' := h.wellFormed'.remove hlt'
      isChain := hleft ▸ h.isChain.remove h.wellFormed hlt hreach
      isChain' := by
        rw [hleft, hleft']
        exact h.isChain'.remove h.wellFormed' hlt' hreach'
      nodup := h.nodup
      blank := fun a ha => by
        rw [h.wellFormed'.token_remove hlt' hreach', h.blank a ha]
      token_eq := fun a ha => by
        rw [h.wellFormed.token_remove hlt hreach, h.wellFormed'.token_remove hlt' hreach',
          h.token_eq a ha]
      state_eq := fun a ha => by
        rw [hstate, hstate', h.state_eq a ha]
        simp only [h.rename_iff hid ha] }
  · rw [remove_snd hreach, remove_snd hreach', h.next_eq hid hreach]

end Alike

end Sequence

namespace Construction

open Sequence

variable {rename : LinkId → LinkId} {lead chain ids : List LinkId} {s t : Sequence} {id : LinkId}
  {kind : Kind}

/-- Emptying the same links gives the same paragraphs and leaves chains alike. -/
theorem takeParagraphs_alike (h : Alike lead rename chain s t)
    (hids : ∀ id ∈ ids, id ∈ chain ∧ s.state id ≠ .removed) :
    Alike lead rename chain (takeParagraphs s ids).1 (takeParagraphs t (ids.map rename)).1 ∧
      (takeParagraphs t (ids.map rename)).2 = (takeParagraphs s ids).2 ∧
      ∀ id ∈ chain, s.state id ≠ .removed → (takeParagraphs s ids).1.state id ≠ .removed := by
  induction ids generalizing s t with
  | nil => exact ⟨h, rfl, fun _ _ hreach => hreach⟩
  | cons id ids ih =>
    obtain ⟨hid, hreach⟩ := hids id List.mem_cons_self
    obtain ⟨hempty, htext⟩ := h.empty hid hreach
    have hkept : ∀ other, s.state other ≠ .removed → (s.empty id).1.state other ≠ .removed := by
      intro other hother
      rw [state_empty (h.stands hid hreach).lt_size hreach]
      split
      · simp
      · exact hother
    obtain ⟨htaken, hparagraphs, hleft⟩ := ih hempty fun other hother => by
      obtain ⟨hmem, hother⟩ := hids other (List.mem_cons_of_mem _ hother)
      exact ⟨hmem, hkept other hother⟩
    refine ⟨htaken, ?_, fun other hmem hother => hleft other hmem (hkept other hother)⟩
    simp only [takeParagraphs, List.map_cons, htext, hparagraphs]

/-- Absorbing beside the same link gives the same paragraphs and leaves chains alike. -/
theorem absorb_alike (h : Alike lead rename chain s t) (hid : id ∈ chain)
    (hreach : s.state id ≠ .removed) (node : String) (direction : Direction)
    (absorbed : Option String) :
    Alike lead rename chain (absorb s id node direction absorbed).sequence
        (absorb t (rename id) node direction absorbed).sequence ∧
      (absorb t (rename id) node direction absorbed).result =
        (absorb s id node direction absorbed).result ∧
      (absorb s id node direction absorbed).sequence.state id ≠ .removed := by
  cases absorbed with
  | none => exact ⟨h, rfl, hreach⟩
  | some kind =>
    simp only [absorb, h.siblings_eq hid hreach kind direction]
    have hrun : ∀ other ∈ s.siblings id kind direction,
        other ∈ chain ∧ s.state other ≠ .removed := fun _ hother =>
      h.mem_of_mem_siblings hid hreach hother
    obtain ⟨htaken, hparagraphs, hleft⟩ := takeParagraphs_alike h hrun
    exact ⟨htaken, hparagraphs, hleft id hid hreach⟩

/-- Beginning a node from the same link gives the same node and leaves chains alike. -/
theorem begin_alike (h : Alike lead rename chain s t) (hid : id ∈ chain)
    (hreach : s.state id ≠ .removed) (kind : Kind) :
    Alike lead rename chain (begin s id kind).sequence (begin t (rename id) kind).sequence ∧
      (begin t (rename id) kind).node = (begin s id kind).node ∧
      (begin s id kind).sequence.state id ≠ .removed := by
  have hclaim := h.claim hid hreach
  have hclaimed : (s.claim id).state id ≠ .removed := (stands_claim (h.stands hid hreach)).state_ne
  have hvalue : (t.claim (rename id)).value (rename id) = (s.claim id).value id :=
    hclaim.value_eq hid
  have hdata : (t.claim (rename id)).data (rename id) = (s.claim id).data id := hclaim.data_eq hid
  obtain ⟨hbefore, hresult, hleft⟩ := absorb_alike hclaim hid hclaimed ((s.claim id).value id)
    .previous kind.absorbPrevious
  obtain ⟨hafter, hresult', hleft'⟩ := absorb_alike hbefore hid hleft ((s.claim id).value id)
    .next kind.absorbNext
  simp only [begin, hvalue, hdata, hresult, hresult']
  exact ⟨hafter, trivial, hleft'⟩

end Construction

end DocTree
