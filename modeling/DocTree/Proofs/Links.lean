import DocTree.Sequence
import Mathlib.Tactic.Common

/-!
# What the operations do to single links

Each operation on a sequence is described by the link that it leaves under every id. An operation
that closes or opens a gap writes to the neighbours of its link as well, so that its description
needs the neighbours to be in the sequence and different from the link itself; sequences whose
links hang together provide this.
-/

namespace DocTree

namespace Sequence

variable {s : Sequence} {id other : LinkId}

/-- Outside a sequence every link is blank. -/
theorem link_of_size_le (h : s.size ≤ id) : s.link id = {} := by
  have hget : s.links[id]? = none := Array.getElem?_eq_none h
  simp [link, hget]

/-- A link that was not pushed yet is live. -/
theorem state_size (s : Sequence) : s.state s.size = .live := by
  simp [state, link_of_size_le]

/-- Nothing precedes a link that was not pushed yet. -/
theorem previous_size (s : Sequence) : s.previous s.size = none := by
  simp [previous, link_of_size_le]

/-- A link with a kind lies in its sequence. -/
theorem lt_size_of_value_ne (h : s.value id ≠ "") : id < s.size := by
  by_contra hlt
  exact h (by simp [value, link_of_size_le (Nat.le_of_not_lt hlt)])

/-- A link with a successor lies in its sequence. -/
theorem lt_size_of_next (h : s.next id = some other) : id < s.size := by
  by_contra hlt
  simp [next, link_of_size_le (Nat.le_of_not_lt hlt)] at h

/-- A link with a predecessor lies in its sequence. -/
theorem lt_size_of_previous (h : s.previous id = some other) : id < s.size := by
  by_contra hlt
  simp [previous, link_of_size_le (Nat.le_of_not_lt hlt)] at h

/-- Being live is a matter of the state. -/
theorem isLive_iff : s.isLive id = true ↔ s.state id = .live := by
  simp [isLive]

/-- Being in a chain is a matter of the state. -/
theorem isReachable_iff : s.isReachable id = true ↔ s.state id ≠ .removed := by
  simp [isReachable]

/-- Two links hold the same token when their texts and kinds agree. -/
theorem token_eq_iff {s' : Sequence} :
    (s'.link other).token = (s.link id).token ↔
      s'.data other = s.data id ∧ s'.value other = s.value id := by
  simp [Link.token, data, value, and_comm]

/-- A link holds the blank token when it has neither text nor kind. -/
theorem token_eq_blank_iff : (s.link id).token = {} ↔ s.data id = "" ∧ s.value id = "" := by
  simp [Link.token, data, value, and_comm]

/-! ## Single changes -/

/-- A change leaves the changed link under its id, and every other link as it was. -/
theorem link_modify (s : Sequence) (id : LinkId) (f : Link → Link) (other : LinkId) :
    (s.modify id f).link other =
      if other = id ∧ id < s.size then f (s.link id) else s.link other := by
  by_cases heq : other = id
  · subst heq
    by_cases hlt : other < s.size
    · simp [link_modify_self hlt, hlt]
    · have hle : s.size ≤ other := Nat.le_of_not_lt hlt
      rw [link_of_size_le (by simpa using hle)]
      simp [hlt, link_of_size_le hle]
  · simp [heq, link_modify_of_ne heq]

/-- A change that spares one part of every link leaves that part of every link. -/
theorem field_modify {α : Type} (field : Link → α) {f : Link → Link}
    (hf : ∀ link, field (f link) = field link) (s : Sequence) (id other : LinkId) :
    field ((s.modify id f).link other) = field (s.link other) := by
  rw [link_modify]
  split
  · next h => rw [hf, h.1]
  · rfl

/-! ## Claiming -/

/-- Claiming changes no text. -/
@[simp]
theorem data_claim (s : Sequence) (id other : LinkId) : (s.claim id).data other = s.data other :=
  field_modify Link.data (fun link => by split <;> rfl) s id other

/-- Claiming changes no kind. -/
@[simp]
theorem value_claim (s : Sequence) (id other : LinkId) : (s.claim id).value other = s.value other :=
  field_modify Link.value (fun link => by split <;> rfl) s id other

/-- Claiming changes no bond. -/
@[simp]
theorem previous_claim (s : Sequence) (id other : LinkId) :
    (s.claim id).previous other = s.previous other :=
  field_modify Link.previous (fun link => by split <;> rfl) s id other

/-- Claiming changes no bond. -/
@[simp]
theorem next_claim (s : Sequence) (id other : LinkId) : (s.claim id).next other = s.next other :=
  field_modify Link.next (fun link => by split <;> rfl) s id other

/-- A claimed link was live, and only the link at hand can become claimed. -/
theorem state_claim (hid : id < s.size) (other : LinkId) :
    (s.claim id).state other =
      if other = id ∧ s.state id = .live then .claimed else s.state other := by
  simp only [state, claim, link_modify, hid, and_true]
  by_cases heq : other = id
  · subst heq
    by_cases hlive : (s.link other).state = .live
    · simp [hlive]
    · simp [hlive]
  · simp [heq]

/-! ## Emptying -/

/-- Emptying changes no bond. -/
@[simp]
theorem previous_empty (s : Sequence) (id other : LinkId) :
    (s.empty id).1.previous other = s.previous other := by
  unfold empty
  split
  · apply field_modify Link.previous
    intro link
    rfl
  · rfl

/-- Emptying changes no bond. -/
@[simp]
theorem next_empty (s : Sequence) (id other : LinkId) :
    (s.empty id).1.next other = s.next other := by
  unfold empty
  split
  · apply field_modify Link.next
    intro link
    rfl
  · rfl

/-- Emptying clears the token of a link that is in a chain, and no other token. -/
theorem token_empty (hid : id < s.size) (hreach : s.state id ≠ .removed) (other : LinkId) :
    ((s.empty id).1.link other).token = if other = id then {} else (s.link other).token := by
  rw [← isReachable_iff] at hreach
  simp only [empty, hreach, if_true, link_modify, hid, and_true]
  split
  · rfl
  · rfl

/-- Emptying marks a link that is in a chain, and no other link. -/
theorem state_empty (hid : id < s.size) (hreach : s.state id ≠ .removed) (other : LinkId) :
    (s.empty id).1.state other = if other = id then .emptied else s.state other := by
  rw [← isReachable_iff] at hreach
  simp only [empty, hreach, if_true, state, link_modify, hid, and_true]
  split
  · rfl
  · rfl

/-- Emptying gives the text of a link that is in a chain. -/
theorem empty_snd (h : s.state id ≠ .removed) : (s.empty id).2 = s.data id := by
  rw [← isReachable_iff] at h
  simp [empty, h]

/-- Emptying a removed link changes nothing. -/
theorem empty_of_removed (h : s.state id = .removed) : s.empty id = (s, "") := by
  simp [empty, isReachable, h]

/-! ## Pushing -/

/-- Pushing adds a link for the token, and changes no link that was there. -/
theorem link_push (s : Sequence) (token : Token) (other : LinkId) :
    (s.push token).link other = if other = s.size then .ofToken token else s.link other := by
  by_cases h : other = s.size
  · simp [h]
  · simp [h, link_push_of_ne h]

/-- Pushing leaves what a new link shares with the blank link. -/
theorem field_push {α : Type} (field : Link → α) {token : Token}
    (hfield : field (.ofToken token) = field {}) (s : Sequence) (other : LinkId) :
    field ((s.push token).link other) = field (s.link other) := by
  by_cases h : other = s.size
  · rw [h, link_push_size, link_of_size_le (Nat.le_refl _), hfield]
  · rw [link_push_of_ne h]

/-- Pushing changes no bond. -/
@[simp]
theorem previous_push (s : Sequence) (token : Token) (other : LinkId) :
    (s.push token).previous other = s.previous other :=
  field_push Link.previous rfl s other

/-- Pushing changes no bond. -/
@[simp]
theorem next_push (s : Sequence) (token : Token) (other : LinkId) :
    (s.push token).next other = s.next other :=
  field_push Link.next rfl s other

/-- Pushing changes no state. -/
@[simp]
theorem state_push (s : Sequence) (token : Token) (other : LinkId) :
    (s.push token).state other = s.state other :=
  field_push Link.state rfl s other

/-- Pushing brings a new token, and changes no other. -/
theorem token_push (s : Sequence) (token : Token) (other : LinkId) :
    ((s.push token).link other).token = if other = s.size then token else (s.link other).token := by
  rw [link_push]
  split <;> rfl

/-! ## Changes among neighbours -/

/-- Putting a link after another one points both of them, and the former successor, at each
other. -/
theorem link_linkAfter {after : LinkId} (hafter : after < s.size) (hid : id < s.size)
    (hne : id ≠ after)
    (hsuccessor : ∀ next, s.next after = some next → next < s.size ∧ next ≠ after ∧ next ≠ id)
    (other : LinkId) :
    (s.linkAfter after id).link other =
      if other = id then { s.link id with previous := some after, next := s.next after }
      else if other = after then { s.link after with next := some id }
      else if s.next after = some other then { s.link other with previous := some id }
      else s.link other := by
  cases hnext : s.next after with
  | none =>
    simp only [linkAfter, hnext, setNext, setPrevious, link_modify, size_modify, hafter, hid,
      and_true, if_true, if_neg hne]
    by_cases heq : other = id
    · simp [heq]
    · simp [heq]
  | some successor =>
    obtain ⟨hlt, hself, hother⟩ := hsuccessor successor hnext
    simp only [linkAfter, hnext, setNext, setPrevious, link_modify, size_modify, hafter, hid, hlt,
      and_true, if_true, if_neg hne, if_neg hself, if_neg hother, Option.some.injEq]
    by_cases heq : other = id
    · simp [heq, Ne.symm hother]
    · by_cases hnear : other = successor
      · simp [hnear, hself, hother]
      · simp [hnear, Ne.symm hnear, heq]

/-- Removing a link detaches it and points its neighbours at each other. -/
theorem link_remove (hid : id < s.size) (hreach : s.state id ≠ .removed)
    (hprevious : ∀ previous, s.previous id = some previous → previous < s.size ∧ previous ≠ id)
    (hnext : ∀ next, s.next id = some next → next < s.size ∧ next ≠ id) (other : LinkId) :
    (s.remove id).1.link other =
      if other = id then { s.link id with previous := none, next := none, state := .removed }
      else { s.link other with
        previous := if s.next id = some other then s.previous id else s.previous other
        next := if s.previous id = some other then s.next id else s.next other } := by
  rw [← isReachable_iff] at hreach
  simp only [remove, hreach, if_true]
  by_cases hself : other = id
  · subst hself
    cases hp : s.previous other <;> cases hn : s.next other <;>
      simp [setNext, setPrevious, link_modify, hid] <;>
      grind
  · have hsame : s.link other = { s.link other with
        previous := s.previous other, next := s.next other } := rfl
    cases hp : s.previous id <;> cases hn : s.next id <;>
      simp only [setNext, setPrevious, link_modify, size_modify, hself, false_and, if_false,
        reduceCtorEq, Option.some.injEq] <;>
      grind

/-- Removing a link gives its successor. -/
theorem remove_snd (h : s.state id ≠ .removed) : (s.remove id).2 = s.next id := by
  rw [← isReachable_iff] at h
  simp [remove, h]

/-- Removing a removed link changes nothing. -/
theorem remove_of_removed (h : s.state id = .removed) : s.remove id = (s, none) := by
  simp [remove, isReachable, h]

end Sequence

end DocTree
