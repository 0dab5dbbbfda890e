import DocTree.Proofs.Declared

/-!
# Accepted kinds

A declaration is accepted if it can be used: it has names, none of its names and absorbed kinds is
empty, and its child kinds give slots that are not taken by the fields of a node. A registry that
was filled by registering kinds holds accepted kinds only.
-/

namespace DocTree

/-- A slot name is empty exactly if the kind has no character that a slot may have. -/
theorem slotName_ne_iff {kind : String} :
    slotName kind ≠ "" ↔ ∃ c ∈ kind.toList, isSlotChar c = true := by
  rw [slotName, Ne, String.ofList_eq_empty_iff, List.filter_eq_nil_iff]
  simp

namespace Kind

/-- A declaration that can be used: it has names, none of its names and absorbed kinds is empty, and
each child kind has a character that a slot may have and does not give the slot of a field. -/
structure Sound (kind : Kind) : Prop where
  named : kind.names ≠ []
  names_ne : ∀ name ∈ kind.names, name ≠ ""
  absorbed_ne : kind.absorbPrevious ≠ some "" ∧ kind.absorbNext ≠ some ""
  slots : ∀ child ∈ kind.children,
    (∃ c ∈ child.toList, isSlotChar c = true) ∧ slotName child ∉ reservedSlots

/-- A child kind has a usable slot exactly if nothing is wrong with it. -/
theorem childFault?_eq_none_iff {label child : String} :
    childFault? label child = none ↔
      (∃ c ∈ child.toList, isSlotChar c = true) ∧ slotName child ∉ reservedSlots := by
  rw [← slotName_ne_iff, childFault?]
  by_cases hslot : slotName child = ""
  · simp [hslot]
  · by_cases hreserved : slotName child ∈ reservedSlots <;> simp [hslot, hreserved]

/-- A kind is accepted exactly if it can be used. -/
theorem fault?_eq_none_iff {kind : Kind} : kind.fault? = none ↔ kind.Sound := by
  obtain ⟨names, primary, absorbPrevious, absorbNext, children⟩ := kind
  cases names with
  | nil => exact ⟨fun h => absurd h (by simp [fault?]), fun h => absurd rfl h.named⟩
  | cons label names =>
    have hchildren : children.findSome? (childFault? label) = none ↔ ∀ child ∈ children,
        (∃ c ∈ child.toList, isSlotChar c = true) ∧ slotName child ∉ reservedSlots := by
      simp only [List.findSome?_eq_none_iff, childFault?_eq_none_iff]
    constructor
    · intro h
      simp only [fault?] at h
      split_ifs at h with hname habsorbed
      exact {
        named := by simp
        names_ne := fun name hmem hempty => hname (hempty ▸ hmem)
        absorbed_ne := not_or.mp habsorbed
        slots := hchildren.mp h }
    · rintro ⟨-, hnames, habsorbed, hslots⟩
      have hname : "" ∉ label :: names := fun hmem => hnames "" hmem rfl
      simp only [fault?, hname, if_false, not_or.mpr habsorbed]
      exact hchildren.mpr hslots

/-- The slot of a child kind of an accepted kind has a name that no field takes. -/
theorem slotName_spec {kind : Kind} (h : kind.fault? = none) {child : String}
    (hchild : child ∈ kind.children) : slotName child ≠ "" ∧ slotName child ∉ reservedSlots :=
  ((fault?_eq_none_iff.mp h).slots child hchild).imp_left slotName_ne_iff.mpr

end Kind

namespace Registry

variable {registry registry' : Registry}

/-- Every entry is a declared kind that is accepted. -/
def Accepted (registry : Registry) : Prop :=
  ∀ entry ∈ registry.entries, ∃ kind, entry.2.build = .declared kind ∧ kind.fault? = none

/-- Accepted kinds are declared kinds. -/
theorem Accepted.declared (h : registry.Accepted) : registry.Declared := by
  intro entry hentry
  obtain ⟨kind, hbuild, -⟩ := h entry hentry
  exact ⟨kind, hbuild⟩

/-- What is found in a registry of accepted kinds is an accepted kind. -/
theorem Accepted.fault?_eq (h : registry.Accepted) {name : String} {entry : Entry} {kind : Kind}
    (hentry : registry.find? name = some entry) (hbuild : entry.build = .declared kind) :
    kind.fault? = none := by
  obtain ⟨before, after, hentries, -⟩ := List.lookup_eq_some_iff.mp hentry
  obtain ⟨kind', hbuild', hkind⟩ := h (name, entry) (by simp [hentries])
  obtain rfl : kind' = kind := Constructor.declared.inj (hbuild'.symm.trans hbuild)
  exact hkind

/-- Nothing is registered to begin with. -/
theorem accepted_empty : ({} : Registry).Accepted :=
  fun _ h => absurd h List.not_mem_nil

/-- A registry of accepted kinds stays one when a kind is registered under its names. -/
theorem Accepted.register (h : registry.Accepted) {kind : Kind}
    (hok : registry.register kind = .ok registry') : registry'.Accepted := by
  have hkind : kind.fault? = none := by
    unfold Registry.register at hok
    split at hok
    · cases hok
    · next hkind => exact hkind
  intro entry hentry
  rcases mem_entries_register hok hentry with hold | hnew
  · exact h entry hold
  · exact ⟨kind, congrArg Entry.build hnew, hkind⟩

/-- A registry of accepted kinds stays one when a kind is registered under any name. -/
theorem Accepted.registerAs (h : registry.Accepted) {name : String} {kind : Kind}
    (hok : registry.registerAs name kind = .ok registry') : registry'.Accepted := by
  unfold Registry.registerAs at hok
  split at hok
  · cases hok
  · next hkind =>
    obtain rfl := Except.ok.inj hok
    intro entry hentry
    rcases Keyed.mem_insertWith hentry with hold | ⟨-, -, hnew, -⟩
    · exact h entry hold
    · exact ⟨kind, congrArg Entry.build hnew, hkind⟩

/-- Registering kinds gives registries of accepted kinds. -/
theorem Registered.accepted (h : Registered registry) : registry.Accepted := by
  induction h with
  | empty => exact accepted_empty
  | register _ hok ih => exact ih.register hok

end Registry

end DocTree
