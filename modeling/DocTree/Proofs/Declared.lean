import DocTree.Registry
import DocTree.Proofs.KeyedLists

/-!
# Registries of declared kinds

A registry that was filled by registering kinds holds declared kinds only, whichever kinds they are
and under whichever names they stand. Recipes alone lead out of this class.
-/

namespace DocTree

namespace Registry

variable {registry registry' : Registry}

/-- Every entry is a declared kind. -/
def Declared (registry : Registry) : Prop :=
  ∀ entry ∈ registry.entries, ∃ kind, entry.2.build = .declared kind

/-- What is found in a registry of declared kinds is a declared kind. -/
theorem Declared.find? (h : registry.Declared) {name : String} {entry : Entry}
    (hentry : registry.find? name = some entry) : ∃ kind, entry.build = .declared kind := by
  obtain ⟨before, after, hentries, -⟩ := List.lookup_eq_some_iff.mp hentry
  exact h (name, entry) (by simp [hentries])

/-- Nothing is registered to begin with. -/
theorem declared_empty : ({} : Registry).Declared :=
  fun _ h => absurd h List.not_mem_nil

/-- A declared kind may be added under any name. -/
theorem Declared.insert (h : registry.Declared) (name : String) (kind : Kind) (primary : Bool) :
    (registry.insert name { build := .declared kind, primary }).Declared := by
  intro entry hentry
  rcases Keyed.mem_insertWith hentry with hold | ⟨-, -, hnew, -⟩
  · exact h entry hold
  · exact ⟨kind, congrArg Entry.build hnew⟩

/-- What is in a registry after a kind was registered was there before, or is the entry of the
kind. -/
theorem mem_entries_register {kind : Kind} (hok : registry.register kind = .ok registry')
    {entry : String × Entry} (hentry : entry ∈ registry'.entries) :
    entry ∈ registry.entries ∨
      entry.2 = { build := .declared kind, primary := kind.primary } := by
  unfold register at hok
  split at hok
  · cases hok
  · obtain rfl := Except.ok.inj hok
    have hfold : ∀ (names : List String) (registry : Registry),
        entry ∈ (names.foldl (fun registry name =>
          registry.insert name { build := .declared kind, primary := kind.primary })
          registry).entries →
        entry ∈ registry.entries ∨
          entry.2 = { build := .declared kind, primary := kind.primary } := by
      intro names
      induction names with
      | nil => exact fun _ h => .inl h
      | cons name names ih =>
        intro registry h
        rcases ih _ h with hold | hnew
        · exact (Keyed.mem_insertWith hold).imp_right fun ⟨_, _, hvalue, _⟩ => hvalue
        · exact .inr hnew
    exact hfold kind.names registry hentry

/-- A registry of declared kinds stays one when a kind is registered under its names. -/
theorem Declared.register (h : registry.Declared) {kind : Kind}
    (hok : registry.register kind = .ok registry') : registry'.Declared := by
  intro entry hentry
  rcases mem_entries_register hok hentry with hold | hnew
  · exact h entry hold
  · exact ⟨kind, congrArg Entry.build hnew⟩

/-- The registries that come from the empty one by registering kinds; a kind that is refused leaves
the registry as it is. -/
inductive Registered : Registry → Prop where
  | empty : Registered {}
  | register {registry registry' : Registry} {kind : Kind} (h : Registered registry)
      (hok : registry.register kind = .ok registry') : Registered registry'

namespace Registered

/-- Every entry is a declared kind, and is primary if the kind is. -/
theorem entry_eq (h : Registered registry) :
    ∀ entry ∈ registry.entries,
      ∃ kind, entry.2 = { build := .declared kind, primary := kind.primary } := by
  induction h with
  | empty => simp
  | register _ hok ih =>
    intro entry hentry
    rcases mem_entries_register hok hentry with hold | hnew
    · exact ih entry hold
    · exact ⟨_, hnew⟩

/-- Registering kinds gives registries of declared kinds. -/
theorem declared (h : Registered registry) : registry.Declared := by
  induction h with
  | empty => exact declared_empty
  | register _ hok ih => exact ih.register hok

/-- What is found is primary if its kind is. -/
theorem primary_eq (h : Registered registry) {name : String} {entry : Entry} {kind : Kind}
    (hentry : registry.find? name = some entry) (hbuild : entry.build = .declared kind) :
    entry.primary = kind.primary := by
  obtain ⟨before, after, hentries, -⟩ := List.lookup_eq_some_iff.mp hentry
  obtain ⟨kind', hkind⟩ := h.entry_eq (name, entry) (by simp [hentries])
  simp only at hkind
  subst hkind
  obtain rfl : kind' = kind := Constructor.declared.inj hbuild
  rfl

end Registered

/-- A registry of kinds that were all accepted comes about by registering them. -/
theorem registered_ofKinds (kinds : List Kind) (hok : ofKinds kinds = .ok registry) :
    Registered registry := by
  have hfold : ∀ (kinds : List Kind) (start : Registry), Registered start →
      kinds.foldlM Registry.register start = .ok registry → Registered registry := by
    intro kinds
    induction kinds with
    | nil =>
      intro start h hok
      obtain rfl := Except.ok.inj hok
      exact h
    | cons kind kinds ih =>
      intro start h hok
      rw [List.foldlM_cons] at hok
      cases hregister : start.register kind with
      | error fault => simp [hregister, bind, Except.bind] at hok
      | ok next =>
        exact ih next (h.register hregister) (by simpa [hregister, bind, Except.bind] using hok)
  exact hfold kinds {} .empty hok

/-- A registry of kinds that were all accepted is a registry of declared kinds. -/
theorem declared_ofKinds (kinds : List Kind) (hok : ofKinds kinds = .ok registry) :
    registry.Declared :=
  (registered_ofKinds kinds hok).declared

end Registry

end DocTree
