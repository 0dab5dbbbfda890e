import DocTree.Command.Run
import DocTree.Proofs.Acceptance
import DocTree.Proofs.Extraction
import Mathlib

/-!
# Registering the kinds of a grammar

The kinds of a grammar are registered one after another, each under all its names. The first kind
that cannot be used ends this, and nothing is registered then. Otherwise every name stands for the
last kind that lists it, both for whether it is primary and for how nodes are built.
-/

namespace DocTree

open Construction

namespace Registry

variable {registry : Registry} {entry : Entry} {kind : Kind} {kinds before after : List Kind}
  {name other : String} {names : List String}

/-! ## One kind -/

/-- The entry of a kind, which is the same under all its names. -/
def entryOf (kind : Kind) : Entry :=
  { build := .declared kind, primary := kind.primary }

/-- A registry with one entry more under each of some names. -/
def insertAll (registry : Registry) (names : List String) (entry : Entry) : Registry :=
  names.foldl (fun registry name => registry.insert name entry) registry

/-- A kind that can be used is registered under all its names. -/
theorem register_of_accepted (registry : Registry) (h : kind.fault? = none) :
    registry.register kind = .ok (registry.insertAll kind.names (entryOf kind)) := by
  simp only [register, h]
  rfl

/-- A kind that cannot be used is refused. -/
theorem register_of_fault (registry : Registry) {fault : KindFault} (h : kind.fault? = some fault) :
    registry.register kind = .error fault := by
  simp only [register, h]

/-- The names stay in order. -/
theorem sorted_insertAll (h : registry.entries.Sorted) (names : List String) (entry : Entry) :
    (registry.insertAll names entry).entries.Sorted := by
  induction names generalizing registry with
  | nil => exact h
  | cons name names ih => exact ih (Keyed.Sorted.insertWith _ _ h)

/-- Each of the names has the entry, and every other name has what it had. -/
theorem find?_insertAll (h : registry.entries.Sorted) (names : List String) (entry : Entry)
    (name : String) :
    (registry.insertAll names entry).find? name =
      if name ∈ names then some entry else registry.find? name := by
  induction names generalizing registry with
  | nil => simp [insertAll]
  | cons first names ih =>
    have hfirst : (registry.insert first entry).find? name =
        if name = first then some entry else registry.find? name := by
      split
      · next hself => exact hself ▸ Keyed.get?_insertWith_self _ _ h
      · next hother => exact Keyed.get?_insertWith_of_ne _ hother _
    have hrest : (registry.insertAll (first :: names) entry).find? name =
        if name ∈ names then some entry else (registry.insert first entry).find? name :=
      ih (Keyed.Sorted.insertWith _ _ h)
    rw [hrest, hfirst]
    by_cases hself : name = first <;> by_cases hmem : name ∈ names <;> simp [hself, hmem]

/-- The names are those that were there and the given ones. -/
theorem mem_names_insertAll :
    name ∈ (registry.insertAll names entry).names ↔ name ∈ names ∨ name ∈ registry.names := by
  induction names generalizing registry with
  | nil => simp [insertAll]
  | cons first names ih =>
    have hrest : name ∈ (registry.insertAll (first :: names) entry).names ↔
        name ∈ names ∨ name ∈ (registry.insert first entry).names := ih
    have hfirst : name ∈ (registry.insert first entry).names ↔
        name = first ∨ name ∈ registry.names := Keyed.mem_keys_insertWith _ _ _ _
    rw [hrest, hfirst, List.mem_cons]
    tauto

/-! ## All kinds -/

/-- A registry with some kinds more, each under all its names. -/
def insertKinds (registry : Registry) (kinds : List Kind) : Registry :=
  kinds.foldl (fun registry kind => registry.insertAll kind.names (entryOf kind)) registry

/-- Kinds that can all be used are all registered. -/
theorem foldlM_register_of_accepted (registry : Registry)
    (h : ∀ kind ∈ kinds, kind.fault? = none) :
    kinds.foldlM register registry = .ok (registry.insertKinds kinds) := by
  induction kinds generalizing registry with
  | nil => rfl
  | cons kind kinds ih =>
    rw [List.foldlM_cons, register_of_accepted registry (h kind List.mem_cons_self)]
    exact ih _ fun other hother => h other (List.mem_cons_of_mem _ hother)

/-- The first kind that cannot be used is reported. -/
theorem foldlM_register_of_fault (registry : Registry) (h : ∀ kind ∈ before, kind.fault? = none)
    {fault : KindFault} (hfault : kind.fault? = some fault) (after : List Kind) :
    (before ++ kind :: after).foldlM register registry = .error fault := by
  rw [List.foldlM_append, foldlM_register_of_accepted registry h]
  change (kind :: after).foldlM register (registry.insertKinds before) = _
  rw [List.foldlM_cons, register_of_fault _ hfault]
  rfl

/-- If kinds are all registered, they can all be used. -/
theorem fault?_of_foldlM_register {registry' : Registry}
    (h : kinds.foldlM register registry = .ok registry') :
    ∀ kind ∈ kinds, kind.fault? = none := by
  induction kinds generalizing registry with
  | nil => simp
  | cons kind kinds ih =>
    rw [List.foldlM_cons] at h
    cases hfault : kind.fault? with
    | some fault =>
      rw [register_of_fault registry hfault] at h
      cases h
    | none =>
      rw [register_of_accepted registry hfault] at h
      exact List.forall_mem_cons.mpr ⟨hfault, ih h⟩

/-- The names stay in order. -/
theorem sorted_insertKinds (h : registry.entries.Sorted) (kinds : List Kind) :
    (registry.insertKinds kinds).entries.Sorted := by
  induction kinds generalizing registry with
  | nil => exact h
  | cons kind kinds ih => exact ih (sorted_insertAll h _ _)

/-- The names are those that were there and those of the kinds. -/
theorem mem_names_insertKinds :
    name ∈ (registry.insertKinds kinds).names ↔
      (∃ kind ∈ kinds, name ∈ kind.names) ∨ name ∈ registry.names := by
  induction kinds generalizing registry with
  | nil => simp [insertKinds]
  | cons kind kinds ih =>
    have hrest : name ∈ (registry.insertKinds (kind :: kinds)).names ↔
        (∃ kind ∈ kinds, name ∈ kind.names) ∨
          name ∈ (registry.insertAll kind.names (entryOf kind)).names := ih
    rw [hrest, mem_names_insertAll, List.exists_mem_cons_iff, or_assoc]
    exact or_left_comm

/-- A name that no kind lists has what it had. -/
theorem find?_insertKinds_of_notMem (h : registry.entries.Sorted)
    (hname : ∀ kind ∈ kinds, name ∉ kind.names) :
    (registry.insertKinds kinds).find? name = registry.find? name := by
  induction kinds generalizing registry with
  | nil => rfl
  | cons kind kinds ih =>
    have hrest := ih (sorted_insertAll h kind.names (entryOf kind)) fun other hother =>
      hname other (List.mem_cons_of_mem _ hother)
    rw [find?_insertAll h, if_neg (hname kind List.mem_cons_self)] at hrest
    exact hrest

/-- A name has the entry of the last kind that lists it. -/
theorem find?_insertKinds_of_last (h : registry.entries.Sorted) (hname : name ∈ kind.names)
    (hlast : ∀ later ∈ after, name ∉ later.names) :
    (registry.insertKinds (before ++ kind :: after)).find? name = some (entryOf kind) := by
  have hbefore := sorted_insertKinds h before
  rw [insertKinds, List.foldl_append, List.foldl_cons]
  refine (find?_insertKinds_of_notMem (sorted_insertAll hbefore _ _) hlast).trans ?_
  exact (find?_insertAll hbefore _ _ _).trans (if_pos hname)

/-- Where a kind is registered, building for the name is building by the kind. -/
theorem create_eq_construct (hregistry : registry.Declared)
    (hentry : registry.find? name = some entry) (hbuild : entry.build = .declared kind)
    {s : Sequence} {id : LinkId} (hs : s.WellFormed) (hid : id < s.size) :
    ∃ built, kind.construct registry s id = some built ∧
      registry.create name s id = some (present built) := by
  obtain ⟨built, hbuilt, hcreates⟩ := registry.create_total hregistry hs hid name
  obtain ⟨done, hdone, hextracts⟩ := kind.construct_total hregistry hs hid
  refine ⟨_, hdone, ?_⟩
  rw [hbuilt, hcreates.unique (.declared hentry hbuild hextracts)]

end Registry

/-! ## Declarations -/

/-- ASCII letters, ASCII digits and underscores. -/
def IsWordChar (c : Char) : Prop :=
  ('a' ≤ c ∧ c ≤ 'z') ∨ ('A' ≤ c ∧ c ≤ 'Z') ∨ ('0' ≤ c ∧ c ≤ '9') ∨ c = '_'

instance : DecidablePred IsWordChar := fun _ => inferInstanceAs (Decidable (_ ∨ _))

/-- The letters, digits and underscores of a kind. -/
def wordChars (kind : String) : List Char :=
  kind.toList.filter (IsWordChar ·)

/-- A child kind gives a slot that is not that of a field. -/
def GivesSlot (child : String) : Prop :=
  (∃ c ∈ child.toList, IsWordChar c) ∧
    wordChars child ≠ "name".toList ∧ wordChars child ≠ "payload".toList

/-- Slots are named by letters, digits and underscores. -/
theorem isSlotChar_iff {c : Char} : isSlotChar c = true ↔ IsWordChar c := by
  have hlower : c.isLower = true ↔ 'a' ≤ c ∧ c ≤ 'z' := by
    simp only [Char.isLower, Bool.and_eq_true, decide_eq_true_eq]
    exact Iff.rfl
  have hupper : c.isUpper = true ↔ 'A' ≤ c ∧ c ≤ 'Z' := by
    simp only [Char.isUpper, decide_eq_true_eq]
    exact Iff.rfl
  have hdigit : c.isDigit = true ↔ '0' ≤ c ∧ c ≤ '9' := by
    simp only [Char.isDigit, Bool.and_eq_true, decide_eq_true_eq]
    exact Iff.rfl
  simp only [isSlotChar, Char.isAlphanum, Char.isAlpha, Bool.or_eq_true, beq_iff_eq, hlower, hupper,
    hdigit, IsWordChar]
  rw [or_assoc, or_assoc, or_left_comm]

/-- The name of a slot is made of the letters, digits and underscores of the kind. -/
theorem toList_slotName (kind : String) : (slotName kind).toList = wordChars kind := by
  rw [slotName, String.toList_ofList, wordChars]
  refine List.filter_congr fun c _ => ?_
  rw [Bool.eq_iff_iff, isSlotChar_iff, decide_eq_true_iff]

/-- A child kind gives a slot exactly if it has a character that a slot may have, and its slot is
not reserved. -/
theorem givesSlot_iff {child : String} : GivesSlot child ↔
    (∃ c ∈ child.toList, isSlotChar c = true) ∧ slotName child ∉ reservedSlots := by
  simp only [GivesSlot, isSlotChar_iff, reservedSlots, List.mem_pair, not_or, ← toList_slotName,
    ne_eq, String.toList_inj]

/-- What is wrong with a child kind that gives no slot: no character is left of it, or what is left
names a field of a node. -/
inductive GivesNoSlot (label child : String) : KindFault → Prop where
  | empty (h : ∀ c ∈ child.toList, ¬ IsWordChar c) :
      GivesNoSlot label child (.emptySlot label child)
  | reserved {slot : String} (hslot : wordChars child = slot.toList)
      (h : slot = "name" ∨ slot = "payload") :
      GivesNoSlot label child (.reservedSlot label child slot)

/-- Nothing is wrong with a child kind exactly if it gives a slot. -/
theorem childFault?_eq_none_iff_givesSlot {label child : String} :
    Kind.childFault? label child = none ↔ GivesSlot child :=
  Kind.childFault?_eq_none_iff.trans givesSlot_iff.symm

/-- What is wrong with a child kind. -/
theorem childFault?_eq_some_iff {label child : String} {fault : KindFault} :
    Kind.childFault? label child = some fault ↔ GivesNoSlot label child fault := by
  have hempty : slotName child = "" ↔ ∀ c ∈ child.toList, ¬ IsWordChar c := by
    rw [← not_iff_not, ← ne_eq, slotName_ne_iff]
    simp [isSlotChar_iff]
  rw [Kind.childFault?]
  constructor
  · intro h
    split_ifs at h with hslot hreserved
    · obtain rfl := Option.some.inj h
      exact .empty (hempty.mp hslot)
    · obtain rfl := Option.some.inj h
      exact .reserved (toList_slotName child).symm (List.mem_pair.mp hreserved)
  · rintro (h | @⟨slot, hslot, h⟩)
    · rw [if_pos (hempty.mpr h)]
    · obtain rfl : slotName child = slot :=
        String.toList_inj.mp ((toList_slotName child).trans hslot)
      have hne : slotName child ≠ "" := by rcases h with h | h <;> simp [h]
      have hreserved : slotName child ∈ reservedSlots := List.mem_pair.mpr h
      rw [if_neg hne, if_pos hreserved]

namespace KindDeclaration

variable {declaration : KindDeclaration} {name : String}

/-- A declaration lists its name and its further names. -/
def Lists (declaration : KindDeclaration) (name : String) : Prop :=
  name = declaration.name ∨ name ∈ declaration.aliases

/-- A declaration that can be used: its names and the kinds that it absorbs are not empty, and its
child kinds give slots. -/
structure Usable (declaration : KindDeclaration) : Prop where
  named : ¬ declaration.Lists ""
  absorbs : declaration.absorbPrevious ≠ some "" ∧ declaration.absorbNext ≠ some ""
  slots : ∀ child ∈ declaration.children, GivesSlot child

/-- What a declaration is refused for is the first thing that is wrong with it: its names are looked
at first, then the kinds that it absorbs, then its child kinds in order. -/
inductive Refused (declaration : KindDeclaration) : KindFault → Prop where
  | emptyName (h : declaration.Lists "") : Refused declaration .emptyName
  | emptyAbsorbed (hnames : ¬ declaration.Lists "")
      (h : declaration.absorbPrevious = some "" ∨ declaration.absorbNext = some "") :
      Refused declaration (.emptyAbsorbed declaration.name)
  | child {before after : List String} {child : String} {fault : KindFault}
      (hnames : ¬ declaration.Lists "")
      (habsorbs : declaration.absorbPrevious ≠ some "" ∧ declaration.absorbNext ≠ some "")
      (hchildren : declaration.children = before ++ child :: after)
      (hbefore : ∀ earlier ∈ before, GivesSlot earlier)
      (h : GivesNoSlot declaration.name child fault) : Refused declaration fault

/-- A declaration lists the names of its kind. -/
theorem lists_iff : declaration.Lists name ↔ name ∈ declaration.kind.names :=
  List.mem_cons.symm

/-- A declaration can be used exactly if its kind is accepted. -/
theorem usable_iff : declaration.Usable ↔ declaration.kind.fault? = none := by
  rw [Kind.fault?_eq_none_iff]
  constructor
  · intro h
    exact {
      named := List.cons_ne_nil _ _
      names_ne := fun name hname hempty => h.named (lists_iff.mpr (hempty ▸ hname))
      absorbed_ne := h.absorbs
      slots := fun child hchild => givesSlot_iff.mp (h.slots child hchild) }
  · intro h
    exact {
      named := fun hlists => h.names_ne "" (lists_iff.mp hlists) rfl
      absorbs := h.absorbed_ne
      slots := fun child hchild => givesSlot_iff.mpr (h.slots child hchild) }

/-- What is wrong with the kind of a declaration, by the fields of the declaration. -/
theorem fault?_kind : declaration.kind.fault? =
    if "" ∈ declaration.name :: declaration.aliases then some .emptyName
    else if declaration.absorbPrevious = some "" ∨ declaration.absorbNext = some "" then
      some (.emptyAbsorbed declaration.name)
    else declaration.children.findSome? (Kind.childFault? declaration.name) :=
  rfl

/-- What a declaration is refused for is what is wrong with its kind. -/
theorem refused_iff {fault : KindFault} :
    declaration.Refused fault ↔ declaration.kind.fault? = some fault := by
  rw [fault?_kind]
  constructor
  · rintro (hempty | ⟨hnames, habsorbed⟩ | ⟨hnames, habsorbs, hchildren, hbefore, hchild⟩)
    · rw [if_pos (List.mem_cons.mpr hempty)]
    · rw [if_neg (mt List.mem_cons.mp hnames), if_pos habsorbed]
    · rw [if_neg (mt List.mem_cons.mp hnames), if_neg (not_or.mpr habsorbs)]
      exact List.findSome?_eq_some_iff.mpr ⟨_, _, _, hchildren, childFault?_eq_some_iff.mpr hchild,
        fun earlier hmem => childFault?_eq_none_iff_givesSlot.mpr (hbefore earlier hmem)⟩
  · intro h
    split_ifs at h with hempty habsorbed
    · obtain rfl := Option.some.inj h
      exact .emptyName (List.mem_cons.mp hempty)
    · obtain rfl := Option.some.inj h
      exact .emptyAbsorbed (mt List.mem_cons.mpr hempty) habsorbed
    · obtain ⟨before, child, after, hchildren, hchild, hbefore⟩ := List.findSome?_eq_some_iff.mp h
      exact .child (mt List.mem_cons.mpr hempty) (not_or.mp habsorbed) hchildren
        (fun earlier hmem => childFault?_eq_none_iff_givesSlot.mp (hbefore earlier hmem))
        (childFault?_eq_some_iff.mp hchild)

end KindDeclaration

/-! ## Grammars -/

/-- A name stands for a kind: it is registered under the name, which is primary if the kind is, and
building for the name is building by the kind. -/
structure Registry.Resolves (registry : Registry) (name : String) (kind : Kind) : Prop where
  find?_eq : registry.find? name = some { build := .declared kind, primary := kind.primary }
  isPrimary_eq : registry.isPrimary name = kind.primary
  create_eq : ∀ s id, s.WellFormed → id < s.size → ∃ built,
    kind.construct registry s id = some built ∧ registry.create name s id = some (present built)

namespace Grammar

variable {grammar : Grammar} {registry : Registry}

/-- A grammar whose declarations can all be used registers all its kinds. -/
theorem registry_of_usable (h : ∀ declaration ∈ grammar.kinds, declaration.Usable) :
    grammar.registry =
      .ok (({} : Registry).insertKinds (grammar.kinds.map KindDeclaration.kind)) := by
  rw [Grammar.registry, Registry.ofKinds, Registry.foldlM_register_of_accepted]
  · rfl
  · intro kind hkind
    obtain ⟨declaration, hmem, rfl⟩ := List.mem_map.mp hkind
    exact KindDeclaration.usable_iff.mp (h declaration hmem)

/-- The first declaration of a grammar that cannot be used is reported. -/
theorem registry_of_refused {before after : List KindDeclaration} {declaration : KindDeclaration}
    (hkinds : grammar.kinds = before ++ declaration :: after)
    (hbefore : ∀ earlier ∈ before, earlier.Usable) (h : ¬ declaration.Usable) :
    ∃ fault, declaration.Refused fault ∧ grammar.registry = .error (.kind fault) := by
  obtain ⟨fault, hfault⟩ := Option.ne_none_iff_exists'.mp (mt KindDeclaration.usable_iff.mpr h)
  refine ⟨fault, KindDeclaration.refused_iff.mpr hfault, ?_⟩
  rw [Grammar.registry, Registry.ofKinds, hkinds, List.map_append, List.map_cons,
    Registry.foldlM_register_of_fault _ _ hfault]
  · rfl
  · intro kind hkind
    obtain ⟨earlier, hmem, rfl⟩ := List.mem_map.mp hkind
    exact KindDeclaration.usable_iff.mp (hbefore earlier hmem)

/-- The registry of a grammar is that of its kinds. -/
theorem ofKinds_eq (h : grammar.registry = .ok registry) :
    Registry.ofKinds (grammar.kinds.map KindDeclaration.kind) = .ok registry := by
  rw [Grammar.registry] at h
  cases hkinds : Registry.ofKinds (grammar.kinds.map KindDeclaration.kind) with
  | error fault => simp [hkinds, Except.mapError] at h
  | ok registry' =>
    rw [hkinds] at h
    obtain rfl := Except.ok.inj h
    rfl

/-- A grammar gives a registry of declared kinds. -/
theorem declared_registry (h : grammar.registry = .ok registry) : registry.Declared :=
  Registry.declared_ofKinds _ (ofKinds_eq h)

/-- A grammar that gives a registry has declarations that can all be used. -/
theorem usable_of_registry (h : grammar.registry = .ok registry) :
    ∀ declaration ∈ grammar.kinds, declaration.Usable := fun _ hmem =>
  KindDeclaration.usable_iff.mpr
    (Registry.fault?_of_foldlM_register (ofKinds_eq h) _ (List.mem_map_of_mem hmem))

/-- In the registry of a grammar, a name stands for the kind of the last declaration that lists
it. -/
theorem resolves_of_last (h : grammar.registry = .ok registry)
    {before after : List KindDeclaration} {declaration : KindDeclaration} {name : String}
    (hkinds : grammar.kinds = before ++ declaration :: after) (hname : declaration.Lists name)
    (hlast : ∀ later ∈ after, ¬ later.Lists name) : registry.Resolves name declaration.kind := by
  have hok := registry_of_usable (usable_of_registry h)
  rw [h, hkinds, List.map_append, List.map_cons] at hok
  have hentry : registry.find? name =
      some { build := .declared declaration.kind, primary := declaration.primary } := by
    rw [Except.ok.inj hok]
    refine Registry.find?_insertKinds_of_last .nil (KindDeclaration.lists_iff.mp hname) ?_
    intro kind hkind hmem
    obtain ⟨later, hlater, rfl⟩ := List.mem_map.mp hkind
    exact hlast later hlater (KindDeclaration.lists_iff.mpr hmem)
  exact {
    find?_eq := hentry
    isPrimary_eq := by
      simp only [Registry.isPrimary, hentry]
      rfl
    create_eq := fun s id hs hid =>
      Registry.create_eq_construct (declared_registry h) hentry rfl hs hid }

/-- A grammar gives a registry exactly if all its declarations can be used, and otherwise reports
what the first one that cannot is refused for. The names of the registry are those that the
declarations list, in order, and each name stands for what the last declaration that lists it
says. -/
theorem registry_last_wins (grammar : Grammar) :
    ((∃ registry, grammar.registry = .ok registry) ↔
      ∀ declaration ∈ grammar.kinds, declaration.Usable) ∧
    (∀ (before after : List KindDeclaration) (declaration : KindDeclaration),
      grammar.kinds = before ++ declaration :: after →
      (∀ earlier ∈ before, earlier.Usable) → ¬ declaration.Usable →
      ∃ fault, declaration.Refused fault ∧ grammar.registry = .error (.kind fault)) ∧
    ∀ registry, grammar.registry = .ok registry →
      registry.names.Pairwise (· < ·) ∧
      (∀ name, name ∈ registry.names ↔ ∃ declaration ∈ grammar.kinds, declaration.Lists name) ∧
      ∀ (before after : List KindDeclaration) (declaration : KindDeclaration) (name : String),
        grammar.kinds = before ++ declaration :: after →
        declaration.Lists name → (∀ later ∈ after, ¬ later.Lists name) →
        registry.Resolves name
          { names := declaration.name :: declaration.aliases
            primary := declaration.primary
            absorbPrevious := declaration.absorbPrevious
            absorbNext := declaration.absorbNext
            children := declaration.children } := by
  refine ⟨⟨fun ⟨registry, h⟩ => usable_of_registry h, fun h => ⟨_, registry_of_usable h⟩⟩,
    fun before after declaration hkinds hbefore hunusable =>
      registry_of_refused hkinds hbefore hunusable,
    fun registry h => ⟨?_, fun name => ?_, fun before after declaration name hkinds hname hlast =>
      resolves_of_last h hkinds hname hlast⟩⟩
  all_goals obtain rfl := Except.ok.inj (h.symm.trans (registry_of_usable (usable_of_registry h)))
  · have hempty : ({} : Registry).entries.Sorted := .nil
    exact Registry.sorted_insertKinds hempty _
  · have hnone : name ∉ ({} : Registry).names := List.not_mem_nil
    simp [Registry.mem_names_insertKinds, hnone, KindDeclaration.lists_iff]

/-- Two kinds that share the name `b`. -/
def sharedNames : Grammar :=
  { kinds := [{ name := "a", aliases := ["b"], primary := false },
      { name := "b", aliases := ["c", "b"], absorbNext := some "a", children := ["a"] }] }

/-- Two kinds that cannot be used after one that can. -/
def twoFaults : Grammar :=
  { kinds := [{ name := "a" }, { name := "b", children := ["x", "@payload"] }, { name := "" }] }

/-- The shared name stands for the second kind, and the first fault is reported. -/
theorem registry_last_wins_shared :
    (∃ registry, sharedNames.registry = .ok registry ∧ registry.names = ["a", "b", "c"] ∧
      registry.Resolves "a" { names := ["a", "b"], primary := false } ∧
      registry.Resolves "b"
        { names := ["b", "c", "b"], absorbNext := some "a", children := ["a"] }) ∧
    twoFaults.registry = .error (.kind (.reservedSlot "b" "@payload" "payload")) := by
  have husable : ∀ declaration ∈ sharedNames.kinds, declaration.Usable := fun _ hmem =>
    KindDeclaration.usable_iff.mpr ((by decide :
      ∀ declaration ∈ sharedNames.kinds, declaration.kind.fault? = none) _ hmem)
  constructor
  · obtain ⟨registry, hregistry⟩ := (registry_last_wins sharedNames).1.mpr husable
    obtain ⟨hsorted, hnames, hlast⟩ := (registry_last_wins sharedNames).2.2 registry hregistry
    refine ⟨registry, hregistry, ?_, hlast [] _ _ "a" rfl (.inl rfl)
      (by simp [KindDeclaration.Lists]), hlast [_] [] _ "b" rfl (.inl rfl) (by simp)⟩
    refine hsorted.eq_of_mem_iff (by decide) fun name => (hnames name).trans ?_
    simp only [sharedNames, KindDeclaration.Lists, List.mem_cons, List.not_mem_nil, or_false,
      exists_eq_or_imp, exists_eq_left]
    grind
  · have hfirst : ∀ earlier ∈ [({ name := "a" } : KindDeclaration)], earlier.Usable := by
      simpa using KindDeclaration.usable_iff.mpr rfl
    obtain ⟨fault, hrefused, hregistry⟩ := (registry_last_wins twoFaults).2.1 _ _
      { name := "b", children := ["x", "@payload"] } rfl hfirst
      fun husable => absurd (KindDeclaration.usable_iff.mp husable) (by decide)
    obtain rfl := Option.some.inj ((KindDeclaration.refused_iff.mp hrefused).symm.trans
      (by decide : _ = some (.reservedSlot "b" "@payload" "payload")))
    exact hregistry

end Grammar

end DocTree
