import DocTree.Proofs.Extraction
import DocTree.Proofs.Threads
import Mathlib.Data.Set.Basic

/-!
# Constructors that take links out

Beside declared kinds, a registry may hold constructors that build the node of a kind and then
remove links: their own, a neighbour of it, or an end of its chain. Such a removal may hit the link
of a node that is still being built, so that building leaves links changed for the worse in more
ways than by using live ones up. But no link becomes live again, and each link that a child is built
from is out of the way afterwards, so that the budget is still enough.

What is registered under other names than those that a kind leads to does not matter. Budgets do not
matter either: what comes of building with one of them comes of building with every larger one.
-/

namespace DocTree

/-- A recipe builds the node of a kind and then at most removes links. What it makes of the node is
left open. -/
structure Recipe.Trims (recipe : Recipe) (kind : Kind) : Prop where
  before : recipe.before = []
  result : recipe.result = .node kind
  after : ∀ step ∈ recipe.after, ∃ target, step = .remove target

/-- A constructor is a declared kind, or builds by the kind and then at most removes links. -/
def Constructor.TrimsBy (build : Constructor) (kind : Kind) : Prop :=
  build = .declared kind ∨ ∃ recipe, build = .scripted recipe ∧ recipe.Trims kind

/-- What is registered under some names builds by kinds whose child kinds are among the names, and
then at most removes links. -/
def Registry.TrimsAmong (registry : Registry) (names : Set String) : Prop :=
  ∀ name ∈ names, ∀ entry, registry.find? name = some entry →
    ∃ kind, entry.build.TrimsBy kind ∧ ∀ child ∈ kind.children, child ∈ names

/-- Every entry builds by a kind and then at most removes links. -/
def Registry.Trimming (registry : Registry) : Prop :=
  ∀ entry ∈ registry.entries, ∃ kind, entry.2.build.TrimsBy kind

/-- In such a registry this holds of all names. -/
theorem Registry.Trimming.among {registry : Registry} (h : registry.Trimming) :
    registry.TrimsAmong Set.univ := by
  intro name _ entry hentry
  obtain ⟨before, after, hentries, -⟩ := List.lookup_eq_some_iff.mp hentry
  obtain ⟨kind, hkind⟩ := h (name, entry) (by simp [hentries])
  exact ⟨kind, hkind, fun _ _ => Set.mem_univ _⟩

/-- Declared kinds are among these registries. -/
theorem Registry.Declared.trimming {registry : Registry} (h : registry.Declared) :
    registry.Trimming := by
  intro entry hentry
  obtain ⟨kind, hkind⟩ := h entry hentry
  exact ⟨kind, .inl hkind⟩

/-- Such a constructor may be added under any name. -/
theorem Registry.Trimming.insert {registry : Registry} (h : registry.Trimming) (name : String)
    {entry : Entry} {kind : Kind} (hbuild : entry.build.TrimsBy kind) :
    (registry.insert name entry).Trimming := by
  intro other hother
  rcases Keyed.mem_insertWith hother with hold | ⟨-, -, hnew, -⟩
  · exact h other hold
  · exact ⟨kind, hnew ▸ hbuild⟩

namespace Sequence

variable {s : Sequence} {id : LinkId}

/-- A step that removes a link changes links at most for the worse. -/
theorem Dwindles.apply (hs : s.WellFormed) (hid : id < s.size) (target : Target) :
    Dwindles s ((RecipeStep.remove target).apply s id) := by
  cases hresolve : target.resolve s id with
  | none =>
    rw [RecipeStep.apply, hresolve]
    exact .refl hs
  | some other =>
    rw [RecipeStep.apply, hresolve]
    exact .remove hs (hs.threaded.resolve_lt hid target other hresolve)

/-- Steps that remove links change links at most for the worse. -/
theorem Dwindles.applyAll {steps : List RecipeStep} (hs : s.WellFormed) (hid : id < s.size)
    (hsteps : ∀ step ∈ steps, ∃ target, step = .remove target) :
    Dwindles s (RecipeStep.applyAll steps s id) := by
  induction steps generalizing s with
  | nil => exact .refl hs
  | cons step steps ih =>
    obtain ⟨target, rfl⟩ := hsteps step List.mem_cons_self
    have hstep := Dwindles.apply hs hid target
    refine hstep.trans (ih hstep.wellFormed (hstep.size_eq ▸ hid) fun other hother => ?_)
    exact hsteps other (List.mem_cons_of_mem _ hother)

end Sequence

namespace Construction

open Sequence

variable {registry : Registry} {names : Set String} {s : Sequence} {id found : LinkId}
  {kind name : String} {e : Extraction} {built built' : Built (Option Node)} {budget budget' : ℕ}

/-! ## The budget is enough -/

/-- Dropping a link after it was built from leaves links changed for the worse, and fewer of them
live. -/
theorem dwindles_drop (id : LinkId) (kind : String) (hbuilt : Dwindles e.sequence built.sequence)
    (hlt : found < e.sequence.size) (hlive : e.sequence.state found = .live) :
    Dwindles e.sequence ((e.addChild kind found built).drop id found).1.sequence ∧
      ((e.addChild kind found built).drop id found).1.sequence.liveCount <
        e.sequence.liveCount := by
  have hlt' : found < built.sequence.size := hbuilt.size_eq ▸ hlt
  have hdrop : Dwindles e.sequence (built.sequence.remove found).1 :=
    hbuilt.trans (.remove hbuilt.wellFormed hlt')
  have hgone := hbuilt.wellFormed.state_remove_self hlt'
  simp only [Extraction.drop, sequence_addChild]
  exact ⟨hdrop, hdrop.liveCount_lt hlt hlive (by simp [hgone])⟩

/-- With a budget above what the live links need, each of the four functions comes to an end for the
given names, and changes links at most for the worse. -/
structure Ample (registry : Registry) (names : Set String) (budget : ℕ) : Prop where
  search : ∀ id kind e place, e.sequence.WellFormed → kind ∈ names → slotName kind ≠ "" →
    4 * e.sequence.liveCount + 1 ≤ budget →
    ∃ done, searchWithin registry budget id kind e place = some done ∧
      Dwindles e.sequence done.sequence
  extract : ∀ id kind e, e.sequence.WellFormed → kind ∈ names →
    4 * e.sequence.liveCount + 2 ≤ budget →
    ∃ done, extractWithin registry budget id kind e = some done ∧
      Dwindles e.sequence done.sequence
  construct : ∀ kind s id, s.WellFormed → id < s.size → (∀ child ∈ kind.children, child ∈ names) →
    4 * (s.claim id).liveCount + 3 ≤ budget →
    ∃ built, constructWithin registry budget kind s id = some built ∧
      Dwindles (s.claim id) built.sequence
  create : ∀ name s id, s.WellFormed → id < s.size → name ∈ names →
    4 * (s.claim id).liveCount + 4 ≤ budget →
    ∃ built, createWithin registry budget name s id = some built ∧ Dwindles s built.sequence

namespace Ample

/-- One step more goes to looking for the next link. -/
theorem search_succ (h : Ample registry names budget) (id : LinkId) (kind : String)
    (e : Extraction) (place : Option LinkId) (hs : e.sequence.WellFormed) (hname : kind ∈ names)
    (hslot : slotName kind ≠ "") (hbudget : 4 * e.sequence.liveCount + 1 ≤ budget + 1) :
    ∃ done, searchWithin registry (budget + 1) id kind e place = some done ∧
      Dwindles e.sequence done.sequence := by
  rw [searchWithin]
  cases hfind : place.bind fun start => e.sequence.find? start kind .next with
  | none => exact ⟨e, rfl, .refl hs⟩
  | some found =>
    obtain ⟨hlt, hlive, -⟩ := found_spec hslot hfind
    have hclaim : (e.sequence.claim found).liveCount < e.sequence.liveCount :=
      (Consumes.claim hs hlt).liveCount_lt hlt hlive (by simp [state_claim hlt, hlive])
    obtain ⟨built, hbuilt, hdwindles⟩ := h.create kind e.sequence found hs hlt hname (by omega)
    obtain ⟨hdrop, hless⟩ := dwindles_drop id kind hdwindles hlt hlive
    obtain ⟨done, hdone, hrest⟩ := h.search id kind _
      ((e.addChild kind found built).drop id found).2 hdrop.wellFormed hname hslot (by omega)
    exact ⟨done, by simp only [hbuilt, hdone], hdrop.trans hrest⟩

/-- One step more goes to finding the place where a search begins. -/
theorem extract_succ (h : Ample registry names budget) (id : LinkId) (kind : String)
    (e : Extraction) (hs : e.sequence.WellFormed) (hname : kind ∈ names)
    (hbudget : 4 * e.sequence.liveCount + 2 ≤ budget + 1) :
    ∃ done, extractWithin registry (budget + 1) id kind e = some done ∧
      Dwindles e.sequence done.sequence := by
  rw [extractWithin]
  split
  · exact ⟨_, rfl, .refl hs⟩
  · next hslot => exact h.search id kind e _ hs hname hslot (by omega)

/-- The child kinds are extracted one after another. -/
theorem extractAll (h : Ample registry names budget) (id : LinkId) (kinds : List String)
    (hs : e.sequence.WellFormed) (hnames : ∀ kind ∈ kinds, kind ∈ names)
    (hbudget : 4 * e.sequence.liveCount + 2 ≤ budget) :
    ∃ done, kinds.foldlM (fun e kind => extractWithin registry budget id kind e) e = some done ∧
      Dwindles e.sequence done.sequence := by
  induction kinds generalizing e with
  | nil => exact ⟨e, rfl, .refl hs⟩
  | cons kind kinds ih =>
    obtain ⟨next, hnext, hdwindles⟩ :=
      h.extract id kind e hs (hnames kind List.mem_cons_self) hbudget
    have hless := hdwindles.liveCount_le
    obtain ⟨done, hdone, hrest⟩ := ih hdwindles.wellFormed
      (fun other hother => hnames other (List.mem_cons_of_mem _ hother)) (by omega)
    exact ⟨done, by simp [List.foldlM_cons, hnext, hdone], hdwindles.trans hrest⟩

/-- One step more goes to beginning a node. -/
theorem construct_succ (h : Ample registry names budget) (declaration : Kind) (s : Sequence)
    (id : LinkId) (hs : s.WellFormed) (hid : id < s.size)
    (hnames : ∀ child ∈ declaration.children, child ∈ names)
    (hbudget : 4 * (s.claim id).liveCount + 3 ≤ budget + 1) :
    ∃ built, constructWithin registry (budget + 1) declaration s id = some built ∧
      Dwindles (s.claim id) built.sequence := by
  have hbegin := (consumes_begin hs hid declaration).dwindles
  have hless := hbegin.liveCount_le
  obtain ⟨done, hdone, hrest⟩ := h.extractAll id declaration.children hbegin.wellFormed hnames
    (by omega)
  exact ⟨done.finish id, by simp [constructWithin, hdone, Extraction.finish], hbegin.trans hrest⟩

/-- One step more goes to looking the name up. -/
theorem create_succ (hregistry : registry.TrimsAmong names) (h : Ample registry names budget)
    (name : String) (s : Sequence) (id : LinkId) (hs : s.WellFormed) (hid : id < s.size)
    (hname : name ∈ names) (hbudget : 4 * (s.claim id).liveCount + 4 ≤ budget + 1) :
    ∃ built, createWithin registry (budget + 1) name s id = some built ∧
      Dwindles s built.sequence := by
  rw [createWithin]
  cases hentry : registry.find? name with
  | none => exact ⟨_, rfl, .refl hs⟩
  | some entry =>
    obtain ⟨kind, hbuild, hchildren⟩ := hregistry name hname entry hentry
    obtain ⟨built, hbuilt, hrest⟩ := h.construct kind s id hs hid hchildren (by omega)
    have hdwindles : Dwindles s built.sequence := (Consumes.claim hs hid).dwindles.trans hrest
    rcases hbuild with hbuild | ⟨recipe, hbuild, htrims⟩
    · exact ⟨present built, by simp [hbuild, hbuilt, present], hdwindles⟩
    · refine ⟨{ built with
          result := some (recipe.finish built.result)
          sequence := RecipeStep.applyAll recipe.after built.sequence id }, ?_, ?_⟩
      · simp [hbuild, htrims.before, htrims.result, RecipeStep.applyAll, hbuilt]
      · exact hdwindles.trans
          (.applyAll hdwindles.wellFormed (hdwindles.size_eq ▸ hid) htrims.after)

end Ample

/-- Every budget above what the live links need is enough for the names. -/
theorem ample (hregistry : registry.TrimsAmong names) (budget : ℕ) :
    Ample registry names budget := by
  induction budget with
  | zero => constructor <;> omega
  | succ budget ih =>
    exact ⟨ih.search_succ, ih.extract_succ, ih.construct_succ, ih.create_succ hregistry⟩

/-! ## A larger budget changes nothing -/

/-- What each of the four functions gives with a budget, it gives with every larger one. -/
structure Lasting (registry : Registry) (budget : ℕ) : Prop where
  search : ∀ id kind e place done, searchWithin registry budget id kind e place = some done →
    ∀ budget', budget ≤ budget' → searchWithin registry budget' id kind e place = some done
  extract : ∀ id kind e done, extractWithin registry budget id kind e = some done →
    ∀ budget', budget ≤ budget' → extractWithin registry budget' id kind e = some done
  construct : ∀ kind s id built, constructWithin registry budget kind s id = some built →
    ∀ budget', budget ≤ budget' → constructWithin registry budget' kind s id = some built
  create : ∀ name s id built, createWithin registry budget name s id = some built →
    ∀ budget', budget ≤ budget' → createWithin registry budget' name s id = some built

namespace Lasting

/-- The child kinds give the same, one after another. -/
theorem extractAll (h : Lasting registry budget) (hle : budget ≤ budget') (id : LinkId)
    (kinds : List String) {done : Extraction}
    (hdone : kinds.foldlM (fun e kind => extractWithin registry budget id kind e) e = some done) :
    kinds.foldlM (fun e kind => extractWithin registry budget' id kind e) e = some done := by
  induction kinds generalizing e with
  | nil => exact hdone
  | cons kind kinds ih =>
    rw [List.foldlM_cons] at hdone ⊢
    obtain ⟨next, hnext, hrest⟩ := Option.bind_eq_some_iff.mp hdone
    exact Option.bind_eq_some_iff.mpr ⟨next, h.extract id kind e next hnext budget' hle, ih hrest⟩

/-- A recipe comes to the same, whatever its result is. -/
theorem create_scripted (h : Lasting registry budget) (hle : budget ≤ budget')
    {entry : Entry} {recipe : Recipe} (hentry : registry.find? name = some entry)
    (hbuild : entry.build = .scripted recipe)
    (hbuilt : createWithin registry (budget + 1) name s id = some built) :
    createWithin registry (budget' + 1) name s id = some built := by
  rw [createWithin] at hbuilt ⊢
  simp only [hentry, hbuild] at hbuilt ⊢
  cases hresult : recipe.result with
  | nothing | anonymous => simpa only [hresult] using hbuilt
  | delegate other =>
    simp only [hresult] at hbuilt ⊢
    obtain ⟨inner, hinner, hrest⟩ := Option.bind_eq_some_iff.mp hbuilt
    exact Option.bind_eq_some_iff.mpr ⟨inner, h.create _ _ _ _ hinner budget' hle, hrest⟩
  | node kind =>
    simp only [hresult] at hbuilt ⊢
    obtain ⟨inner, hinner, hrest⟩ := Option.bind_eq_some_iff.mp hbuilt
    exact Option.bind_eq_some_iff.mpr ⟨inner, h.construct _ _ _ _ hinner budget' hle, hrest⟩

/-- One step more gives the same. -/
theorem succ (h : Lasting registry budget) : Lasting registry (budget + 1) where
  search id kind e place done hdone budget' hle := by
    obtain ⟨more, rfl⟩ := Nat.exists_eq_add_one_of_ne_zero (Nat.ne_zero_of_lt hle)
    have hle := Nat.le_of_succ_le_succ hle
    rw [searchWithin] at hdone ⊢
    split at hdone
    · exact hdone
    · next found _ =>
      split at hdone
      · cases hdone
      · next built hbuilt =>
        rw [h.create kind e.sequence found built hbuilt more hle]
        exact h.search _ _ _ _ _ hdone more hle
  extract id kind e done hdone budget' hle := by
    obtain ⟨more, rfl⟩ := Nat.exists_eq_add_one_of_ne_zero (Nat.ne_zero_of_lt hle)
    have hle := Nat.le_of_succ_le_succ hle
    rw [extractWithin] at hdone ⊢
    by_cases hslot : slotName kind = ""
    · rwa [if_pos hslot] at hdone ⊢
    · rw [if_neg hslot] at hdone ⊢
      exact h.search _ _ _ _ _ hdone more hle
  construct kind s id built hbuilt budget' hle := by
    obtain ⟨more, rfl⟩ := Nat.exists_eq_add_one_of_ne_zero (Nat.ne_zero_of_lt hle)
    rw [constructWithin] at hbuilt ⊢
    obtain ⟨done, hdone, hfinish⟩ := Option.bind_eq_some_iff.mp hbuilt
    exact Option.bind_eq_some_iff.mpr
      ⟨done, h.extractAll (Nat.le_of_succ_le_succ hle) id kind.children hdone, hfinish⟩
  create name s id built hbuilt budget' hle := by
    obtain ⟨more, rfl⟩ := Nat.exists_eq_add_one_of_ne_zero (Nat.ne_zero_of_lt hle)
    have hle := Nat.le_of_succ_le_succ hle
    cases hentry : registry.find? name with
    | none => simpa only [createWithin, hentry] using hbuilt
    | some entry =>
      cases hbuild : entry.build with
      | declared kind =>
        rw [createWithin] at hbuilt ⊢
        simp only [hentry, hbuild] at hbuilt ⊢
        obtain ⟨node, hnode, hdone⟩ := Option.bind_eq_some_iff.mp hbuilt
        exact Option.bind_eq_some_iff.mpr ⟨node, h.construct _ _ _ _ hnode more hle, hdone⟩
      | scripted recipe => exact h.create_scripted hle hentry hbuild hbuilt

end Lasting

/-- Whatever is given with a budget is given with every larger one. -/
theorem lasting (registry : Registry) (budget : ℕ) : Lasting registry budget := by
  induction budget with
  | zero =>
    constructor <;>
      simp [searchWithin, extractWithin, constructWithin, createWithin]
  | succ budget ih => exact ih.succ

/-- Building for a name gives the same with any two budgets that it comes to an end with. -/
theorem createWithin_unique (hbuilt : createWithin registry budget name s id = some built)
    (hbuilt' : createWithin registry budget' name s id = some built') : built = built' := by
  have hleft :=
    (lasting registry budget).create name s id built hbuilt _ (Nat.le_max_left _ budget')
  have hright := (lasting registry budget').create name s id built' hbuilt' _
    (Nat.le_max_right budget _)
  exact Option.some.inj (hleft.symm.trans hright)

/-- Whatever the budget, building for one of the names changes links at most for the worse. -/
theorem dwindles_createWithin (hregistry : registry.TrimsAmong names) (hs : s.WellFormed)
    (hid : id < s.size) (hname : name ∈ names)
    (hbuilt : createWithin registry budget name s id = some built) :
    Dwindles s built.sequence := by
  obtain ⟨built', hbuilt', hdwindles⟩ :=
    (ample hregistry (4 * (s.claim id).liveCount + 4)).create name s id hs hid hname le_rfl
  exact createWithin_unique hbuilt' hbuilt ▸ hdwindles

end Construction

end DocTree
