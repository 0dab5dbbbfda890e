import DocTree.Proofs.Operations
import DocTree.Proofs.Splicing
import DocTree.Proofs.Threads

/-!
# Building by any constructors

A registry may hold any recipes, and a recipe may insert, remove, claim or empty links around its
own before and after it comes to a node. Nothing can be said about what becomes of the links, but
the bonds still make threads: every step changes them only by pushing a link after one of the
sequence or by taking one out. So it is with every node and every document that is built, and with
every operation that names links of the sequence only.
-/

namespace DocTree

namespace Construction

open Sequence

variable {registry : Registry} {s : Sequence} {id found : LinkId} {kind : String}
  {e done : Extraction} {budget : ℕ}

/-! ## Steps of a builder -/

/-- A step of a recipe keeps threads, whatever it targets. -/
theorem extends_apply (hs : s.Threaded) (hid : id < s.size) (step : RecipeStep) :
    Extends s (step.apply s id) := by
  have hlt := hs.resolve_lt hid
  cases step with
  | insertAfter target token => exact .pushAfter hs (hlt target) token
  | remove target | empty target | claim target =>
    cases hresolve : target.resolve s id with
    | none =>
      simp only [RecipeStep.apply, hresolve]
      exact .refl hs
    | some other =>
      have hother := hlt target other hresolve
      simp only [RecipeStep.apply, hresolve]
      first
        | exact .remove hs hother
        | exact .empty hs other
        | exact .claim hs other

/-- The steps of a recipe keep threads. -/
theorem extends_applyAll (hs : s.Threaded) (hid : id < s.size) (steps : List RecipeStep) :
    Extends s (RecipeStep.applyAll steps s id) := by
  induction steps generalizing s with
  | nil => exact .refl hs
  | cons step steps ih =>
    have hstep := extends_apply hs hid step
    exact hstep.trans (ih hstep.threaded (hstep.lt_size hid))

/-- Taking paragraphs keeps threads. -/
theorem extends_takeParagraphs (hs : s.Threaded) (ids : List LinkId) :
    Extends s (takeParagraphs s ids).1 := by
  induction ids generalizing s with
  | nil => exact .refl hs
  | cons id ids ih =>
    have hempty := Extends.empty hs id
    exact hempty.trans (ih hempty.threaded)

/-- Absorbing a run keeps threads. -/
theorem extends_absorb (hs : s.Threaded) (id : LinkId) (node : String) (direction : Direction)
    (absorbed : Option String) : Extends s (absorb s id node direction absorbed).sequence := by
  cases absorbed with
  | none => exact .refl hs
  | some kind => exact extends_takeParagraphs hs _

/-- Beginning a node keeps threads. -/
theorem extends_begin (hs : s.Threaded) (id : LinkId) (kind : Kind) :
    Extends s (begin s id kind).sequence := by
  have hclaim := Extends.claim hs id
  have hbefore := extends_absorb hclaim.threaded id ((s.claim id).value id) .previous
    kind.absorbPrevious
  exact (hclaim.trans hbefore).trans (extends_absorb hbefore.threaded ..)

/-- Dropping a link after it was built from keeps threads. -/
theorem extends_drop (id : LinkId) (kind : String) {built : Built (Option Node)}
    (hfound : found < e.sequence.size) (hbuilt : Extends e.sequence built.sequence) :
    Extends e.sequence ((e.addChild kind found built).drop id found).1.sequence := by
  simp only [Extraction.drop, sequence_addChild]
  exact hbuilt.trans (.remove hbuilt.threaded (hbuilt.lt_size hfound))

/-- What a recipe does after its result keeps threads. -/
theorem extends_after (recipe : Recipe) {built : Built (Option Node)}
    (inner : Built (Option Node)) (hinner : Extends s inner.sequence) (hid : id < s.size)
    (hdone : (match inner.result with
      | none => some inner
      | some node => some { inner with
          result := some (recipe.finish node)
          sequence := RecipeStep.applyAll recipe.after inner.sequence id }) = some built) :
    Extends s built.sequence := by
  split at hdone
  · exact Option.some.inj hdone ▸ hinner
  · obtain rfl := Option.some.inj hdone
    exact hinner.trans (extends_applyAll hinner.threaded (hinner.lt_size hid) recipe.after)

/-! ## Building -/

/-- With a budget, whatever each of the four functions builds keeps threads. -/
structure Threading (registry : Registry) (budget : ℕ) : Prop where
  search : ∀ id kind e place done, e.sequence.Threaded → slotName kind ≠ "" →
    searchWithin registry budget id kind e place = some done → Extends e.sequence done.sequence
  extract : ∀ id kind e done, e.sequence.Threaded →
    extractWithin registry budget id kind e = some done → Extends e.sequence done.sequence
  construct : ∀ kind s id built, s.Threaded →
    constructWithin registry budget kind s id = some built → Extends s built.sequence
  create : ∀ name s id built, s.Threaded → id < s.size →
    createWithin registry budget name s id = some built → Extends s built.sequence

namespace Threading

/-- One step more goes to looking for the next link. -/
theorem search_succ (h : Threading registry budget) (id : LinkId) (kind : String) (e : Extraction)
    (place : Option LinkId) (done : Extraction) (hs : e.sequence.Threaded)
    (hslot : slotName kind ≠ "")
    (hdone : searchWithin registry (budget + 1) id kind e place = some done) :
    Extends e.sequence done.sequence := by
  rw [searchWithin] at hdone
  split at hdone
  · exact Option.some.inj hdone ▸ .refl hs
  · next found hfind =>
    obtain ⟨hlt, -, -⟩ := found_spec hslot hfind
    split at hdone
    · cases hdone
    · next built hbuilt =>
      have hdrop := extends_drop id kind hlt
        (h.create kind e.sequence found built hs hlt hbuilt)
      exact hdrop.trans (h.search id kind _ _ done hdrop.threaded hslot hdone)

/-- One step more goes to finding the place where a search begins. -/
theorem extract_succ (h : Threading registry budget) (id : LinkId) (kind : String) (e : Extraction)
    (done : Extraction) (hs : e.sequence.Threaded)
    (hdone : extractWithin registry (budget + 1) id kind e = some done) :
    Extends e.sequence done.sequence := by
  rw [extractWithin] at hdone
  split at hdone
  · exact Option.some.inj hdone ▸ .refl hs
  · next hslot => exact h.search id kind e _ done hs hslot hdone

/-- The child kinds are extracted one after another. -/
theorem extractAll (h : Threading registry budget) (id : LinkId) (kinds : List String)
    (hs : e.sequence.Threaded)
    (hdone : kinds.foldlM (fun e kind => extractWithin registry budget id kind e) e = some done) :
    Extends e.sequence done.sequence := by
  induction kinds generalizing e with
  | nil => exact Option.some.inj hdone ▸ .refl hs
  | cons kind kinds ih =>
    rw [List.foldlM_cons] at hdone
    obtain ⟨next, hnext, hrest⟩ := Option.bind_eq_some_iff.mp hdone
    have hfirst := h.extract id kind e next hs hnext
    exact hfirst.trans (ih hfirst.threaded hrest)

/-- One step more goes to beginning a node. -/
theorem construct_succ (h : Threading registry budget) (kind : Kind) (s : Sequence) (id : LinkId)
    (built : Built Node) (hs : s.Threaded)
    (hbuilt : constructWithin registry (budget + 1) kind s id = some built) :
    Extends s built.sequence := by
  rw [constructWithin] at hbuilt
  obtain ⟨done, hdone, hfinish⟩ := Option.bind_eq_some_iff.mp hbuilt
  have hbegin := extends_begin hs id kind
  obtain rfl := Option.some.inj hfinish
  exact hbegin.trans (h.extractAll id kind.children hbegin.threaded hdone)

/-- What a recipe does around its result keeps threads. -/
theorem create_scripted (h : Threading registry budget) {recipe : Recipe} {name : String}
    {entry : Entry} {built : Built (Option Node)} (hs : s.Threaded) (hid : id < s.size)
    (hentry : registry.find? name = some entry) (hbuild : entry.build = .scripted recipe)
    (hbuilt : createWithin registry (budget + 1) name s id = some built) :
    Extends s built.sequence := by
  have hbefore := extends_applyAll hs hid recipe.before
  have hid' := hbefore.lt_size hid
  rw [createWithin] at hbuilt
  simp only [hentry, hbuild] at hbuilt
  cases hresult : recipe.result with
  | nothing =>
    simp only [hresult] at hbuilt
    exact extends_after recipe ⟨none, _, []⟩ hbefore hid hbuilt
  | anonymous =>
    simp only [hresult] at hbuilt
    exact extends_after recipe ⟨some _, _, []⟩ hbefore hid hbuilt
  | delegate other =>
    simp only [hresult] at hbuilt
    obtain ⟨inner, hinner, hdone⟩ := Option.bind_eq_some_iff.mp hbuilt
    have hsofar := hbefore.trans (h.create _ _ _ _ hbefore.threaded hid' hinner)
    exact extends_after recipe inner hsofar hid hdone
  | node kind =>
    simp only [hresult] at hbuilt
    obtain ⟨inner, hinner, hdone⟩ := Option.bind_eq_some_iff.mp hbuilt
    have hsofar := hbefore.trans (h.construct _ _ _ _ hbefore.threaded hinner)
    exact extends_after recipe (present inner) hsofar hid hdone

/-- One step more goes to looking the name up. -/
theorem create_succ (h : Threading registry budget) (name : String) (s : Sequence) (id : LinkId)
    (built : Built (Option Node)) (hs : s.Threaded) (hid : id < s.size)
    (hbuilt : createWithin registry (budget + 1) name s id = some built) :
    Extends s built.sequence := by
  cases hentry : registry.find? name with
  | none =>
    simp only [createWithin, hentry] at hbuilt
    exact Option.some.inj hbuilt ▸ .refl hs
  | some entry =>
    cases hbuild : entry.build with
    | declared kind =>
      simp only [createWithin, hentry, hbuild] at hbuilt
      obtain ⟨node, hnode, hdone⟩ := Option.bind_eq_some_iff.mp hbuilt
      obtain rfl := Option.some.inj hdone
      exact h.construct kind s id node hs hnode
    | scripted recipe => exact h.create_scripted hs hid hentry hbuild hbuilt

end Threading

/-- Whatever is built from a link of a threaded sequence keeps threads. -/
theorem threading (registry : Registry) (budget : ℕ) : Threading registry budget := by
  induction budget with
  | zero => constructor <;> simp [searchWithin, extractWithin, constructWithin, createWithin]
  | succ budget ih =>
    exact ⟨ih.search_succ, ih.extract_succ, ih.construct_succ, ih.create_succ⟩

end Construction

namespace Assembly

open Sequence Construction

variable {registry : Registry} {s : Sequence} {id : LinkId}

/-- Looking at a link keeps threads. -/
theorem extends_buildAt {built : Built (Option Node)} (hs : s.Threaded)
    (hbuilt : buildAt registry s id = some built) : Extends s built.sequence := by
  by_cases hpending : registry.Pending s id
  · rw [buildAt_of_pending hpending] at hbuilt
    exact (threading registry _).create _ s id built hs
      (lt_size_of_value_ne hpending.2.1) hbuilt
  · obtain ⟨built', hbuilt', -, hsame, -⟩ := buildAt_of_not_pending hpending
    obtain rfl := Option.some.inj (hbuilt'.symm.trans hbuilt)
    exact hsame.symm ▸ .refl hs

/-- Walking a chain keeps threads. -/
theorem extends_walk (budget : ℕ) (place : Option LinkId) (start : Built (List Node))
    {done : Built (List Node)} (hs : start.sequence.Threaded)
    (hdone : walk registry budget place start = some done) :
    Extends start.sequence done.sequence := by
  induction budget generalizing place start with
  | zero => cases hdone
  | succ budget ih =>
    cases place with
    | none => exact Option.some.inj hdone ▸ .refl hs
    | some id =>
      rw [walk] at hdone
      split at hdone
      · cases hdone
      · next built hbuilt =>
        have hlook := extends_buildAt hs hbuilt
        exact hlook.trans (ih _ ⟨_, built.sequence, _⟩ hlook.threaded hdone)

/-- Building a document keeps threads. -/
theorem extends_assemble {document : Built Document} (hs : s.Threaded)
    (hdocument : s.assemble registry = some document) : Extends s document.sequence := by
  have hwalks (heads : List LinkId) (start done : Built (List Node))
      (hstart : start.sequence.Threaded)
      (hdone : heads.foldlM (fun done head =>
        walk registry (Assembly.budget done.sequence) (some head) done) start = some done) :
      Extends start.sequence done.sequence := by
    induction heads generalizing start with
    | nil => exact Option.some.inj hdone ▸ .refl hstart
    | cons head heads ih =>
      rw [List.foldlM_cons] at hdone
      obtain ⟨next, hnext, hrest⟩ := Option.bind_eq_some_iff.mp hdone
      have hwalk := extends_walk _ _ start hstart hnext
      exact hwalk.trans (ih next hwalk.threaded hrest)
  obtain ⟨done, hdone, hfinish⟩ := Option.bind_eq_some_iff.mp hdocument
  obtain rfl := Option.some.inj hfinish
  exact hwalks s.heads ⟨[], s, []⟩ done hs hdone

end Assembly

/-! ## Operations -/

namespace Operation

open Sequence

variable {s s' : Sequence} {operation : Operation}

/-- The links that an operation names lie in the sequence, and a link that it links has no
neighbours. Links may have become anything, and nodes may be built by anything. -/
def Within (s : Sequence) : Operation → Prop
  | push _ | assemble _ => True
  | pushAfter after _ => ∀ link ∈ after, link < s.size
  | linkAfter after id =>
    after < s.size ∧ id < s.size ∧ id ≠ after ∧ s.previous id = none ∧ s.next id = none
  | claim id | empty id | remove id | pruneEmpty id | create _ _ id | construct _ _ id =>
    id < s.size

/-- An operation within a sequence keeps threads. -/
theorem extends_run (hs : s.Threaded) (hwithin : operation.Within s)
    (hrun : operation.run s = some s') : Extends s s' := by
  cases operation with
  | push token => exact Option.some.inj hrun ▸ .push hs token
  | pushAfter after token => exact Option.some.inj hrun ▸ .pushAfter hs hwithin token
  | linkAfter after id =>
    obtain ⟨hafter, hid, hne, hprevious, hnext⟩ := hwithin
    exact Option.some.inj hrun ▸ .linkAfter hs hafter hid hne hprevious hnext
  | claim id => exact Option.some.inj hrun ▸ .claim hs id
  | empty id => exact Option.some.inj hrun ▸ .empty hs id
  | remove id => exact Option.some.inj hrun ▸ .remove hs hwithin
  | pruneEmpty first =>
    have hfirst : first < s.size := hwithin
    have hprune := Extends.pruneFrom ((s.size + 1) * (s.size + 1)) hs (some first) none
      (by simpa using hfirst) (by simp)
    exact Option.some.inj hrun ▸ hprune.1
  | create registry name id =>
    obtain ⟨built, hbuilt, rfl⟩ := Option.map_eq_some_iff.mp hrun
    exact (Construction.threading registry _).create name s id built hs hwithin hbuilt
  | construct kind registry id =>
    obtain ⟨built, hbuilt, rfl⟩ := Option.map_eq_some_iff.mp hrun
    exact (Construction.threading registry _).construct kind s id built hs hbuilt
  | assemble registry =>
    obtain ⟨built, hbuilt, rfl⟩ := Option.map_eq_some_iff.mp hrun
    exact Assembly.extends_assemble hs hbuilt

end Operation

end DocTree
