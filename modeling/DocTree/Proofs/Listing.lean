import DocTree.Intake
import DocTree.Proofs.Constructors
import DocTree.Proofs.TokenReading

/-!
# The listing of an intake

An intake lists the tokens from the first link of its first batch on, as JSON text. Reading the
listing gives these tokens back, whatever their texts and kinds are. Between the batches the
sequence may be put to any use: its links may be claimed, emptied, removed and pushed between, and
documents may be built from it by any constructors. The first and the last link that the intake
remembers may be removed on the way, but they stay in the sequence, and its bonds keep making
threads. So the listing is complete: it goes on from the first link until no link comes next.
-/

namespace DocTree

open Sequence

variable {s s' : Sequence} {first last : LinkId} {intake : Intake}

/-- Links run from a link along the bonds until no link comes next. -/
structure Sequence.Unrolls (s : Sequence) (first : LinkId) (ids : List LinkId) : Prop where
  head?_eq : ids.head? = some first
  linked : ids.IsChain fun a b => s.next a = some b
  ends : ∀ last ∈ ids.getLast?, s.next last = none

/-- The links that are visited from a link of a threaded sequence on run until there are none. -/
theorem Sequence.Threaded.unrolls_iter (hs : s.Threaded) (hfirst : first < s.size) :
    s.Unrolls first (s.iter first) :=
  let ⟨hhead, hlinked, hlast⟩ := hs.trail_spec .next hfirst
  ⟨hhead, hlinked, hlast⟩

/-! ## Batches -/

namespace Classifier

/-- Linking a token keeps threads, and the new last link lies in the sequence. -/
theorem extends_classify (classifier : Classifier) (hs : s.Threaded) (hlast : last < s.size)
    (token : Token) :
    Extends s (classifier.classify s token last).1 ∧
      (classifier.classify s token last).2 < (classifier.classify s token last).1.size := by
  have hpush (token : Token) : Extends s (s.pushAfter (some last) token) :=
    .pushAfter hs (by simpa using hlast) token
  cases classifier with
  | plain | pruning | withoutFirst | droppingFirst => exact ⟨hpush token, by simp [classify]⟩
  | joining kind =>
    rw [classify]
    split
    · have hremove := Extends.remove hs hlast
      have hprevious : ∀ link ∈ s.previous last, link < (s.remove last).1.size := by
        intro link hlink
        rw [size_remove]
        exact hs.step_lt .previous hlink
      exact ⟨hremove.trans (.pushAfter hremove.threaded hprevious _), by simp⟩
    · exact ⟨hpush _, by simp⟩
  | hoisting =>
    rw [classify]
    split
    · have hhead : ∀ link ∈ some (s.head last), link < s.size := by
        intro link hlink
        exact Option.some.inj hlink ▸ hs.trail_last_lt .previous hlast
      exact ⟨.pushAfter hs hhead token, by simpa using Nat.lt_succ_of_lt hlast⟩
    · exact ⟨hpush token, by simp⟩

/-- Settling a batch keeps threads, and its first link lies in the sequence. -/
theorem extends_finalize (classifier : Classifier) (hs : s.Threaded) (hfirst : first < s.size) :
    Extends s (classifier.finalize s first).1 ∧
      ∀ link ∈ (classifier.finalize s first).2, link < (classifier.finalize s first).1.size := by
  cases classifier with
  | plain | joining | hoisting => exact ⟨.refl hs, by simpa [finalize] using hfirst⟩
  | withoutFirst => exact ⟨.refl hs, by simp [finalize]⟩
  | droppingFirst =>
    exact ⟨.remove hs hfirst, hs.remove_snd_lt first⟩
  | pruning => exact Extends.pruneFrom _ hs (some first) none (by simpa using hfirst) (by simp)

end Classifier

namespace Intake

/-- Linking tokens keeps threads, and the last link lies in the sequence. -/
theorem extends_classifyAll (classifier : Classifier) (tokens : List Token) (hs : s.Threaded)
    (hlast : last < s.size) :
    Extends s (classifyAll classifier s last tokens).1 ∧
      (classifyAll classifier s last tokens).2 < (classifyAll classifier s last tokens).1.size := by
  induction tokens generalizing s last with
  | nil => exact ⟨.refl hs, hlast⟩
  | cons token tokens ih =>
    obtain ⟨hlinked, hlast⟩ := classifier.extends_classify hs hlast token
    obtain ⟨hrest, hend⟩ := ih hlinked.threaded hlast
    exact ⟨hlinked.trans hrest, hend⟩

/-- The sequence of an intake is threaded, and the links that the intake remembers lie in it. -/
structure Sound (intake : Intake) : Prop where
  threaded : intake.sequence.Threaded
  first_lt : ∀ link ∈ intake.first, link < intake.sequence.size
  last_lt : ∀ link ∈ intake.last, link < intake.sequence.size

namespace Sound

/-- A new intake remembers no links. -/
theorem start (classifier : Classifier) : Sound { classifier } where
  threaded := wellFormed_empty.threaded
  first_lt := by simp
  last_lt := by simp

/-- Taking a batch in keeps an intake sound. -/
theorem parse (h : intake.Sound) (tokens : List Token) : (intake.parse tokens).1.Sound := by
  obtain ⟨classifier, s, first, last⟩ := intake
  have hbegun : Extends s (s.pushAfter last {}) := .pushAfter h.threaded h.last_lt {}
  have hsentinel : s.size < (s.pushAfter last {}).size := by simp
  obtain ⟨hlinked, hlast⟩ :=
    extends_classifyAll classifier tokens hbegun.threaded hsentinel
  obtain ⟨hsettled, hfirst⟩ :=
    classifier.extends_finalize hlinked.threaded (hlinked.lt_size hsentinel)
  refine ⟨hsettled.threaded, fun link hlink => ?_, fun link hlink => ?_⟩
  · cases first with
    | none => exact hfirst link hlink
    | some old =>
      obtain rfl := Option.some.inj hlink
      exact ((hbegun.trans hlinked).trans hsettled).lt_size (h.first_lt old rfl)
  · -- The last link of the batch may have been removed again when the batch was settled.
    simp only [Intake.parse] at hlink
    split at hlink
    · exact Option.some.inj hlink ▸ hsettled.lt_size hlast
    · obtain ⟨begin, hbegin, rfl⟩ := Option.mem_map.mp hlink
      exact hsettled.threaded.trail_last_lt .next (hfirst begin hbegin)

/-- What is done to the sequence keeps an intake sound. -/
theorem operate (h : intake.Sound) {operation : Operation}
    (hwithin : operation.Within intake.sequence) (hrun : operation.run intake.sequence = some s') :
    Sound { intake with sequence := s' } := by
  have hextends := Operation.extends_run h.threaded hwithin hrun
  exact ⟨hextends.threaded, fun link hlink => hextends.lt_size (h.first_lt link hlink),
    fun link hlink => hextends.lt_size (h.last_lt link hlink)⟩

end Sound

/-! ## Intakes in use -/

/-- The intakes that come from a new one by taking batches in and by operations on the links of the
sequence. -/
inductive InUse : Intake → Prop where
  | start (classifier : Classifier) : InUse { classifier }
  | parse {intake : Intake} (h : InUse intake) (tokens : List Token) : InUse (intake.parse tokens).1
  | operate {intake : Intake} {s : Sequence} (h : InUse intake) (operation : Operation)
      (hwithin : operation.Within intake.sequence)
      (hrun : operation.run intake.sequence = some s) : InUse { intake with sequence := s }

/-- Every intake in use is sound. -/
theorem InUse.sound (h : intake.InUse) : intake.Sound := by
  induction h with
  | start classifier => exact .start classifier
  | parse _ tokens ih => exact ih.parse tokens
  | operate _ operation hwithin hrun ih => exact ih.operate hwithin hrun

/-- The listing of an intake in use is read as the tokens from its first link on, until no link
comes next. -/
theorem listing_decodes (h : intake.InUse) (hfirst : intake.first = some first) :
    Json.readTokens intake.listing = .ok (intake.sequence.toTokens first) ∧
      intake.sequence.Unrolls first (intake.sequence.iter first) := by
  have hsound := h.sound
  refine ⟨?_, hsound.threaded.unrolls_iter (hsound.first_lt first hfirst)⟩
  simp only [listing, tokens, hfirst]
  exact Json.readTokens_render _

/-- A text is built with its notes as children, and a mark is pushed after it. -/
def markingRegistry : Registry :=
  ({} : Registry).registerRecipe "text"
    { result := .node { names := ["text"], children := ["note"] }
      after := [.insertAfter .self { value := "mark", data := "\t" }] }

/-- A text with all that is escaped in a listing. -/
def spokenText : Token :=
  { value := "text", data := "\"é\\\n\u0001\"" }

/-- An intake of a text with a note. -/
def spokenIntake : Intake :=
  (({} : Intake).parse [spokenText, { value := "note", data := "b" }]).1

/-- The note is taken out when the document is built, and the next batch follows it. The listing
goes from the sentinel of the first batch to the mark behind the text. -/
theorem listing_decodes_spokenText :
    ∃ intake : Intake, intake.InUse ∧ intake.first = some 0 ∧
      Json.readTokens intake.listing =
        .ok [{}, spokenText, { value := "mark", data := "\t" }] ∧
      intake.sequence.Unrolls 0 [0, 1, 3] := by
  have hbegun : spokenIntake.InUse := (InUse.start .plain).parse _
  have hstates : ((Operation.assemble markingRegistry).run spokenIntake.sequence).map (fun s =>
      let intake := (Intake.parse { spokenIntake with sequence := s } [{ data := "c" }]).1
      (intake.first, intake.sequence.toTokens 0, intake.sequence.iter 0)) =
        some (some 0, [{}, spokenText, { value := "mark", data := "\t" }], [0, 1, 3]) := by
    decide +kernel
  obtain ⟨s, hrun, hstates⟩ := Option.map_eq_some_iff.mp hstates
  simp only [Prod.mk.injEq] at hstates
  obtain ⟨hfirst, htokens, hiter⟩ := hstates
  have huse := (hbegun.operate (.assemble markingRegistry) trivial hrun).parse [{ data := "c" }]
  obtain ⟨hdecodes, hunrolls⟩ := listing_decodes huse hfirst
  exact ⟨_, huse, hfirst, htokens ▸ hdecodes, hiter ▸ hunrolls⟩

end Intake

end DocTree
