import DocTree.Node
import Mathlib.Data.List.Infix
import Mathlib.Data.List.TakeWhile
import Mathlib.Tactic.Common

/-!
# Splitting undoes joining

A text that has no two newlines in a row is one paragraph. Any other text has a first run of two or
more newlines, taken as long as it is: the text before the run is its first paragraph, and the text
after the run is split in turn. So splitting gives back whatever was joined by such runs, if the
paragraphs leave no doubt about where a run begins and ends, and what splitting gives is always of
this kind.
-/

namespace DocTree.Paragraph

/-- A text consists of paragraphs with a run of two or more newlines between each two of them. -/
inductive Interleaved : List (List Char) → List Char → Prop where
  /-- The last paragraph ends the text. -/
  | last (paragraph : List Char) : Interleaved [paragraph] paragraph
  /-- A paragraph is followed by a run of newlines, and then by the rest. -/
  | more (paragraph : List Char) (count : ℕ) {others : List (List Char)} {rest : List Char}
      (h : Interleaved others rest) :
    Interleaved (paragraph :: others) (paragraph ++ List.replicate (count + 2) '\n' ++ rest)

/-- No two newlines follow each other. -/
def Unbroken (text : List Char) : Prop :=
  ¬ ['\n', '\n'] <:+: text
  deriving Decidable

/-- Runs of newlines between the paragraphs begin and end where the paragraphs end and begin. Only
the first and the last paragraph may be empty. -/
structure Separated (paragraphs : List (List Char)) : Prop where
  unbroken : ∀ paragraph ∈ paragraphs, Unbroken paragraph
  ends : ∀ paragraph ∈ paragraphs.dropLast, paragraph.getLast? ≠ some '\n'
  starts : ∀ paragraph ∈ paragraphs.tail, paragraph.head? ≠ some '\n'
  inner_ne : ∀ paragraph ∈ paragraphs.tail.dropLast, paragraph ≠ []

/-- Paragraphs that a text can be split into. An empty paragraph does not stand alone. -/
structure Canonical (paragraphs : List (List Char)) : Prop extends Separated paragraphs where
  ne_nil : paragraphs ≠ []
  ne_empty : paragraphs ≠ [[]]

variable {text rest paragraph next : List Char} {others : List (List Char)} {c : Char}

/-! ## Runs of newlines -/

/-- A text is unbroken if its rest is, and does not go on with a second newline. -/
theorem unbroken_cons :
    Unbroken (c :: text) ↔ ¬ (c = '\n' ∧ text.head? = some '\n') ∧ Unbroken text := by
  rw [Unbroken, List.infix_cons_iff, List.cons_prefix_cons, List.singleton_prefix_iff_head?_eq_some,
    not_or, Eq.comm (a := '\n')]
  rfl

/-- The empty text has no run in it. -/
theorem unbroken_nil : Unbroken [] := by
  simp [Unbroken]

/-- A text that is not unbroken has a first run of newlines, which is taken as long as it is. -/
theorem exists_first_run (h : ¬ Unbroken text) :
    ∃ paragraph count rest, text = paragraph ++ List.replicate (count + 2) '\n' ++ rest ∧
      Unbroken paragraph ∧ paragraph.getLast? ≠ some '\n' ∧ rest.head? ≠ some '\n' := by
  induction text with
  | nil => exact absurd unbroken_nil h
  | cons c text ih =>
    by_cases hrun : c = '\n' ∧ text.head? = some '\n'
    · obtain ⟨rfl, hnext⟩ := hrun
      obtain ⟨more, rfl⟩ := List.head?_eq_some_iff.mp hnext
      -- The run goes on as long as there are newlines.
      have hmore : more.takeWhile (· = '\n') =
          List.replicate (more.takeWhile (· = '\n')).length '\n' :=
        List.eq_replicate_of_mem fun c hc => by simpa using List.mem_takeWhile_imp hc
      refine ⟨[], (more.takeWhile (· = '\n')).length, more.dropWhile (· = '\n'), ?_,
        unbroken_nil, by simp, fun hhead => ?_⟩
      · rw [List.replicate_succ, List.replicate_succ, ← hmore]
        simp
      · simpa [hhead] using List.head?_dropWhile_not (fun c : Char => decide (c = '\n')) more
    · have hrest : ¬ Unbroken text := fun hrest => h (unbroken_cons.mpr ⟨hrun, hrest⟩)
      obtain ⟨paragraph, count, rest, rfl, hparagraph, hend, hstart⟩ := ih hrest
      refine ⟨c :: paragraph, count, rest, by simp, unbroken_cons.mpr ⟨fun ⟨hc, hhead⟩ => ?_,
        hparagraph⟩, ?_, hstart⟩
      · obtain ⟨more, rfl⟩ := List.head?_eq_some_iff.mp hhead
        exact hrun ⟨hc, rfl⟩
      · cases paragraph with
        | nil => exact fun hlast => hrun ⟨Option.some.inj hlast, rfl⟩
        | cons next paragraph => simpa using hend

/-! ## Cutting at the first run -/

/-- A character that does not begin a run belongs to the first paragraph. -/
theorem cut_cons (h : ¬ (c = '\n' ∧ text.head? = some '\n')) :
    cut false (c :: text) = (cut false text).modifyHead (c :: ·) := by
  obtain ⟨paragraph, others, hcut⟩ := List.exists_cons_of_ne_nil (cut_ne_nil false text)
  rw [hcut, List.modifyHead_cons]
  cases text with
  | nil => simp_all [cut]
  | cons next text =>
    rw [cut, hcut]
    · simp
    · simpa using h

/-- A text without a run is one paragraph. -/
theorem cut_of_unbroken (h : Unbroken text) : cut false text = [text] := by
  induction text with
  | nil => rfl
  | cons c text ih =>
    obtain ⟨hc, hrest⟩ := unbroken_cons.mp h
    rw [cut_cons hc, ih hrest]
    rfl

/-- The rest of a run is passed over. -/
theorem cut_run (count : ℕ) (h : rest.head? ≠ some '\n') :
    cut true (List.replicate count '\n' ++ rest) = cut false rest := by
  induction count with
  | zero =>
    cases rest with
    | nil => rfl
    | cons c rest =>
      have hc : c ≠ '\n' := by simpa using h
      rw [List.replicate_zero, List.nil_append, cut_cons (by simp [hc])]
      obtain ⟨paragraph, others, hcut⟩ := List.exists_cons_of_ne_nil (cut_ne_nil false rest)
      rw [cut, hcut]
      · rfl
      · simpa using hc
      · simp
  | succ count ih => simpa [List.replicate_succ, cut] using ih

/-- A text is cut at its first run, and what follows the run is cut in turn. -/
theorem cut_append_run (hparagraph : Unbroken paragraph) (hend : paragraph.getLast? ≠ some '\n')
    (count : ℕ) (hstart : rest.head? ≠ some '\n') :
    cut false (paragraph ++ List.replicate (count + 2) '\n' ++ rest) =
      paragraph :: cut false rest := by
  induction paragraph with
  | nil => simp [List.replicate_succ, cut, cut_run count hstart]
  | cons c paragraph ih =>
    obtain ⟨hc, hrest⟩ := unbroken_cons.mp hparagraph
    have hnext : ¬ (c = '\n' ∧
        (paragraph ++ List.replicate (count + 2) '\n' ++ rest).head? = some '\n') := by
      cases paragraph with
      | nil => exact fun h => hend (by simp [h.1])
      | cons next paragraph => simpa using hc
    have hend' : paragraph.getLast? ≠ some '\n' := by
      cases paragraph with
      | nil => simp
      | cons next paragraph => simpa using hend
    rw [List.cons_append, List.cons_append, cut_cons hnext, ih hrest hend']
    rfl

/-! ## Paragraphs one by one -/

/-- One paragraph has to be unbroken. -/
theorem separated_singleton : Separated [paragraph] ↔ Unbroken paragraph :=
  ⟨fun h => h.unbroken paragraph List.mem_cons_self, fun h => ⟨by simpa using h, by simp, by simp,
    by simp⟩⟩

/-- A paragraph more has to be unbroken and must not end with a newline; the one that was the first
must not start with one, and is empty only if it is the last. -/
theorem separated_cons_cons :
    Separated (paragraph :: next :: others) ↔
      (Unbroken paragraph ∧ paragraph.getLast? ≠ some '\n') ∧
        (next.head? ≠ some '\n' ∧ (others ≠ [] → next ≠ [])) ∧ Separated (next :: others) := by
  constructor
  · rintro ⟨hunbroken, hends, hstarts, hinner⟩
    refine ⟨⟨hunbroken _ (by simp), hends _ (by simp)⟩, ⟨hstarts _ (by simp), fun hne => ?_⟩, ?_⟩
    · exact hinner _ (by simp [List.dropLast_cons_of_ne_nil hne])
    · refine ⟨fun p hp => hunbroken p (by simp_all), fun p hp => hends p (by simp_all),
        fun p hp => hstarts p (by simp_all), fun p hp => hinner p ?_⟩
      have hne : others ≠ [] := by
        rintro rfl
        simp at hp
      simpa [List.dropLast_cons_of_ne_nil hne] using .inr hp
  · rintro ⟨⟨hparagraph, hend⟩, ⟨hstart, hnext⟩, ⟨hunbroken, hends, hstarts, hinner⟩⟩
    refine ⟨?_, ?_, ?_, fun p hp => ?_⟩
    · simpa [hparagraph] using hunbroken
    · simpa [hend] using hends
    · simpa [hstart] using hstarts
    · cases others with
      | nil => simp at hp
      | cons other others =>
        rcases List.mem_cons.mp hp with rfl | hp
        · exact hnext (by simp)
        · exact hinner p hp

/-- A text starts with a newline exactly if its first paragraph does or is empty before a run. -/
theorem Interleaved.head?_ne_iff (h : Interleaved (next :: others) rest) :
    rest.head? ≠ some '\n' ↔ next.head? ≠ some '\n' ∧ (others ≠ [] → next ≠ []) := by
  cases h with
  | last => simp
  | @more _ count _ rest h =>
    have hne : others ≠ [] := by
      rintro rfl
      cases h
    cases next with
    | nil => simp [List.replicate_succ, hne]
    | cons c next => simp

/-! ## Cutting and interleaving -/

/-- Paragraphs that are separated are what their text is cut into. -/
theorem cut_of_interleaved {paragraphs : List (List Char)} (h : Interleaved paragraphs text)
    (hseparated : Separated paragraphs) : cut false text = paragraphs := by
  induction h with
  | last paragraph => exact cut_of_unbroken (separated_singleton.mp hseparated)
  | @more paragraph count others rest h ih =>
    cases others with
    | nil => cases h
    | cons next others =>
      obtain ⟨⟨hparagraph, hend⟩, hnext, hothers⟩ := separated_cons_cons.mp hseparated
      rw [cut_append_run hparagraph hend count (h.head?_ne_iff.mpr hnext), ih hothers]

/-- Every text is cut into separated paragraphs that it consists of. -/
theorem interleaved_cut (text : List Char) :
    Separated (cut false text) ∧ Interleaved (cut false text) text := by
  -- What follows the first run is shorter.
  induction hlength : text.length using Nat.strong_induction_on generalizing text with
  | _ length ih =>
    by_cases hunbroken : Unbroken text
    · rw [cut_of_unbroken hunbroken]
      exact ⟨separated_singleton.mpr hunbroken, .last text⟩
    · obtain ⟨paragraph, count, rest, rfl, hparagraph, hend, hstart⟩ := exists_first_run hunbroken
      rw [cut_append_run hparagraph hend count hstart]
      obtain ⟨hseparated, hinterleaved⟩ := ih rest.length (by simp [← hlength]; omega) rest rfl
      obtain ⟨next, others, hcut⟩ := List.exists_cons_of_ne_nil (cut_ne_nil false rest)
      rw [hcut] at hseparated hinterleaved ⊢
      have hnext := hinterleaved.head?_ne_iff.mp hstart
      exact ⟨separated_cons_cons.mpr ⟨⟨hparagraph, hend⟩, hnext, hseparated⟩,
        .more paragraph count hinterleaved⟩

/-- Paragraphs make up the text that joins them by blank lines. -/
theorem interleaved_join {paragraphs : List String} (h : paragraphs ≠ []) :
    Interleaved (paragraphs.map String.toList) (join paragraphs).toList := by
  obtain ⟨first, rest, rfl⟩ := List.exists_cons_of_ne_nil h
  induction rest generalizing first with
  | nil => simpa [join] using Interleaved.last first.toList
  | cons next rest ih =>
    have hjoin : (join (first :: next :: rest)).toList =
        first.toList ++ List.replicate 2 '\n' ++ (join (next :: rest)).toList := by
      simp [join, String.intercalate_cons_cons]
    rw [hjoin]
    exact .more first.toList 0 (ih next (by simp))

/-! ## Splitting -/

/-- A text that is not empty is split by cutting it. -/
theorem map_toList_split {text : String} (h : text ≠ "") :
    (split text).map String.toList = cut false text.toList := by
  simp [split, h]

/-- What a text is split into is canonical, and the text consists of it. -/
theorem canonical_split {text : String} (h : text ≠ "") :
    Canonical ((split text).map String.toList) ∧
      Interleaved ((split text).map String.toList) text.toList := by
  obtain ⟨hseparated, hinterleaved⟩ := interleaved_cut text.toList
  rw [map_toList_split h]
  refine ⟨⟨hseparated, cut_ne_nil false text.toList, fun hempty => h ?_⟩, hinterleaved⟩
  -- Only the empty text consists of one empty paragraph.
  rw [hempty] at hinterleaved
  have hnil : text.toList = [] := by
    generalize text.toList = chars at hinterleaved
    cases hinterleaved with
    | last => rfl
    | more _ _ h => cases h
  exact String.toList_eq_nil_iff.mp hnil

/-- Canonical paragraphs are what a text that consists of them is split into. -/
theorem split_of_canonical {paragraphs : List String} {text : String}
    (hcanonical : Canonical (paragraphs.map String.toList))
    (h : Interleaved (paragraphs.map String.toList) text.toList) : split text = paragraphs := by
  have hcut := cut_of_interleaved h hcanonical.toSeparated
  have hne : text ≠ "" := by
    rintro rfl
    exact hcanonical.ne_empty (hcut.symm.trans rfl)
  have hinjective : Function.Injective (List.map String.toList) :=
    List.map_injective_iff.mpr fun _ _ => String.toList_injective
  exact hinjective ((map_toList_split hne).trans hcut)

/-- Canonical paragraphs with runs of newlines between them, of whatever lengths, are split into
these paragraphs; every text but the empty one is split into canonical paragraphs that it consists
of; and the text of a node whose payload a text was split into is split into that payload again. -/
theorem split_inverts_joining :
    (∀ (paragraphs : List String) (text : String), Canonical (paragraphs.map String.toList) →
      Interleaved (paragraphs.map String.toList) text.toList → split text = paragraphs) ∧
    (∀ text, text ≠ "" → Canonical ((split text).map String.toList) ∧
      Interleaved ((split text).map String.toList) text.toList) ∧
    ∀ (node : Node) (text : String),
      node.payload = split text → split node.text = node.payload := by
  refine ⟨fun _ _ => split_of_canonical, fun _ => canonical_split, fun node text hpayload => ?_⟩
  rw [Node.text, hpayload]
  by_cases htext : text = ""
  · rw [htext]
    rfl
  · have hcanonical := (canonical_split htext).1
    exact split_of_canonical hcanonical
      (interleaved_join fun hnil => hcanonical.ne_nil (by rw [hnil]; rfl))

/-- A text that starts with a run of three newlines and ends with a newline, and a node with its
paragraphs. -/
theorem split_inverts_joining_edges :
    Canonical (["", "a\nb", "c\n"].map String.toList) ∧
      Interleaved (["", "a\nb", "c\n"].map String.toList) "\n\n\na\nb\n\nc\n".toList ∧
      split "\n\n\na\nb\n\nc\n" = ["", "a\nb", "c\n"] ∧ "\n\n" ≠ "" ∧
      Canonical ((split "\n\n").map String.toList) ∧
      Interleaved ((split "\n\n").map String.toList) "\n\n".toList ∧
      (Node.leaf "p" ["", "x"]).payload = split "\n\n\nx" ∧
      split (Node.leaf "p" ["", "x"]).text = ["", "x"] := by
  have hcanonical : Canonical (["", "a\nb", "c\n"].map String.toList) := {
    unbroken := by decide
    ends := by decide
    starts := by decide
    inner_ne := by decide
    ne_nil := by decide
    ne_empty := by decide }
  have hinterleaved :
      Interleaved (["", "a\nb", "c\n"].map String.toList) "\n\n\na\nb\n\nc\n".toList :=
    .more "".toList 1 (.more "a\nb".toList 0 (.last "c\n".toList))
  have hpayload : (Node.leaf "p" ["", "x"]).payload = split "\n\n\nx" := by decide
  exact ⟨hcanonical, hinterleaved, split_inverts_joining.1 _ _ hcanonical hinterleaved, by decide,
    (split_inverts_joining.2.1 "\n\n" (by decide)).1,
    (split_inverts_joining.2.1 "\n\n" (by decide)).2, hpayload,
    split_inverts_joining.2.2 _ _ hpayload⟩

end DocTree.Paragraph
