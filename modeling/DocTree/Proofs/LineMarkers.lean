import DocTree.Comment
import DocTree.Proofs.Lines

/-!
# Markers at the starts of lines

Cleaning a block takes the marker off the start of every line that has one. The blanks before the
marker go with it, and they may reach over line feeds: blank lines right before a marked line are
swallowed, whole, while blank lines before any other line stay. That can be seen in the cleaned text
exactly when a swallowed line had text on both sides, since blank lines at either end are trimmed
in any case.
-/

namespace DocTree

namespace Comment

open Text

/-! ## Lines and their markers -/

/-- Whether the first text, after any blanks, is the marker. -/
def startsMarked (marker text : List Char) : Bool :=
  marker.isPrefixOf (trimStart text)

/-- A text without the space that it may begin with. -/
def dropSpace : List Char → List Char
  | ' ' :: rest => rest
  | text => text

/-- What follows a marker and one space, in a text that starts with the marker after any blanks. -/
def afterMarker (marker text : List Char) : List Char :=
  dropSpace ((trimStart text).drop marker.length)

/-- A line without its marker, if it has one. -/
def unmark (marker line : List Char) : List Char :=
  if startsMarked marker line then afterMarker marker line else line

/-- Whether a line goes with the marker of a later line: it is blank, and the marker is the first
text after it. -/
def swallowed (marker line : List Char) (after : List (List Char)) : Bool :=
  isBlankLine line && startsMarked marker (joinLines after)

/-- The lines that are not swallowed. -/
def leftLines (marker : List Char) : List (List Char) → List (List Char)
  | [] => []
  | line :: after =>
    if swallowed marker line after then leftLines marker after
    else line :: leftLines marker after

/-- A marker that can be found at the start of a line: it is there, and no part of it is blank. -/
structure Visible (marker : List Char) : Prop where
  ne_nil : marker ≠ []
  not_blank : ∀ c ∈ marker, isBlank c = false

variable {marker line text : List Char} {rest rows : List (List Char)}

/-! ## One marker -/

/-- A text that does not begin with a space stays as it is. -/
theorem dropSpace_of_ne (h : text.head? ≠ some ' ') : dropSpace text = text := by
  unfold dropSpace
  split
  · exact absurd rfl h
  · rfl

/-- A space at the start is all that is dropped. -/
theorem dropSpace_suffix (text : List Char) : dropSpace text <:+ text := by
  unfold dropSpace
  split
  · exact List.suffix_cons _ _
  · exact List.suffix_rfl

/-- What follows a marker is the end of the text. -/
theorem afterMarker_suffix (marker text : List Char) : afterMarker marker text <:+ text :=
  (dropSpace_suffix _).trans ((List.drop_suffix _ _).trans (List.dropWhile_suffix _))

/-- A line without its marker is the end of the line. -/
theorem unmark_suffix (marker line : List Char) : unmark marker line <:+ line := by
  unfold unmark
  split
  · exact afterMarker_suffix marker line
  · exact List.suffix_rfl

/-- What comes after the blanks at the start of a text. -/
theorem drop_takeWhile (text : List Char) :
    text.drop (text.takeWhile isBlank).length = trimStart text := by
  have hsplit := List.takeWhile_append_dropWhile (p := isBlank) (l := text)
  calc text.drop (text.takeWhile isBlank).length
      = (text.takeWhile isBlank ++ text.dropWhile isBlank).drop
          (text.takeWhile isBlank).length := by rw [hsplit]
    _ = trimStart text := List.drop_left

namespace Visible

variable (h : Visible marker)

include h

/-- A marker does not begin where a blank stands. -/
theorem not_isPrefixOf {c : Char} (hc : isBlank c = true) (text : List Char) :
    marker.isPrefixOf (c :: text) = false := by
  obtain ⟨first, more, rfl⟩ := List.exists_cons_of_ne_nil h.ne_nil
  have hne : first ≠ c := fun heq => by simp [← heq, h.not_blank first List.mem_cons_self] at hc
  simp [List.isPrefixOf, hne]

/-- A line feed is no part of a marker. -/
theorem newline_notMem : '\n' ∉ marker := fun hmem => by
  have hblank := h.not_blank _ hmem
  revert hblank
  decide

/-- The marker is looked for after all blanks. -/
theorem marked?_eq (text : List Char) :
    marked? marker text = markedAt? marker text (text.takeWhile isBlank).length := by
  have hearlier : ∀ count ∈ (List.range (text.takeWhile isBlank).length).reverse,
      markedAt? marker text count = none := by
    intro count hcount
    have hlt : count < (text.takeWhile isBlank).length := by simpa using hcount
    have hinit := List.takeWhile_prefix (l := text) isBlank
    have hblank := List.mem_takeWhile_imp (List.getElem_mem hlt)
    rw [hinit.getElem hlt] at hblank
    rw [markedAt?, List.drop_eq_getElem_cons (hlt.trans_le hinit.length_le),
      h.not_isPrefixOf hblank]
    rfl
  rw [marked?, List.range_succ, List.reverse_append, List.reverse_singleton,
    List.singleton_append, List.findSome?_cons, List.findSome?_eq_none_iff.mpr hearlier]
  cases markedAt? marker text (text.takeWhile isBlank).length <;> rfl

/-- Where the first text is no marker, nothing is taken off at the start of a line. -/
theorem stripMarkers_of_not (hstart : startsMarked marker text = false) :
    stripMarkers marker true text = stripMarkers marker false text := by
  cases text with
  | nil => simp [stripMarkers]
  | cons c rest =>
    have hnone : marked? marker (c :: rest) = none := by
      rw [h.marked?_eq, markedAt?, drop_takeWhile]
      have hstart' : marker.isPrefixOf (trimStart (c :: rest)) = false := hstart
      simp [hstart']
    rw [stripMarkers, stripMarkers]
    simp [hnone]

/-- Where the first text is the marker, it is found with the blanks before it and a space after
it. -/
theorem marked?_of_startsMarked (hstart : startsMarked marker text = true) :
    ∃ found, marked? marker text = some found ∧ 0 < found.length ∧ found.endsLine = false ∧
      text.drop found.length = afterMarker marker text := by
  have hlength : 0 < marker.length := List.length_pos_of_ne_nil h.ne_nil
  have hdrop : ∀ more, text.drop ((text.takeWhile isBlank).length + more) =
      (trimStart text).drop more := fun more => by rw [← List.drop_drop, drop_takeWhile]
  rw [h.marked?_eq, markedAt?, drop_takeWhile, ← startsMarked, hstart]
  simp only [Bool.not_true, Bool.false_eq_true, if_false]
  split
  · next hspace =>
    refine ⟨_, rfl, Nat.succ_pos _, rfl, ?_⟩
    obtain ⟨rest, hrest⟩ := List.head?_eq_some_iff.mp hspace
    rw [Nat.add_assoc, hdrop, ← List.drop_drop, afterMarker, hrest]
    rfl
  · next hspace =>
    have hends : (marker.getLast? == some '\n') = false := by
      simpa using fun hlast => h.newline_notMem (List.mem_of_getLast? hlast)
    refine ⟨_, rfl, Nat.lt_add_left _ hlength, hends, ?_⟩
    rw [hdrop, afterMarker, dropSpace_of_ne hspace]

/-- Where the first text is the marker, stripping goes on after it. -/
theorem stripMarkers_of_startsMarked (hstart : startsMarked marker text = true) :
    stripMarkers marker true text = stripMarkers marker false (afterMarker marker text) := by
  obtain ⟨found, hfound, hpos, hends, hafter⟩ := h.marked?_of_startsMarked hstart
  cases text with
  | nil => exact absurd (by simpa [startsMarked, trimStart] using hstart) h.ne_nil
  | cons c rest =>
    obtain ⟨length, hlength⟩ := Nat.exists_eq_add_one_of_ne_zero (Nat.ne_of_gt hpos)
    rw [stripMarkers, if_pos rfl, hfound]
    simp only [hends]
    rw [← hafter, hlength, List.drop_succ_cons, Nat.add_sub_cancel]

end Visible

/-! ## All markers -/

/-- Within a line nothing is taken off. -/
theorem stripMarkers_append (hline : '\n' ∉ line) (text : List Char) :
    stripMarkers marker false (line ++ text) = line ++ stripMarkers marker false text := by
  induction line with
  | nil => rfl
  | cons c line ih =>
    have hc : (c == '\n') = false := by simpa using fun heq => hline (by simp [heq])
    rw [List.cons_append, stripMarkers]
    simp only [Bool.false_eq_true, if_false, hc]
    rw [ih fun hmem => hline (List.mem_cons_of_mem _ hmem)]
    rfl

/-- After a line feed a line starts. -/
theorem stripMarkers_newline (text : List Char) :
    stripMarkers marker false ('\n' :: text) = '\n' :: stripMarkers marker true text := by
  rw [stripMarkers]
  simp

/-- The space after a marker is on the line of the marker. -/
theorem dropSpace_append (text : List Char) (rest : List (List Char)) :
    dropSpace (text ++ rest.flatMap ('\n' :: ·)) = dropSpace text ++ rest.flatMap ('\n' :: ·) := by
  by_cases hspace : text.head? = some ' '
  · obtain ⟨more, rfl⟩ := List.head?_eq_some_iff.mp hspace
    rfl
  · have hspace' : (text ++ rest.flatMap ('\n' :: ·)).head? ≠ some ' ' := by
      cases text with
      | nil => cases rest <;> simp
      | cons c text => exact hspace
    rw [dropSpace_of_ne hspace, dropSpace_of_ne hspace']

/-- A marker without line feeds is on one line. -/
theorem isPrefixOf_append (hmarker : '\n' ∉ marker) (text : List Char) (rest : List (List Char)) :
    marker.isPrefixOf (text ++ rest.flatMap ('\n' :: ·)) = marker.isPrefixOf text := by
  induction marker generalizing text with
  | nil => rfl
  | cons c marker ih =>
    have hc : c ≠ '\n' := fun heq => hmarker (by simp [heq])
    cases text with
    | nil => cases rest <;> simp [List.isPrefixOf, hc]
    | cons d text =>
      rw [List.cons_append, List.isPrefixOf, List.isPrefixOf,
        ih fun hmem => hmarker (List.mem_cons_of_mem _ hmem)]

namespace Visible

variable (h : Visible marker)

include h

/-- A blank text does not start with a marker. -/
theorem startsMarked_of_blank (hblank : text.all isBlank = true) :
    startsMarked marker text = false := by
  have htext : trimStart text = [] := List.dropWhile_eq_nil_iff.mpr (by simpa using hblank)
  obtain ⟨first, more, rfl⟩ := List.exists_cons_of_ne_nil h.ne_nil
  rw [startsMarked, htext]
  rfl

/-- Whether a line with text starts with the marker does not depend on later lines. -/
theorem startsMarked_joinLines (hline : isBlankLine line = false) :
    startsMarked marker (joinLines (line :: rest)) = startsMarked marker line := by
  rw [startsMarked, startsMarked, trimStart_joinLines_of_not_blank hline, joinLines_cons,
    isPrefixOf_append h.newline_notMem]

/-- What follows the marker of a line is the rest of the line, and the later lines. -/
theorem afterMarker_joinLines (hstart : startsMarked marker line = true) :
    afterMarker marker (joinLines (line :: rest)) =
      afterMarker marker line ++ rest.flatMap ('\n' :: ·) := by
  have hline : isBlankLine line = false := Bool.eq_false_iff.mpr fun hblank => by
    simp [h.startsMarked_of_blank hblank] at hstart
  have hinit := List.isPrefixOf_iff_prefix.mp hstart
  rw [afterMarker, afterMarker, trimStart_joinLines_of_not_blank hline, joinLines_cons,
    List.drop_append_of_le_length hinit.length_le, dropSpace_append]

/-- Of a line that is not swallowed, only its own marker is taken off. -/
theorem stripMarkers_line (hline : '\n' ∉ line) (hleft : swallowed marker line rest = false) :
    stripMarkers marker true (joinLines (line :: rest)) =
      unmark marker line ++ stripMarkers marker false (rest.flatMap ('\n' :: ·)) := by
  have hstart : startsMarked marker (joinLines (line :: rest)) = startsMarked marker line := by
    by_cases hblank : isBlankLine line = true
    · rw [h.startsMarked_of_blank hblank, startsMarked, trimStart_joinLines_of_blank hblank,
        ← startsMarked]
      simpa [swallowed, hblank] using hleft
    · exact h.startsMarked_joinLines (by simpa using hblank)
  by_cases hmarked : startsMarked marker line = true
  · have hafter : '\n' ∉ afterMarker marker line := fun hmem =>
      hline ((afterMarker_suffix marker line).subset hmem)
    rw [h.stripMarkers_of_startsMarked (hstart.trans hmarked), h.afterMarker_joinLines hmarked,
      stripMarkers_append hafter, unmark, if_pos hmarked]
  · rw [h.stripMarkers_of_not (hstart.trans (by simpa using hmarked)), joinLines_cons,
      stripMarkers_append hline, unmark, if_neg hmarked]

/-- A swallowed line goes with the marker behind it. -/
theorem stripMarkers_swallowed (hswallowed : swallowed marker line rest = true) :
    stripMarkers marker true (joinLines (line :: rest)) =
      stripMarkers marker true (joinLines rest) := by
  obtain ⟨hblank, hstart⟩ := Bool.and_eq_true_iff.mp hswallowed
  have hsame := trimStart_joinLines_of_blank hblank rest
  have hstart' : startsMarked marker (joinLines (line :: rest)) = true := by
    rwa [startsMarked, hsame]
  rw [h.stripMarkers_of_startsMarked hstart, h.stripMarkers_of_startsMarked hstart', afterMarker,
    hsame, ← afterMarker]

/-- A line is swallowed only before others. -/
theorem ne_nil_of_swallowed (hswallowed : swallowed marker line rest = true) : rest ≠ [] := by
  rintro rfl
  have hnone : startsMarked marker (joinLines []) = false := h.startsMarked_of_blank rfl
  simp [swallowed, hnone] at hswallowed

/-- Where there is a line, one is left. -/
theorem leftLines_ne_nil (hlines : rows ≠ []) : leftLines marker rows ≠ [] := by
  induction rows with
  | nil => exact hlines
  | cons line rest ih =>
    rw [leftLines]
    split
    · next hswallowed => exact ih (h.ne_nil_of_swallowed hswallowed)
    · exact List.cons_ne_nil _ _

/-- The markers of the lines that are not swallowed are taken off, line by line. -/
theorem stripMarkers_joinLines (hlines : rows ≠ []) (hfeeds : ∀ line ∈ rows, '\n' ∉ line) :
    stripMarkers marker true (joinLines rows) =
      joinLines ((leftLines marker rows).map (unmark marker)) := by
  induction rows with
  | nil => exact absurd rfl hlines
  | cons line rest ih =>
    have hrest : rest ≠ [] → stripMarkers marker true (joinLines rest) =
        joinLines ((leftLines marker rest).map (unmark marker)) := fun hne =>
      ih hne fun other hother => hfeeds other (List.mem_cons_of_mem _ hother)
    cases hswallowed : swallowed marker line rest with
    | true =>
      rw [h.stripMarkers_swallowed hswallowed, hrest (h.ne_nil_of_swallowed hswallowed), leftLines,
        if_pos hswallowed]
    | false =>
      rw [h.stripMarkers_line (hfeeds line List.mem_cons_self) hswallowed, leftLines,
        if_neg (by simp [hswallowed]), List.map_cons, joinLines_cons]
      by_cases hnil : rest = []
      · subst hnil
        simp [stripMarkers, leftLines]
      · rw [flatMap_eq_joinLines hnil, stripMarkers_newline, hrest hnil,
          flatMap_eq_joinLines (by simpa using h.leftLines_ne_nil hnil)]

end Visible

/-! ## What can be seen of swallowed lines -/

/-- Each line with the lines after it. -/
def withLater : List (List Char) → List (List Char × List (List Char))
  | [] => []
  | line :: after => (line, after) :: withLater after

/-- The lines are all there. -/
theorem map_fst_withLater (rows : List (List Char)) : (withLater rows).map Prod.fst = rows := by
  induction rows with
  | nil => rfl
  | cons line rest ih => rw [withLater, List.map_cons, ih]

/-- The lines that are left are those that later ones do not swallow. -/
theorem leftLines_eq (marker : List Char) (rows : List (List Char)) :
    leftLines marker rows =
      ((withLater rows).filter fun item => !swallowed marker item.1 item.2).map Prod.fst := by
  induction rows with
  | nil => rfl
  | cons line rest ih =>
    cases hswallowed : swallowed marker line rest <;> simp [leftLines, withLater, hswallowed, ih]

/-- What a line stands with is what comes after it. -/
theorem snd_eq_of_withLater_eq {item : List Char × List (List Char)}
    {before after : List (List Char × List (List Char))}
    (h : withLater rows = before ++ item :: after) : item.2 = after.map Prod.fst := by
  induction before generalizing rows with
  | nil =>
    cases rows with
    | nil => cases h
    | cons line rest =>
      obtain ⟨rfl, rfl⟩ := List.cons.inj h
      exact (map_fst_withLater rest).symm
  | cons first before ih =>
    cases rows with
    | nil => cases h
    | cons line rest => exact ih (List.cons.inj h).2

/-- Every swallowed line has no text before it, or none after it. -/
def SwallowsAtEnds (marker : List Char) (rows : List (List Char)) : Prop :=
  ∀ before line after, rows = before ++ line :: after → swallowed marker line after = true →
    (∀ other ∈ before, isBlankLine (unmark marker other) = true) ∨
      ∀ other ∈ after, isBlankLine (unmark marker other) = true

/-- The lines that a line stands with say as much as those after it. -/
theorem swallowsAtEnds_iff :
    SwallowsAtEnds marker rows ↔ ∀ before item after, withLater rows = before ++ item :: after →
      (!swallowed marker item.1 item.2) = false →
        (∀ other ∈ before, isBlankLine (unmark marker other.1) = true) ∨
          ∀ other ∈ after, isBlankLine (unmark marker other.1) = true := by
  constructor
  · intro hends before item after hsplit hitem
    have hrows := map_fst_withLater rows
    have hafter := snd_eq_of_withLater_eq hsplit
    rw [hsplit, List.map_append, List.map_cons] at hrows
    have hcase := hends _ _ _ hrows.symm (by rw [← hafter]; simpa using hitem)
    simpa only [List.forall_mem_map] using hcase
  · intro hends before line after hsplit hline
    have hrows := (map_fst_withLater rows).trans hsplit
    obtain ⟨before, later, hlater, rfl, hrest⟩ := List.map_eq_append_iff.mp hrows
    obtain ⟨item, after, rfl, rfl, rfl⟩ := List.map_eq_cons_iff.mp hrest
    have hafter := snd_eq_of_withLater_eq hlater
    have hcase := hends before item after hlater (by rw [hafter]; simpa using hline)
    simpa only [List.forall_mem_map] using hcase

/-- Lines without their markers, as one trimmed text. -/
def unmarkedText (marker : List Char) (rows : List (List Char)) : String :=
  String.ofList (trim (joinLines (rows.map (unmark marker))))

/-- Without the swallowed lines the text is the same exactly if they were at its ends. -/
theorem Visible.unmarkedText_leftLines_iff (h : Visible marker)
    (hfeeds : ∀ line ∈ rows, '\n' ∉ line) :
    unmarkedText marker (leftLines marker rows) = unmarkedText marker rows ↔
      SwallowsAtEnds marker rows := by
  have hblank : ∀ item : List Char × List (List Char), (!swallowed marker item.1 item.2) = false →
      isBlankLine (unmark marker item.1) = true := by
    intro item hitem
    have hline : isBlankLine item.1 = true := by
      simp only [swallowed, Bool.not_eq_false', Bool.and_eq_true] at hitem
      exact hitem.1
    rwa [unmark, if_neg (by simp [h.startsMarked_of_blank hline])]
  have hfeeds' : ∀ item ∈ withLater rows, '\n' ∉ unmark marker item.1 := by
    intro item hitem hmem
    have hline : item.1 ∈ rows := map_fst_withLater rows ▸ List.mem_map_of_mem hitem
    exact hfeeds item.1 hline ((unmark_suffix marker item.1).subset hmem)
  have hall : (withLater rows).map (fun item => unmark marker item.1) =
      rows.map (unmark marker) := by
    have hmap := congrArg (List.map (unmark marker)) (map_fst_withLater rows)
    rwa [List.map_map] at hmap
  have hsome : ((withLater rows).filter fun item => !swallowed marker item.1 item.2).map
      (fun item => unmark marker item.1) = (leftLines marker rows).map (unmark marker) := by
    rw [leftLines_eq, List.map_map]
    rfl
  rw [unmarkedText, unmarkedText, String.ofList_inj, ← hall, ← hsome,
    swallowsAtEnds_iff]
  exact trim_joinLines_filter_iff hblank hfeeds'

/-- Cleaning takes the markers off the lines that are not swallowed. -/
theorem clean_eq (delimiters : Delimiters) (text : String)
    (h : Visible delimiters.marker.toList) :
    clean delimiters (delimiters.opening ++ text ++ delimiters.closing) =
      unmarkedText delimiters.marker.toList
        (leftLines delimiters.marker.toList (lines text.toList)) := by
  have hmarker : delimiters.marker ≠ "" := fun hempty => h.ne_nil (by rw [hempty]; rfl)
  have hlines := h.stripMarkers_joinLines (lines_ne_nil text.toList)
    fun line => newline_notMem_of_mem_lines
  rw [joinLines_lines] at hlines
  rw [clean, String.toList_append, String.toList_append, inner_append]
  simp only [hmarker, if_false, hlines]
  rfl

/-- Between delimiters, the text is cleaned line by line: the marker goes, with the blanks before it
and a space after it, and so do blank lines right before a marked one. They are missed in the end
exactly if they had text on both sides. -/
theorem clean_eq_unmarkedText_iff (delimiters : Delimiters) (text : String)
    (h : Visible delimiters.marker.toList) :
    clean delimiters (delimiters.opening ++ text ++ delimiters.closing) =
        unmarkedText delimiters.marker.toList
          (leftLines delimiters.marker.toList (lines text.toList)) ∧
      (clean delimiters (delimiters.opening ++ text ++ delimiters.closing) =
          unmarkedText delimiters.marker.toList (lines text.toList) ↔
        SwallowsAtEnds delimiters.marker.toList (lines text.toList)) := by
  have hclean := clean_eq delimiters text h
  refine ⟨hclean, ?_⟩
  rw [hclean]
  exact h.unmarkedText_leftLines_iff fun line => newline_notMem_of_mem_lines

/-- Two lines with markers, and a line without one in between. -/
def gappedText : String :=
  "\n * a\n\n * b\n "

/-- A star can be found at the start of a line. -/
theorem visible_star : Visible ({} : Delimiters).marker.toList := by
  have hmarker : ({} : Delimiters).marker.toList = ['*'] := by decide
  rw [hmarker]
  exact ⟨List.cons_ne_nil _ _, List.forall_mem_singleton.mpr (by decide)⟩

/-- Cleaning the text with the gap takes the line in the gap for a part of the marker behind it. -/
theorem clean_eq_unmarkedText_iff_gapped :
    Visible ({} : Delimiters).marker.toList ∧
      clean {} (({} : Delimiters).opening ++ gappedText ++ ({} : Delimiters).closing) =
          unmarkedText ({} : Delimiters).marker.toList
            (leftLines ({} : Delimiters).marker.toList (lines gappedText.toList)) ∧
        (clean {} (({} : Delimiters).opening ++ gappedText ++ ({} : Delimiters).closing) =
            unmarkedText ({} : Delimiters).marker.toList (lines gappedText.toList) ↔
          SwallowsAtEnds ({} : Delimiters).marker.toList (lines gappedText.toList)) :=
  ⟨visible_star, clean_eq_unmarkedText_iff {} gappedText visible_star⟩

/-- The line in the gap is missed: both lines with markers are text. -/
theorem clean_ne_unmarkedText_gapped :
    clean {} (({} : Delimiters).opening ++ gappedText ++ ({} : Delimiters).closing) = "a\nb" ∧
      clean {} (({} : Delimiters).opening ++ gappedText ++ ({} : Delimiters).closing) ≠
        unmarkedText ({} : Delimiters).marker.toList (lines gappedText.toList) := by
  rw [clean_eq {} gappedText visible_star]
  decide

end Comment

end DocTree
