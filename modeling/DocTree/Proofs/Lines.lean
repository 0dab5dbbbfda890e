import DocTree.Text.Blank
import Mathlib.Data.List.DropRight

/-!
# Lines and trimming

Line feeds part a text into lines. Trimming takes the blank lines away from both ends, and besides
them only blanks at the start of the first line that is left and at the end of the last one. So it
keeps the number of lines in between, and tells whether a blank line was left out there.
-/

namespace DocTree.Text

/-- The lines of a text, which line feeds part. -/
def lines (text : List Char) : List (List Char) :=
  text.splitOn '\n'

/-- Lines with line feeds between them. -/
def joinLines (lines : List (List Char)) : List Char :=
  ['\n'].intercalate lines

/-- Whether a line has no text. -/
def isBlankLine (line : List Char) : Bool :=
  line.all isBlank

/-- A list without what has a property at both ends. -/
def trimBy {α : Type} (p : α → Bool) (items : List α) : List α :=
  (items.dropWhile p).rdropWhile p

/-! ## Trimming lists -/

section TrimBy

variable {α : Type} {p q : α → Bool} {items before after : List α} {item : α}

/-- What is left has the property at neither end. -/
theorem trimBy_ends (h : trimBy p items ≠ []) :
    p ((trimBy p items).head h) = false ∧ p ((trimBy p items).getLast h) = false := by
  have hinit : trimBy p items <+: items.dropWhile p := List.rdropWhile_prefix p _
  constructor
  · rw [hinit.head h]
    exact List.head_dropWhile_not p _
  · exact Bool.eq_false_iff.mpr (List.rdropWhile_last_not p _ h)

/-- Trimming the end goes up to what does not have the property. -/
theorem rdropWhile_append (before : List α) (h : ∃ other ∈ after, p other = false) :
    (before ++ after).rdropWhile p = before ++ after.rdropWhile p := by
  have hne : after.reverse.dropWhile p ≠ [] := fun hnil => by
    obtain ⟨other, hother, hnot⟩ := h
    have hall := List.dropWhile_eq_nil_iff.mp hnil other (List.mem_reverse.mpr hother)
    simp [hnot] at hall
  rw [List.rdropWhile, List.rdropWhile, List.reverse_append, List.dropWhile_append,
    if_neg fun hempty => hne (List.isEmpty_iff.mp hempty), List.reverse_append,
    List.reverse_reverse]

/-- Trimming the start goes up to what does not have the property. -/
theorem dropWhile_append (h : ∃ other ∈ before, p other = false) :
    (before ++ after).dropWhile p = before.dropWhile p ++ after := by
  have hne : before.dropWhile p ≠ [] := fun hnil => by
    obtain ⟨other, hother, hnot⟩ := h
    have hall := List.dropWhile_eq_nil_iff.mp hnil other hother
    simp [hnot] at hall
  rw [List.dropWhile_append, if_neg fun hempty => hne (List.isEmpty_iff.mp hempty)]

/-- Something that has the property is left exactly if there is something without the property on
both sides. -/
theorem mem_trimBy_iff (hitem : p item = true) :
    item ∈ trimBy p items ↔ ∃ before after, items = before ++ item :: after ∧
      (∃ other ∈ before, p other = false) ∧ ∃ other ∈ after, p other = false := by
  constructor
  · intro hmem
    obtain ⟨front, hfront⟩ := List.dropWhile_suffix (l := items) p
    obtain ⟨back, hback⟩ := List.rdropWhile_prefix p (items.dropWhile p)
    obtain ⟨before, after, hsplit⟩ := List.append_of_mem hmem
    have hne : trimBy p items ≠ [] := List.ne_nil_of_mem hmem
    obtain ⟨hhead, hlast⟩ := trimBy_ends hne
    refine ⟨front ++ before, after ++ back, ?_, ?_, ?_⟩
    · rw [← hfront, ← hback, ← trimBy, hsplit]
      simp
    · cases before with
      | nil => simp [hsplit, hitem] at hhead
      | cons first before => exact ⟨first, by simp, by simpa [hsplit] using hhead⟩
    · rcases List.eq_nil_or_concat after with rfl | ⟨init, last, rfl⟩
      · simp [hsplit, hitem] at hlast
      · exact ⟨last, by simp, by simpa [hsplit] using hlast⟩
  · rintro ⟨before, after, rfl, hbefore, hafter⟩
    have hrest : (item :: after).rdropWhile p = item :: after.rdropWhile p :=
      rdropWhile_append [item] hafter
    obtain ⟨other, hother, hnot⟩ := hafter
    rw [trimBy, dropWhile_append hbefore,
      rdropWhile_append _ ⟨other, List.mem_cons_of_mem item hother, hnot⟩, hrest]
    simp

/-- Leaving out some of what has the property comes to the same before trimming and after it. -/
theorem trimBy_filter (h : ∀ item, q item = false → p item = true) :
    trimBy p (items.filter q) = (trimBy p items).filter q := by
  have hor : (fun item => !q item || p item) = p := by
    funext item
    cases hq : q item
    · simp [h item hq]
    · simp
  rw [trimBy, trimBy, List.rdropWhile, List.rdropWhile, List.dropWhile_filter, hor,
    ← List.filter_reverse, List.dropWhile_filter, hor, List.filter_reverse]

/-- Trimming images trims what they are images of. -/
theorem trimBy_map {β : Type} (f : β → α) (items : List β) :
    trimBy p (items.map f) = (trimBy (p ∘ f) items).map f := by
  rw [trimBy, trimBy, List.rdropWhile, List.rdropWhile, List.dropWhile_map, ← List.map_reverse,
    List.dropWhile_map, List.map_reverse]

end TrimBy

/-! ## Lines of a text -/

variable {line text : List Char} {rest : List (List Char)} {c : Char}

/-- No line has a line feed in it. -/
theorem newline_notMem_of_mem_lines (h : line ∈ lines text) : '\n' ∉ line := by
  induction text generalizing line with
  | nil =>
    obtain rfl : line = [] := by simpa [lines] using h
    exact List.not_mem_nil
  | cons c text ih =>
    rw [lines, List.splitOn, List.splitOnP_cons_eq_if_modifyHead, ← List.splitOn, ← lines] at h
    split at h
    · rcases List.mem_cons.mp h with rfl | hmem
      · exact List.not_mem_nil
      · exact ih hmem
    · next hc =>
      cases hlines : lines text with
      | nil => simp [hlines] at h
      | cons first others =>
        rw [hlines, List.modifyHead_cons] at h
        rcases List.mem_cons.mp h with rfl | hmem
        · have hfirst := ih (hlines ▸ List.mem_cons_self)
          simpa [hfirst] using fun heq : '\n' = c => hc (beq_iff_eq.mpr heq.symm)
        · exact ih (hlines ▸ List.mem_cons_of_mem _ hmem)

/-- There is always a line. -/
theorem lines_ne_nil (text : List Char) : lines text ≠ [] :=
  List.splitOn_ne_nil '\n' text

/-- A text is made of its lines. -/
theorem joinLines_lines (text : List Char) : joinLines (lines text) = text :=
  List.intercalate_splitOn '\n'

/-- Lines that are joined are the lines of the text. -/
theorem lines_joinLines (hne : rest ≠ []) (h : ∀ line ∈ rest, '\n' ∉ line) :
    lines (joinLines rest) = rest :=
  List.splitOn_intercalate '\n' h hne

/-- Lines are joined by a line feed before each line but the first. -/
theorem joinLines_cons (line : List Char) (rest : List (List Char)) :
    joinLines (line :: rest) = line ++ rest.flatMap ('\n' :: ·) := by
  induction rest generalizing line with
  | nil => simp [joinLines]
  | cons next rest ih =>
    rw [joinLines, List.intercalate_cons_cons, ← joinLines, ih next]
    simp

/-- Before the later lines stands a line feed, if there are any. -/
theorem flatMap_eq_joinLines (h : rest ≠ []) :
    rest.flatMap ('\n' :: ·) = '\n' :: joinLines rest := by
  obtain ⟨next, rest, rfl⟩ := List.exists_cons_of_ne_nil h
  rw [joinLines_cons, List.flatMap_cons]
  rfl

/-- Lines are joined by a line feed after each line but the last. -/
theorem joinLines_concat (rest : List (List Char)) (line : List Char) :
    joinLines (rest ++ [line]) = rest.flatMap (· ++ ['\n']) ++ line := by
  induction rest with
  | nil => simp [joinLines]
  | cons first rest ih =>
    rw [List.cons_append, joinLines_cons, flatMap_eq_joinLines (by simp), ih]
    simp

/-- Reading backwards, the lines come in reverse. -/
theorem reverse_joinLines (rest : List (List Char)) :
    (joinLines rest).reverse = joinLines (rest.reverse.map List.reverse) := by
  cases rest with
  | nil => rfl
  | cons line rest =>
    rw [joinLines_cons, List.reverse_append, List.reverse_flatMap, List.reverse_cons,
      List.map_append, List.map_singleton, joinLines_concat, List.flatMap_map]
    congr 2
    funext line
    simp

/-! ## Trimming lines -/

/-- Blank lines are passed over at the start. -/
theorem trimStart_joinLines_of_blank (h : isBlankLine line = true) (rest : List (List Char)) :
    trimStart (joinLines (line :: rest)) = trimStart (joinLines rest) := by
  have hline : line.dropWhile isBlank = [] :=
    List.dropWhile_eq_nil_iff.mpr (by simpa [isBlankLine] using h)
  rw [joinLines_cons, trimStart, List.dropWhile_append, hline]
  by_cases hrest : rest = []
  · simp [hrest, joinLines, trimStart]
  · rw [flatMap_eq_joinLines hrest]
    rfl

/-- At the start of a line with text, only that line is trimmed. -/
theorem trimStart_joinLines_of_not_blank (h : isBlankLine line = false) :
    trimStart (joinLines (line :: rest)) = joinLines (trimStart line :: rest) := by
  have htext : ∃ c ∈ line, isBlank c = false := by simpa [isBlankLine] using h
  rw [joinLines_cons, joinLines_cons, trimStart, dropWhile_append htext]
  rfl

/-- Trimming the start takes the blank lines away there. -/
theorem trimStart_joinLines (rest : List (List Char)) :
    trimStart (joinLines rest) = trimStart (joinLines (rest.dropWhile isBlankLine)) := by
  induction rest with
  | nil => rfl
  | cons line rest ih =>
    cases h : isBlankLine line with
    | true => rw [trimStart_joinLines_of_blank h, ih, List.dropWhile_cons_of_pos h]
    | false => rw [List.dropWhile_cons_of_neg (by simp [h])]

/-- Trimming the end is trimming the start of the text backwards. -/
theorem trimEnd_eq (text : List Char) : trimEnd text = (trimStart text.reverse).reverse :=
  rfl

/-- A line is as blank backwards. -/
theorem isBlankLine_reverse (line : List Char) : isBlankLine line.reverse = isBlankLine line :=
  List.all_reverse

/-- Trimming the end takes the blank lines away there. -/
theorem trimEnd_joinLines (rest : List (List Char)) :
    trimEnd (joinLines rest) = trimEnd (joinLines (rest.rdropWhile isBlankLine)) := by
  have hblank : isBlankLine ∘ List.reverse = isBlankLine := funext isBlankLine_reverse
  rw [trimEnd_eq, reverse_joinLines, trimStart_joinLines, List.dropWhile_map, hblank, trimEnd_eq,
    reverse_joinLines, List.rdropWhile, List.reverse_reverse]

/-- It does not matter which end is trimmed first. -/
theorem trimEnd_trimStart (text : List Char) :
    trimEnd (trimStart text) = trimStart (trimEnd text) := by
  induction text with
  | nil => rfl
  | cons c text ih =>
    cases hc : isBlank c with
    | true =>
      have hstart : trimStart (c :: text) = trimStart text := List.dropWhile_cons_of_pos hc
      rw [hstart, ih]
      by_cases hblank : ∀ other ∈ text, isBlank other = true
      · have hend : trimEnd text = [] := List.rdropWhile_eq_nil_iff.mpr hblank
        have hend' : trimEnd (c :: text) = [] :=
          List.rdropWhile_eq_nil_iff.mpr (List.forall_mem_cons.mpr ⟨hc, hblank⟩)
        rw [hend, hend']
      · have hend : trimEnd (c :: text) = c :: trimEnd text :=
          rdropWhile_append [c] (by simpa using hblank)
        rw [hend]
        exact (List.dropWhile_cons_of_pos hc).symm
    | false =>
      have hstart : ∀ text, trimStart (c :: text) = c :: text := fun text =>
        List.dropWhile_cons_of_neg (by simp [hc])
      have hne : trimEnd (c :: text) ≠ [] := fun hnil => by
        have hall := List.rdropWhile_eq_nil_iff.mp hnil c List.mem_cons_self
        simp [hc] at hall
      obtain ⟨first, rest, hend⟩ := List.exists_cons_of_ne_nil hne
      have hinit : first :: rest <+: c :: text := hend ▸ List.rdropWhile_prefix isBlank _
      obtain rfl : first = c := (List.cons_prefix_cons.mp hinit).1
      rw [hstart, hend, hstart]

/-- Trimming takes the blank lines at both ends away. -/
theorem trim_joinLines (rest : List (List Char)) :
    trim (joinLines rest) = trim (joinLines (trimBy isBlankLine rest)) := by
  rw [trim, trimStart_joinLines, trimEnd_trimStart, trimEnd_joinLines, ← trimEnd_trimStart]
  rfl

/-- A line is as blank when its start is trimmed. -/
theorem isBlankLine_trimStart (line : List Char) :
    isBlankLine (trimStart line) = isBlankLine line := by
  have hall : (line.takeWhile isBlank).all isBlank = true :=
    List.all_eq_true.mpr fun c hc => List.mem_takeWhile_imp hc
  have hsplit := List.takeWhile_append_dropWhile (p := isBlank) (l := line)
  calc isBlankLine (trimStart line)
      = ((line.takeWhile isBlank).all isBlank && isBlankLine (trimStart line)) := by
        rw [hall, Bool.true_and]
    _ = isBlankLine (line.takeWhile isBlank ++ line.dropWhile isBlank) := List.all_append.symm
    _ = isBlankLine line := by rw [hsplit]

/-- At the end of a line with text, only that line is trimmed. -/
theorem trimEnd_joinLines_of_not_blank (h : isBlankLine line = false) (rest : List (List Char)) :
    trimEnd (joinLines (rest ++ [line])) = joinLines (rest ++ [trimEnd line]) := by
  have htext : ∃ c ∈ line, isBlank c = false := by simpa [isBlankLine] using h
  rw [joinLines_concat, joinLines_concat]
  exact rdropWhile_append _ htext

/-- Between lines with text at both ends, trimming takes no line away. -/
theorem length_lines_trim (hne : rest ≠ []) (hfeeds : ∀ line ∈ rest, '\n' ∉ line)
    (hhead : isBlankLine (rest.head hne) = false)
    (hlast : isBlankLine (rest.getLast hne) = false) :
    (lines (trim (joinLines rest))).length = rest.length := by
  obtain ⟨line, later, rfl⟩ := List.exists_cons_of_ne_nil hne
  obtain ⟨init, last, hsplit⟩ : ∃ init last, trimStart line :: later = init ++ [last] :=
    ⟨_, _, (List.dropLast_append_getLast (List.cons_ne_nil _ _)).symm⟩
  have htext : isBlankLine last = false := by
    have hend := congrArg List.getLast? hsplit
    cases later with
    | nil =>
      obtain rfl : trimStart line = last := by simpa using hend
      exact (isBlankLine_trimStart line).trans hhead
    | cons next later =>
      rw [List.getLast?_cons_cons, List.getLast?_concat,
        List.getLast?_eq_some_getLast (List.cons_ne_nil next later)] at hend
      obtain rfl := Option.some.inj hend
      exact hlast
  have hfeeds' : ∀ other ∈ init ++ [trimEnd last], '\n' ∉ other := by
    have hold : ∀ other ∈ init ++ [last], '\n' ∉ other := by
      rw [← hsplit]
      refine List.forall_mem_cons.mpr ⟨fun hmem => ?_, fun other hother => ?_⟩
      · exact hfeeds line List.mem_cons_self ((List.dropWhile_suffix isBlank).subset hmem)
      · exact hfeeds other (List.mem_cons_of_mem _ hother)
    obtain ⟨hinit, hlast⟩ := List.forall_mem_append.mp hold
    refine List.forall_mem_append.mpr ⟨hinit, List.forall_mem_singleton.mpr fun hmem => ?_⟩
    exact hlast last List.mem_cons_self ((List.rdropWhile_prefix isBlank last).subset hmem)
  have hlength := congrArg List.length hsplit
  have hhead' : isBlankLine line = false := hhead
  rw [trim, trimStart_joinLines_of_not_blank hhead', hsplit, trimEnd_joinLines_of_not_blank htext,
    lines_joinLines (by simp) hfeeds']
  simpa using hlength.symm

/-- The lines of a trimmed text are as many as those that are left between blank ones. -/
theorem length_lines_trim_joinLines (hne : trimBy isBlankLine rest ≠ [])
    (hfeeds : ∀ line ∈ rest, '\n' ∉ line) :
    (lines (trim (joinLines rest))).length = (trimBy isBlankLine rest).length := by
  obtain ⟨hhead, hlast⟩ := trimBy_ends hne
  rw [trim_joinLines]
  refine length_lines_trim hne (fun line hline => hfeeds line ?_) hhead hlast
  exact (List.dropWhile_suffix isBlankLine).subset ((List.rdropWhile_prefix _ _).subset hline)

section LeftOut

variable {α : Type} {items : List α} {f : α → List Char} {q : α → Bool}

/-- Leaving out blank lines cannot be seen after trimming exactly if all of them are trimmed in any
case. -/
theorem trim_joinLines_filter_iff_mem
    (hblank : ∀ item, q item = false → isBlankLine (f item) = true)
    (hfeeds : ∀ item ∈ items, '\n' ∉ f item) :
    trim (joinLines ((items.filter q).map f)) = trim (joinLines (items.map f)) ↔
      ∀ item ∈ trimBy (isBlankLine ∘ f) items, q item = true := by
  have hblank' : ∀ item, q item = false → (isBlankLine ∘ f) item = true := hblank
  have hall : trimBy isBlankLine (items.map f) =
      (trimBy (isBlankLine ∘ f) items).map f := trimBy_map f items
  have hsome : trimBy isBlankLine ((items.filter q).map f) =
      ((trimBy (isBlankLine ∘ f) items).filter q).map f := by rw [trimBy_map, trimBy_filter hblank']
  constructor
  · intro hsame
    by_cases hne : trimBy (isBlankLine ∘ f) items = []
    · simp [hne]
    · -- The first line with text is not left out.
      have hhead : q ((trimBy (isBlankLine ∘ f) items).head hne) = true := by
        by_contra hq
        have hends := (trimBy_ends hne).1
        rw [hblank' _ (by simpa using hq)] at hends
        cases hends
      have hne' : trimBy isBlankLine (items.map f) ≠ [] := by simpa [hall] using hne
      have hkept : trimBy isBlankLine ((items.filter q).map f) ≠ [] := by
        rw [hsome]
        exact List.ne_nil_of_mem
          (List.mem_map_of_mem (List.mem_filter.mpr ⟨List.head_mem hne, hhead⟩))
      have hlines := length_lines_trim_joinLines hne' (List.forall_mem_map.mpr hfeeds)
      have hlines' := length_lines_trim_joinLines hkept
        (List.forall_mem_map.mpr fun item hitem => hfeeds item (List.mem_of_mem_filter hitem))
      rw [hsame, hlines, hall, hsome, List.length_map, List.length_map] at hlines'
      exact List.length_filter_eq_length_iff.mp hlines'.symm
  · intro hq
    rw [trim_joinLines, hsome, List.filter_eq_self.mpr hq, ← hall, ← trim_joinLines]

/-- Leaving out blank lines cannot be seen after trimming exactly if none of them stood between
lines with text. -/
theorem trim_joinLines_filter_iff (hblank : ∀ item, q item = false → isBlankLine (f item) = true)
    (hfeeds : ∀ item ∈ items, '\n' ∉ f item) :
    trim (joinLines ((items.filter q).map f)) = trim (joinLines (items.map f)) ↔
      ∀ before item after, items = before ++ item :: after → q item = false →
        (∀ other ∈ before, isBlankLine (f other) = true) ∨
          ∀ other ∈ after, isBlankLine (f other) = true := by
  rw [trim_joinLines_filter_iff_mem hblank hfeeds]
  constructor
  · intro hq before item after hsplit hitem
    by_contra hends
    obtain ⟨hbefore, hafter⟩ := not_or.mp hends
    have hmem : item ∈ trimBy (isBlankLine ∘ f) items :=
      (mem_trimBy_iff (p := isBlankLine ∘ f) (hblank item hitem)).mpr
        ⟨before, after, hsplit, by simpa using hbefore, by simpa using hafter⟩
    simp [hq item hmem] at hitem
  · intro hends item hmem
    by_contra hq
    have hitem : q item = false := by simpa using hq
    obtain ⟨before, after, hsplit, ⟨other, hother, hnot⟩, later, hlater, hnot'⟩ :=
      (mem_trimBy_iff (p := isBlankLine ∘ f) (hblank item hitem)).mp hmem
    rcases hends before item after hsplit hitem with hbefore | hafter
    · exact Bool.false_ne_true (hnot.symm.trans (hbefore other hother))
    · exact Bool.false_ne_true (hnot'.symm.trans (hafter later hlater))

end LeftOut

end DocTree.Text
