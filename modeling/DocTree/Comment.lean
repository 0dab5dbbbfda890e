import DocTree.Event
import DocTree.Text.Blank

/-!
# Comment blocks

A comment block runs from an opening delimiter to the first closing one after it. Cleaning a block
cuts the delimiters off by their length in bytes, takes the marker off the start of each line, and
trims what is left. Blocks that begin with a quote after that are not comments but delimiters that
stood in quotes, and are left out.
-/

namespace DocTree

/-- What begins and what ends a comment block, and the marker that is taken off the start of each
line of it. Nothing is taken off if the marker is empty. -/
structure Delimiters where
  opening : String := "/**"
  closing : String := "*/"
  marker : String := "*"
  deriving DecidableEq, Repr

namespace Comment

/-! ## Finding blocks -/

/-- Cut a text at the first place where a pattern stands: what is before it and what is after. -/
def cutAt? (pattern : List Char) : List Char → Option (List Char × List Char)
  | [] => if pattern.isEmpty then some ([], []) else none
  | c :: rest =>
    if pattern.isPrefixOf (c :: rest) then some ([], (c :: rest).drop pattern.length)
    else (cutAt? pattern rest).map fun (before, after) => (c :: before, after)

/-- A cut loses nothing but the pattern. -/
theorem eq_of_cutAt? {pattern text before after : List Char}
    (h : cutAt? pattern text = some (before, after)) : text = before ++ pattern ++ after := by
  induction text generalizing before after with
  | nil =>
    simp only [cutAt?, List.isEmpty_iff, Option.ite_none_right_eq_some, Option.some.injEq,
      Prod.mk.injEq] at h
    simp [h.1, ← h.2.1, ← h.2.2]
  | cons c rest ih =>
    rw [cutAt?] at h
    split at h
    · next hpattern =>
      obtain ⟨tail, htail⟩ := List.isPrefixOf_iff_prefix.mp hpattern
      simp only [Option.some.injEq, Prod.mk.injEq] at h
      rw [← h.1, ← h.2, ← htail]
      simp
    · obtain ⟨⟨first, last⟩, hcut, heq⟩ := Option.map_eq_some_iff.mp h
      simp only [Prod.mk.injEq] at heq
      rw [← heq.1, ← heq.2]
      simp [ih hcut]

/-- The raw blocks of a text with their delimiters, in order and without overlap. Empty delimiters
give an empty block at every place. -/
def rawBlocks (opening closing : List Char) (text : List Char) : List (List Char) :=
  match cutAt? opening text with
  | none => []
  | some (_, inside) =>
    match cutAt? closing inside with
    | none => []
    | some (inner, after) =>
      if after.length < text.length then
        (opening ++ inner ++ closing) :: rawBlocks opening closing after
      else
        match text with
        | [] => [[]]
        | _ :: rest => [] :: rawBlocks opening closing rest
termination_by text.length

/-! ## Cleaning blocks -/

/-- How many bytes a text takes in UTF-8. -/
def byteLength (text : List Char) : Nat :=
  text.foldr (fun c bytes => c.utf8Size + bytes) 0

/-- Cut a text after a number of bytes, which must be at a boundary between characters. -/
def cutBytes? : Nat → List Char → Option (List Char × List Char)
  | 0, text => some ([], text)
  | _ + 1, [] => none
  | bytes + 1, c :: rest =>
    if c.utf8Size ≤ bytes + 1 then
      (cutBytes? (bytes + 1 - c.utf8Size) rest).map fun (before, after) => (c :: before, after)
    else none

/-- What is between the delimiters of a raw block, judging by their lengths in bytes; nothing if
the cuts fall inside a character or beyond the end. -/
def inner (opening closing : List Char) (block : List Char) : List Char :=
  let start := byteLength opening
  let stop := max (byteLength block - byteLength closing) start
  match cutBytes? start block with
  | none => []
  | some (_, rest) =>
    match cutBytes? (stop - start) rest with
    | none => []
    | some (between, _) => between

/-- The bytes of a text are those of its parts. -/
theorem byteLength_append (first second : List Char) :
    byteLength (first ++ second) = byteLength first + byteLength second := by
  induction first with
  | nil => simp [byteLength]
  | cons c rest ih =>
    simp only [byteLength, List.cons_append, List.foldr_cons] at ih ⊢
    omega

/-- A cut after the bytes of a text's first part gives the two parts. -/
theorem cutBytes?_byteLength (first second : List Char) :
    cutBytes? (byteLength first) (first ++ second) = some (first, second) := by
  induction first with
  | nil => cases second <;> rfl
  | cons c rest ih =>
    have hpos := c.utf8Size_pos
    have hsize : byteLength (c :: rest) = c.utf8Size - 1 + byteLength rest + 1 := by
      simp only [byteLength, List.foldr_cons]
      omega
    have hrest : c.utf8Size - 1 + byteLength rest + 1 - c.utf8Size = byteLength rest := by omega
    have hfits : c.utf8Size ≤ c.utf8Size - 1 + byteLength rest + 1 := by omega
    rw [hsize, List.cons_append, cutBytes?, if_pos hfits, hrest, ih]
    rfl

/-- Between the delimiters of a block is what was put between them. -/
theorem inner_append (opening between closing : List Char) :
    inner opening closing (opening ++ between ++ closing) = between := by
  have hstop : max (byteLength (opening ++ between ++ closing) - byteLength closing)
      (byteLength opening) - byteLength opening = byteLength between := by
    simp only [byteLength_append]
    omega
  simp only [inner, hstop]
  rw [List.append_assoc, cutBytes?_byteLength]
  simp only [cutBytes?_byteLength]

/-- A marker found at the start of a line: how many characters it takes with the blanks before it
and one space after it, and whether a new line starts right after it. -/
structure Marked where
  length : Nat
  endsLine : Bool
  deriving DecidableEq, Repr

/-- The marker after exactly a number of characters. -/
def markedAt? (marker text : List Char) (count : Nat) : Option Marked :=
  let rest := text.drop count
  if !marker.isPrefixOf rest then none
  else if (rest.drop marker.length).head? = some ' ' then
    some { length := count + marker.length + 1, endsLine := false }
  else some { length := count + marker.length, endsLine := marker.getLast? == some '\n' }

/-- The marker at the start of a line, with as many blanks before it as possible. The blanks may
include whole blank lines, and a marker may itself begin with blanks. -/
def marked? (marker text : List Char) : Option Marked :=
  let blanks := (text.takeWhile Text.isBlank).length
  (List.range (blanks + 1)).reverse.findSome? (markedAt? marker text)

/-- Take the markers off the starts of lines. `atStart` says that a line starts here. -/
def stripMarkers (marker : List Char) (atStart : Bool) (text : List Char) : List Char :=
  match text with
  | [] => []
  | c :: rest =>
    match if atStart then marked? marker (c :: rest) else none with
    | some found => stripMarkers marker found.endsLine (rest.drop (found.length - 1))
    | none => c :: stripMarkers marker (c == '\n') rest
termination_by text.length

/-- The text of a raw block. -/
def clean (delimiters : Delimiters) (block : String) : String :=
  let between := inner delimiters.opening.toList delimiters.closing.toList block.toList
  let stripped :=
    if delimiters.marker = "" then between
    else stripMarkers delimiters.marker.toList true between
  String.ofList (Text.trim stripped)

/-- Whether a block begins with a quote. -/
def startsQuoted (block : String) : Bool :=
  block.toList.head?.any fun c => c == '\x27' || c == '"'

/-- The cleaned comment blocks of a text, in order. -/
def blocks (delimiters : Delimiters) (content : String) : List String :=
  let raw := rawBlocks delimiters.opening.toList delimiters.closing.toList content.toList
  (raw.map fun block => clean delimiters (String.ofList block)).filter fun block =>
    !startsQuoted block

/-- What there is to report about extracted blocks. -/
def report (blocks : List String) : List Event :=
  [.blocksFound blocks.length]

end Comment

end DocTree
