import DocTree.Comment
import Mathlib

/-!
# The blocks of a text

The blocks of a text are found from left to right: the opening delimiter stands for the first time
after the gap before a block, the closing delimiter for the first time after what is inside, and
behind the last block no opening delimiter is closed any more. There is only one way for a text to
fall into blocks and gaps like that, whatever the delimiters have in common, and cleaning cuts the
delimiters off where the blocks say.
-/

namespace DocTree

namespace Comment

variable {pattern text text' before before' after : List Char}

/-! ## First places -/

/-- A pattern stands in a text after the given part of it, and nowhere earlier. -/
structure FirstAfter (pattern before text : List Char) : Prop where
  stands : before ++ pattern <+: text
  earliest : ∀ other, other ++ pattern <+: text → before.length ≤ other.length

namespace FirstAfter

/-- A pattern has one first place only. -/
theorem unique (h : FirstAfter pattern before text) (h' : FirstAfter pattern before' text) :
    before = before' := by
  have hlength := Nat.le_antisymm (h.earliest before' h'.stands) (h'.earliest before h.stands)
  have hpart := (List.prefix_append before pattern).trans h.stands
  have hpart' := (List.prefix_append before' pattern).trans h'.stands
  exact (List.prefix_of_prefix_length_le hpart hpart' hlength.le).eq_of_length hlength

/-- A first place does not depend on how the text goes on. -/
theorem mono (h : FirstAfter pattern before text) (htext : text <+: text') :
    FirstAfter pattern before text' where
  stands := h.stands.trans htext
  earliest other hother := by
    by_contra hlt
    have hlength : (other ++ pattern).length ≤ (before ++ pattern).length := by
      simp only [List.length_append]
      omega
    have hshort := List.prefix_of_prefix_length_le hother (h.stands.trans htext) hlength
    exact hlt (h.earliest other (hshort.trans h.stands))

/-- A first place is one of a shorter text, too, if the pattern is still there. -/
theorem of_prefix (h : FirstAfter pattern before text') (htext : text <+: text')
    (hstands : before ++ pattern <+: text) : FirstAfter pattern before text :=
  ⟨hstands, fun other hother => h.earliest other (hother.trans htext)⟩

end FirstAfter

/-- A cut is made where the pattern stands for the first time. -/
theorem firstAfter_of_cutAt? (h : cutAt? pattern text = some (before, after)) :
    FirstAfter pattern before text := by
  refine ⟨⟨after, (eq_of_cutAt? h).symm⟩, ?_⟩
  induction text generalizing before with
  | nil =>
    simp only [cutAt?, Option.ite_none_right_eq_some, Option.some.injEq, Prod.mk.injEq] at h
    simp [← h.2.1]
  | cons c rest ih =>
    rw [cutAt?] at h
    split at h
    · obtain ⟨rfl, -⟩ := Prod.mk.inj (Option.some.inj h)
      exact fun other _ => Nat.zero_le _
    · next hpattern =>
      obtain ⟨⟨first, last⟩, hcut, heq⟩ := Option.map_eq_some_iff.mp h
      obtain ⟨rfl, rfl⟩ := Prod.mk.inj heq
      intro other hother
      cases other with
      | nil => exact absurd (List.isPrefixOf_iff_prefix.mpr hother) hpattern
      | cons d other => exact Nat.succ_le_succ (ih hcut other (List.cons_prefix_cons.mp hother).2)

/-- There is no cut only where the pattern stands nowhere. -/
theorem not_prefix_of_cutAt?_eq_none (h : cutAt? pattern text = none) (before : List Char) :
    ¬ before ++ pattern <+: text := by
  induction text generalizing before with
  | nil =>
    intro hstands
    obtain ⟨rfl, rfl⟩ := List.append_eq_nil_iff.mp (List.prefix_nil.mp hstands)
    simp [cutAt?] at h
  | cons c rest ih =>
    rw [cutAt?] at h
    split at h
    · cases h
    · next hpattern =>
      intro hstands
      cases before with
      | nil => exact hpattern (List.isPrefixOf_iff_prefix.mpr hstands)
      | cons d before =>
        exact ih (Option.map_eq_none_iff.mp h) before (List.cons_prefix_cons.mp hstands).2

/-- A text is cut into what is before the first place of the pattern and what is after it. -/
theorem cutAt?_eq_some_iff :
    cutAt? pattern text = some (before, after) ↔
      text = before ++ pattern ++ after ∧ FirstAfter pattern before text := by
  refine ⟨fun h => ⟨eq_of_cutAt? h, firstAfter_of_cutAt? h⟩, fun ⟨htext, hfirst⟩ => ?_⟩
  cases hcut : cutAt? pattern text with
  | none => exact absurd hfirst.stands (not_prefix_of_cutAt?_eq_none hcut before)
  | some cut =>
    obtain ⟨before', after'⟩ := cut
    obtain rfl := hfirst.unique (firstAfter_of_cutAt? hcut)
    have hsame := htext.symm.trans (eq_of_cutAt? hcut)
    rw [List.append_cancel_left hsame]

/-- Behind a block that is opened, there is less text. -/
theorem length_lt_of_cuts {opening closing gap behind inside : List Char} (hopening : opening ≠ [])
    (hopen : cutAt? opening text = some (gap, behind))
    (hclose : cutAt? closing behind = some (inside, after)) : after.length < text.length := by
  have hpos := List.length_pos_of_ne_nil hopening
  rw [eq_of_cutAt? hopen, eq_of_cutAt? hclose]
  simp only [List.length_append]
  omega

/-! ## Gaps and blocks -/

/-- What is between the delimiters of a block, and the gap before it. -/
@[ext]
structure Piece where
  gap : List Char
  inside : List Char

/-- A block with its delimiters. -/
def Piece.block (opening closing : List Char) (piece : Piece) : List Char :=
  opening ++ piece.inside ++ closing

/-- A text falls into gaps and blocks, and a rest: each block is closed for the first time at its
end and is the first to be opened after the block before it, and in the rest nothing that is opened
is closed. -/
structure FallsInto (opening closing text : List Char) (pieces : List Piece)
    (rest : List Char) : Prop where
  text_eq : text =
    (pieces.flatMap fun piece => piece.gap ++ piece.block opening closing) ++ rest
  closes : ∀ piece ∈ pieces, FirstAfter closing piece.inside (piece.inside ++ closing)
  opens : ∀ piece ∈ pieces,
    FirstAfter opening piece.gap (piece.gap ++ piece.block opening closing)
  unclosed : ∀ first middle last, rest ≠ first ++ opening ++ middle ++ closing ++ last

variable {opening closing rest rest' : List Char} {pieces pieces' : List Piece} {piece : Piece}

namespace FallsInto

/-- The first block is where the text is cut first. -/
theorem cons_iff : FallsInto opening closing text (piece :: pieces) rest ↔
    ∃ behind after, cutAt? opening text = some (piece.gap, behind) ∧
      cutAt? closing behind = some (piece.inside, after) ∧
      FallsInto opening closing after pieces rest := by
  constructor
  · intro h
    let after := (pieces.flatMap fun piece => piece.gap ++ piece.block opening closing) ++ rest
    have htext : text = piece.gap ++ piece.block opening closing ++ after := by
      rw [h.text_eq, List.flatMap_cons, List.append_assoc]
    refine ⟨piece.inside ++ closing ++ after, after, cutAt?_eq_some_iff.mpr ⟨?_, ?_⟩,
      cutAt?_eq_some_iff.mpr ⟨rfl, ?_⟩, ?_⟩
    · rw [htext, Piece.block]
      simp
    · exact (h.opens piece List.mem_cons_self).mono (htext ▸ List.prefix_append _ _)
    · exact (h.closes piece List.mem_cons_self).mono (List.prefix_append _ _)
    · exact ⟨rfl, fun other hother => h.closes other (List.mem_cons_of_mem _ hother),
        fun other hother => h.opens other (List.mem_cons_of_mem _ hother), h.unclosed⟩
  · rintro ⟨behind, after, hopen, hclose, h⟩
    obtain ⟨htext, hopens⟩ := cutAt?_eq_some_iff.mp hopen
    obtain ⟨hbehind, hcloses⟩ := cutAt?_eq_some_iff.mp hclose
    have hblock : text = piece.gap ++ piece.block opening closing ++ after := by
      rw [htext, hbehind, Piece.block]
      simp
    refine ⟨?_, List.forall_mem_cons.mpr ⟨?_, h.closes⟩, List.forall_mem_cons.mpr ⟨?_, h.opens⟩,
      h.unclosed⟩
    · rw [hblock, h.text_eq, List.flatMap_cons]
      exact (List.append_assoc _ _ _).symm
    · exact hcloses.of_prefix (hbehind ▸ List.prefix_append _ _) List.prefix_rfl
    · refine hopens.of_prefix (hblock ▸ List.prefix_append _ _) ?_
      rw [Piece.block, ← List.append_assoc, ← List.append_assoc, List.append_assoc]
      exact List.prefix_append _ _

/-- Without blocks, nothing that is opened first is closed. -/
theorem nil_iff : FallsInto opening closing text [] rest ↔
    rest = text ∧ ∀ gap behind, cutAt? opening text = some (gap, behind) →
      cutAt? closing behind = none := by
  constructor
  · intro h
    have hrest : rest = text := h.text_eq.symm
    refine ⟨hrest, fun gap behind hopen => ?_⟩
    cases hclose : cutAt? closing behind with
    | none => rfl
    | some cut =>
      obtain ⟨inside, after⟩ := cut
      have htext : text = gap ++ opening ++ inside ++ closing ++ after := by
        rw [eq_of_cutAt? hopen, eq_of_cutAt? hclose]
        simp
      exact absurd (hrest.trans htext) (h.unclosed gap inside after)
  · rintro ⟨rfl, hclosed⟩
    refine ⟨rfl, by simp, by simp, fun first middle last htext => ?_⟩
    have hstands : first ++ opening <+: rest := ⟨middle ++ closing ++ last, by simp [htext]⟩
    cases hopen : cutAt? opening rest with
    | none => exact not_prefix_of_cutAt?_eq_none hopen first hstands
    | some cut =>
      obtain ⟨gap, behind⟩ := cut
      have hfirst := firstAfter_of_cutAt? hopen
      -- What is opened is opened behind the first place already, and so it is closed there.
      have hlength : (gap ++ opening).length ≤ (first ++ opening).length := by
        have hearliest := hfirst.earliest first hstands
        simp only [List.length_append]
        omega
      obtain ⟨more, hmore⟩ := List.prefix_of_prefix_length_le hfirst.stands hstands hlength
      have hsame : gap ++ opening ++ behind =
          gap ++ opening ++ (more ++ middle ++ closing ++ last) := by
        rw [← eq_of_cutAt? hopen, htext, ← hmore]
        simp
      have hbehind := List.append_cancel_left hsame
      refine not_prefix_of_cutAt?_eq_none (hclosed gap behind hopen) (more ++ middle) ?_
      exact ⟨last, hbehind.symm⟩

/-- A text falls into gaps and blocks in one way only. -/
theorem unique (h : FallsInto opening closing text pieces rest)
    (h' : FallsInto opening closing text pieces' rest') : pieces = pieces' ∧ rest = rest' := by
  induction pieces generalizing text pieces' with
  | nil =>
    obtain ⟨rfl, hclosed⟩ := nil_iff.mp h
    cases pieces' with
    | nil => exact ⟨rfl, (nil_iff.mp h').1.symm⟩
    | cons piece' pieces' =>
      obtain ⟨behind, after, hopen, hclose, -⟩ := cons_iff.mp h'
      simp [hclosed _ _ hopen] at hclose
  | cons piece pieces ih =>
    obtain ⟨behind, after, hopen, hclose, hrest⟩ := cons_iff.mp h
    cases pieces' with
    | nil => simp [(nil_iff.mp h').2 _ _ hopen] at hclose
    | cons piece' pieces' =>
      obtain ⟨behind', after', hopen', hclose', hrest'⟩ := cons_iff.mp h'
      obtain ⟨hgap, rfl⟩ := Prod.mk.inj (Option.some.inj (hopen.symm.trans hopen'))
      obtain ⟨hinside, rfl⟩ := Prod.mk.inj (Option.some.inj (hclose.symm.trans hclose'))
      obtain ⟨rfl, rfl⟩ := ih hrest hrest'
      exact ⟨congrArg (· :: pieces) (Piece.ext hgap hinside), rfl⟩

/-- The raw blocks of a text are those that it falls into. -/
theorem rawBlocks_eq (h : FallsInto opening closing text pieces rest) (hopening : opening ≠ []) :
    rawBlocks opening closing text = pieces.map (Piece.block opening closing) := by
  induction pieces generalizing text with
  | nil =>
    obtain ⟨rfl, hclosed⟩ := nil_iff.mp h
    unfold rawBlocks
    cases hopen : cutAt? opening rest with
    | none => rfl
    | some cut => simp [hclosed _ _ hopen]
  | cons piece pieces ih =>
    obtain ⟨behind, after, hopen, hclose, hrest⟩ := cons_iff.mp h
    have hlength := length_lt_of_cuts hopening hopen hclose
    unfold rawBlocks
    simp only [hopen, hclose, hlength, if_true, ih hrest, List.map_cons]
    rfl

end FallsInto

/-- Every text falls into gaps and blocks. -/
theorem exists_fallsInto (hopening : opening ≠ []) (closing text : List Char) :
    ∃ pieces rest, FallsInto opening closing text pieces rest := by
  induction hlength : text.length using Nat.strong_induction_on generalizing text with
  | _ length ih =>
    cases hopen : cutAt? opening text with
    | none => exact ⟨[], text, FallsInto.nil_iff.mpr ⟨rfl, by simp [hopen]⟩⟩
    | some cut =>
      obtain ⟨gap, behind⟩ := cut
      cases hclose : cutAt? closing behind with
      | none =>
        refine ⟨[], text, FallsInto.nil_iff.mpr ⟨rfl, fun gap' behind' hopen' => ?_⟩⟩
        obtain ⟨-, rfl⟩ := Prod.mk.inj (Option.some.inj (hopen.symm.trans hopen'))
        exact hclose
      | some cut =>
        obtain ⟨inside, after⟩ := cut
        have hshorter := length_lt_of_cuts hopening hopen hclose
        obtain ⟨pieces, rest, h⟩ := ih after.length (hlength ▸ hshorter) after rfl
        exact ⟨{ gap, inside } :: pieces, rest,
          FallsInto.cons_iff.mpr ⟨behind, after, hopen, hclose, h⟩⟩

/-! ## Cutting the delimiters off -/

/-- What is between the delimiters of a raw block, if the cuts fall between characters. -/
def cutInside? (opening closing block : List Char) : Option (List Char) :=
  let start := byteLength opening
  let stop := max (byteLength block - byteLength closing) start
  (cutBytes? start block).bind fun (_, behind) =>
    (cutBytes? (stop - start) behind).map Prod.fst

/-- Cleaning goes on with nothing if a cut falls inside a character or beyond the end. -/
theorem inner_eq_getD (opening closing block : List Char) :
    inner opening closing block = (cutInside? opening closing block).getD [] := by
  simp only [inner, cutInside?]
  cases cutBytes? (byteLength opening) block with
  | none => rfl
  | some cut =>
    simp only [Option.bind_some]
    cases cutBytes? (max (byteLength block - byteLength closing) (byteLength opening) -
      byteLength opening) cut.2 <;> rfl

/-- The delimiters of a block are cut off between characters. -/
theorem cutInside?_block (opening closing : List Char) (piece : Piece) :
    cutInside? opening closing (piece.block opening closing) = some piece.inside := by
  have hstop : max (byteLength (piece.block opening closing) - byteLength closing)
      (byteLength opening) - byteLength opening = byteLength piece.inside := by
    simp only [Piece.block, byteLength_append]
    omega
  simp only [cutInside?, hstop]
  rw [Piece.block, List.append_assoc, cutBytes?_byteLength, Option.bind_some,
    cutBytes?_byteLength, Option.map_some]

/-- Cleaning a block leaves what is between its delimiters, without the markers at the starts of
lines and the blanks at both ends. -/
theorem clean_block (delimiters : Delimiters) (piece : Piece) :
    clean delimiters (String.ofList
        (piece.block delimiters.opening.toList delimiters.closing.toList)) =
      String.ofList (Text.trim (if delimiters.marker = "" then piece.inside
        else stripMarkers delimiters.marker.toList true piece.inside)) := by
  rw [clean, String.toList_ofList, inner_eq_getD, cutInside?_block, Option.getD_some]

/-- A text begins with a quote if its first character is one. -/
theorem startsQuoted_iff {block : String} : startsQuoted block = true ↔
    block.toList.head? = some '\x27' ∨ block.toList.head? = some '"' := by
  rw [startsQuoted]
  cases block.toList.head? <;> simp

/-- What is extracted from a text that falls into blocks: the blocks are cleaned in order, and those
that begin with a quote then are left out. The delimiters of each block are cut off between
characters, so that cleaning goes on with what is between them. -/
structure Extracted (delimiters : Delimiters) (content : String) (pieces : List Piece) : Prop where
  blocks_eq : blocks delimiters content =
    (pieces.map fun piece => clean delimiters (String.ofList
      (piece.block delimiters.opening.toList delimiters.closing.toList))).filter
        fun block => block.toList.head? ≠ some '\x27' ∧ block.toList.head? ≠ some '"'
  clean_eq : ∀ piece ∈ pieces, clean delimiters (String.ofList
      (piece.block delimiters.opening.toList delimiters.closing.toList)) =
    String.ofList (Text.trim (if delimiters.marker = "" then piece.inside
      else stripMarkers delimiters.marker.toList true piece.inside))
  cut_eq : ∀ piece ∈ pieces, cutInside? delimiters.opening.toList delimiters.closing.toList
    (piece.block delimiters.opening.toList delimiters.closing.toList) = some piece.inside
  inner_eq : ∀ piece ∈ pieces, inner delimiters.opening.toList delimiters.closing.toList
    (piece.block delimiters.opening.toList delimiters.closing.toList) = piece.inside

/-- A text falls into blocks in one way only, and these are the blocks that are extracted. -/
theorem blocks_extracted (delimiters : Delimiters) (content : String)
    (hopening : delimiters.opening ≠ "") :
    ∃ pieces rest,
      FallsInto delimiters.opening.toList delimiters.closing.toList content.toList pieces rest ∧
      (∀ pieces' rest', FallsInto delimiters.opening.toList delimiters.closing.toList
        content.toList pieces' rest' → pieces' = pieces ∧ rest' = rest) ∧
      Extracted delimiters content pieces := by
  have hne : delimiters.opening.toList ≠ [] := by simpa using hopening
  obtain ⟨pieces, rest, h⟩ := exists_fallsInto hne delimiters.closing.toList content.toList
  have hblocks : blocks delimiters content =
      (pieces.map fun piece => clean delimiters (String.ofList
        (piece.block delimiters.opening.toList delimiters.closing.toList))).filter
          fun block => block.toList.head? ≠ some '\x27' ∧ block.toList.head? ≠ some '"' := by
    rw [blocks, h.rawBlocks_eq hne, List.map_map]
    refine List.filter_congr fun block _ => ?_
    rw [Bool.not_eq_eq_eq_not, ← decide_not, Bool.eq_iff_iff]
    simp [startsQuoted_iff]
  exact ⟨pieces, rest, h, fun pieces' rest' h' => h'.unique h, {
    blocks_eq := hblocks
    clean_eq := fun piece _ => clean_block delimiters piece
    cut_eq := fun piece _ => cutInside?_block _ _ piece
    inner_eq := fun piece _ => by rw [inner_eq_getD, cutInside?_block, Option.getD_some] }⟩

/-- Delimiters of more than one byte for each character, which have one in common. -/
def guillemets : Delimiters :=
  { opening := "«/", closing := "/»" }

/-- The delimiters overlap, there is an opening one inside the first block, the second block is a
quote, and the last one is not closed. -/
def overlappingText : String :=
  "a «/» é\n * «/ ' /» b«/ 'x'/» «/ c /"

/-- The blocks of the text with the gaps before them. -/
def overlappingPieces : List Piece :=
  [{ gap := "a ".toList, inside := "» é\n * «/ ' ".toList },
    { gap := " b".toList, inside := " 'x'".toList }]

/-- Where the delimiters overlap, no block ends that has just begun. The block that is a quote is
left out. -/
theorem blocks_extracted_overlapping :
    guillemets.opening ≠ "" ∧
      FallsInto guillemets.opening.toList guillemets.closing.toList overlappingText.toList
        overlappingPieces " «/ c /".toList ∧
      Extracted guillemets overlappingText overlappingPieces ∧
      blocks guillemets overlappingText = ["» é\n«/ '"] := by
  have hopening : guillemets.opening ≠ "" := by decide
  have hfalls : FallsInto guillemets.opening.toList guillemets.closing.toList
      overlappingText.toList overlappingPieces " «/ c /".toList := by
    refine FallsInto.cons_iff.mpr ⟨"» é\n * «/ ' /» b«/ 'x'/» «/ c /".toList,
      " b«/ 'x'/» «/ c /".toList, by decide, by decide, FallsInto.cons_iff.mpr
        ⟨" 'x'/» «/ c /".toList, _, by decide, by decide, FallsInto.nil_iff.mpr ⟨rfl, ?_⟩⟩⟩
    intro gap behind hopen
    have hcut : cutAt? guillemets.opening.toList " «/ c /".toList =
        some (" ".toList, " c /".toList) := by decide
    obtain ⟨-, rfl⟩ := Prod.mk.inj (Option.some.inj (hcut.symm.trans hopen))
    decide
  obtain ⟨pieces, rest, -, hunique, hextracted⟩ :=
    blocks_extracted guillemets overlappingText hopening
  obtain ⟨rfl, -⟩ := hunique _ _ hfalls
  refine ⟨hopening, hfalls, hextracted, ?_⟩
  rw [hextracted.blocks_eq]
  cbv

end Comment

end DocTree
