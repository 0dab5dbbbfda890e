/-!
# Paragraphs

A text falls into paragraphs at every run of two or more newlines. A single newline belongs to
the paragraph around it, and the empty text has no paragraph at all.
-/

namespace DocTree.Paragraph

/-- Cut a text at its blank-line runs. With `inBreak` the newlines read next still belong to the
run before them. -/
def cut : Bool → List Char → List (List Char)
  | _, [] => [[]]
  | true, '\n' :: rest => cut true rest
  | false, '\n' :: '\n' :: rest => [] :: cut true rest
  | _, c :: rest =>
    match cut false rest with
    | [] => [[c]]
    | paragraph :: others => (c :: paragraph) :: others

/-- The paragraphs of a text, in order. -/
def split (text : String) : List String :=
  if text = "" then [] else (cut false text.toList).map String.ofList

/-- Paragraphs joined by one blank line each. -/
def join (paragraphs : List String) : String :=
  String.intercalate "\n\n" paragraphs

/-- Cutting always leaves at least one paragraph. -/
theorem cut_ne_nil (inBreak : Bool) (text : List Char) : cut inBreak text ≠ [] := by
  fun_induction cut inBreak text <;> simp_all

end DocTree.Paragraph
