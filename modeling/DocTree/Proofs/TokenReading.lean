import DocTree.Json.TokenReader
import DocTree.Proofs.Printing

/-!
# Printed tokens are read back

The JSON text of a list of tokens is laid out over lines. Each reader is followed over the layout
that it meets: past a new line and its indentation to a key, an entry or a closing bracket, and from
a quote to the quote that ends the text, whatever text is between them. A printed list therefore
reads as the tokens that it was printed from.
-/

namespace DocTree.Json

variable {c : Char} {text rest : List Char}

/-! ## Layout -/

/-- Nothing is skipped before a character that is not blank. -/
theorem skipBlanks_cons (hc : isBlank c = false) (rest : List Char) :
    skipBlanks (c :: rest) = c :: rest :=
  List.dropWhile_cons_of_neg (by simp [hc])

/-- A new line is skipped with its indentation. -/
theorem skipBlanks_newLine (hc : isBlank c = false) (level : ℕ) (rest : List Char) :
    skipBlanks (newLine level ++ c :: rest) = c :: rest := by
  have hblank : ∀ d ∈ newLine level, isBlank d = true := by
    intro d hd
    rcases List.mem_cons.mp hd with rfl | hd
    · rfl
    · rw [List.eq_of_mem_replicate hd]
      rfl
  rw [skipBlanks, List.dropWhile_append_of_pos hblank]
  exact skipBlanks_cons hc rest

/-- A quoted text goes on with its inside. -/
theorem quote_append (text : String) (rest : List Char) :
    quote text ++ rest = '"' :: (text.toList.flatMap escape ++ '"' :: rest) := by
  simp [quote]

/-! ## Fields -/

/-- The first key of an object stands on a new line. -/
theorem nextKey_first (level : ℕ) (key : String) (rest : List Char) :
    nextKey true (newLine level ++ (quote key ++ rest)) =
      .ok (some (key.toList.flatMap escape ++ '"' :: rest)) := by
  rw [quote_append, nextKey, skipBlanks_newLine rfl]
  rfl

/-- A further key stands on a new line after a comma. -/
theorem nextKey_further (level : ℕ) (key : String) (rest : List Char) :
    nextKey false (',' :: (newLine level ++ (quote key ++ rest))) =
      .ok (some (key.toList.flatMap escape ++ '"' :: rest)) := by
  have hskip := skipBlanks_newLine (c := '"') rfl level (key.toList.flatMap escape ++ '"' :: rest)
  rw [quote_append, nextKey, skipBlanks_cons rfl]
  simp [hskip]

/-- The brace that ends an object stands on a new line. -/
theorem nextKey_end (first : Bool) (level : ℕ) (rest : List Char) :
    nextKey first (newLine level ++ '\x7d' :: rest) = .ok none := by
  rw [nextKey, skipBlanks_newLine rfl]
  rfl

/-- A text is read back from behind a blank. -/
theorem readTextValue_quote (text : String) (rest : List Char) :
    readTextValue (' ' :: (quote text ++ rest)) = .ok (text, rest) := by
  have hskip : skipBlanks (' ' :: (quote text ++ rest)) =
      '"' :: (text.toList.flatMap escape ++ '"' :: rest) := by
    rw [quote_append]
    exact skipBlanks_cons (c := '"') rfl _
  simp [readTextValue, hskip, readText_quoted, Except.map]

section Field

variable {fuel : ℕ} {first : Bool} {data value : Option String} {body : String}

/-- The colon before the text of a field is passed over. -/
theorem readColon_field (body : String) (rest : List Char) :
    readColon (':' :: ' ' :: (quote body ++ rest)) = .ok (' ' :: (quote body ++ rest)) :=
  rfl

/-- The text of a token is read from its field. -/
theorem readFieldsWithin_data
    (h : nextKey first text = .ok (some ("data".toList.flatMap escape ++
      '"' :: ':' :: ' ' :: (quote body ++ rest)))) :
    readFieldsWithin (fuel + 1) first none value text =
      readFieldsWithin fuel false (some body) value rest := by
  simp only [readFieldsWithin, h, bind, Except.bind, readText_quoted, readColon_field,
    readTextValue_quote]
  rfl

/-- The kind of a token is read from its field. -/
theorem readFieldsWithin_value
    (h : nextKey first text = .ok (some ("value".toList.flatMap escape ++
      '"' :: ':' :: ' ' :: (quote body ++ rest)))) :
    readFieldsWithin (fuel + 1) first data none text =
      readFieldsWithin fuel false data (some body) rest := by
  simp only [readFieldsWithin, h, bind, Except.bind, readText_quoted, readColon_field,
    readTextValue_quote]
  rfl

/-- The fields of a printed token are read back, up to the brace behind them. -/
theorem readFieldsWithin_print (hfuel : 3 ≤ fuel) (level outer : ℕ) (token : Token)
    (rest : List Char) :
    readFieldsWithin fuel true none none
        (newLine level ++ (quote "data" ++ ':' :: ' ' :: (quote token.data ++
          ',' :: (newLine level ++ (quote "value" ++ ':' :: ' ' :: (quote token.value ++
            (newLine outer ++ '\x7d' :: rest))))))) =
      .ok (token, rest) := by
  obtain ⟨fuel, rfl⟩ : ∃ left, fuel = left + 3 := ⟨fuel - 3, by omega⟩
  rw [readFieldsWithin_data (nextKey_first _ _ _), readFieldsWithin_value (nextKey_further _ _ _)]
  simp only [readFieldsWithin, nextKey_end, skipBlanks_newLine (c := '\x7d') rfl]
  rfl

end Field

/-! ## Tokens -/

/-- A printed token is read back. -/
theorem readToken_print (level : ℕ) (token : Token) (rest : List Char) :
    readToken (print level token.view ++ rest) = .ok (token, rest) := by
  simp only [Token.view, print, printFields, List.cons_append, List.append_assoc, List.nil_append,
    readToken, skipBlanks_cons (c := '\x7b') rfl]
  rw [if_neg (by decide)]
  exact readFieldsWithin_print (by simp [quote]; omega) (level + 1) level token rest

/-- A printed token begins with a brace. -/
theorem exists_print_token (level : ℕ) (token : Token) :
    ∃ rest, print level token.view = '\x7b' :: rest :=
  ⟨_, rfl⟩

/-- The first token of a list stands on a new line. -/
theorem nextEntry_first (level outer : ℕ) (token : Token) (rest : List Char) :
    nextEntry true (newLine outer ++ (print level token.view ++ rest)) =
      .ok (some (print level token.view ++ rest)) := by
  obtain ⟨body, hbody⟩ := exists_print_token level token
  rw [hbody, List.cons_append, nextEntry, skipBlanks_newLine rfl]
  rfl

/-- A further token stands on a new line after a comma. -/
theorem nextEntry_further (level outer : ℕ) (token : Token) (rest : List Char) :
    nextEntry false (',' :: (newLine outer ++ (print level token.view ++ rest))) =
      .ok (some (print level token.view ++ rest)) := by
  obtain ⟨body, hbody⟩ := exists_print_token level token
  have hskip := skipBlanks_newLine (c := '\x7b') rfl outer (body ++ rest)
  rw [hbody, List.cons_append, nextEntry, skipBlanks_cons rfl]
  simp [hskip]

/-- The bracket that ends a list stands on a new line. -/
theorem nextEntry_end (first : Bool) (level : ℕ) (rest : List Char) :
    nextEntry first (newLine level ++ ']' :: rest) = .ok none := by
  rw [nextEntry, skipBlanks_newLine rfl]
  rfl

/-- The further tokens of a printed list are read back, up to the bracket behind them. -/
theorem readTokensWithin_printItems (level outer : ℕ) (rest : List Char) :
    ∀ (tokens : List Token) (fuel : ℕ), tokens.length < fuel →
      readTokensWithin fuel false
          (printItems level (tokens.map Token.view) ++ (newLine outer ++ ']' :: rest)) =
        .ok (tokens, rest)
  | [], fuel + 1, _ => by
    simp only [List.map_nil, printItems, List.nil_append, readTokensWithin, nextEntry_end,
      skipBlanks_newLine (c := ']') rfl]
    rfl
  | token :: tokens, fuel + 1, hfuel => by
    have hrest := readTokensWithin_printItems level outer rest tokens fuel (by simpa using hfuel)
    simp only [List.map_cons, printItems, List.cons_append, List.append_assoc, readTokensWithin,
      nextEntry_further, readToken_print, bind, Except.bind, hrest]
    rfl

/-- A printed list has a character for every item. -/
theorem length_le_printItems (level : ℕ) (items : List View) :
    items.length ≤ (printItems level items).length := by
  induction items with
  | nil => exact Nat.zero_le _
  | cons item items ih =>
    simp only [printItems, List.cons_append, List.length_cons, List.length_append]
    omega

/-- The JSON text of a list of tokens is read as these tokens. -/
theorem readTokens_render (tokens : List Token) :
    readTokens (render (.list (tokens.map Token.view))) = .ok tokens := by
  cases tokens with
  | nil => rfl
  | cons token tokens =>
    have hlength := length_le_printItems 1 (tokens.map Token.view)
    rw [List.length_map] at hlength
    have hrest := readTokensWithin_printItems 1 0 [] tokens
    simp only [readTokens, render, String.toList_ofList, List.map_cons, print, List.cons_append,
      List.append_assoc, skipBlanks_cons (c := '[') rfl, readTokensWithin, nextEntry_first,
      readToken_print, bind, Except.bind]
    rw [hrest]
    · rfl
    · simp
      omega

end DocTree.Json
