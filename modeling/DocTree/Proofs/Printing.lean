import DocTree.Json.Printer
import DocTree.Json.Text
import Mathlib.Data.Char
import Mathlib.Tactic.Common

/-!
# JSON text determines the view

A quoted text is read back up to its closing quote, whatever it imitates inside, so that it cannot
be continued in two ways. The same holds of every printed view: its first character tells its sort,
numbers end where a character follows that no number has, and lists and objects end where a new line
is begun without a comma before it. So a view and what follows it are known from their common text.
-/

namespace DocTree.Json

/-! ## Quoted texts -/

/-- A hexadecimal digit has its value. -/
theorem hexValue?_hexDigit : ∀ digit < 16, hexValue? (hexDigit digit) = some digit := by
  decide

/-- A control character is read from its number. -/
theorem readEscape_numbered {c : Char} (hcontrol : c.toNat < 32) (rest : List Char) :
    readEscape ('u' :: '0' :: '0' :: hexDigit (c.toNat / 16) :: hexDigit (c.toNat % 16) :: rest) =
      .ok (c, 5) := by
  have hhigh := hexValue?_hexDigit (c.toNat / 16) (by omega)
  have hlow := hexValue?_hexDigit (c.toNat % 16) (by omega)
  have hzero : hexValue? '0' = some 0 := rfl
  have hnumber : c.toNat / 16 * 16 + c.toNat % 16 = c.toNat := Nat.div_add_mod' _ _
  have hhex : readHex ('0' :: '0' :: hexDigit (c.toNat / 16) :: hexDigit (c.toNat % 16) :: rest) =
      .ok c.toNat := by
    simp [readHex, hzero, hhigh, hlow, hnumber]
  have hsurrogate : ¬ (0xDC00 ≤ c.toNat ∧ c.toNat ≤ 0xDFFF) := by omega
  have hplain : c.toNat < 0xD800 ∨ 0xDFFF < c.toNat := by omega
  simp [readEscape, readNumbered, hhex, hsurrogate, hplain, bind, Except.bind, pure, Except.pure,
    Except.map, Char.ofNat_toNat]

/-- An escaped character is read back. -/
theorem readText_escape (c : Char) (rest : List Char) :
    readText (escape c ++ rest) = (readText rest).map fun (body, left) => (c :: body, left) := by
  have hescape (letters : List Char) {count : ℕ}
      (hread : readEscape (letters ++ rest) = .ok (c, count))
      (hcount : letters.length = count) : readText ('\\' :: (letters ++ rest)) =
        (readText rest).map fun (body, left) => (c :: body, left) := by
    subst hcount
    rw [readText]
    simp [hread]
  unfold escape
  split_ifs with hquote hslash hnew hreturn htab hback hfeed hcontrol
  · subst hquote
    exact hescape ['"'] rfl rfl
  · subst hslash
    exact hescape ['\\'] rfl rfl
  · subst hnew
    exact hescape ['n'] rfl rfl
  · subst hreturn
    exact hescape ['r'] rfl rfl
  · subst htab
    exact hescape ['t'] rfl rfl
  · subst hback
    exact hescape ['b'] rfl rfl
  · subst hfeed
    exact hescape ['f'] rfl rfl
  · exact hescape ['u', '0', '0', hexDigit (c.toNat / 16), hexDigit (c.toNat % 16)]
      (readEscape_numbered hcontrol rest) rfl
  · rw [List.singleton_append, readText]
    simp [hquote, hslash, hcontrol]

/-- The inside of a quoted text is read back up to the closing quote. -/
theorem readText_quoted (text rest : List Char) :
    readText (text.flatMap escape ++ '"' :: rest) = .ok (text, rest) := by
  induction text with
  | nil =>
    rw [List.flatMap_nil, List.nil_append, readText]
    simp
  | cons c text ih =>
    rw [List.flatMap_cons, List.append_assoc, readText_escape, ih]
    rfl

/-- A quoted text and what follows it are known from their common text. -/
theorem quote_append_inj {text text' : String} {rest rest' : List Char}
    (h : quote text ++ rest = quote text' ++ rest') : text = text' ∧ rest = rest' := by
  simp only [quote, List.cons_append, List.append_assoc, List.cons.injEq, true_and,
    List.nil_append] at h
  have hread := (readText_quoted text.toList rest).symm.trans
    ((congrArg readText h).trans (readText_quoted text'.toList rest'))
  simpa [String.toList_inj] using hread

/-! ## Numbers -/

/-- Whether a number may have a character. -/
def isNumberChar (c : Char) : Bool :=
  c.isDigit || c == '-'

/-- A natural number has digits only. -/
theorem isDigit_of_mem {n : ℕ} {c : Char} (h : c ∈ n.repr.toList) : c.isDigit = true := by
  rw [Nat.toList_repr] at h
  exact Nat.isDigit_of_mem_toDigits (by decide) (by decide) h

/-- A negative number has a sign before its digits. -/
theorem toList_negSucc (n : ℕ) : (Int.negSucc n).repr.toList = '-' :: (n + 1).repr.toList :=
  String.toList_append

/-- A number has digits, and maybe a sign. -/
theorem isNumberChar_of_mem {value : Int} {c : Char} (h : c ∈ (toString value).toList) :
    isNumberChar c = true := by
  rw [Int.toString_eq_repr] at h
  cases value with
  | ofNat n => simp [isNumberChar, isDigit_of_mem h]
  | negSucc n =>
    rw [toList_negSucc] at h
    rcases List.mem_cons.mp h with rfl | hc
    · rfl
    · simp [isNumberChar, isDigit_of_mem hc]

/-- A number has a first character. -/
theorem number_ne_nil (value : Int) : (toString value).toList ≠ [] := by
  rw [Int.toString_eq_repr]
  cases value with
  | ofNat n =>
    change n.repr.toList ≠ []
    rw [Nat.toList_repr]
    exact Nat.toDigits_ne_nil
  | negSucc n => simp [toList_negSucc]

/-- A natural number is known from its digits. -/
theorem eq_of_repr {n m : ℕ} (h : n.repr.toList = m.repr.toList) : n = m := by
  rw [Nat.toList_repr, Nat.toList_repr] at h
  rw [← Nat.ofDigitChars_ten_toDigits (n := n), h, Nat.ofDigitChars_ten_toDigits]

/-- A number is known from its text. -/
theorem eq_of_toString {value value' : Int}
    (h : (toString value).toList = (toString value').toList) : value = value' := by
  rw [Int.toString_eq_repr, Int.toString_eq_repr] at h
  have hsign {n m : ℕ} : n.repr.toList ≠ '-' :: m.repr.toList := fun heq =>
    absurd (isDigit_of_mem (heq ▸ List.mem_cons_self)) (by decide)
  cases value with
  | ofNat n =>
    cases value' with
    | ofNat m => exact congrArg Int.ofNat (eq_of_repr h)
    | negSucc m =>
      rw [toList_negSucc] at h
      exact absurd h hsign
  | negSucc n =>
    rw [toList_negSucc] at h
    cases value' with
    | ofNat m => exact absurd h.symm hsign
    | negSucc m =>
      rw [toList_negSucc, List.cons_inj_right] at h
      exact congrArg Int.negSucc (Nat.succ.inj (eq_of_repr h))

/-- What follows a view does not go on with a character that a number may have. -/
def Follows (rest : List Char) : Prop :=
  ∀ c ∈ rest.head?, isNumberChar c = false

/-- A number and what follows it are known from their common text. -/
theorem number_append_inj {value value' : Int} {rest rest' : List Char} (hrest : Follows rest)
    (hrest' : Follows rest')
    (h : (toString value).toList ++ rest = (toString value').toList ++ rest') :
    value = value' ∧ rest = rest' := by
  have hspan {value : Int} {rest : List Char} (hrest : Follows rest) :
      ((toString value).toList ++ rest).takeWhile isNumberChar = (toString value).toList := by
    have hnone : rest.takeWhile isNumberChar = [] := by
      cases rest with
      | nil => rfl
      | cons c rest => simp [hrest c rfl]
    rw [List.takeWhile_append_of_pos fun c => isNumberChar_of_mem, hnone, List.append_nil]
  have hsame : (toString value).toList = (toString value').toList := by
    rw [← hspan hrest, h, hspan hrest']
  rw [hsame] at h
  exact ⟨eq_of_toString hsame, List.append_cancel_left h⟩

/-! ## Views -/

/-- What the first character of a printed view tells. -/
inductive Shape where
  | text
  | flag (value : Bool)
  | number
  | list
  | object
  deriving DecidableEq

/-- What a view looks like from outside. -/
def Shape.ofView : View → Shape
  | .text _ => text
  | .flag value => flag value
  | .number _ => number
  | .list _ => list
  | .object _ => object

/-- What a first character tells. -/
def Shape.ofChar (c : Char) : Shape :=
  if c = '"' then text
  else if c = 't' then flag true
  else if c = 'f' then flag false
  else if c = '[' then list
  else if c = '\x7b' then object
  else number

/-- A printed view begins with a character that tells its shape. -/
theorem exists_print_eq (level : ℕ) (view : View) :
    ∃ c rest, print level view = c :: rest ∧ Shape.ofChar c = .ofView view := by
  cases view with
  | text value => exact ⟨_, _, rfl, rfl⟩
  | flag value => cases value <;> exact ⟨_, _, rfl, rfl⟩
  | list items => cases items <;> exact ⟨_, _, rfl, rfl⟩
  | object fields => cases fields <;> exact ⟨_, _, rfl, rfl⟩
  | number value =>
    obtain ⟨c, rest, hprint⟩ := List.exists_cons_of_ne_nil (number_ne_nil value)
    have hchar : isNumberChar c = true := isNumberChar_of_mem (hprint ▸ List.mem_cons_self)
    refine ⟨c, rest, hprint, ?_⟩
    have hne {other : Char} (hother : isNumberChar other = false) : c ≠ other := by
      rintro rfl
      exact Bool.false_ne_true (hother.symm.trans hchar)
    rw [Shape.ofChar, if_neg (hne rfl), if_neg (hne rfl), if_neg (hne rfl), if_neg (hne rfl),
      if_neg (hne rfl)]
    rfl

/-- Views with a common text have a common shape. -/
theorem shape_eq {level : ℕ} {view view' : View} {rest rest' : List Char}
    (h : print level view ++ rest = print level view' ++ rest') :
    Shape.ofView view = Shape.ofView view' := by
  obtain ⟨c, tail, hprint, hshape⟩ := exists_print_eq level view
  obtain ⟨c', tail', hprint', hshape'⟩ := exists_print_eq level view'
  rw [hprint, hprint', List.cons_append, List.cons_append, List.cons.injEq] at h
  rw [← hshape, ← hshape', h.1]

/-- The rest of a list or an object follows its first entry. -/
theorem follows_cons {c : Char} (h : isNumberChar c = false) (rest : List Char) :
    Follows (c :: rest) := by
  intro other hother
  obtain rfl := Option.some.inj hother
  exact h

/-- What begins with a further item or with a new line follows the item before. -/
theorem follows_printItems (level outer : ℕ) (items : List View) (rest : List Char) :
    Follows (printItems level items ++ (newLine outer ++ rest)) := by
  cases items <;> exact follows_cons rfl _

/-- What begins with a further field or with a new line follows the field before. -/
theorem follows_printFields (level outer : ℕ) (fields : List (String × View)) (rest : List Char) :
    Follows (printFields level fields ++ (newLine outer ++ rest)) := by
  cases fields <;> exact follows_cons rfl _

mutual

/-- A view and what follows it are known from their common text. -/
theorem print_append_inj (level : ℕ) : ∀ (view view' : View) (rest rest' : List Char),
    Follows rest → Follows rest' → print level view ++ rest = print level view' ++ rest' →
    view = view' ∧ rest = rest'
  | .text text, view', rest, rest', _, _, h => by
    cases view' with
    | text text' =>
      obtain ⟨rfl, hrest⟩ := quote_append_inj h
      exact ⟨rfl, hrest⟩
    | _ => cases shape_eq h
  | .flag value, view', rest, rest', _, _, h => by
    cases view' with
    | flag value' =>
      obtain rfl : value = value' := by injection shape_eq h
      exact ⟨rfl, List.append_cancel_left h⟩
    | _ => cases shape_eq h
  | .number value, view', rest, rest', hrest, hrest', h => by
    cases view' with
    | number value' =>
      obtain ⟨rfl, hrest⟩ := number_append_inj hrest hrest' h
      exact ⟨rfl, hrest⟩
    | _ => cases shape_eq h
  | .list items, view', rest, rest', _, _, h => by
    cases view' with
    | list items' =>
      cases items with
      | nil =>
        cases items' with
        | nil => exact ⟨rfl, List.append_cancel_left h⟩
        | cons item' items' => simp [print, newLine] at h
      | cons item items =>
        cases items' with
        | nil => simp [print, newLine] at h
        | cons item' items' =>
          simp only [print, List.cons_append, List.append_assoc, List.cons.injEq, true_and,
            List.append_cancel_left_eq] at h
          obtain ⟨rfl, htail⟩ := print_append_inj (level + 1) item item' _ _
            (follows_printItems _ _ _ _) (follows_printItems _ _ _ _) h
          obtain ⟨rfl, hend⟩ := printItems_append_inj (level + 1) level items items' _ _ htail
          exact ⟨rfl, (List.cons.inj hend).2⟩
    | _ => cases shape_eq h
  | .object fields, view', rest, rest', _, _, h => by
    cases view' with
    | object fields' =>
      cases fields with
      | nil =>
        cases fields' with
        | nil => exact ⟨rfl, List.append_cancel_left h⟩
        | cons field' fields' => simp [print, newLine] at h
      | cons field fields =>
        cases fields' with
        | nil => simp [print, newLine] at h
        | cons field' fields' =>
          obtain ⟨key, value⟩ := field
          obtain ⟨key', value'⟩ := field'
          simp only [print, List.cons_append, List.append_assoc, List.cons.injEq, true_and,
            List.append_cancel_left_eq] at h
          obtain ⟨rfl, hvalue⟩ := quote_append_inj h
          simp only [List.nil_append, List.cons.injEq, true_and] at hvalue
          obtain ⟨rfl, htail⟩ := print_append_inj (level + 1) value value' _ _
            (follows_printFields _ _ _ _) (follows_printFields _ _ _ _) hvalue
          obtain ⟨rfl, hend⟩ := printFields_append_inj (level + 1) level fields fields' _ _ htail
          exact ⟨rfl, (List.cons.inj hend).2⟩
    | _ => cases shape_eq h

/-- The further items of a list and what follows them on a new line are known from their common
text. -/
theorem printItems_append_inj (level outer : ℕ) :
    ∀ (items items' : List View) (rest rest' : List Char),
    printItems level items ++ (newLine outer ++ rest) =
      printItems level items' ++ (newLine outer ++ rest') →
    items = items' ∧ rest = rest'
  | [], items', rest, rest', h => by
    cases items' with
    | nil => exact ⟨rfl, List.append_cancel_left h⟩
    | cons item' items' => simp [printItems, newLine] at h
  | item :: items, items', rest, rest', h => by
    cases items' with
    | nil => simp [printItems, newLine] at h
    | cons item' items' =>
      simp only [printItems, List.cons_append, List.append_assoc, List.cons.injEq, true_and,
        List.append_cancel_left_eq] at h
      obtain ⟨rfl, htail⟩ := print_append_inj level item item' _ _ (follows_printItems _ _ _ _)
        (follows_printItems _ _ _ _) h
      obtain ⟨rfl, hrest⟩ := printItems_append_inj level outer items items' _ _ htail
      exact ⟨rfl, hrest⟩

/-- The further fields of an object and what follows them on a new line are known from their common
text. -/
theorem printFields_append_inj (level outer : ℕ) :
    ∀ (fields fields' : List (String × View)) (rest rest' : List Char),
    printFields level fields ++ (newLine outer ++ rest) =
      printFields level fields' ++ (newLine outer ++ rest') →
    fields = fields' ∧ rest = rest'
  | [], fields', rest, rest', h => by
    cases fields' with
    | nil => exact ⟨rfl, List.append_cancel_left h⟩
    | cons field' fields' => simp [printFields, newLine] at h
  | (key, value) :: fields, fields', rest, rest', h => by
    cases fields' with
    | nil => simp [printFields, newLine] at h
    | cons field' fields' =>
      obtain ⟨key', value'⟩ := field'
      simp only [printFields, List.cons_append, List.append_assoc, List.cons.injEq, true_and,
        List.append_cancel_left_eq] at h
      obtain ⟨rfl, hvalue⟩ := quote_append_inj h
      simp only [List.nil_append, List.cons.injEq, true_and] at hvalue
      obtain ⟨rfl, htail⟩ := print_append_inj level value value' _ _ (follows_printFields _ _ _ _)
        (follows_printFields _ _ _ _) hvalue
      obtain ⟨rfl, hrest⟩ := printFields_append_inj level outer fields fields' _ _ htail
      exact ⟨rfl, hrest⟩

end

/-- Views with the same JSON text are the same. -/
theorem render_injective : Function.Injective render := by
  intro view view' h
  have hprint : print 0 view ++ [] = print 0 view' ++ [] := by
    simpa using String.ofList_injective h
  have hnil : Follows [] := by
    intro c hc
    cases hc
  exact (print_append_inj 0 view view' [] [] hnil hnil hprint).1

end DocTree.Json
