import DocTree.Keyed
import Mathlib.Data.List.Induction
import Mathlib.Data.String.Basic
import Mathlib.Tactic.Common

/-!
# What keyed lists hold

A keyed list in order is known from the value of each key. Entries that are stored one after another
give each key the last value that was stored for it, and values that are filed one after another
under keys give each key the list of its values.
-/

namespace DocTree

namespace Keyed

variable {α β : Type} {entries entries' fields : Keyed α} {key other : String} {value : α}

/-- The first key has the first value. -/
theorem get?_cons_self (key : String) (value : α) (rest : Keyed α) :
    get? ((key, value) :: rest) key = some value :=
  List.lookup_cons_self

/-- The other keys have the values of the rest. -/
theorem get?_cons_of_ne (h : other ≠ key) (value : α) (rest : Keyed α) :
    get? ((key, value) :: rest) other = get? rest other := by
  have hbeq : (other == key) = false := beq_false_of_ne h
  simp only [get?, List.lookup_cons, hbeq]

/-- What is found under a key is one of the entries. -/
theorem mem_of_get? (h : get? entries key = some value) : (key, value) ∈ entries := by
  induction entries with
  | nil => cases h
  | cons entry rest ih =>
    obtain ⟨first, present⟩ := entry
    by_cases hkey : key = first
    · rw [hkey, get?_cons_self] at h
      rw [hkey, Option.some.inj h]
      exact List.mem_cons_self
    · rw [get?_cons_of_ne hkey] at h
      exact List.mem_cons_of_mem _ (ih h)

/-- The keys are those that have a value. -/
theorem mem_keys_iff : key ∈ keys entries ↔ (get? entries key).isSome := by
  induction entries with
  | nil => simp [keys, get?]
  | cons entry rest ih =>
    obtain ⟨first, present⟩ := entry
    by_cases hkey : key = first
    · rw [hkey, get?_cons_self]
      simp [keys]
    · rw [get?_cons_of_ne hkey, ← ih]
      simp [keys, hkey]

/-- What is in a keyed list after an insertion was there before, or stands under the key at hand
with a value computed from what stood there. -/
theorem mem_insertWith {value : Option α → α} {entry : String × α}
    (h : entry ∈ insertWith value key entries) :
    entry ∈ entries ∨ entry.1 = key ∧
      ∃ present, entry.2 = value present ∧ ∀ old ∈ present, (key, old) ∈ entries := by
  induction entries with
  | nil =>
    rw [insertWith, List.mem_singleton] at h
    exact .inr ⟨by rw [h], none, by rw [h], by simp⟩
  | cons first rest ih =>
    rw [insertWith] at h
    split_ifs at h with hkey
    · rcases List.mem_cons.mp h with rfl | hrest
      · exact .inr ⟨hkey.symm, some first.2, rfl, by simp [hkey]⟩
      · exact .inl (List.mem_cons_of_mem _ hrest)
    · rcases List.mem_cons.mp h with rfl | hold
      · exact .inr ⟨rfl, none, rfl, by simp⟩
      · exact .inl hold
    · rcases List.mem_cons.mp h with rfl | hrest
      · exact .inl List.mem_cons_self
      · rcases ih hrest with hold | ⟨hself, present, hvalue, hpresent⟩
        · exact .inl (List.mem_cons_of_mem _ hold)
        · exact .inr ⟨hself, present, hvalue, fun old hold =>
            List.mem_cons_of_mem _ (hpresent old hold)⟩

namespace Sorted

/-- What follows the first entry is in order. -/
theorem tail (h : Sorted ((key, value) :: entries)) : Sorted entries :=
  (List.pairwise_cons.mp h).2

/-- The first key does not come again. -/
theorem get?_tail (h : Sorted ((key, value) :: entries)) : get? entries key = none :=
  get?_eq_none_of_notMem fun hmem =>
    String.lt_irrefl key ((List.pairwise_cons.mp h).1 key hmem)

/-- A key before the first one is absent. -/
theorem get?_of_lt (h : Sorted ((key, value) :: entries)) (hlt : other < key) :
    get? ((key, value) :: entries) other = none := by
  refine get?_eq_none_of_notMem fun hmem => ?_
  rcases List.mem_cons.mp hmem with rfl | hmem
  · exact String.lt_irrefl _ hlt
  · exact String.lt_irrefl other (String.lt_trans hlt ((List.pairwise_cons.mp h).1 other hmem))

/-- Keyed lists in order with the same values are the same. -/
theorem ext (h : Sorted entries) (h' : Sorted entries')
    (hsame : ∀ key, get? entries key = get? entries' key) : entries = entries' := by
  induction entries generalizing entries' with
  | nil =>
    cases entries' with
    | nil => rfl
    | cons entry' rest' =>
      have hfirst := hsame entry'.1
      rw [get?_cons_self] at hfirst
      cases hfirst
  | cons entry rest ih =>
    obtain ⟨key, value⟩ := entry
    have hfirst := hsame key
    rw [get?_cons_self] at hfirst
    cases entries' with
    | nil => cases hfirst
    | cons entry' rest' =>
      obtain ⟨key', value'⟩ := entry'
      have hfirst' := hsame key'
      rw [get?_cons_self] at hfirst'
      have hkey : key = key' := by
        by_contra hne
        rcases lt_or_gt_of_ne hne with hlt | hlt
        · rw [h'.get?_of_lt hlt] at hfirst
          cases hfirst
        · rw [h.get?_of_lt hlt] at hfirst'
          cases hfirst'
      subst hkey
      rw [get?_cons_self] at hfirst
      obtain rfl := Option.some.inj hfirst
      refine congrArg _ (ih h.tail h'.tail fun other => ?_)
      by_cases hother : other = key
      · rw [hother, h.get?_tail, h'.get?_tail]
      · exact (get?_cons_of_ne hother value rest).symm.trans
          ((hsame other).trans (get?_cons_of_ne hother value rest'))

end Sorted

/-- When entries are stored one after another, each key has its last value. -/
theorem get?_foldl_insert (h : Sorted entries) (hfields : Sorted fields) (key : String) :
    get? (entries.foldl (fun fields entry => insert entry.1 entry.2 fields) fields) key =
      (get? entries key).or (get? fields key) := by
  induction entries generalizing fields with
  | nil => rfl
  | cons entry rest ih =>
    obtain ⟨first, value⟩ := entry
    have hstored : Sorted (insert first value fields) := hfields.insertWith _ _
    rw [List.foldl_cons, ih h.tail hstored]
    by_cases hkey : key = first
    · rw [hkey, h.get?_tail, get?_cons_self, insert, get?_insertWith_self _ _ hfields]
      rfl
    · rw [get?_cons_of_ne hkey, insert, get?_insertWith_of_ne _ hkey]

/-- Storing entries one after another keeps the order. -/
theorem Sorted.foldl_insert (h : Sorted fields) (entries : List (String × α)) :
    Sorted (entries.foldl (fun fields entry => insert entry.1 entry.2 fields) fields) := by
  induction entries generalizing fields with
  | nil => exact h
  | cons entry rest ih => exact ih (h.insertWith _ _)

/-- Entries that only fill free keys keep the order, and each key has the value that it had, or else
its first new one. -/
theorem Sorted.foldl_fill (h : Sorted fields) (entries : List (String × α)) :
    Sorted (entries.foldl (fun fields entry =>
      if contains fields entry.1 then fields else insert entry.1 entry.2 fields) fields) ∧
    ∀ key, get? (entries.foldl (fun fields entry =>
      if contains fields entry.1 then fields else insert entry.1 entry.2 fields) fields) key =
        (get? fields key).or (get? entries key) := by
  induction entries generalizing fields with
  | nil => exact ⟨h, fun key => Option.or_none.symm⟩
  | cons entry rest ih =>
    obtain ⟨first, value⟩ := entry
    rw [List.foldl_cons]
    by_cases htaken : contains fields first
    · rw [if_pos htaken]
      refine ⟨(ih h).1, fun key => ?_⟩
      rw [(ih h).2]
      by_cases hkey : key = first
      · obtain ⟨present, hpresent⟩ := Option.isSome_iff_exists.mp htaken
        rw [hkey, hpresent, Option.some_or, Option.some_or]
      · rw [get?_cons_of_ne hkey]
    · rw [if_neg htaken]
      have hstored : Sorted (insert first value fields) := h.insertWith _ _
      refine ⟨(ih hstored).1, fun key => ?_⟩
      rw [(ih hstored).2]
      by_cases hkey : key = first
      · have hfree : get? fields first = none := by simpa [contains] using htaken
        rw [hkey, get?_cons_self, insert, get?_insertWith_self _ _ h, hfree]
        rfl
      · rw [get?_cons_of_ne hkey, insert, get?_insertWith_of_ne _ hkey]

/-! ## Keyed lists made of any entries -/

/-- Entries are put in order. -/
theorem sorted_ofList (entries : List (String × α)) : Sorted (ofList entries) :=
  have hnil : Sorted ([] : Keyed α) := List.Pairwise.nil
  hnil.foldl_insert entries

/-- The last entry is stored last. -/
theorem ofList_append_singleton (entries : List (String × α)) (entry : String × α) :
    ofList (entries ++ [entry]) = insert entry.1 entry.2 (ofList entries) := by
  rw [ofList, List.foldl_append]
  rfl

/-- Nothing but the entries comes into a keyed list. -/
theorem mem_of_mem_ofList {entries : List (String × α)} {entry : String × α}
    (h : entry ∈ ofList entries) : entry ∈ entries := by
  induction entries using List.reverseRecOn with
  | nil => cases h
  | append_singleton front last ih =>
    rw [ofList_append_singleton] at h
    rcases mem_insertWith h with hold | ⟨hkey, -, hvalue, -⟩
    · exact List.mem_append_left _ (ih hold)
    · exact List.mem_append_right _ (List.mem_singleton.mpr (Prod.ext hkey hvalue))

/-- The values of a keyed list may be changed one by one. -/
theorem get?_map (f : α → β) (entries : Keyed α) (key : String) :
    get? (entries.map (Prod.map id f)) key = (get? entries key).map f := by
  induction entries with
  | nil => rfl
  | cons entry rest ih =>
    obtain ⟨first, value⟩ := entry
    by_cases hkey : key = first
    · rw [hkey, get?_cons_self]
      exact get?_cons_self first (f value) _
    · rw [get?_cons_of_ne hkey, ← ih]
      exact get?_cons_of_ne hkey (f value) _

/-- It does not matter whether values are changed before they are stored or after. -/
theorem insert_map (f : α → β) (key : String) (value : α) (entries : Keyed α) :
    insert key (f value) (entries.map (Prod.map id f)) =
      (insert key value entries).map (Prod.map id f) := by
  unfold insert
  fun_induction insertWith (fun _ => value) key entries <;> simp_all [insertWith]

/-- It does not matter whether values are changed before they are put in order or after. -/
theorem ofList_map (f : α → β) (entries : List (String × α)) :
    ofList (entries.map (Prod.map id f)) = (ofList entries).map (Prod.map id f) := by
  induction entries using List.reverseRecOn with
  | nil => rfl
  | append_singleton front last ih =>
    rw [List.map_append, List.map_singleton, ofList_append_singleton, ofList_append_singleton, ih]
    exact insert_map f last.1 last.2 _

/-! ## Lists filed under keys -/

/-- Each list is filed under its key, in the order of the keys, and keys of empty lists are
absent. -/
structure Files (entries : Keyed (List α)) (lists : String → List α) : Prop where
  sorted : entries.Sorted
  get?_eq : ∀ key, entries.get? key = if lists key = [] then none else some (lists key)

/-- Nothing is filed at first. -/
theorem Files.nil : Files ([] : Keyed (List α)) fun _ => [] where
  sorted := .nil
  get?_eq _ := rfl

/-- A value is filed at the end of the list of its key. -/
theorem Files.append {entries : Keyed (List α)} {lists : String → List α} (h : entries.Files lists)
    (key : String) (value : α) :
    (entries.insertWith (fun present => present.getD [] ++ [value]) key).Files
      fun other => if key = other then lists other ++ [value] else lists other where
  sorted := h.sorted.insertWith _ _
  get?_eq other := by
    by_cases hkey : key = other
    · subst hkey
      rw [get?_insertWith_self _ _ h.sorted, h.get?_eq]
      split <;> simp_all
    · rw [get?_insertWith_of_ne _ (Ne.symm hkey), h.get?_eq, if_neg hkey]

end Keyed

end DocTree
