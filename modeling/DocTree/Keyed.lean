/-!
# Lists of entries kept in key order

A keyed list holds each key once, in increasing order of its characters' code points, which is
also the order of the UTF-8 bytes. Slots, attributes, views and registries are keyed lists, so
whatever is printed from them comes out in that one order.
-/

namespace DocTree

/-- Entries by key, in increasing key order. -/
abbrev Keyed (α : Type) := List (String × α)

namespace Keyed

variable {α β : Type}

/-- The value stored under a key. -/
def get? (entries : Keyed α) (key : String) : Option α :=
  List.lookup key entries

/-- Put a value computed from the present one under a key, in its place in the order. -/
def insertWith (value : Option α → α) (key : String) : Keyed α → Keyed α
  | [] => [(key, value none)]
  | (k, v) :: rest =>
    if key = k then (k, value (some v)) :: rest
    else if key < k then (key, value none) :: (k, v) :: rest
    else (k, v) :: insertWith value key rest

/-- Store a value under a key, replacing the present one. -/
def insert (key : String) (value : α) (entries : Keyed α) : Keyed α :=
  entries.insertWith (fun _ => value) key

/-- The keyed list of the given entries; the last entry of a key stays. -/
def ofList (entries : List (String × α)) : Keyed α :=
  entries.foldl (fun map (key, value) => map.insert key value) []

/-- Whether the key has an entry. -/
def contains (entries : Keyed α) (key : String) : Bool :=
  (entries.get? key).isSome

/-- All keys, in order. -/
def keys (entries : Keyed α) : List String :=
  entries.map Prod.fst

/-! ## Order and contents -/

/-- The keys stand in increasing order, each once. -/
def Sorted (entries : Keyed α) : Prop :=
  entries.keys.Pairwise (· < ·)

/-- Changing the value of a key adds at most that key. -/
theorem mem_keys_insertWith (value : Option α → α) (key other : String) (entries : Keyed α) :
    other ∈ (entries.insertWith value key).keys ↔ other = key ∨ other ∈ entries.keys := by
  fun_induction insertWith value key entries <;> grind [keys]

/-- Changing the value of a key keeps the order. -/
theorem Sorted.insertWith (value : Option α → α) (key : String) {entries : Keyed α}
    (h : Sorted entries) : Sorted (entries.insertWith value key) := by
  induction entries with
  | nil => simp [Keyed.insertWith, Sorted, keys]
  | cons entry rest ih =>
    obtain ⟨k, v⟩ := entry
    have hrest : Sorted rest := (List.pairwise_cons.mp h).2
    have hfirst : ∀ other ∈ keys rest, k < other := (List.pairwise_cons.mp h).1
    rw [Keyed.insertWith]
    split
    · next hkey => exact hkey ▸ h
    · next hkey =>
      split
      · next hlt =>
        refine List.pairwise_cons.mpr ⟨fun other hmem => ?_, h⟩
        rcases List.mem_cons.mp hmem with rfl | hmem
        · exact hlt
        · exact String.lt_trans hlt (hfirst other hmem)
      · next hge =>
        refine List.pairwise_cons.mpr ⟨fun other hmem => ?_, ih hrest⟩
        rcases (mem_keys_insertWith value key other rest).mp hmem with rfl | hmem
        · exact Std.lt_of_le_of_ne (String.not_lt.mp hge) (Ne.symm hkey)
        · exact hfirst other hmem

/-- A key that is not there has no value. -/
theorem get?_eq_none_of_notMem {entries : Keyed α} {key : String} (h : key ∉ entries.keys) :
    entries.get? key = none := by
  induction entries with
  | nil => rfl
  | cons entry rest ih =>
    obtain ⟨k, v⟩ := entry
    have hbeq : (key == k) = false :=
      beq_false_of_ne fun heq => h (List.mem_cons.mpr (.inl heq))
    have hrest : key ∉ keys rest := fun hmem => h (List.mem_cons.mpr (.inr hmem))
    simpa only [get?, List.lookup_cons, hbeq] using ih hrest

/-- Under the key that it changes, a changed list gives the new value. -/
theorem get?_insertWith_self (value : Option α → α) (key : String) {entries : Keyed α}
    (h : Sorted entries) :
    (entries.insertWith value key).get? key = some (value (entries.get? key)) := by
  fun_induction Keyed.insertWith value key entries with
  | case1 => simp [get?]
  | case2 => simp [get?]
  | case3 k v rest hkey hlt =>
    have hnew : key ∉ keys ((k, v) :: rest) := fun hmem => by
      rcases List.mem_cons.mp hmem with heq | hmem
      · exact hkey heq
      · exact String.lt_irrefl key
          (String.lt_trans hlt ((List.pairwise_cons.mp h).1 key hmem))
    rw [get?_eq_none_of_notMem hnew]
    exact List.lookup_cons_self
  | case4 k v rest hkey _ ih =>
    have hbeq : (key == k) = false := beq_false_of_ne hkey
    simpa only [get?, List.lookup_cons, hbeq] using ih (List.pairwise_cons.mp h).2

/-- Under every other key, a changed list gives what it gave before. -/
theorem get?_insertWith_of_ne (value : Option α → α) {key other : String} (h : other ≠ key)
    (entries : Keyed α) : (entries.insertWith value key).get? other = entries.get? other := by
  have hbeq : (other == key) = false := beq_false_of_ne h
  fun_induction Keyed.insertWith value key entries with
  | case1 | case2 | case3 => simp [get?, List.lookup_cons, hbeq]
  | case4 k v rest _ _ ih =>
    simp only [get?] at ih
    simp only [get?, List.lookup_cons, ih]

end Keyed

end DocTree
