/-!
# Dictionaries

Finite maps from strings to strings, kept sorted by key, so that two dictionaries with the same entries are equal
whatever the order the entries came in. Looking up after an insertion is `get?_insert`.
-/

namespace SvgPlot

/-- Entries in increasing order of their keys, by code point; no key occurs twice. -/
structure Dictionary where
  entries : List (String × String)
  sorted : entries.Pairwise fun a b => a.1 < b.1
deriving DecidableEq

namespace Dictionary

/-- An entry put at its place; an entry of the same key is replaced. -/
def insertEntry (key value : String) : List (String × String) → List (String × String)
  | [] => [(key, value)]
  | (k, v) :: rest =>
    if key < k then (key, value) :: (k, v) :: rest
    else if key = k then (key, value) :: rest
    else (k, v) :: insertEntry key value rest

theorem fst_mem_insertEntry {key value : String} {entries : List (String × String)} {e : String × String}
    (h : e ∈ insertEntry key value entries) : e.1 = key ∨ e ∈ entries := by
  induction entries with
  | nil => simp only [insertEntry, List.mem_singleton] at h; simp [h]
  | cons head rest ih =>
    obtain ⟨k, v⟩ := head
    simp only [insertEntry] at h
    split at h
    · simp only [List.mem_cons] at h ⊢
      rcases h with h | h | h <;> simp [h]
    · split at h
      · simp only [List.mem_cons] at h ⊢
        rcases h with h | h <;> simp [h]
      · simp only [List.mem_cons] at h ⊢
        rcases h with h | h
        · simp [h]
        · rcases ih h with h | h <;> simp [h]

theorem lt_of_not_lt_of_ne {a b : String} (hlt : ¬a < b) (hne : a ≠ b) : b < a :=
  Decidable.byContradiction fun h => hne (String.le_antisymm (String.not_lt.1 h) (String.not_lt.1 hlt))

theorem pairwise_insertEntry (key value : String) {entries : List (String × String)}
    (h : entries.Pairwise fun a b => a.1 < b.1) :
    (insertEntry key value entries).Pairwise fun a b => a.1 < b.1 := by
  induction entries with
  | nil => simp [insertEntry]
  | cons head rest ih =>
    obtain ⟨k, v⟩ := head
    obtain ⟨hhead, hrest⟩ := List.pairwise_cons.1 h
    simp only [insertEntry]
    split
    · rename_i hlt
      refine List.pairwise_cons.2 ⟨fun e he => ?_, h⟩
      rcases List.mem_cons.1 he with rfl | he
      · exact hlt
      · exact String.lt_trans hlt (hhead e he)
    · rename_i hlt
      split
      · rename_i heq
        exact List.pairwise_cons.2 ⟨fun e he => heq ▸ hhead e he, hrest⟩
      · rename_i hne
        refine List.pairwise_cons.2 ⟨fun e he => ?_, ih hrest⟩
        rcases fst_mem_insertEntry he with heq | he
        · simpa only [heq] using lt_of_not_lt_of_ne hlt hne
        · exact hhead e he

def empty : Dictionary := ⟨[], List.Pairwise.nil⟩

instance : Inhabited Dictionary := ⟨empty⟩

/-- The value of a key is set, whether it had one or not. -/
def insert (d : Dictionary) (key value : String) : Dictionary :=
  ⟨insertEntry key value d.entries, pairwise_insertEntry key value d.sorted⟩

/-- The dictionary of a list of entries; of entries with one key the last counts. -/
def ofList (entries : List (String × String)) : Dictionary :=
  entries.foldl (fun d e => d.insert e.1 e.2) empty

/-- The value of the first entry of a key. -/
def lookup (key : String) : List (String × String) → Option String
  | [] => none
  | (k, v) :: rest => if k = key then some v else lookup key rest

def get? (d : Dictionary) (key : String) : Option String := lookup key d.entries

def contains (d : Dictionary) (key : String) : Bool := (d.get? key).isSome

theorem lookup_insertEntry (key value other : String) (entries : List (String × String)) :
    lookup other (insertEntry key value entries) = if key = other then some value else lookup other entries := by
  induction entries with
  | nil => simp [insertEntry, lookup]
  | cons head rest ih =>
    obtain ⟨k, v⟩ := head
    simp only [insertEntry]
    split
    · simp [lookup]
    · split
      · rename_i heq
        subst heq
        simp only [lookup]
        split <;> rfl
      · rename_i hne
        simp only [lookup, ih]
        by_cases hk : k = other
        · have : key ≠ other := fun h => hne (h.trans hk.symm)
          simp [hk, this]
        · simp [hk]

@[simp] theorem get?_empty (key : String) : empty.get? key = none := rfl

@[simp] theorem get?_insert (d : Dictionary) (key value other : String) :
    (d.insert key value).get? other = if key = other then some value else d.get? other :=
  lookup_insertEntry ..

end Dictionary

end SvgPlot
