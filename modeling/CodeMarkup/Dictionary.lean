/-! # Dictionaries

A dictionary holds one value for each of its keys and remembers the order in which the keys came in.
Putting a value under a key that is there keeps the key's place.

`find?_insert` and `find?_erase` say what is found after a change, `keys_insert` and `keys_erase`
what becomes of the order. -/

namespace CodeMarkup

/-- Values under keys, in the order of the keys' first coming. -/
structure Dictionary (α : Type) where
  entries : List (String × α)
  nodup : (entries.map Prod.fst).Nodup

namespace Dictionary

variable {α : Type}

/-- The dictionary without keys. -/
def empty : Dictionary α := ⟨[], List.nodup_nil⟩

instance : Inhabited (Dictionary α) := ⟨empty⟩

/-- The keys in order. -/
def keys (d : Dictionary α) : List String := d.entries.map Prod.fst

/-- The number of keys. -/
def size (d : Dictionary α) : Nat := d.entries.length

/-- The value under a key in a row of entries. -/
def findIn (key : String) : List (String × α) → Option α
  | [] => none
  | (k, v) :: es => if k = key then some v else findIn key es

/-- The value under a key. -/
def find? (d : Dictionary α) (key : String) : Option α := findIn key d.entries

theorem findIn_eq_none {key : String} {es : List (String × α)} (h : key ∉ es.map Prod.fst) :
    findIn key es = none := by
  induction es with
  | nil => rfl
  | cons e es ih =>
    simp only [List.map_cons, List.mem_cons, not_or] at h
    simp [findIn, ih h.2, Ne.symm h.1]

/-- Whether a key is there. -/
def contains (d : Dictionary α) (key : String) : Bool := (d.find? key).isSome

/-! ### Inserting -/

/-- Puts a value under a key: in place of the old value, or at the end. -/
def insertInto (key : String) (value : α) : List (String × α) → List (String × α)
  | [] => [(key, value)]
  | (k, v) :: es => if k = key then (key, value) :: es else (k, v) :: insertInto key value es

theorem keys_insertInto (key : String) (value : α) (es : List (String × α)) :
    (insertInto key value es).map Prod.fst =
      if key ∈ es.map Prod.fst then es.map Prod.fst else es.map Prod.fst ++ [key] := by
  induction es with
  | nil => simp [insertInto]
  | cons e es ih =>
    obtain ⟨k, v⟩ := e
    by_cases h : k = key
    · simp [insertInto, h]
    · have h' : ¬ key = k := fun e => h e.symm
      by_cases hm : key ∈ es.map Prod.fst
      · rw [if_pos hm] at ih
        simp [insertInto, h, ih, List.mem_cons, h', hm]
      · rw [if_neg hm] at ih
        simp [insertInto, h, ih, List.mem_cons, h', hm]

/-- Puts a value under a key. -/
def insert (d : Dictionary α) (key : String) (value : α) : Dictionary α where
  entries := insertInto key value d.entries
  nodup := by
    rw [keys_insertInto]
    split
    · exact d.nodup
    · next h => exact List.nodup_append.2 ⟨d.nodup, by simp, by simp; grind⟩

/-- A new key comes last, a known one stays where it is. -/
theorem keys_insert (d : Dictionary α) (key : String) (value : α) :
    (d.insert key value).keys = if key ∈ d.keys then d.keys else d.keys ++ [key] :=
  keys_insertInto key value d.entries

theorem findIn_insertInto (key k : String) (value : α) (es : List (String × α)) :
    findIn k (insertInto key value es) = if k = key then some value else findIn k es := by
  induction es with
  | nil => simp only [insertInto, findIn]; grind
  | cons e es ih =>
    obtain ⟨k', v⟩ := e
    simp only [insertInto]
    split
    · next h => simp only [findIn]; grind
    · next h => simp only [findIn, ih]; grind

/-- What is put under a key is found there, and nothing else changes. -/
theorem find?_insert (d : Dictionary α) (key k : String) (value : α) :
    (d.insert key value).find? k = if k = key then some value else d.find? k :=
  findIn_insertInto key k value d.entries

/-! ### Dropping -/

/-- Keeps the entries with a property. -/
def retain (d : Dictionary α) (keep : String → α → Bool) : Dictionary α where
  entries := d.entries.filter fun (k, v) => keep k v
  nodup := (List.filter_sublist.map Prod.fst).nodup d.nodup

/-- Drops a key. -/
def erase (d : Dictionary α) (key : String) : Dictionary α := d.retain fun k _ => k != key

theorem findIn_filter {es : List (String × α)} (h : (es.map Prod.fst).Nodup)
    (keep : String → α → Bool) (key : String) :
    findIn key (es.filter fun (k, v) => keep k v) = (findIn key es).filter (keep key) := by
  induction es with
  | nil => rfl
  | cons e es ih =>
    obtain ⟨k, v⟩ := e
    simp only [List.map_cons, List.nodup_cons] at h
    have hn : k = key → findIn key es = none := fun e => findIn_eq_none (e ▸ h.1)
    have hs := ih h.2
    simp only [List.filter_cons, findIn]
    split <;> by_cases hk : k = key <;> simp_all [findIn, Option.filter]

/-- What is kept is found as before. -/
theorem find?_retain (d : Dictionary α) (keep : String → α → Bool) (key : String) :
    (d.retain keep).find? key = (d.find? key).filter (keep key) :=
  findIn_filter d.nodup keep key

/-- A key that is dropped is not found, and nothing else changes. -/
theorem find?_erase (d : Dictionary α) (key k : String) :
    (d.erase key).find? k = if k = key then none else d.find? k := by
  rw [erase, find?_retain]
  by_cases h : k = key
  · cases hf : d.find? k <;> simp [h, Option.filter]
  · cases hf : d.find? k <;> simp [h, Option.filter]

/-- The other keys stay in their order. -/
theorem keys_erase (d : Dictionary α) (key : String) :
    (d.erase key).keys = d.keys.filter (· != key) := by
  rw [keys, keys, List.filter_map]
  rfl

/-- A dictionary with several values put under their keys, the later ones last. -/
def ofList (es : List (String × α)) : Dictionary α := es.foldl (fun d (k, v) => d.insert k v) empty

end Dictionary

end CodeMarkup
