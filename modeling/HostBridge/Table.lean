/-!
Finite tables, kept as lists of entries whose keys ascend.

Text is ordered by code point, which is also the order of its bytes, so a table keyed by text
lists its entries in the order in which they are written on the wire. An insertion keeps the
order and replaces the entry of a key that is already there; looking up is `List.lookup`.
-/

namespace HostBridge

/-- Entries of a table; the operations below keep the keys strictly ascending. -/
abbrev Table (κ ν : Type) := List (κ × ν)

/-- A table keyed by text. -/
abbrev Fields (ν : Type) := Table String ν

namespace Table

variable {κ ν : Type}

/-- The keys ascend, so each occurs once. -/
def Ascending [LT κ] (table : Table κ ν) : Prop := table.Pairwise (·.1 < ·.1)

def keys (table : Table κ ν) : List κ := table.map (·.1)

def contains [BEq κ] (key : κ) (table : Table κ ν) : Bool := (table.lookup key).isSome

section Insert

variable [LT κ] [DecidableLT κ] [DecidableEq κ]

def insert (key : κ) (value : ν) : Table κ ν → Table κ ν
  | [] => [(key, value)]
  | (k, v) :: rest =>
    if key < k then (key, value) :: (k, v) :: rest
    else if key = k then (key, value) :: rest
    else (k, v) :: insert key value rest

/-- Leaves the entry of a key that is already there. -/
def insertNew (key : κ) (value : ν) (table : Table κ ν) : Table κ ν :=
  if contains key table then table else insert key value table

/-- The table of a list of entries; of two entries with one key the later is kept. -/
def ofList (entries : List (κ × ν)) : Table κ ν :=
  entries.foldl (fun table entry => insert entry.1 entry.2 table) []

@[simp] theorem lookup_insert_self (key : κ) (value : ν) (table : Table κ ν) :
    (insert key value table).lookup key = some value := by
  induction table with
  | nil => simp [insert]
  | cons entry rest ih =>
    obtain ⟨k, v⟩ := entry
    by_cases hlt : key < k
    · simp [insert, hlt]
    · by_cases heq : key = k
      · subst heq; simp [insert, hlt]
      · have : (key == k) = false := by simpa using heq
        simp [insert, hlt, heq, List.lookup_cons, this, ih]

theorem lookup_insert_of_ne {key other : κ} (h : other ≠ key) (value : ν) (table : Table κ ν) :
    (insert key value table).lookup other = table.lookup other := by
  have hne : (other == key) = false := by simpa using h
  induction table with
  | nil => simp [insert, List.lookup_cons, hne]
  | cons entry rest ih =>
    obtain ⟨k, v⟩ := entry
    by_cases hlt : key < k
    · simp [insert, hlt, List.lookup_cons, hne]
    · by_cases heq : key = k
      · subst heq; simp [insert, hlt, List.lookup_cons, hne]
      · simp only [insert, hlt, heq, if_false, List.lookup_cons, ih]

theorem lookup_insert (key other : κ) (value : ν) (table : Table κ ν) :
    (insert key value table).lookup other =
      if other = key then some value else table.lookup other := by
  by_cases h : other = key
  · subst h; simp
  · simp [h, lookup_insert_of_ne h]

@[simp] theorem ofList_nil : ofList ([] : List (κ × ν)) = [] := rfl

theorem ofList_concat (entries : List (κ × ν)) (key : κ) (value : ν) :
    ofList (entries ++ [(key, value)]) = insert key value (ofList entries) := by
  simp [ofList, List.foldl_append]

end Insert

end Table

end HostBridge
