/-!
Tables with string keys that keep the order in which the keys first arrived.
-/

namespace ModelSurface

/-- Entries in order of arrival. Operations keep each key at most once. -/
structure Keyed (α : Type) where
  entries : List (String × α)
deriving DecidableEq, Repr

namespace Keyed

variable {α β : Type}

def empty : Keyed α := ⟨[]⟩

instance : Inhabited (Keyed α) := ⟨empty⟩

def keys (t : Keyed α) : List String := t.entries.map (·.1)

def values (t : Keyed α) : List α := t.entries.map (·.2)

def get? (t : Keyed α) (key : String) : Option α := t.entries.lookup key

def contains (t : Keyed α) (key : String) : Bool := (t.get? key).isSome

def size (t : Keyed α) : Nat := t.entries.length

/-- Replaces the value of a key in its place, or adds it behind the others. -/
def putEntry (key : String) (value : α) : List (String × α) → List (String × α)
  | [] => [(key, value)]
  | (other, old) :: rest =>
    if other = key then (key, value) :: rest else (other, old) :: putEntry key value rest

def put (t : Keyed α) (key : String) (value : α) : Keyed α := ⟨putEntry key value t.entries⟩

def erase (t : Keyed α) (key : String) : Keyed α := ⟨t.entries.filter fun e => e.1 ≠ key⟩

/-- The table of the given entries; of two with one key the first gives the place and the last
the value. -/
def ofList (entries : List (String × α)) : Keyed α :=
  entries.foldl (fun t e => t.put e.1 e.2) empty

def map (f : α → β) (t : Keyed α) : Keyed β := ⟨t.entries.map fun e => (e.1, f e.2)⟩

theorem lookup_putEntry_self (key : String) (value : α) (entries : List (String × α)) :
    (putEntry key value entries).lookup key = some value := by
  induction entries with
  | nil => simp [putEntry]
  | cons e rest ih =>
    obtain ⟨other, old⟩ := e
    by_cases h : other = key
    · simp [putEntry, h]
    · have h' : (key == other) = false := by simpa using fun e => h e.symm
      simp [putEntry, h, List.lookup_cons, h', ih]

theorem lookup_putEntry_of_ne {key other : String} (value : α) (entries : List (String × α))
    (h : other ≠ key) : (putEntry key value entries).lookup other = entries.lookup other := by
  induction entries with
  | nil =>
    have h' : (other == key) = false := by simpa using h
    simp [putEntry, List.lookup_cons, h']
  | cons e rest ih =>
    obtain ⟨name, old⟩ := e
    by_cases hk : name = key
    · subst hk
      have h' : (other == name) = false := by simpa using h
      simp [putEntry, List.lookup_cons, h']
    · simp [putEntry, hk, List.lookup_cons, ih]

@[simp] theorem get?_put_self (t : Keyed α) (key : String) (value : α) :
    (t.put key value).get? key = some value := lookup_putEntry_self key value t.entries

theorem get?_put_of_ne (t : Keyed α) {key other : String} (value : α) (h : other ≠ key) :
    (t.put key value).get? other = t.get? other := lookup_putEntry_of_ne value t.entries h

@[simp] theorem get?_empty (key : String) : (empty : Keyed α).get? key = none := rfl

theorem get?_put (t : Keyed α) (key other : String) (value : α) :
    (t.put key value).get? other = if other = key then some value else t.get? other := by
  split
  · rename_i h
    rw [h, get?_put_self]
  · rename_i h
    exact get?_put_of_ne t value h

theorem isSome_get?_iff {t : Keyed α} {key : String} : (t.get? key).isSome ↔ key ∈ t.keys := by
  unfold get? keys
  simp [List.lookup_isSome_iff]

theorem keys_putEntry (key : String) (value : α) (entries : List (String × α)) :
    (putEntry key value entries).map (·.1) =
      if key ∈ entries.map (·.1) then entries.map (·.1) else entries.map (·.1) ++ [key] := by
  induction entries with
  | nil => simp [putEntry]
  | cons e rest ih =>
    obtain ⟨other, old⟩ := e
    by_cases h : other = key
    · simp [putEntry, h]
    · have hne : key ≠ other := fun heq => h heq.symm
      by_cases hmem : key ∈ rest.map (·.1)
      · simp only [putEntry, h, if_false, List.map_cons, ih, hmem, if_true, List.mem_cons, or_true]
      · simp only [putEntry, h, if_false, List.map_cons, ih, hmem, List.mem_cons, hne, or_self,
          List.cons_append]

theorem keys_put (t : Keyed α) (key : String) (value : α) :
    (t.put key value).keys = if key ∈ t.keys then t.keys else t.keys ++ [key] :=
  keys_putEntry key value t.entries

theorem mem_keys_put {t : Keyed α} {key other : String} {value : α} :
    other ∈ (t.put key value).keys ↔ other = key ∨ other ∈ t.keys := by
  rw [keys_put]
  split
  · rename_i hmem
    constructor
    · exact .inr
    · rintro (rfl | h)
      · exact hmem
      · exact h
  · simp [or_comm]

end Keyed

end ModelSurface
