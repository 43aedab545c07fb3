import ModelSurface.Record

/-!
The stored records, in the order of their models and identities, and the sequences from which
integers are drawn.
-/

namespace ModelSurface

structure RowKey where
  model : String
  id : Identity
deriving DecidableEq, Repr

namespace RowKey

def compare (a b : RowKey) : Ordering :=
  (Ord.compare a.model b.model).then (a.id.compare b.id)

instance : Std.TransCmp compare :=
  letI : Ord Identity := ⟨Identity.compare⟩
  haveI : Std.TransOrd Identity := inferInstanceAs (Std.TransCmp Identity.compare)
  inferInstanceAs (Std.TransCmp (compareLex (compareOn RowKey.model) (compareOn RowKey.id)))

instance : Std.LawfulEqCmp compare where
  eq_of_compare {a b} h := by
    obtain ⟨hmodel, hid⟩ := Ordering.then_eq_eq.mp h
    cases a
    cases b
    rw [RowKey.mk.injEq]
    exact ⟨Std.LawfulEqOrd.eq_of_compare hmodel, Std.LawfulEqCmp.eq_of_compare hid⟩

theorem compare_lt_of_not_lt {a b : RowKey} (hne : a ≠ b) (hlt : a.compare b ≠ .lt) :
    b.compare a = .lt := by
  cases h : a.compare b with
  | lt => exact absurd h hlt
  | eq => exact absurd (Std.LawfulEqCmp.eq_of_compare h) hne
  | gt => exact Std.OrientedCmp.gt_iff_lt.mp h

end RowKey

abbrev Row := RowKey × Record

/-- Rows in ascending order of their keys, and so with each key at most once. -/
def Row.Ordered (rows : List Row) : Prop :=
  rows.Pairwise fun a b => a.1.compare b.1 = .lt

theorem Row.ordered_nil : Ordered [] := .nil

structure Tables where
  rows : List Row := []
  /-- The number that was drawn last from each sequence. -/
  sequences : Keyed Int := .empty
  ordered : Row.Ordered rows := by exact Row.ordered_nil

namespace Tables

instance : Inhabited Tables := ⟨{}⟩

def get? (tables : Tables) (model : String) (id : Identity) : Option Record :=
  tables.rows.lookup ⟨model, id⟩

/-- The records of a model in the order of their identities. -/
def scan (tables : Tables) (model : String) : List Record :=
  (tables.rows.filter fun row => row.1.model == model).map (·.2)

def count (tables : Tables) (model : String) : Nat := (tables.scan model).length

/-- Puts a row in its place; a present one of the same key is replaced. -/
def putRow (key : RowKey) (record : Record) : List Row → List Row
  | [] => [(key, record)]
  | (other, old) :: rest =>
    if key = other then (key, record) :: rest
    else if key.compare other = .lt then (key, record) :: (other, old) :: rest
    else (other, old) :: putRow key record rest

theorem mem_putRow {key : RowKey} {record : Record} {rows : List Row} {row : Row}
    (h : row ∈ putRow key record rows) : row = (key, record) ∨ row ∈ rows := by
  induction rows with
  | nil => simpa [putRow] using h
  | cons first rest ih =>
    obtain ⟨other, old⟩ := first
    unfold putRow at h
    split at h
    · exact (List.mem_cons.mp h).imp_right (List.mem_cons_of_mem _)
    · split at h
      · exact List.mem_cons.mp h
      · rcases List.mem_cons.mp h with rfl | hrest
        · exact .inr List.mem_cons_self
        · exact (ih hrest).imp_right (List.mem_cons_of_mem _)

theorem ordered_putRow (key : RowKey) (record : Record) {rows : List Row}
    (h : Row.Ordered rows) : Row.Ordered (putRow key record rows) := by
  induction rows with
  | nil => simp [putRow, Row.Ordered]
  | cons first rest ih =>
    obtain ⟨other, old⟩ := first
    obtain ⟨hfirst, hrest⟩ := List.pairwise_cons.mp h
    unfold putRow
    split
    · rename_i heq
      subst heq
      exact List.pairwise_cons.mpr ⟨hfirst, hrest⟩
    · rename_i hne
      split
      · rename_i hlt
        refine List.pairwise_cons.mpr ⟨fun row hrow => ?_, h⟩
        rcases List.mem_cons.mp hrow with rfl | hmem
        · exact hlt
        · exact Std.TransCmp.lt_trans hlt (hfirst row hmem)
      · rename_i hlt
        refine List.pairwise_cons.mpr ⟨fun row hrow => ?_, ih hrest⟩
        rcases mem_putRow hrow with rfl | hmem
        · exact RowKey.compare_lt_of_not_lt hne hlt
        · exact hfirst row hmem

def put (tables : Tables) (model : String) (id : Identity) (record : Record) : Tables :=
  { tables with
    rows := putRow ⟨model, id⟩ record tables.rows
    ordered := ordered_putRow _ _ tables.ordered }

def erase (tables : Tables) (model : String) (id : Identity) : Tables :=
  { tables with
    rows := tables.rows.filter fun row => row.1 ≠ ⟨model, id⟩
    ordered := tables.ordered.filter _ }

/-- The next number of a sequence; the first one is 1. -/
def next (tables : Tables) (sequence : String) : Int × Tables :=
  let number := (tables.sequences.get? sequence).getD 0 + 1
  (number, { tables with sequences := tables.sequences.put sequence number })

/-! ### Looking up records -/

theorem lookup_putRow_self (key : RowKey) (record : Record) (rows : List Row) :
    (putRow key record rows).lookup key = some record := by
  induction rows with
  | nil => simp [putRow]
  | cons row rest ih =>
    obtain ⟨other, old⟩ := row
    by_cases h : key = other
    · simp [putRow, h]
    · by_cases hlt : key.compare other = .lt
      · simp [putRow, h, hlt]
      · have h' : (key == other) = false := by simpa using h
        simp [putRow, h, hlt, List.lookup_cons, h', ih]

theorem lookup_putRow_of_ne {key other : RowKey} (record : Record) (rows : List Row)
    (h : other ≠ key) : (putRow key record rows).lookup other = rows.lookup other := by
  have hk : (other == key) = false := by simpa using h
  induction rows with
  | nil => simp [putRow, List.lookup_cons, hk]
  | cons row rest ih =>
    obtain ⟨first, old⟩ := row
    by_cases he : key = first
    · subst he
      simp [putRow, List.lookup_cons, hk]
    · by_cases hlt : key.compare first = .lt
      · simp [putRow, he, hlt, List.lookup_cons, hk]
      · simp [putRow, he, hlt, List.lookup_cons, ih]

theorem get?_put (tables : Tables) (model other : String) (id id' : Identity)
    (record : Record) :
    (tables.put model id record).get? other id' =
      if other = model ∧ id' = id then some record else tables.get? other id' := by
  split
  · rename_i h
    obtain ⟨rfl, rfl⟩ := h
    exact lookup_putRow_self _ _ _
  · rename_i h
    refine lookup_putRow_of_ne _ _ fun heq => h ?_
    injection heq with hmodel hid
    exact ⟨hmodel, hid⟩

@[simp] theorem get?_put_self (tables : Tables) (model : String) (id : Identity)
    (record : Record) : (tables.put model id record).get? model id = some record :=
  lookup_putRow_self _ _ _

theorem lookup_filter_ne {key other : RowKey} (rows : List Row) :
    (rows.filter fun row => row.1 ≠ key).lookup other =
      if other = key then none else rows.lookup other := by
  induction rows with
  | nil => simp
  | cons row rest ih =>
    obtain ⟨first, record⟩ := row
    by_cases hfirst : first = key
    · rw [List.filter_cons_of_neg (by simpa using hfirst), ih]
      split
      · rfl
      · rename_i hother
        have hne : (other == first) = false := by simpa [hfirst] using hother
        rw [List.lookup_cons, hne]
    · rw [List.filter_cons_of_pos (by simpa using hfirst), List.lookup_cons, List.lookup_cons, ih]
      split
      · rename_i heq
        rw [beq_iff_eq.mp heq, if_neg hfirst]
      · rfl

theorem get?_erase (tables : Tables) (model other : String) (id id' : Identity) :
    (tables.erase model id).get? other id' =
      if other = model ∧ id' = id then none else tables.get? other id' := by
  refine (lookup_filter_ne tables.rows).trans ?_
  simp only [RowKey.mk.injEq]
  rfl

@[simp] theorem get?_next (tables : Tables) (sequence model : String) (id : Identity) :
    (tables.next sequence).2.get? model id = tables.get? model id := rfl

@[simp] theorem get?_empty (model : String) (id : Identity) :
    ({} : Tables).get? model id = none := rfl

@[simp] theorem sequences_put (tables : Tables) (model : String) (id : Identity)
    (record : Record) : (tables.put model id record).sequences = tables.sequences := rfl

@[simp] theorem sequences_erase (tables : Tables) (model : String) (id : Identity) :
    (tables.erase model id).sequences = tables.sequences := rfl

theorem lookup_eq_some_of_mem {key : RowKey} {record : Record} {rows : List Row}
    (hordered : Row.Ordered rows) (hmem : (key, record) ∈ rows) :
    rows.lookup key = some record := by
  induction rows with
  | nil => cases hmem
  | cons row rest ih =>
    obtain ⟨first, old⟩ := row
    obtain ⟨hfirst, hrest⟩ := List.pairwise_cons.mp hordered
    rcases List.mem_cons.mp hmem with heq | hbehind
    · obtain ⟨rfl, rfl⟩ := Prod.mk.inj heq
      simp
    · have hne : (key == first) = false := by
        refine beq_eq_false_iff_ne.mpr fun heq => ?_
        have hlt : key.compare key = .lt := heq ▸ hfirst _ hbehind
        have hself : key.compare key = .eq := Std.ReflCmp.compare_self
        rw [hself] at hlt
        cases hlt
      simpa [List.lookup_cons, hne] using ih hrest hbehind

theorem mem_rows {tables : Tables} {key : RowKey} {record : Record} :
    (key, record) ∈ tables.rows ↔ tables.get? key.model key.id = some record := by
  constructor
  · exact lookup_eq_some_of_mem tables.ordered
  · intro h
    obtain ⟨before, after, heq, -⟩ := List.lookup_eq_some_iff.mp h
    simp [heq]

theorem mem_scan {tables : Tables} {model : String} {record : Record} :
    record ∈ tables.scan model ↔ ∃ id, tables.get? model id = some record := by
  constructor
  · intro h
    obtain ⟨⟨key, found⟩, hrow, rfl⟩ := List.mem_map.mp h
    obtain ⟨hmem, hmodel⟩ := List.mem_filter.mp hrow
    refine ⟨key.id, ?_⟩
    rw [← beq_iff_eq.mp hmodel]
    exact mem_rows.mp hmem
  · rintro ⟨id, h⟩
    exact List.mem_map.mpr ⟨(⟨model, id⟩, record),
      List.mem_filter.mpr ⟨mem_rows.mpr h, by simp⟩, rfl⟩

end Tables

end ModelSurface
