import ModelSurface.Proofs.Filter.Meaning

/-!
# What the reader makes of expressions

A filter does not depend on the place at which it is read, and it only says what the type in which
it is written lists: predicates on fields with operators of the fields, and filters of related
records. The names of the combinators are the reader's own, whatever the type lists.
-/

namespace ModelSurface

namespace Checked

variable {α β γ : Type}

theorem value?_eq_some {a : Checked α} {x : α} : a.value? = some x ↔ a = .ok x := by
  cases a <;> simp [value?]

theorem value?_map (f : α → β) (a : Checked α) :
    value? (a.map f : Checked β) = a.value?.map f := by
  cases a <;> rfl

theorem value?_both (f : α → β → γ) (a : Checked α) (b : Checked β) :
    (both f a b).value? = a.value?.bind fun x => b.value?.map (f x) := by
  cases a <;> cases b <;> rfl

theorem both_ok (f : α → β → γ) (a : Checked α) (b : β) :
    both f a (.ok b) = (a.map fun x => f x b : Checked γ) := by
  cases a <;> rfl

end Checked

theorem FilterOp.ofName?_name (op : FilterOp) : ofName? op.name = some op := by
  cases op <;> decide

namespace Filter

/-! ### The place does not matter -/

theorem value?_readPredicate (field : String) (type : OperatorType) (path other name : String)
    (json : Json) :
    (readPredicate field type path name json).value? =
      (readPredicate field type other name json).value? := by
  unfold readPredicate
  split
  · rfl
  · split <;> rfl

theorem value?_readPredicates (field : String) (type : OperatorType) (path other : String)
    (operators : List (String × Json)) :
    (readPredicates field type path operators).value? =
      (readPredicates field type other operators).value? := by
  induction operators with
  | nil => rfl
  | cons operator operators ih =>
      unfold readPredicates
      rw [Checked.value?_both, Checked.value?_both, ih]
      rw [value?_readPredicate field type _ s!"{other}.{operator.1}"]

mutual

theorem value?_read (type : FilterType) (path other : String) (json : Json) :
    (read type path json).value? = (read type other json).value? := by
  cases json with
  | obj members =>
      unfold read
      rw [Checked.value?_map, Checked.value?_map, value?_readMembers type path other members]
  | null | bool | num | str | arr => rfl
termination_by (sizeOf json, 0)

theorem value?_readMembers (type : FilterType) (path other : String)
    (members : List (String × Json)) :
    (readMembers type path members).value? = (readMembers type other members).value? := by
  match members with
  | [] => rfl
  | (name, json) :: rest =>
      rw [readMembers_cons, readMembers_cons, Checked.value?_both, Checked.value?_both,
        value?_readMembers type path other rest,
        value?_readMember type s!"{path}.{name}" s!"{other}.{name}" name json]
termination_by (sizeOf members, 0)

theorem value?_readMember (type : FilterType) (path other name : String) (json : Json) :
    (readMember type path name json).value? = (readMember type other name json).value? := by
  unfold readMember
  split
  · split
    · rw [Checked.value?_map, Checked.value?_map, value?_readItems type path other]
    · rfl
  split
  · split
    · rw [Checked.value?_map, Checked.value?_map, value?_readItems type path other]
    · rfl
  split
  · split
    · rw [Checked.value?_map, Checked.value?_map, value?_read type path other]
    · rfl
    · rw [Checked.value?_map, Checked.value?_map, value?_read type path other]
  split
  · rfl
  · rw [Checked.value?_map, Checked.value?_map, value?_read _ path other]
  · split
    · rw [value?_readPredicates _ _ path other]
    · rfl
termination_by (sizeOf json, 1)

theorem value?_readItems (type : FilterType) (path other : String) (index : Nat)
    (items : List Json) :
    (readItems type path index items).value? = (readItems type other index items).value? := by
  match items with
  | [] => rfl
  | item :: items =>
      unfold readItems
      rw [Checked.value?_both, Checked.value?_both, value?_readItems type path other,
        value?_read type _ s!"{other}[{index}]"]
termination_by (sizeOf items, 0)

end

/-- A filter that is read at one place is read at every other one. -/
theorem read_of_read {type : FilterType} {path : String} {json : Json} {filter : Filter}
    (h : read type path json = .ok filter) (other : String) :
    read type other json = .ok filter := by
  rw [← Checked.value?_eq_some] at h ⊢
  rwa [value?_read type other path]

/-! ### Members that name fields -/

/-- The names of members by which the reader combines filters. -/
def combinators : List String := ["and", "or", "not"]

theorem not_mem_combinators {name : String} :
    name ∉ combinators ↔ name ≠ "and" ∧ name ≠ "or" ∧ name ≠ "not" := by
  simp [combinators]

theorem readMember_relation {type inner : FilterType} {path name relation target : String}
    {many : Bool} {json : Json} (hname : name ∉ combinators)
    (hfield : type.field? name = some (.relation relation target many inner)) :
    readMember type path name json =
      ((read inner path json).map fun filter => [.related name target filter] :
        Checked (List Filter)) := by
  obtain ⟨hand, hor, hnot⟩ := not_mem_combinators.mp hname
  unfold readMember
  rw [if_neg hand, if_neg hor, if_neg hnot, hfield]

theorem readMember_scalar {type : FilterType} {path name field : String} {kind : Kind}
    {list nullable : Bool} {operators : List (String × Json)} (hname : name ∉ combinators)
    (hfield : type.field? name = some (.scalar field kind list nullable)) :
    readMember type path name (.obj operators) =
      readPredicates name ⟨kind, list, nullable⟩ path operators := by
  obtain ⟨hand, hor, hnot⟩ := not_mem_combinators.mp hname
  unfold readMember
  rw [if_neg hand, if_neg hor, if_neg hnot, hfield]

/-- An expression with a single member says what the member says. -/
theorem read_member (type : FilterType) (path name : String) (json : Json) :
    read type path (Json.object [(name, json)]) =
      ((readMember type s!"{path}.{name}" name json).map conjunction : Checked Filter) := by
  change (readMembers type path [(name, json)]).map conjunction = _
  rw [readMembers_cons, readMembers, Checked.both_ok]
  cases readMember type s!"{path}.{name}" name json with
  | error violations => rfl
  | ok filters => exact congrArg (fun all => Except.ok (conjunction all)) (List.append_nil filters)

theorem readPredicate_of_read {field : String} {type : OperatorType} {path : String}
    {op : FilterOp} {json : Json} {operand : Operand} (hop : op ∈ type.operators)
    (hread : Operand.read op type.kind type.list json = .ok operand) :
    readPredicate field type path op.name json = .ok (.leaf field op operand) := by
  have hname : (FilterOp.ofName? op.name).filter type.operators.contains = some op := by
    simp [FilterOp.ofName?_name, hop]
  unfold readPredicate
  rw [hname]
  dsimp only
  rw [hread]

/-- A member that names a field and one of its operators is read as the predicate. -/
theorem read_leaf {type : FilterType} {field name : String} {kind : Kind} {list nullable : Bool}
    {op : FilterOp} {json : Json} {operand : Operand} (hname : field ∉ combinators)
    (hfield : type.field? field = some (.scalar name kind list nullable))
    (hop : op ∈ FilterOp.forField kind list nullable)
    (hread : Operand.read op kind list json = .ok operand) (path : String) :
    read type path (Json.object [(field, Json.object [(op.name, json)])]) =
      .ok (.leaf field op operand) := by
  rw [read_member]
  change (readMember type s!"{path}.{field}" field (.obj [(op.name, json)])).map conjunction = _
  rw [readMember_scalar hname hfield, readPredicates, readPredicates, Checked.both_ok,
    readPredicate_of_read hop hread]
  rfl

/-- A member that names a relation is read as the filter of the related records. -/
theorem read_related {type inner : FilterType} {relation name target : String} {many : Bool}
    {json : Json} {filter : Filter} (hname : relation ∉ combinators)
    (hfield : type.field? relation = some (.relation name target many inner)) (path : String)
    (hread : read inner s!"{path}.{relation}" json = .ok filter) :
    read type path (Json.object [(relation, json)]) = .ok (.related relation target filter) := by
  rw [read_member, readMember_relation hname hfield, hread]
  rfl

end Filter

/-! ### Operands -/

/-- A value that predicates on a field may compare with: one that fits the field, and not null. -/
structure Value.Comparable (kind : Kind) (list : Bool) (value : Value) : Prop where
  fits : value.fits kind list = true
  given : value.isNull = false

/-- The operands that an operator takes on a field: one value, several, two, or a flag. -/
inductive Operand.Suits (kind : Kind) (list : Bool) : FilterOp → Operand → Prop
  | flag (flag : Bool) : Suits kind list .isNull (.flag flag)
  | values {op : FilterOp} {values : List Value} (hop : op = .isIn ∨ op = .notIn)
      (hvalues : ∀ value ∈ values, value.Comparable kind list) : Suits kind list op (.values values)
  | range {low high : Value} (hlow : low.Comparable kind list) (hhigh : high.Comparable kind list) :
      Suits kind list .range (.range low high)
  | value {op : FilterOp} {value : Value} (hop : op ∉ [.isNull, .isIn, .notIn, .range])
      (hvalue : value.Comparable kind list) : Suits kind list op (.value value)

namespace Filter

theorem comparable_of_readValue {kind : Kind} {list : Bool} {json : Json} {value : Value}
    (h : Operand.readValue kind list json = .ok value) : value.Comparable kind list := by
  obtain ⟨hfits, hnull⟩ := Value.fits_ofJson (readValue_ok h)
  refine ⟨hfits, ?_⟩
  rw [Bool.eq_false_iff]
  intro hvalue
  unfold Operand.readValue at h
  rw [if_pos (hnull hvalue)] at h
  cases h

theorem comparable_of_mapM_readValue {kind : Kind} {list : Bool} {items : List Json}
    {values : List Value} (h : items.mapM (Operand.readValue kind list) = .ok values) :
    ∀ value ∈ values, value.Comparable kind list := by
  intro value hmem
  obtain ⟨item, -, hitem⟩ := mem_of_mapM_ok h hmem
  exact comparable_of_readValue hitem

theorem suits_of_read {op : FilterOp} {kind : Kind} {list : Bool} {json : Json}
    {operand : Operand} (h : Operand.read op kind list json = .ok operand) :
    operand.Suits kind list op := by
  cases op with
  | isNull =>
      obtain ⟨flag, -, rfl⟩ := read_flag h
      exact .flag flag
  | isIn =>
      obtain ⟨items, operands, -, hitems, rfl⟩ := read_values (.inl rfl) h
      exact .values (.inl rfl) (comparable_of_mapM_readValue hitems)
  | notIn =>
      obtain ⟨items, operands, -, hitems, rfl⟩ := read_values (.inr rfl) h
      exact .values (.inr rfl) (comparable_of_mapM_readValue hitems)
  | range =>
      obtain ⟨low, high, least, greatest, -, hleast, hgreatest, rfl⟩ := read_range h
      exact .range (comparable_of_readValue hleast) (comparable_of_readValue hgreatest)
  | eq | ne | lt | lte | gt | gte | contains | icontains | startsWith | istartsWith | endsWith
  | iendsWith | iexact =>
      obtain ⟨single, hsingle, rfl⟩ := read_single h
      exact .value (by decide) (comparable_of_readValue hsingle)

/-! ### The filters that can be read -/

/-- The filters that the reader can make of expressions in a type. -/
inductive Fits : FilterType → Filter → Prop
  | leaf {type : FilterType} {field name : String} {kind : Kind} {list nullable : Bool}
      {op : FilterOp} {operand : Operand} (hname : field ∉ combinators)
      (hfield : type.field? field = some (.scalar name kind list nullable))
      (hop : op ∈ FilterOp.forField kind list nullable) (hoperand : operand.Suits kind list op) :
      Fits type (.leaf field op operand)
  | related {type inner : FilterType} {relation name target : String} {many : Bool}
      {filter : Filter} (hname : relation ∉ combinators)
      (hfield : type.field? relation = some (.relation name target many inner))
      (hfilter : Fits inner filter) : Fits type (.related relation target filter)
  | all {type : FilterType} {filters : List Filter} (hfilters : ∀ filter ∈ filters, Fits type filter) :
      Fits type (.all filters)
  | any {type : FilterType} {filters : List Filter} (hfilters : ∀ filter ∈ filters, Fits type filter) :
      Fits type (.any filters)
  | not {type : FilterType} {filter : Filter} (hfilter : Fits type filter) : Fits type (.not filter)

theorem Fits.conjunction {type : FilterType} {filters : List Filter}
    (h : ∀ filter ∈ filters, Fits type filter) : Fits type (conjunction filters) := by
  unfold Filter.conjunction
  split
  · exact h _ List.mem_cons_self
  · exact .all h

theorem fits_of_readPredicates {type : FilterType} {path name field : String} {kind : Kind}
    {list nullable : Bool} {operators : List (String × Json)} {filters : List Filter}
    (hname : field ∉ combinators)
    (hfield : type.field? field = some (.scalar name kind list nullable))
    (h : readPredicates field ⟨kind, list, nullable⟩ path operators = .ok filters) :
    ∀ filter ∈ filters, Fits type filter := by
  induction operators generalizing filters with
  | nil =>
      obtain rfl : [] = filters := Except.ok.inj h
      simp
  | cons operator operators ih =>
      obtain ⟨first, others, hfirst, hrest, rfl⟩ := Checked.both_eq_ok_iff.mp h
      refine List.forall_mem_cons.mpr ⟨?_, ih hrest⟩
      unfold readPredicate at hfirst
      split at hfirst
      · cases hfirst
      · rename_i op hop
        have hlisted := (Option.filter_eq_some_iff.mp hop).2
        split at hfirst
        · rename_i operand hread
          obtain rfl : Filter.leaf field op operand = first := Except.ok.inj hfirst
          exact .leaf hname hfield (List.contains_iff_mem.mp hlisted) (suits_of_read hread)
        · cases hfirst

mutual

/-- What is read fits the type in which it is read. -/
theorem fits_of_read {type : FilterType} {path : String} {json : Json} {filter : Filter}
    (h : read type path json = .ok filter) : Fits type filter := by
  cases json with
  | obj members =>
      obtain ⟨filters, hfilters, rfl⟩ := Checked.map_eq_ok h
      exact .conjunction (fits_of_readMembers hfilters)
  | null | bool | num | str | arr => cases h
termination_by (sizeOf json, 0)

theorem fits_of_readMembers {type : FilterType} {path : String} {members : List (String × Json)}
    {filters : List Filter} (h : readMembers type path members = .ok filters) :
    ∀ filter ∈ filters, Fits type filter := by
  match members with
  | [] =>
      obtain rfl : [] = filters := Except.ok.inj h
      simp
  | (name, json) :: rest =>
      rw [readMembers_cons] at h
      obtain ⟨first, others, hfirst, hrest, rfl⟩ := Checked.both_eq_ok_iff.mp h
      exact List.forall_mem_append.mpr ⟨fits_of_readMember hfirst, fits_of_readMembers hrest⟩
termination_by (sizeOf members, 0)

theorem fits_of_readMember {type : FilterType} {path name : String} {json : Json}
    {filters : List Filter} (h : readMember type path name json = .ok filters) :
    ∀ filter ∈ filters, Fits type filter := by
  unfold readMember at h
  by_cases hand : name = "and"
  · rw [if_pos hand] at h
    cases json with
    | arr items =>
        obtain ⟨read, hread, rfl⟩ := Checked.map_eq_ok h
        exact List.forall_mem_singleton.mpr (.all (fits_of_readItems hread))
    | null | bool | num | str | obj => cases h
  rw [if_neg hand] at h
  by_cases hor : name = "or"
  · rw [if_pos hor] at h
    cases json with
    | arr items =>
        obtain ⟨read, hread, rfl⟩ := Checked.map_eq_ok h
        exact List.forall_mem_singleton.mpr (.any (fits_of_readItems hread))
    | null | bool | num | str | obj => cases h
  rw [if_neg hor] at h
  by_cases hnot : name = "not"
  · rw [if_pos hnot] at h
    split at h
    · obtain ⟨read, hread, rfl⟩ := Checked.map_eq_ok h
      exact List.forall_mem_singleton.mpr (.not (fits_of_read hread))
    · cases h
    · obtain ⟨read, hread, rfl⟩ := Checked.map_eq_ok h
      exact List.forall_mem_singleton.mpr (.not (fits_of_read hread))
  rw [if_neg hnot] at h
  have hname : name ∉ combinators := not_mem_combinators.mpr ⟨hand, hor, hnot⟩
  split at h
  · cases h
  · rename_i hfield
    obtain ⟨read, hread, rfl⟩ := Checked.map_eq_ok h
    exact List.forall_mem_singleton.mpr (.related hname hfield (fits_of_read hread))
  · rename_i hfield
    split at h
    · exact fits_of_readPredicates hname hfield h
    · cases h
termination_by (sizeOf json, 1)

theorem fits_of_readItems {type : FilterType} {path : String} {index : Nat} {items : List Json}
    {filters : List Filter} (h : readItems type path index items = .ok filters) :
    ∀ filter ∈ filters, Fits type filter := by
  match items with
  | [] =>
      obtain rfl : [] = filters := Except.ok.inj h
      simp
  | item :: items =>
      obtain ⟨first, others, hfirst, hrest, rfl⟩ := Checked.both_eq_ok_iff.mp h
      exact List.forall_mem_cons.mpr ⟨fits_of_read hfirst, fits_of_readItems hrest⟩
termination_by (sizeOf items, 0)

end

end Filter

end ModelSurface
