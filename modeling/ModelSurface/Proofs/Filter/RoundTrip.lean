import ModelSurface.Proofs.Filter.Shape

/-!
# Filters are read back

A filter is written in one form, whatever the form in which its caller wrote it. That form is read
as the same filter again, as long as the values that the filter compares with are read back.
-/

namespace ModelSurface

/-- Whether what a value is written as is read as the same value again. -/
def Value.isReadBack (kind : Kind) (list : Bool) (value : Value) : Bool :=
  match Value.ofJson kind list value.toJson with
  | .ok again => again.same value
  | .error _ => false

theorem Value.isReadBack_iff {kind : Kind} {list : Bool} {value : Value} :
    value.isReadBack kind list = true ↔
      ∃ again, Value.ofJson kind list value.toJson = .ok again ∧ again.same value = true := by
  unfold isReadBack
  split
  · rename_i again hread
    simp [hread]
  · rename_i fault hread
    simp [hread]

namespace Operand

/-- The values that an operand holds. -/
def held : Operand → List Value
  | .value v => [v]
  | .values vs => vs
  | .range low high => [low, high]
  | .flag _ => []

theorem readValue_toJson {kind : Kind} {list : Bool} {value : Value}
    (hback : value.isReadBack kind list = true) (hvalue : value.Comparable kind list) :
    ∃ again, readValue kind list value.toJson = .ok again ∧ again.same value = true := by
  obtain ⟨again, hread, hsame⟩ := Value.isReadBack_iff.mp hback
  refine ⟨again, ?_, hsame⟩
  unfold readValue
  split
  · rename_i hnull
    -- null is read as null, which is the same as no other value
    unfold Value.ofJson at hread
    rw [if_pos hnull] at hread
    obtain rfl : Value.null = again := Except.ok.inj hread
    cases value with
    | null => cases hvalue.given
    | _ => cases hsame
  · rw [hread]

theorem mapM_readValue_toJson {kind : Kind} {list : Bool} {values : List Value}
    (hback : ∀ value ∈ values, value.isReadBack kind list = true)
    (hvalues : ∀ value ∈ values, value.Comparable kind list) :
    ∃ again, (values.map Value.toJson).mapM (readValue kind list) = .ok again ∧
      Value.sameItems again values = true := by
  induction values with
  | nil => exact ⟨[], rfl, rfl⟩
  | cons value values ih =>
      obtain ⟨hfirst, hrest⟩ := List.forall_mem_cons.mp hback
      obtain ⟨hvalue, hothers⟩ := List.forall_mem_cons.mp hvalues
      obtain ⟨first, hread, hsame⟩ := readValue_toJson hfirst hvalue
      obtain ⟨rest, hreads, hsames⟩ := ih hrest hothers
      refine ⟨first :: rest, ?_, by simp [Value.sameItems, hsame, hsames]⟩
      rw [List.map_cons, List.mapM_cons, hread, hreads]
      rfl

theorem read_single_eq {op : FilterOp} (hop : op ∉ [.isNull, .isIn, .notIn, .range]) (kind : Kind)
    (list : Bool) (json : Json) :
    read op kind list json = ((readValue kind list json).map value : Except FilterFault Operand) := by
  cases op <;> first | rfl | exact absurd (by decide) hop

/-- An operand is read back for the operator for which it was read. -/
theorem read_toJson {op : FilterOp} {kind : Kind} {list : Bool} {operand : Operand}
    (hsuits : operand.Suits kind list op)
    (hback : ∀ value ∈ operand.held, value.isReadBack kind list = true) :
    ∃ again, read op kind list operand.toJson = .ok again ∧ again.same operand = true := by
  cases hsuits with
  | flag flag => exact ⟨.flag flag, rfl, beq_self_eq_true flag⟩
  | @values op operands hop hvalues =>
      obtain ⟨again, hread, hsame⟩ := @mapM_readValue_toJson kind list operands hback hvalues
      refine ⟨.values again, ?_, hsame⟩
      have hmap : ((operands.map Value.toJson).mapM (readValue kind list)).map Operand.values =
          .ok (.values again) := by
        rw [hread]
        rfl
      rcases hop with rfl | rfl <;> exact hmap
  | range hlow hhigh =>
      obtain ⟨least, hleast, hlowSame⟩ := readValue_toJson (hback _ (by simp [held])) hlow
      obtain ⟨greatest, hgreatest, hhighSame⟩ := readValue_toJson (hback _ (by simp [held])) hhigh
      refine ⟨.range least greatest, ?_, by simp [same, hlowSame, hhighSame]⟩
      unfold read toJson
      dsimp only
      rw [hleast, hgreatest]
      rfl
  | value hop hvalue =>
      obtain ⟨again, hread, hsame⟩ := readValue_toJson (hback _ (by simp [held])) hvalue
      refine ⟨.value again, ?_, hsame⟩
      rw [read_single_eq hop, toJson, hread]
      rfl

end Operand

namespace Filter

mutual

/-- Whether every value that a filter compares with is read back for the field with which it is
compared. -/
def isReadBack (type : FilterType) : Filter → Bool
  | .leaf field _ operand =>
    match type.field? field with
    | some (.scalar _ kind list _) => operand.held.all fun value => value.isReadBack kind list
    | _ => true
  | .related relation _ filter =>
    match type.field? relation with
    | some (.relation _ _ _ inner) => isReadBack inner filter
    | _ => true
  | .all filters => areReadBack type filters
  | .any filters => areReadBack type filters
  | .not filter => isReadBack type filter

def areReadBack (type : FilterType) : List Filter → Bool
  | [] => true
  | filter :: filters => isReadBack type filter && areReadBack type filters

end

theorem areReadBack_iff {type : FilterType} {filters : List Filter} :
    areReadBack type filters = true ↔ ∀ filter ∈ filters, isReadBack type filter = true := by
  induction filters with
  | nil => simp [areReadBack]
  | cons filter filters ih => simp [areReadBack, ih]

theorem readItems_toJson {type : FilterType} {filters : List Filter}
    (hback : ∀ filter ∈ filters, ∀ path, ∃ again,
      read type path filter.toJson = .ok again ∧ again.same filter = true)
    (path : String) (index : Nat) :
    ∃ again, readItems type path index (listToJson filters) = .ok again ∧
      sameList again filters = true := by
  induction filters generalizing index with
  | nil => exact ⟨[], rfl, rfl⟩
  | cons filter filters ih =>
      obtain ⟨hfirst, hrest⟩ := List.forall_mem_cons.mp hback
      obtain ⟨first, hread, hsame⟩ := hfirst s!"{path}[{index}]"
      obtain ⟨rest, hreads, hsames⟩ := ih hrest (index + 1)
      refine ⟨first :: rest, ?_, by simp [sameList, hsame, hsames]⟩
      rw [listToJson, readItems, hread, hreads]
      rfl

theorem readMember_all {type : FilterType} {path : String} {items : List Json}
    {filters : List Filter} (h : readItems type path 0 items = .ok filters) :
    readMember type path "and" (.arr items) = .ok [.all filters] := by
  change ((readItems type path 0 items).map fun filters => [Filter.all filters]) = _
  rw [h]
  rfl

theorem readMember_any {type : FilterType} {path : String} {items : List Json}
    {filters : List Filter} (h : readItems type path 0 items = .ok filters) :
    readMember type path "or" (.arr items) = .ok [.any filters] := by
  change ((readItems type path 0 items).map fun filters => [Filter.any filters]) = _
  rw [h]
  rfl

theorem readMember_not {type : FilterType} {path : String} {members : List (String × Json)}
    {filter : Filter} (h : read type path (.obj members) = .ok filter) :
    readMember type path "not" (.obj members) = .ok [.not filter] := by
  change ((read type path (.obj members)).map fun filter => [Filter.not filter]) = _
  rw [h]
  rfl

theorem read_of_readMember {type : FilterType} {path name : String} {json : Json}
    {filter : Filter} (h : readMember type s!"{path}.{name}" name json = .ok [filter]) :
    read type path (Json.object [(name, json)]) = .ok filter := by
  rw [read_member, h]
  rfl

theorem toJson_eq_obj (filter : Filter) : ∃ members, filter.toJson = .obj members := by
  cases filter <;> exact ⟨_, rfl⟩

/-- What fits a type is written in a form that is read as the same filter. -/
theorem Fits.read_toJson {type : FilterType} {filter : Filter} (hfits : Fits type filter)
    (hback : isReadBack type filter = true) (path : String) :
    ∃ again, read type path filter.toJson = .ok again ∧ again.same filter = true := by
  induction hfits generalizing path with
  | leaf hname hfield hop hoperand =>
      rw [isReadBack, hfield] at hback
      have hvalues := List.all_eq_true.mp hback
      obtain ⟨again, hread, hsame⟩ := Operand.read_toJson hoperand hvalues
      exact ⟨_, read_leaf hname hfield hop hread path, by simp [same, hsame]⟩
  | related hname hfield _ ih =>
      rw [isReadBack, hfield] at hback
      obtain ⟨again, hread, hsame⟩ := ih hback _
      exact ⟨_, read_related hname hfield path hread, by simp [same, hsame]⟩
  | all _ ih =>
      rw [isReadBack, areReadBack_iff] at hback
      have hall := fun filter hmem path => ih filter hmem (hback filter hmem) path
      obtain ⟨again, hread, hsame⟩ := readItems_toJson hall _ 0
      exact ⟨.all again, read_of_readMember (readMember_all hread), hsame⟩
  | any _ ih =>
      rw [isReadBack, areReadBack_iff] at hback
      have hall := fun filter hmem path => ih filter hmem (hback filter hmem) path
      obtain ⟨again, hread, hsame⟩ := readItems_toJson hall _ 0
      exact ⟨.any again, read_of_readMember (readMember_any hread), hsame⟩
  | @not type filter _ ih =>
      rw [isReadBack] at hback
      -- a negated list would be read as its only item, but no filter is written as a list
      obtain ⟨members, hmembers⟩ := toJson_eq_obj filter
      obtain ⟨again, hread, hsame⟩ := ih hback _
      rw [hmembers] at hread
      refine ⟨.not again, ?_, hsame⟩
      rw [toJson, hmembers]
      exact read_of_readMember (readMember_not hread)

/-- What was read is written in a form that is read as the same filter, whatever combinations of
filters it holds, as long as its values are read back. -/
theorem ofJson_toJson {type : FilterType} {json : Json} {filter : Filter}
    (hread : ofJson type json = .ok filter) (hback : isReadBack type filter = true) :
    ∃ again, ofJson type filter.toJson = .ok again ∧ again.same filter = true :=
  (fits_of_read hread).read_toJson hback "filter"

theorem ofJson_toJson_chain : ∃ model ∈ chainSchema.models, ∃ filter,
    ofJson (chainSchema.filter model) chainExpression = .ok filter ∧
      isReadBack (chainSchema.filter model) filter = true ∧
      ∃ again, ofJson (chainSchema.filter model) filter.toJson = .ok again ∧
        again.same filter = true := by
  have hread : ∃ model ∈ chainSchema.models,
      (ofJson (chainSchema.filter model) chainExpression).value?.any
        (isReadBack (chainSchema.filter model)) = true := by
    decide +kernel
  obtain ⟨model, hmodel, hany⟩ := hread
  obtain ⟨filter, hfilter, hback⟩ := Option.any_eq_true _ _ |>.mp hany
  have hok := Checked.value?_eq_some.mp hfilter
  exact ⟨model, hmodel, filter, hok, hback, ofJson_toJson hok hback⟩

end Filter

end ModelSurface
