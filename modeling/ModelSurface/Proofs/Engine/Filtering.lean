import ModelSurface.Proofs.Engine.Conformity
import ModelSurface.Proofs.Filter.Grammar
import ModelSurface.Proofs.Filter.Listed
import ModelSurface.Proofs.Filter.RoundTrip
import ModelSurface.Proofs.Scalar.Measures

/-!
# Filters where they are evaluated

A filter is read against a type that is generated from the models, and evaluated on stored records,
whichever ones the relations lead to. Both go along the same relationships: a predicate is only met
on records that have the field, with a value that it can be decided for.
-/

namespace ModelSurface

/-! ### Operands of the form that an operator takes -/

namespace Operand

def form : Operand → Form
  | .value _ => .value
  | .values _ => .values
  | .range _ _ => .range
  | .flag _ => .flag

variable {kind : Kind} {list : Bool} {op : FilterOp} {operand : Operand}

theorem Suits.form_eq (h : operand.Suits kind list op) : operand.form = op.form := by
  cases h with
  | flag | range => rfl
  | values hop => rcases hop with rfl | rfl <;> rfl
  | value hop => cases op <;> first | rfl | exact absurd (by decide) hop

theorem Suits.comparable (h : operand.Suits kind list op) :
    ∀ value ∈ operand.held, value.Comparable kind list := by
  cases h with
  | flag => exact fun _ hmem => absurd hmem List.not_mem_nil
  | values _ hvalues => exact hvalues
  | range hlow hhigh =>
      exact List.forall_mem_cons.mpr ⟨hlow, List.forall_mem_singleton.mpr hhigh⟩
  | value _ hvalue => exact List.forall_mem_singleton.mpr hvalue

end Operand

namespace Filter

/-- What a predicate says of a value, with no answer where the operand does not have the form that
the operator takes. -/
def answer? (value : Value) : FilterOp → Operand → Option Bool
  | .isNull, .flag flag => some (value.isNull == flag)
  | .isIn, .values operands => some (operands.any fun operand => operand.same value)
  | .notIn, .values operands => some (!operands.any fun operand => operand.same value)
  | .range, .range low high => some (isAtLeast value low && isAtMost value high)
  | .eq, .value operand => some (value.same operand)
  | .ne, .value operand => some (!value.same operand)
  | .lt, .value operand => some (isBelow value operand)
  | .lte, .value operand => some (isAtMost value operand)
  | .gt, .value operand => some (isAbove value operand)
  | .gte, .value operand => some (isAtLeast value operand)
  | op, .value operand =>
    if op.isText then
      some (match value.str?, operand.str? with
        | some text, some needle => textMatches op text.toList needle.toList
        | _, _ => false)
    else none
  | _, _ => none

/-- Evaluation takes no answer for a denial. -/
theorem leafMatches_eq (value : Value) (op : FilterOp) (operand : Operand) :
    leafMatches value op operand = (answer? value op operand).getD false := by
  cases operand with
  | value operand =>
      cases op with
      | isIn | notIn | range | isNull =>
          change (match value.str?, operand.str? with
            | some text, some needle => textMatches _ text.toList needle.toList
            | _, _ => false) = false
          split <;> rfl
      | eq | ne | lt | lte | gt | gte | contains | icontains | startsWith | istartsWith | endsWith
      | iendsWith | iexact => rfl
  | values | range | flag => cases op <;> rfl

theorem answer?_of_form {op : FilterOp} {operand : Operand} (h : operand.form = op.form)
    (value : Value) : answer? value op operand = some (leafMatches value op operand) := by
  have hsome : (answer? value op operand).isSome = true := by
    revert h
    cases operand <;> cases op <;> simp [answer?, Operand.form, FilterOp.form, FilterOp.isText]
  obtain ⟨answer, hanswer⟩ := Option.isSome_iff_exists.mp hsome
  rw [leafMatches_eq, hanswer, Option.getD_some]

end Filter

/-! ### Values that can be compared -/

namespace FilterOp

variable {op : FilterOp} {kind : Kind} {list nullable : Bool}

/-- The operators that compare a value with bounds. -/
def bounding : List FilterOp := [.lt, .lte, .gt, .gte, .range]

theorem orderable_of_bounding (hop : op ∈ forField kind list nullable) (hbounding : op ∈ bounding) :
    list = false ∧ kind.isOrderable = true := by
  have hplain : op ∉ [.eq, .ne, .isIn, .notIn] ∧ op ∉ all.filter isText ∧ op ∉ [.isNull] := by
    cases op <;> first | decide | exact absurd hbounding (by decide)
  unfold forField at hop
  simp only [List.mem_append] at hop
  rcases hop with ((hop | hop) | hop) | hop
  · exact absurd hop hplain.1
  · split at hop
    · rename_i hcond
      simpa only [Bool.and_eq_true, Bool.not_eq_true'] using hcond
    · exact absurd hop List.not_mem_nil
  · split at hop
    · exact absurd hop hplain.2.1
    · exact absurd hop List.not_mem_nil
  · split at hop
    · exact absurd hop hplain.2.2
    · exact absurd hop List.not_mem_nil

end FilterOp

/-! ### Predicates on fields -/

/-- A predicate on a field can be decided of a value: the field has the operator, the operand is one
for it, and there is an answer. Bounds compare with the value unless it is null. -/
structure Field.Decides (field : Field) (value : Value) (op : FilterOp) (operand : Operand) :
    Prop where
  operator : op ∈ FilterOp.forField field.kind field.list field.nullable
  form : operand.form = op.form
  comparable : ∀ bound ∈ operand.held, bound.Comparable field.kind field.list
  answered : Filter.answer? value op operand = some (Filter.leafMatches value op operand)
  compared : op ∈ FilterOp.bounding → ∀ bound ∈ operand.held,
    value.compare? bound = none → value = .null

theorem Field.Admits.decides {field : Field} {value : Value} (h : field.Admits value)
    {op : FilterOp} (hop : op ∈ FilterOp.forField field.kind field.list field.nullable)
    {operand : Operand} (hoperand : operand.Suits field.kind field.list op) :
    field.Decides value op operand where
  operator := hop
  form := hoperand.form_eq
  comparable := hoperand.comparable
  answered := Filter.answer?_of_form hoperand.form_eq value
  compared hbounding bound hbound hnone := by
    obtain ⟨hsingle, hkind⟩ := FilterOp.orderable_of_bounding hop hbounding
    obtain ⟨hbound_fits, hbound_given⟩ := hoperand.comparable bound hbound
    have hvalue_fits := h.fits
    rw [hsingle] at hvalue_fits hbound_fits
    by_contra hgiven
    have hvalue_given : value.isNull = false := by
      cases value <;> first | rfl | exact absurd rfl hgiven
    obtain ⟨order, horder, -⟩ := Value.exists_compare? hkind
      (Value.isOf_of_fits hvalue_fits hvalue_given) (Value.isOf_of_fits hbound_fits hbound_given)
    rw [hnone] at horder
    cases horder

/-- A record is stored for a model, and the model has a field of which a predicate can be decided
with the value that the record has there. -/
def Tables.Decide (schema : Schema) (tables : Tables) (name : String) (record : Record)
    (field : String) (op : FilterOp) (operand : Operand) : Prop :=
  ∃ model ∈ schema.models, model.name = name ∧ (∃ id, tables.get? name id = some record) ∧
    ∃ described ∈ model.fields.values, described.name = field ∧
      ∃ value, record.get? field = some value ∧ described.Decides value op operand

/-! ### What is met on the way -/

namespace Filter

/-- A predicate is met where a filter is evaluated on a record of a model: on a record of the model
of the given name, which may be that record or one that relations lead to. -/
inductive Meets (related : RelatedRecords) (name : String) (met : Record) (field : String)
    (op : FilterOp) (operand : Operand) : String → Record → Filter → Prop
  | leaf : Meets related name met field op operand name met (.leaf field op operand)
  | related {model relation target : String} {record other : Record} {filter : Filter}
      (hother : other ∈ related model record relation)
      (h : Meets related name met field op operand target other filter) :
      Meets related name met field op operand model record (.related relation target filter)
  | all {model : String} {record : Record} {filters : List Filter} {filter : Filter}
      (hmem : filter ∈ filters) (h : Meets related name met field op operand model record filter) :
      Meets related name met field op operand model record (.all filters)
  | any {model : String} {record : Record} {filters : List Filter} {filter : Filter}
      (hmem : filter ∈ filters) (h : Meets related name met field op operand model record filter) :
      Meets related name met field op operand model record (.any filters)
  | not {model : String} {record : Record} {filter : Filter}
      (h : Meets related name met field op operand model record filter) :
      Meets related name met field op operand model record (.not filter)

mutual

/-- Evaluation that passes over nothing: it gives no answer where a record lacks a field that is
asked for, or where a predicate has no answer. -/
def holds? (related : RelatedRecords) (model : String) (record : Record) : Filter → Option Bool
  | .leaf field op operand => (record.get? field).bind fun value => answer? value op operand
  | .related relation target filter =>
    ((related model record relation).mapM fun other => holds? related target other filter).map
      (·.any id)
  | .all filters => (answers? related model record filters).map (·.all id)
  | .any filters => (answers? related model record filters).map (·.any id)
  | .not filter => (holds? related model record filter).map (!·)

def answers? (related : RelatedRecords) (model : String) (record : Record) :
    List Filter → Option (List Bool)
  | [] => some []
  | filter :: filters => do
    let answer ← holds? related model record filter
    let answers ← answers? related model record filters
    some (answer :: answers)

end

/-- Every predicate that is met on the way is asked of a field that the record has, and answered. -/
def Answered (related : RelatedRecords) (model : String) (record : Record) (filter : Filter) :
    Prop :=
  ∀ name met field op operand, Meets related name met field op operand model record filter →
    ∃ value, met.get? field = some value ∧
      answer? value op operand = some (leafMatches value op operand)

theorem mapM_eq_some {α β : Type} {f : α → Option β} {g : α → β} {items : List α}
    (h : ∀ item ∈ items, f item = some (g item)) : items.mapM f = some (items.map g) := by
  induction items with
  | nil => rfl
  | cons item items ih =>
      obtain ⟨hfirst, hrest⟩ := List.forall_mem_cons.mp h
      rw [List.mapM_cons, hfirst, ih hrest]
      rfl

variable {related : RelatedRecords}

mutual

/-- Where every predicate is answered, evaluation passes over nothing. -/
theorem Answered.holds?_eq {model : String} {record : Record} {filter : Filter}
    (h : Answered related model record filter) :
    holds? related model record filter = some (holds related model record filter) := by
  cases filter with
  | leaf field op operand =>
      obtain ⟨value, hvalue, hanswer⟩ := h _ _ _ _ _ .leaf
      rw [holds?, holds, hvalue, Option.bind_some, Option.getD_some, hanswer]
  | related relation target filter =>
      have hothers : ∀ other ∈ related model record relation,
          holds? related target other filter = some (holds related target other filter) := by
        intro other hother
        have hanswered : Answered related target other filter := fun _ _ _ _ _ hmeets =>
          h _ _ _ _ _ (.related hother hmeets)
        exact hanswered.holds?_eq
      rw [holds?, holds, mapM_eq_some hothers, Option.map_some, List.any_map]
      rfl
  | all filters =>
      have hanswers := answers?_eq fun filter hmem _ _ _ _ _ hmeets =>
        h _ _ _ _ _ (.all hmem hmeets)
      rw [holds?, holds, hanswers.1, Option.map_some, ← hanswers.2.1]
  | any filters =>
      have hanswers := answers?_eq fun filter hmem _ _ _ _ _ hmeets =>
        h _ _ _ _ _ (.any hmem hmeets)
      rw [holds?, holds, hanswers.1, Option.map_some, ← hanswers.2.2]
  | not filter =>
      have hanswered : Answered related model record filter := fun _ _ _ _ _ hmeets =>
        h _ _ _ _ _ (.not hmeets)
      rw [holds?, holds, hanswered.holds?_eq, Option.map_some]

theorem answers?_eq {model : String} {record : Record} {filters : List Filter}
    (h : ∀ filter ∈ filters, Answered related model record filter) :
    answers? related model record filters = some (filters.map (holds related model record)) ∧
      allHold related model record filters = (filters.map (holds related model record)).all id ∧
        anyHolds related model record filters =
          (filters.map (holds related model record)).any id := by
  match filters with
  | [] => exact ⟨rfl, rfl, rfl⟩
  | filter :: filters =>
      obtain ⟨hfirst, hrest⟩ := List.forall_mem_cons.mp h
      have hanswer := hfirst.holds?_eq
      obtain ⟨hanswers, hall, hany⟩ := answers?_eq hrest
      refine ⟨?_, ?_, ?_⟩
      · rw [answers?, hanswer, hanswers]
        rfl
      · rw [allHold, hall]
        rfl
      · rw [anyHolds, hany]
        rfl

end

end Filter

/-! ### Fields of filter types -/

namespace FilterType

variable {type : FilterType} {name : String}

theorem mem_of_field? {field : FilterField} (h : type.field? name = some field) :
    field ∈ type.fields ∧ field.name = name := by
  have hname := List.find?_some h
  exact ⟨List.mem_of_find?_eq_some h, beq_iff_eq.mp hname⟩

/-- A scalar field of a filter type is a field of its model. -/
theorem scalar_of_field? {field : String} {kind : Kind} {list nullable : Bool}
    (h : type.field? name = some (.scalar field kind list nullable)) :
    ∃ described ∈ type.model.fields.values, described.name = name ∧ described.kind = kind ∧
      described.list = list ∧ described.nullable = nullable := by
  obtain ⟨hfields, hname⟩ := mem_of_field? h
  obtain hfield | hrelation := List.mem_append.mp hfields
  · obtain ⟨described, hmem, heq⟩ := List.mem_map.mp hfield
    obtain ⟨rfl, rfl, rfl, rfl⟩ := FilterField.scalar.inj heq
    exact ⟨described, hmem, hname, rfl, rfl, rfl⟩
  · obtain ⟨entry, -, heq⟩ := List.mem_map.mp hrelation
    cases heq

/-- A relation of a filter type is a relationship of its model, and is filtered as its target. -/
theorem relation_of_field? {relation target : String} {many : Bool} {inner : FilterType}
    (h : type.field? name = some (.relation relation target many inner)) :
    ∃ relationship, (relationship, inner) ∈ type.relations ∧ relationship.name = name ∧
      relationship.target = target := by
  obtain ⟨hfields, hname⟩ := mem_of_field? h
  obtain hfield | hrelation := List.mem_append.mp hfields
  · obtain ⟨described, -, heq⟩ := List.mem_map.mp hfield
    cases heq
  · obtain ⟨⟨relationship, filter⟩, hmem, heq⟩ := List.mem_map.mp hrelation
    obtain ⟨rfl, rfl, -, rfl⟩ := FilterField.relation.inj heq
    exact ⟨relationship, hmem, hname, rfl⟩

end FilterType

namespace Tables

variable {schema : Schema} {tables : Tables}

/-- Related records are stored for the target of their relationship. -/
theorem stored_of_related (hsound : schema.Sound) {model : Model} (hmodel : model ∈ schema.models)
    {relationship : Relationship} (hmem : relationship ∈ model.relationships.values)
    {record other : Record}
    (hother : other ∈ tables.related schema model.name record relationship.name) :
    ∃ id, tables.get? relationship.target id = some other := by
  have hdescriptor := (Option.filter_eq_some_iff.mp (hsound.model?_eq_some.mpr ⟨hmodel, rfl⟩)).1
  have hrelationship := (hsound.model model hmodel).relationship?_eq_some.mpr ⟨hmem, rfl⟩
  unfold related at hother
  rw [hdescriptor] at hother
  dsimp only at hother
  rw [hrelationship] at hother
  dsimp only at hother
  split at hother
  · obtain ⟨id, -, hid⟩ := List.mem_filterMap.mp hother
    exact ⟨id, hid⟩
  · split at hother
    · exact absurd hother List.not_mem_nil
    · exact mem_scan.mp (List.mem_of_mem_filter hother)

end Tables

namespace Filter

variable {schema : Schema} {tables : Tables}

/-- Where records conform to their models, filters of stored records meet predicates that can be
decided. -/
theorem Fits.decide (hsound : schema.Sound) (hconform : tables.Conform schema) {name model : String}
    {met record : Record} {field : String} {op : FilterOp} {operand : Operand} {filter : Filter}
    (hmeets : Meets (tables.related schema) name met field op operand model record filter)
    {type : FilterType} (hwithin : type.Within schema) (hmodel : type.model.name = model)
    (hfits : Fits type filter) {id : Identity} (hrecord : tables.get? model id = some record) :
    tables.Decide schema name met field op operand := by
  -- along the filter, as it is evaluated, and the filter type with it
  induction hmeets generalizing type id with
  | leaf =>
      cases hfits with
      | leaf _ hfield hop hoperand =>
          obtain ⟨described, hmem, rfl, rfl, rfl, rfl⟩ := FilterType.scalar_of_field? hfield
          obtain rfl := hmodel
          obtain ⟨value, hvalue, hadmits⟩ :=
            (hconform _ hwithin.model id met hrecord).fields described hmem
          exact ⟨type.model, hwithin.model, rfl, ⟨id, hrecord⟩, described, hmem, rfl, value, hvalue,
            hadmits.decides hop hoperand⟩
  | related hother _ ih =>
      cases hfits with
      | related _ hfield hfilter =>
          obtain ⟨relationship, hrelation, rfl, rfl⟩ := FilterType.relation_of_field? hfield
          obtain rfl := hmodel
          obtain ⟨hmem, remaining, target, -, htarget, hinner⟩ :=
            FilterType.mem_relations.mp hrelation
          rw [hwithin.target?] at htarget
          obtain ⟨next, hnext⟩ := Tables.stored_of_related hsound hwithin.model hmem hother
          refine ih (hwithin.relation hsound hrelation) ?_ hfilter hnext
          rw [hinner]
          exact (hsound.model?_eq_some.mp htarget).2
  | all hmem _ ih =>
      cases hfits with
      | all hfilters => exact ih hwithin hmodel (hfilters _ hmem) hrecord
  | any hmem _ ih =>
      cases hfits with
      | any hfilters => exact ih hwithin hmodel (hfilters _ hmem) hrecord
  | not _ ih =>
      cases hfits with
      | not hfilter => exact ih hwithin hmodel hfilter hrecord

end Filter

namespace Engine

variable {engine : Engine}

/-- A filter that is accepted for a model is evaluated on its stored records, in every store that
calls lead to, without a predicate that cannot be decided: whichever records the relations lead to,
they have the fields that are asked for, with values for the operators and operands. -/
theorem filters_decide {registry : Registry} {store : Store}
    (hschema : registry.schema = .ok engine.schema)
    (hhandlers : ∀ entry ∈ engine.handlers, Handler.WritesBySet entry.2)
    (hstore : engine.Reachable store) {model : Model} (hmodel : model ∈ engine.schema.models)
    {json : Json} {filter : Filter}
    (hread : Filter.ofJson (engine.schema.filter model) json = .ok filter) {id : Identity}
    {record : Record} (hrecord : store.tables.get? model.name id = some record) :
    let related := store.tables.related engine.schema
    (∀ name met field op operand,
      Filter.Meets related name met field op operand model.name record filter →
        store.tables.Decide engine.schema name met field op operand) ∧
      Filter.holds? related model.name record filter =
        some (Filter.holds related model.name record filter) := by
  intro related
  have hconform := records_conform hschema hhandlers hstore
  have hdecide : ∀ name met field op operand,
      Filter.Meets related name met field op operand model.name record filter →
        store.tables.Decide engine.schema name met field op operand :=
    fun name met field op operand hmeets =>
      Filter.Fits.decide (Registry.sound_schema hschema) hconform hmeets ⟨hmodel, rfl⟩ rfl
        (Filter.fits_of_read hread) hrecord
  refine ⟨hdecide, Filter.Answered.holds?_eq fun name met field op operand hmeets => ?_⟩
  obtain ⟨_, -, -, -, _, -, -, value, hvalue, hdecides⟩ := hdecide _ _ _ _ _ hmeets
  exact ⟨value, hvalue, hdecides.answered⟩

/-- A filter is followed from the second of two nodes to the first one. -/
theorem filters_decide_pair :
    let store := (chainEngine.call {} {} (.create "Node" pairInput)).1
    let related := store.tables.related chainSchema
    let json : Json := .obj [("next", .obj [("id", .obj [("gt", .num (.int 0))])])]
    ∃ model ∈ chainSchema.models, ∃ filter record,
      Filter.ofJson (chainSchema.filter model) json = .ok filter ∧
        store.tables.get? model.name (.int 2) = some record ∧
        Filter.holds related model.name record filter = true ∧
        Filter.holds? related model.name record filter = some true := by
  intro store related json
  have hholds : ∃ model ∈ chainSchema.models,
      (Filter.ofJson (chainSchema.filter model) json).value?.any (fun filter =>
        (store.tables.get? model.name (.int 2)).any fun record =>
          Filter.holds related model.name record filter) = true := by
    change ∃ model ∈ chainSchema.models,
      (Filter.ofJson (chainSchema.filter model) json).value?.any (fun filter =>
        ((chainEngine.runOne {} "Node" .create pairInput {}).1.tables.get? model.name (.int 2)).any
          fun record => Filter.holds
            ((chainEngine.runOne {} "Node" .create pairInput {}).1.tables.related chainSchema)
            model.name record filter) = true
    rw [create_pairInput]
    decide +kernel
  obtain ⟨model, hmodel, hfilters⟩ := hholds
  obtain ⟨filter, hfilter, hrecords⟩ := (Option.any_eq_true _ _).mp hfilters
  obtain ⟨record, hrecord, hrecord_holds⟩ := (Option.any_eq_true _ _).mp hrecords
  have hread := Checked.value?_eq_some.mp hfilter
  have hreachable : chainEngine.Reachable store := .call {} _ (.empty [] 0)
  have hdecided := filters_decide schema_chainRegistry
    (fun entry hentry => absurd hentry List.not_mem_nil) hreachable hmodel hread hrecord
  exact ⟨model, hmodel, filter, record, hread, hrecord, hrecord_holds,
    hdecided.2.trans (congrArg some hrecord_holds)⟩

end Engine

end ModelSurface
