import ModelSurface.Proofs.Write.Adding

/-!
# Inputs that conform

What an input must be like to be planned, told by its objects. Each object has members that its
input type allows, and all that it must have; labels belong to one object each; what refers to a
label refers to an object that carries it; and each reference that must not be null is given, by
its own object, by the one around it, or from its far side.
-/

namespace ModelSurface

/-! ### Single objects -/

/-- What a relationship to a target takes as one item: nothing, where it is a single reference, the
identity of a stored record, a reference to a labelled object, or an object to create. -/
inductive Relationship.Takes (relationship : Relationship) (target : Model) : Json → Prop
  | nothing (h : relationship.isForeignKey = true) : Takes relationship target .null
  | identity {json : Json} {id : Identity}
      (h : Identity.ofJson target.identity.kind json = .ok id) : Takes relationship target json
  | labelled (label : String) :
      Takes relationship target (.obj [(InputEntry.referenceKey, .str label)])
  | object {members : List (String × Json)}
      (h : members.lookup InputEntry.referenceKey = none) : Takes relationship target (.obj members)

/-- A relationship takes all that it is given: a list where it leads to many records, else one
item. -/
def Relationship.TakesAll (relationship : Relationship) (schema : Schema) (json : Json) : Prop :=
  ∃ target items, schema.model? relationship.target = some target ∧
    relationship.items? json = some items ∧ ∀ item ∈ items, relationship.Takes target item

namespace InputObject

/-- A member that an object may have: a field of its input type, not the relationship that the
enclosing object sets, null only where the field accepts it, and with a value that can be read. -/
def Allows (object : InputObject) (schema : Schema) (name : String) (json : Json) : Prop :=
  ∃ field, object.type.field? name = some field ∧ object.linkedBy ≠ some name ∧
    (json.isNull = true → field.acceptsNull = true) ∧
    match field.shape with
    | .scalar kind list => ∃ value, Value.ofJson kind list json = .ok value
    | .relation _ => ∃ relationship, object.model.relationship? name = some relationship ∧
        relationship.TakesAll schema json

/-- A member that is no field of an object: its label, and the identity that an update names. -/
def Apart (object : InputObject) (name : String) : Prop :=
  name = InputEntry.labelKey ∨
    (object.type.kind = .update ∧ name = object.model.identity.name)

/-- An object whose own members are as they must be. Its label is a string, and only an object to
create has one; and such an object has all values that it must have. -/
structure WellFormed (object : InputObject) (schema : Schema) : Prop where
  members : ∀ name json, (name, json) ∈ object.members → ¬ object.Apart name →
    object.Allows schema name json
  label : ∀ json, object.members.lookup InputEntry.labelKey = some json →
    object.action = .create ∧ ∃ label, json = .str label
  required : object.action = .create → ∀ field ∈ object.type.fields, field.required = true →
    ∀ kind list, field.shape = .scalar kind list → (object.members.lookup field.name).isSome

/-- An object gives an item under one of its relationships. -/
def Gives (object : InputObject) (schema : Schema) (relationship : Relationship) (target : Model)
    (item : Json) : Prop :=
  ∃ name json items, (name, json) ∈ object.members ∧
    object.model.relationship? name = some relationship ∧
    schema.model? relationship.target = some target ∧ relationship.items? json = some items ∧
    item ∈ items

/-- An object refers to a label under one of its relationships. -/
def Refers (object : InputObject) (schema : Schema) (relationship : Relationship) (target : Model)
    (label : String) : Prop :=
  object.Gives schema relationship target (.obj [(InputEntry.referenceKey, .str label)])

/-- A reference of an object is given: by the object, by the one around it, or from its far side,
by one that refers to the label of this object. -/
def Given (object : InputObject) (schema : Schema) (objects : List InputObject) (name : String) :
    Prop :=
  (object.members.lookup name).isSome ∨ object.linkedBy = some name ∨
    ∃ other ∈ objects, ∃ reverse label, other.Refers schema reverse object.model label ∧
      reverse.ownership = .remote name ∧ object.label? = some label

end InputObject

/-! ### Whole inputs -/

/-- An input is an object, and if it is to update, it names the record to update. -/
def Model.Identifies (model : Model) (kind : InputKind) (input : Json) : Prop :=
  ∃ members, input = .obj members ∧ (kind = .update → ∃ json id,
    members.lookup model.identity.name = some json ∧
      Identity.ofJson model.identity.kind json = .ok id)

/-- An input that conforms to the input type of a model. Each condition is one on all objects of the
input; those that its objects give as objects to create are among them, at any depth. -/
structure Schema.Conforms (schema : Schema) (model : Model) (kind : InputKind) (input : Json) :
    Prop where
  identified : model.Identifies kind input
  objects : ∀ object ∈ schema.inputObjects model kind input, object.WellFormed schema
  labels : ((schema.inputObjects model kind input).filterMap InputObject.label?).Nodup
  references : ∀ object ∈ schema.inputObjects model kind input, ∀ relationship target label,
    object.Refers schema relationship target label →
      ∃ other ∈ schema.inputObjects model kind input,
        other.label? = some label ∧ other.model = target
  linked : ∀ object ∈ schema.inputObjects model kind input, object.action = .create →
    ∀ relationship ∈ object.model.relationships.values, relationship.isForeignKey = true →
      relationship.nullable = false →
        object.Given schema (schema.inputObjects model kind input) relationship.name

/-! ### Reading members -/

section Reading

variable {schema : Schema} {object : InputObject} {kind : InputKind} {name : String} {json : Json}

/-- A field of an input that is a relationship stands for one of the model, whose target is
there. -/
theorem relationship_of_field? (hschema : schema.Sound) {model : Model}
    (hmodel : model ∈ schema.models) {field : InputField} {relation : RelationInput}
    (hfield : (schema.input kind model).field? name = some field)
    (hshape : field.shape = .relation relation) :
    ∃ relationship target, model.relationship? name = some relationship ∧
      schema.model? relationship.target = some target := by
  obtain ⟨hmem, rfl⟩ := field?_mem hfield
  rcases mem_input_fields hmem with ⟨plain, -, hscalar⟩ | ⟨relationship, hrelation, target,
    htarget, rfl⟩
  · rw [(ofField?_eq_some hscalar).2.1] at hshape
    cases hshape
  · exact ⟨relationship, target,
      (hschema.model _ hmodel).relationship?_eq_some.mpr ⟨hrelation, rfl⟩, htarget⟩

/-- What a member is read as, by whether it is allowed. -/
inductive InputObject.ReadsAs (object : InputObject) (schema : Schema) (name : String)
    (json : Json) : InputEntry → Prop
  | apart (h : object.Apart name) : ReadsAs object schema name json .ignored
  | wrong (fault : InputFault) (hfield : ¬ object.Apart name)
      (hwrong : ¬ object.Allows schema name json) : ReadsAs object schema name json (.wrong fault)
  | scalar (value : Value) (hfield : ¬ object.Apart name)
      (hallowed : object.Allows schema name json) : ReadsAs object schema name json (.scalar value)
  | relation (relationship : Relationship) (hfield : ¬ object.Apart name)
      (hallowed : object.Allows schema name json ↔ relationship.TakesAll schema json) :
      ReadsAs object schema name json (.relation relationship)

theorem InputObject.readsAs (hschema : schema.Sound) (hmodel : object.model ∈ schema.models)
    (htype : object.type = schema.input kind object.model) (name : String) (json : Json) :
    object.ReadsAs schema name json
      (InputEntry.read object.model object.type object.linkedBy name json) := by
  -- an allowed member has the field that is found, and all that is asked of it
  have hallows : ∀ {field}, object.type.field? name = some field →
      object.Allows schema name json → object.linkedBy ≠ some name ∧
        (json.isNull = true → field.acceptsNull = true) ∧
        (∀ kind list, field.shape = .scalar kind list →
          ∃ value, Value.ofJson kind list json = .ok value) ∧
        ∀ relation, field.shape = .relation relation → ∃ relationship,
          object.model.relationship? name = some relationship ∧
            relationship.TakesAll schema json := by
    rintro field hfield ⟨found, hfound, henclosing, haccepts, hshape⟩
    obtain rfl := Option.some.inj (hfield.symm.trans hfound)
    refine ⟨henclosing, haccepts, fun kind list hscalar => ?_, fun relation hrelation => ?_⟩
    · rwa [hscalar] at hshape
    · rwa [hrelation] at hshape
  unfold InputEntry.read
  split
  · rename_i hapart
    exact .apart hapart
  · rename_i hfield
    split
    · rename_i hnone
      refine .wrong _ hfield ?_
      rintro ⟨field, hfound, -⟩
      rw [hnone] at hfound
      cases hfound
    · rename_i field hfound
      split
      · rename_i henclosing
        exact .wrong _ hfield fun h => (hallows hfound h).1 henclosing
      · rename_i henclosing
        split
        · rename_i hnull
          obtain ⟨hjson, hrefuses⟩ := Bool.and_eq_true_iff.mp hnull
          refine .wrong _ hfield fun h => ?_
          rw [(hallows hfound h).2.1 hjson] at hrefuses
          cases hrefuses
        · rename_i hnull
          have haccepts : json.isNull = true → field.acceptsNull = true := by
            intro hjson
            rw [hjson, Bool.true_and, Bool.not_eq_true', Bool.not_eq_false] at hnull
            exact hnull
          split
          · rename_i kind list hshape
            split
            · rename_i value hvalue
              refine .scalar value hfield ⟨field, hfound, henclosing, haccepts, ?_⟩
              rw [hshape]
              exact ⟨value, hvalue⟩
            · rename_i fault hfault
              refine .wrong _ hfield fun h => ?_
              obtain ⟨value, hvalue⟩ := (hallows hfound h).2.2.1 kind list hshape
              rw [hfault] at hvalue
              cases hvalue
          · rename_i relation hshape
            obtain ⟨relationship, target, hrelationship, -⟩ :=
              relationship_of_field? hschema hmodel (htype ▸ hfound) hshape
            rw [hrelationship]
            refine .relation relationship hfield ⟨fun h => ?_, fun h => ?_⟩
            · obtain ⟨other, hother, htakes⟩ := (hallows hfound h).2.2.2 relation hshape
              rw [hrelationship] at hother
              exact Option.some.inj hother ▸ htakes
            · refine ⟨field, hfound, henclosing, haccepts, ?_⟩
              rw [hshape]
              exact ⟨relationship, hrelationship, h⟩

end Reading

/-! ### Objects within objects -/

namespace Schema

variable {schema : Schema}

/-- Objects together with all that are given within them. -/
def Closed (schema : Schema) (objects : List InputObject) : Prop :=
  ∀ object ∈ objects,
    schema.objects object.model object.type object.linkedBy object.members ⊆ objects

theorem closed_nil : schema.Closed [] := fun _ h => absurd h List.not_mem_nil

theorem Closed.append {xs ys : List InputObject} (hxs : schema.Closed xs)
    (hys : schema.Closed ys) : schema.Closed (xs ++ ys) := by
  intro object hobject
  rcases List.mem_append.mp hobject with hfirst | hlast
  · exact List.Subset.trans (hxs object hfirst) (List.subset_append_left _ _)
  · exact List.Subset.trans (hys object hlast) (List.subset_append_right _ _)

theorem Closed.cons {object : InputObject}
    (h : schema.Closed (schema.objects object.model object.type object.linkedBy object.members)) :
    schema.Closed
      (object :: schema.objects object.model object.type object.linkedBy object.members) := by
  intro inner hinner
  rcases List.mem_cons.mp hinner with rfl | hnested
  · exact List.subset_cons_self _ _
  · exact List.Subset.trans (h inner hnested) (List.subset_cons_self _ _)

mutual

theorem closed_objects (model : Model) (type : InputType) (linkedBy : Option String) :
    (members : List (String × Json)) → schema.Closed (schema.objects model type linkedBy members)
  | [] => closed_nil
  | (name, json) :: rest => by
    rw [objects_cons]
    refine .append ?_ (closed_objects model type linkedBy rest)
    unfold memberObjects relationObjects
    split
    · split
      · exact closed_nil
      · split
        · cases json with
          | arr items => exact closed_itemsObjects _ _ items
          | null | bool | num | str | obj => exact closed_nil
        · exact closed_itemObjects _ _ json
    · exact closed_nil
termination_by members => sizeOf members

theorem closed_itemsObjects (target : Model) (relationship : Relationship) :
    (items : List Json) → schema.Closed (schema.itemsObjects target relationship items)
  | [] => closed_nil
  | item :: items =>
    .append (closed_itemObjects target relationship item)
      (closed_itemsObjects target relationship items)
termination_by items => sizeOf items

theorem closed_itemObjects (target : Model) (relationship : Relationship) (json : Json) :
    schema.Closed (schema.itemObjects target relationship json) := by
  cases json with
  | obj members =>
      rw [itemObjects]
      split
      · exact closed_nil
      · exact .cons (closed_objects target _ _ members)
  | null | bool | num | str | arr => exact closed_nil
termination_by sizeOf json

end

theorem closed_inputObjects (schema : Schema) (model : Model) (kind : InputKind) (input : Json) :
    schema.Closed (schema.inputObjects model kind input) := by
  unfold inputObjects
  split
  · split
    · exact .cons (closed_objects _ _ _ _)
    · exact closed_nil
  · exact closed_nil

theorem itemObjects_subset {target : Model} {relationship : Relationship} {item : Json}
    {items : List Json} (h : item ∈ items) :
    schema.itemObjects target relationship item ⊆
      schema.itemsObjects target relationship items := by
  induction items with
  | nil => cases h
  | cons first items ih =>
      rw [itemsObjects]
      rcases List.mem_cons.mp h with rfl | hbehind
      · exact List.subset_append_left _ _
      · exact List.Subset.trans (ih hbehind) (List.subset_append_right _ _)

theorem memberObjects_subset {model : Model} {type : InputType} {linkedBy : Option String}
    {name : String} {json : Json} {members : List (String × Json)} (h : (name, json) ∈ members) :
    schema.memberObjects model type linkedBy name json ⊆
      schema.objects model type linkedBy members := by
  induction members with
  | nil => cases h
  | cons first members ih =>
      obtain ⟨other, found⟩ := first
      rw [objects_cons]
      rcases List.mem_cons.mp h with heq | hbehind
      · obtain ⟨rfl, rfl⟩ := Prod.mk.inj heq
        exact List.subset_append_left _ _
      · exact List.Subset.trans (ih hbehind) (List.subset_append_right _ _)

/-- Among the objects in a member that is read as a relationship are those in its items. -/
theorem itemObjects_subset_memberObjects {model target : Model} {type : InputType}
    {linkedBy : Option String} {name : String} {json item : Json} {items : List Json}
    {relationship : Relationship}
    (hread : InputEntry.read model type linkedBy name json = .relation relationship)
    (htarget : schema.model? relationship.target = some target)
    (hitems : relationship.items? json = some items) (hitem : item ∈ items) :
    schema.itemObjects target relationship item ⊆
      schema.memberObjects model type linkedBy name json := by
  unfold memberObjects relationObjects
  rw [hread]
  dsimp only
  rw [htarget]
  unfold Relationship.items? at hitems
  by_cases hmany : relationship.isMany = true
  · rw [if_pos hmany] at hitems
    dsimp only
    rw [if_pos hmany]
    cases json with
    | arr all =>
        obtain rfl := Option.some.inj hitems
        exact itemObjects_subset hitem
    | null | bool | num | str | obj => cases hitems
  · rw [if_neg hmany] at hitems
    dsimp only
    rw [if_neg hmany]
    obtain rfl := Option.some.inj hitems
    rw [List.mem_singleton.mp hitem]
    exact List.Subset.refl _

end Schema

end ModelSurface
