import ModelSurface.Proofs.Write.Planning

/-!
# The objects of an input

An input is a tree of objects, each of which stands for one record to write. A plan has one record
for each of them, in the order in which they are written down, and no others; and it has a link for
each record that an object names under one of its relationships, whichever way it names it.
-/

namespace ModelSurface

/-- An object of an input that stands for a record to write. -/
structure InputObject where
  model : Model
  type : InputType
  action : NodeAction
  /-- The relationship that the enclosing object sets. -/
  linkedBy : Option String
  members : List (String × Json)

namespace InputObject

/-- The label that an object carries. -/
def label? (object : InputObject) : Option String :=
  match object.members.lookup InputEntry.labelKey with
  | some (.str label) => some label
  | _ => none

/-- A planned record has what the object for it gives. -/
structure Plans (object : InputObject) (node : PlanNode) : Prop where
  model : node.model = object.model
  action : node.action = object.action
  values : node.values =
    InputEntry.values object.model object.type object.linkedBy object.members

/-- Nothing is wrong with any member of an object. -/
def Readable (object : InputObject) : Prop :=
  ∀ name json, (name, json) ∈ object.members → ∀ fault,
    InputEntry.read object.model object.type object.linkedBy name json ≠ .wrong fault

end InputObject

namespace Schema

mutual

/-- The objects to create that stand among the members of an object. -/
def objects (schema : Schema) (model : Model) (type : InputType) (linkedBy : Option String) :
    List (String × Json) → List InputObject
  | [] => []
  | (name, json) :: rest =>
    (match InputEntry.read model type linkedBy name json with
      | .relation relationship =>
        match schema.model? relationship.target with
        | none => []
        | some target =>
          if relationship.isMany then
            match json with
            | .arr items => itemsObjects schema target relationship items
            | _ => []
          else itemObjects schema target relationship json
      | _ => []) ++ objects schema model type linkedBy rest

def itemsObjects (schema : Schema) (target : Model) (relationship : Relationship) :
    List Json → List InputObject
  | [] => []
  | item :: items =>
    itemObjects schema target relationship item ++ itemsObjects schema target relationship items

/-- The objects to create in one item of a relationship. -/
def itemObjects (schema : Schema) (target : Model) (relationship : Relationship) :
    Json → List InputObject
  | .obj members =>
    if (members.lookup InputEntry.referenceKey).isSome then []
    else
      let type := schema.input .create target
      let linkedBy := PlanDraft.innerLink relationship
      ⟨target, type, .create, linkedBy, members⟩ :: objects schema target type linkedBy members
  | _ => []

end

/-- The objects of a whole input, the outermost one first. -/
def inputObjects (schema : Schema) (model : Model) (kind : InputKind) : Json → List InputObject
  | .obj members =>
    match PlanDraft.readAction model kind members with
    | .ok action =>
      let type := schema.input kind model
      ⟨model, type, action, none, members⟩ :: objects schema model type none members
    | .error _ => []
  | _ => []

/-- The objects to create under one relationship. -/
def relationObjects (schema : Schema) (relationship : Relationship) (json : Json) :
    List InputObject :=
  match schema.model? relationship.target with
  | none => []
  | some target =>
    if relationship.isMany then
      match json with
      | .arr items => itemsObjects schema target relationship items
      | _ => []
    else itemObjects schema target relationship json

/-- The objects to create in one member of an object. -/
def memberObjects (schema : Schema) (model : Model) (type : InputType) (linkedBy : Option String)
    (name : String) (json : Json) : List InputObject :=
  match InputEntry.read model type linkedBy name json with
  | .relation relationship => relationObjects schema relationship json
  | _ => []

/-- An object within an object is one to create. -/
def Nested (schema : Schema) (object : InputObject) : Prop :=
  object.action = .create ∧ object.type = schema.input .create object.model

mutual

theorem nested_objects {schema : Schema} (model : Model) (type : InputType)
    (linkedBy : Option String) (members : List (String × Json)) :
    ∀ object ∈ schema.objects model type linkedBy members, schema.Nested object := by
  cases members with
  | nil =>
      intro object h
      cases h
  | cons member rest =>
      obtain ⟨name, json⟩ := member
      intro object h
      rw [objects] at h
      rcases List.mem_append.mp h with hfirst | hrest
      · split at hfirst
        · rename_i relationship _
          split at hfirst
          · cases hfirst
          · rename_i target _
            split at hfirst
            · cases json with
              | arr items => exact nested_itemsObjects target relationship items object hfirst
              | _ => cases hfirst
            · exact nested_itemObjects target relationship json object hfirst
        · cases hfirst
      · exact nested_objects model type linkedBy rest object hrest
termination_by sizeOf members

theorem nested_itemsObjects {schema : Schema} (target : Model) (relationship : Relationship)
    (items : List Json) :
    ∀ object ∈ schema.itemsObjects target relationship items, schema.Nested object := by
  cases items with
  | nil =>
      intro object h
      cases h
  | cons item rest =>
      intro object h
      rw [itemsObjects] at h
      rcases List.mem_append.mp h with hfirst | hrest
      · exact nested_itemObjects target relationship item object hfirst
      · exact nested_itemsObjects target relationship rest object hrest
termination_by sizeOf items

theorem nested_itemObjects {schema : Schema} (target : Model) (relationship : Relationship)
    (json : Json) :
    ∀ object ∈ schema.itemObjects target relationship json, schema.Nested object := by
  intro object h
  cases json with
  | obj members =>
      rw [itemObjects] at h
      split at h
      · cases h
      · rcases List.mem_cons.mp h with rfl | hinner
        · exact ⟨rfl, rfl⟩
        · exact nested_objects target _ _ members object hinner
  | _ => cases h
termination_by sizeOf json

end

/-- Each object is read by an input type of its model. Only the outermost one may be to update. -/
theorem mem_inputObjects {schema : Schema} {model : Model} {kind : InputKind} {input : Json}
    (hkind : kind ≠ .delete) {index : Nat} {object : InputObject}
    (h : (schema.inputObjects model kind input)[index]? = some object) :
    (∃ other, other ≠ .delete ∧ object.type = schema.input other object.model) ∧
      (object.action ≠ .create → index = 0) ∧ (index = 0 → object.model = model) := by
  unfold inputObjects at h
  split at h
  · rename_i members
    split at h
    · rename_i action haction
      cases index with
      | zero =>
          obtain rfl := Option.some.inj h
          exact ⟨⟨kind, hkind, rfl⟩, fun _ => rfl, fun _ => rfl⟩
      | succ index =>
          have hnested := nested_objects _ _ _ _ object (List.mem_of_getElem? h)
          exact ⟨⟨.create, by decide, hnested.2⟩, fun hother => absurd hnested.1 hother,
            fun hzero => absurd hzero (Nat.succ_ne_zero index)⟩
    · cases h
  · cases h

theorem objects_cons {schema : Schema} {model : Model} {type : InputType}
    {linkedBy : Option String} (name : String) (json : Json) (rest : List (String × Json)) :
    objects schema model type linkedBy ((name, json) :: rest) =
      memberObjects schema model type linkedBy name json ++
        objects schema model type linkedBy rest := by
  cases json <;> rfl

end Schema

/-! ### What items name -/

/-- A link sets a relationship of a planned record to another record, or to none. -/
def Link.Joins {ρ : Type} (object : ρ) (model target : Model) (relationship : Relationship)
    (other : Option ρ) (link : Link ρ) : Prop :=
  match relationship.ownership with
  | .own =>
    link.holder = object ∧ link.holderModel = model ∧ link.field = relationship.name ∧
      link.value = other ∧ link.valueModel = target ∧ link.many = relationship.isMany
  | .remote field =>
    some link.holder = other ∧ link.holderModel = target ∧ link.field = field ∧
      link.value = some object ∧ link.valueModel = model ∧
        link.many = decide (relationship.cardinality = .manyToMany)

/-- What an item of a relationship names: nothing, a labelled object, the record for its own object,
which is planned at `place`, or a stored record. -/
inductive ItemNames (target : Model) (relationship : Relationship) (place : Nat) :
    Json → Option DraftRef → Prop
  | label {members : List (String × Json)} {label : String}
      (h : members.lookup InputEntry.referenceKey = some (.str label)) :
      ItemNames target relationship place (.obj members) (some (.labelled label target.name))
  | object {members : List (String × Json)} (h : members.lookup InputEntry.referenceKey = none) :
      ItemNames target relationship place (.obj members) (some (.node place))
  | nothing {json : Json} (hnull : json.isNull = true) (hown : relationship.isOwn = true) :
      ItemNames target relationship place json none
  | identity {json : Json} {id : Identity}
      (h : Identity.ofJson target.identity.kind json = .ok id) :
      ItemNames target relationship place json (some (.stored id))

/-- The items that a relationship is given, one unless it leads to many records. -/
def Relationship.items? (relationship : Relationship) (json : Json) : Option (List Json) :=
  if relationship.isMany then
    match json with
    | .arr items => some items
    | _ => none
  else some [json]

/-- What it is for a record to be joined to what the items of its relationships name. -/
abbrev Joined := Nat → Model → Model → Relationship → Option DraftRef → Prop

/-- A planned record is joined to what each of some items names. The objects among them are planned
one behind the other, from `place` on. -/
def ItemsJoined (schema : Schema) (joined : Joined) (index place : Nat) (model target : Model)
    (relationship : Relationship) (items : List Json) : Prop :=
  ∀ before item behind, items = before ++ item :: behind → ∃ other,
    ItemNames target relationship
      (place + (schema.itemsObjects target relationship before).length) item other ∧
    joined index model target relationship other

def RelationJoined (schema : Schema) (joined : Joined) (index place : Nat) (model : Model)
    (relationship : Relationship) (json : Json) : Prop :=
  ∀ target, schema.model? relationship.target = some target →
    ∃ items, relationship.items? json = some items ∧
      ItemsJoined schema joined index place model target relationship items

/-- A planned record is joined to what its relationships name in some of the members of its
object. -/
def MembersJoined (schema : Schema) (joined : Joined) (index place : Nat) (model : Model)
    (type : InputType) (linkedBy : Option String) (members : List (String × Json)) : Prop :=
  ∀ before name json behind, members = before ++ (name, json) :: behind → ∀ relationship,
    InputEntry.read model type linkedBy name json = .relation relationship →
    RelationJoined schema joined index
      (place + (schema.objects model type linkedBy before).length) model relationship json

/-- A planned record is joined to everything that its object names. -/
def InputObject.Joined (object : InputObject) (schema : Schema) (joined : Joined) (index : Nat) :
    Prop :=
  MembersJoined schema joined index (index + 1) object.model object.type object.linkedBy
    object.members

section Joining

variable {schema : Schema} {joined joined' : Joined} {index place : Nat} {model target : Model}
  {relationship : Relationship} {type : InputType} {linkedBy : Option String}

theorem RelationJoined.mono {json : Json}
    (h : RelationJoined schema joined index place model relationship json)
    (hjoined : ∀ model target relationship other, joined index model target relationship other →
      joined' index model target relationship other) :
    RelationJoined schema joined' index place model relationship json := by
  intro target htarget
  obtain ⟨items, hitems, hall⟩ := h target htarget
  refine ⟨items, hitems, fun before item behind hsplit => ?_⟩
  obtain ⟨other, hnames, hother⟩ := hall before item behind hsplit
  exact ⟨other, hnames, hjoined _ _ _ _ hother⟩

theorem MembersJoined.mono {members : List (String × Json)}
    (h : MembersJoined schema joined index place model type linkedBy members)
    (hjoined : ∀ model target relationship other, joined index model target relationship other →
      joined' index model target relationship other) :
    MembersJoined schema joined' index place model type linkedBy members :=
  fun before name json behind hsplit relationship hread =>
    (h before name json behind hsplit relationship hread).mono hjoined

theorem ItemsJoined.cons {item : Json} {items : List Json} {other : Option DraftRef}
    (hnames : ItemNames target relationship place item other)
    (hother : joined index model target relationship other)
    (hitems : ItemsJoined schema joined index
      (place + (schema.itemObjects target relationship item).length) model target relationship
      items) :
    ItemsJoined schema joined index place model target relationship (item :: items) := by
  intro before found behind hsplit
  rcases List.cons_eq_append_iff.mp hsplit with ⟨rfl, heq⟩ | ⟨rest, rfl, heq⟩
  · obtain ⟨rfl, -⟩ := List.cons.inj heq
    exact ⟨other, hnames, hother⟩
  · obtain ⟨found_other, hfound, hjoined⟩ := hitems rest found behind heq
    refine ⟨found_other, ?_, hjoined⟩
    rwa [Schema.itemsObjects, List.length_append, ← Nat.add_assoc]

theorem MembersJoined.cons {name : String} {json : Json} {rest : List (String × Json)}
    (hfirst : ∀ relationship,
      InputEntry.read model type linkedBy name json = .relation relationship →
      RelationJoined schema joined index place model relationship json)
    (hrest : MembersJoined schema joined index
      (place + (schema.memberObjects model type linkedBy name json).length) model type linkedBy
      rest) :
    MembersJoined schema joined index place model type linkedBy ((name, json) :: rest) := by
  intro before found json' behind hsplit relationship hread
  rcases List.cons_eq_append_iff.mp hsplit with ⟨rfl, heq⟩ | ⟨others, rfl, heq⟩
  · obtain ⟨heq_first, -⟩ := List.cons.inj heq
    obtain ⟨rfl, rfl⟩ := Prod.mk.inj heq_first
    exact hfirst relationship hread
  · rw [Schema.objects_cons, List.length_append, ← Nat.add_assoc]
    exact hrest others found json' behind heq relationship hread

end Joining

end ModelSurface
