import ModelSurface.Surface.Schema
import ModelSurface.Violation.Basic
import ModelSurface.Write.Plan

/-!
Plans out of inputs. Everything that is wrong with an input is reported, with its place; nothing
is looked up in the store.
-/

namespace ModelSurface

/-- A record that takes part in a link, as the input names it. -/
inductive DraftRef where
  | node (index : Nat)
  | stored (id : Identity)
  /-- The object of a model that carries a label. -/
  | labelled (label model : String)
deriving DecidableEq, Repr

structure Requirement where
  node : Nat
  relation : String
  path : String
deriving DecidableEq, Repr

/-- A plan in the making. -/
structure PlanDraft where
  nodes : List PlanNode := []
  links : List (Link DraftRef) := []
  /-- The labelled objects: where they are planned, and of which model. -/
  labels : Keyed (Nat × String) := .empty
  requirements : List Requirement := []
  violations : List Violation := []

inductive InputEntry where
  | ignored
  | wrong (fault : InputFault)
  | scalar (value : Value)
  | relation (relationship : Relationship)

namespace InputEntry

/-- The member that labels an object. -/
def labelKey : String := "$id"

/-- The member that stands for a labelled object. -/
def referenceKey : String := "$ref"

/-- Reads one member of an object. `linkedBy` is the relationship that the enclosing object
sets. -/
def read (model : Model) (type : InputType) (linkedBy : Option String) (name : String)
    (json : Json) : InputEntry :=
  if name = labelKey ∨ (type.kind = .update ∧ name = model.identity.name) then .ignored
  else
    match type.field? name with
    | none => .wrong (if model.fields.contains name then .assigned else .unknown)
    | some field =>
      if linkedBy = some name then .wrong .enclosing
      else if json.isNull && !field.acceptsNull then .wrong .null
      else
        match field.shape with
        | .scalar kind list =>
          match Value.ofJson kind list json with
          | .ok value => .scalar value
          | .error fault => .wrong (.value fault)
        | .relation _ =>
          match model.relationship? name with
          | some relationship => .relation relationship
          | none => .ignored

def values (model : Model) (type : InputType) (linkedBy : Option String)
    (members : List (String × Json)) : Keyed Value :=
  Keyed.ofList (members.filterMap fun member =>
    match read model type linkedBy member.1 member.2 with
    | .scalar value => some (member.1, value)
    | _ => none)

end InputEntry

namespace PlanDraft

def join (path name : String) : String := if path.isEmpty then name else s!"{path}.{name}"

def report (draft : PlanDraft) (path : String) (fault : InputFault) : PlanDraft :=
  { draft with violations := draft.violations ++ [.ofPath path (.input fault)] }

def addLink (draft : PlanDraft) (link : Link DraftRef) : PlanDraft :=
  { draft with links := draft.links ++ [link] }

def addLabel (draft : PlanDraft) (index : Nat) (model : Model) (action : NodeAction)
    (path : String) (label : Json) : PlanDraft :=
  let here := join path InputEntry.labelKey
  match label with
  | .str label =>
    if action ≠ .create then draft.report here .labelPlace
    else
      let known := draft.labels.contains label
      let draft := { draft with labels := draft.labels.put label (index, model.name) }
      if known then draft.report here (.labelTwice label) else draft
  | _ => draft.report here .labelText

/-- Plans the record of an object, apart from its relationships. -/
def openNode (draft : PlanDraft) (model : Model) (type : InputType) (action : NodeAction)
    (linkedBy : Option String) (path : String) (members : List (String × Json)) : PlanDraft :=
  let node : PlanNode := ⟨model, action, InputEntry.values model type linkedBy members, path⟩
  let index := draft.nodes.length
  let draft := { draft with nodes := draft.nodes ++ [node] }
  match members.lookup InputEntry.labelKey with
  | some label => draft.addLabel index model action path label
  | none => draft

/-- Asks for a field that an object to create leaves out. A reference may still be set from
another place of the input. -/
def require (index : Nat) (path : String) (draft : PlanDraft) (field : InputField) : PlanDraft :=
  let here := join path field.name
  match field.shape with
  | .scalar _ _ => draft.report here .required
  | .relation _ =>
    { draft with requirements := draft.requirements ++ [⟨index, field.name, here⟩] }

def closeNode (draft : PlanDraft) (index : Nat) (type : InputType) (linkedBy : Option String)
    (path : String) (members : List (String × Json)) : PlanDraft :=
  (type.fields.filter fun field =>
    field.required && (members.lookup field.name).isNone && linkedBy ≠ some field.name).foldl
    (require index path) draft

def readReference (draft : PlanDraft) (target : Model) (path : String)
    (members : List (String × Json)) : PlanDraft × Option DraftRef :=
  if members.length ≠ 1 then (draft.report path .referenceMembers, none)
  else
    match members.lookup InputEntry.referenceKey with
    | some (.str label) => (draft, some (.labelled label target.name))
    | _ => (draft.report (join path InputEntry.referenceKey) .labelText, none)

def readIdentity (draft : PlanDraft) (target : Model) (path : String) (json : Json) :
    PlanDraft × Option DraftRef :=
  match Identity.ofJson target.identity.kind json with
  | .ok id => (draft, some (.stored id))
  | .error fault => (draft.report path (.value fault), none)

/-- The relationship that an object inherits from the one around it. -/
def innerLink (relationship : Relationship) : Option String :=
  match relationship.ownership with
  | .own => none
  | .remote field => some field

/-- Sets a relationship of a planned record to another record. -/
def linkTo (draft : PlanDraft) (index : Nat) (model target : Model) (relationship : Relationship)
    (path : String) (other : Option DraftRef) : PlanDraft :=
  match relationship.ownership, other with
  | .own, other =>
    draft.addLink ⟨.node index, model, relationship.name, other, target, relationship.isMany, path⟩
  | .remote field, some other =>
    draft.addLink
      ⟨other, target, field, some (.node index), model,
        relationship.cardinality = .manyToMany, path⟩
  | .remote _, none => draft

mutual

def planMembers (schema : Schema) (index : Nat) (model : Model) (type : InputType)
    (linkedBy : Option String) (path : String) (draft : PlanDraft) :
    List (String × Json) → PlanDraft
  | [] => draft
  | (name, json) :: rest =>
    let here := join path name
    let draft :=
      match InputEntry.read model type linkedBy name json with
      | .ignored | .scalar _ => draft
      | .wrong fault => draft.report here fault
      | .relation relationship =>
        match schema.model? relationship.target with
        | none => draft
        | some target =>
          if relationship.isMany then
            match json with
            | .arr items => planItems schema index model target relationship here 0 draft items
            | _ => draft.report here .list
          else planItem schema index model target relationship here draft json
    planMembers schema index model type linkedBy path draft rest

def planItems (schema : Schema) (index : Nat) (model target : Model) (relationship : Relationship)
    (path : String) (position : Nat) (draft : PlanDraft) : List Json → PlanDraft
  | [] => draft
  | item :: items =>
    planItems schema index model target relationship path (position + 1)
      (planItem schema index model target relationship s!"{path}[{position}]" draft item) items

/-- Plans one record of a relationship: an identity, a labelled object or an object to create. -/
def planItem (schema : Schema) (index : Nat) (model target : Model) (relationship : Relationship)
    (path : String) (draft : PlanDraft) : Json → PlanDraft
  | .obj members =>
    if (members.lookup InputEntry.referenceKey).isSome then
      match draft.readReference target path members with
      | (draft, some other) => draft.linkTo index model target relationship path (some other)
      | (draft, none) => draft
    else
      let type := schema.input .create target
      let linkedBy := innerLink relationship
      let inner := draft.nodes.length
      let draft := draft.openNode target type .create linkedBy path members
      let draft := planMembers schema inner target type linkedBy path draft members
      let draft := draft.closeNode inner type linkedBy path members
      draft.linkTo index model target relationship path (some (.node inner))
  | json =>
    if json.isNull && relationship.isOwn then
      if relationship.isMany then draft.report path .nullItem
      else draft.linkTo index model target relationship path none
    else
      match draft.readIdentity target path json with
      | (draft, some other) => draft.linkTo index model target relationship path (some other)
      | (draft, none) => draft

end

/-! ### The whole input -/

def readAction (model : Model) (kind : InputKind) (members : List (String × Json)) :
    Except InputFault NodeAction :=
  if kind = .update then
    match members.lookup model.identity.name with
    | none => .error .required
    | some json =>
      match Identity.ofJson model.identity.kind json with
      | .ok id => .ok (.update id)
      | .error fault => .error (.value fault)
  else .ok .create

def ofInput (schema : Schema) (model : Model) (kind : InputKind) : Json → PlanDraft
  | .obj members =>
    match readAction model kind members with
    | .error fault => PlanDraft.report {} model.identity.name fault
    | .ok action =>
      let type := schema.input kind model
      let draft := openNode {} model type action none "" members
      let draft := planMembers schema 0 model type none "" draft members
      if kind = .create then draft.closeNode 0 type none "" members else draft
  | _ => PlanDraft.report {} "" .object

def resolve (labels : Keyed (Nat × String)) : DraftRef → Except InputFault NodeRef
  | .node index => .ok (.node index)
  | .stored id => .ok (.stored id)
  | .labelled label model =>
    match labels.get? label with
    | none => .error (.labelUnknown label)
    | some (index, found) =>
      if found = model then .ok (.node index) else .error (.labelModel label found model)

def resolveValue (labels : Keyed (Nat × String)) :
    Option DraftRef → Except InputFault (Option NodeRef)
  | none => .ok none
  | some ref => (resolve labels ref).map some

def resolveLink (labels : Keyed (Nat × String)) (link : Link DraftRef) :
    Except (List Violation) (Link NodeRef) :=
  let wrong (fault : InputFault) : Violation := .ofPath link.path (.input fault)
  match resolve labels link.holder, resolveValue labels link.value with
  | .ok holder, .ok value => .ok { link with holder := holder, value := value }
  | .error fault, .ok _ => .error [wrong fault]
  | .ok _, .error fault => .error [wrong fault]
  | .error first, .error second => .error [wrong first, wrong second]

def meets (requirement : Requirement) (link : Link NodeRef) : Bool :=
  link.holder == .node requirement.node && link.field == requirement.relation &&
    link.value.isSome

def finish (draft : PlanDraft) : Except (List Violation) Plan :=
  let resolved := draft.links.map (resolveLink draft.labels)
  let links := resolved.filterMap fun
    | .ok link => some link
    | .error _ => none
  let unresolved := resolved.flatMap fun
    | .ok _ => []
    | .error violations => violations
  let unmet := draft.requirements.filter fun requirement => !links.any (meets requirement)
  match draft.violations ++ unresolved ++
      unmet.map fun requirement => .ofPath requirement.path (.input .required) with
  | [] => .ok ⟨draft.nodes, links⟩
  | violations => .error violations

end PlanDraft

def Plan.ofInput (schema : Schema) (model : Model) (kind : InputKind) (input : Json) :
    Except (List Violation) Plan :=
  (PlanDraft.ofInput schema model kind input).finish

end ModelSurface
