import ModelSurface.Engine.Writing
import ModelSurface.Write.Plan

/-!
Plans carried out inside a transaction.
-/

namespace ModelSurface

namespace Field

def sequence (model : String) (field : Field) : String :=
  if field.identity then model else s!"{model}.{field.name}"

def generate (sources : Sources) (model : String) (field : Field) (generator : Generator) :
    Writing Value := do
  let drawn ← Writing.draw
  match generator, field.kind with
  | .now, .datetime => pure (.instant (sources.instant drawn))
  | .now, .time => pure (.time (sources.instant drawn).time)
  | .today, .date => pure (.date (sources.instant drawn).date)
  | .uuid, .uuid => pure (.uuid (sources.uuid drawn))
  | .uuid, .string => pure (.str (sources.uuid drawn).text)
  | .sequence, .integer => do pure (.int (← Writing.next (field.sequence model)))
  | generator, kind => Writing.breach (.noValue generator kind)

end Field

namespace Plan

/-- The identities of the records written so far, by their place in the plan. -/
abbrev Written := List (Nat × Identity)

def identityOf (written : Written) : NodeRef → Writing Identity
  | .stored id => pure id
  | .node index =>
    match written.lookup index with
    | some id => pure id
    | none => Writing.breach (.unwrittenNode index)

def checkExists (link : Link NodeRef) (target : NodeRef) (id : Identity) : Writing Unit := do
  match target with
  | .node _ => pure ()
  | .stored _ =>
    if (← Writing.get? link.valueModel.name id).isNone then
      Writing.refuse (.ofField link.path (.link (.missing link.valueModel.name id)))

def linkValue (written : Written) (link : Link NodeRef) : Writing Value := do
  match link.value with
  | none => pure .null
  | some target =>
    let id ← identityOf written target
    checkExists link target id
    pure id.toValue

/-- Refuses a one-to-one reference that another record holds already. -/
def checkUnique (model : Model) (link : Link NodeRef) (value : Value) (holder : Identity) :
    Writing Unit := do
  match model.relationship? link.field with
  | some relationship =>
    if relationship.cardinality = .oneToOne ∧ !value.isNull then
      let taken := (← Writing.scan model.name).any fun record =>
        ((record.get? link.field).any value.same) &&
          Record.identity? record model.identity.name ≠ some holder
      if taken then
        Writing.refuse (.ofField link.path (.link (.taken value model.name)))
  | none => pure ()

/-- The single references that the record of a node holds. -/
def heldLinks (plan : Plan) (index : Nat) : List (Link NodeRef) :=
  plan.links.filter fun link => !link.many && link.holder == .node index

def setReferences (plan : Plan) (written : Written) (model : Model) (index : Nat)
    (holder : Identity) (record : Record) : Writing Record :=
  (plan.heldLinks index).foldlM (fun record link => do
    let value ← linkValue written link
    checkUnique model link value holder
    pure (record.put link.field value)) record

def initialValue (sources : Sources) (node : PlanNode) (field : Field) : Writing Value :=
  match field.computed with
  | some computed => field.generate sources node.model.name computed.generator
  | none => pure (((node.values.get? field.name).or field.default).getD .null)

/-- The relationships of a new record before any of them is set. -/
def emptyReferences (model : Model) : List (String × Value) :=
  (model.relationships.values.filter (·.isOwn)).map fun relationship =>
    (relationship.name, if relationship.isMany then .list [] else .null)

def create (sources : Sources) (plan : Plan) (written : Written) (index : Nat) (node : PlanNode) :
    Writing Identity := do
  let model := node.model
  let record ← model.fields.values.foldlM (fun (record : Record) field => do
    pure (record.put field.name (← initialValue sources node field))) .empty
  match Record.identity? record model.identity.name with
  | none => Writing.breach .noIdentity
  | some id =>
    let record := (emptyReferences model).foldl (fun record entry => record.put entry.1 entry.2)
      record
    let record ← plan.setReferences written model index id record
    Writing.insert model.name id record
    pure id

def onSave (model : Model) : List (Field × Generator) :=
  model.fields.values.filterMap fun field =>
    field.computed.bind fun computed =>
      if computed.moment = .save then some (field, computed.generator) else none

def update (sources : Sources) (plan : Plan) (written : Written) (index : Nat) (node : PlanNode)
    (id : Identity) : Writing Unit := do
  let model := node.model
  match ← Writing.get? model.name id with
  | none => Writing.refuse (.ofCause .notFound)
  | some record =>
    let record := node.values.entries.foldl (fun record entry => record.put entry.1 entry.2) record
    let record ← (onSave model).foldlM (fun record (field, generator) => do
      pure (record.put field.name (← field.generate sources model.name generator))) record
    let record ← plan.setReferences written model index id record
    Writing.replace model.name id record

def writeNode (sources : Sources) (plan : Plan) (written : Written) (index : Nat) :
    Writing Written := do
  Writing.checkpoint
  match plan.nodes[index]? with
  | none => Writing.breach (.unwrittenNode index)
  | some node =>
    match node.action with
    | .create => do
      let id ← plan.create sources written index node
      pure ((index, id) :: written)
    | .update id => do
      plan.update sources written index node id
      pure ((index, id) :: written)

/-- The links that are set when all records are written: those of stored holders, and all that add
to a set of links. -/
def lateLinks (plan : Plan) : List (Link NodeRef) :=
  plan.links.filter fun link =>
    link.many ||
      match link.holder with
      | .stored _ => true
      | .node _ => false

def linkSet (record : Record) (field : String) : List Value :=
  match record.get? field with
  | some (.list items) => items
  | _ => []

/-- Sets a link on a stored record. -/
def attach (written : Written) (link : Link NodeRef) : Writing Unit := do
  Writing.checkpoint
  let holder ← identityOf written link.holder
  match ← Writing.get? link.holderModel.name holder with
  | none => Writing.refuse (.ofField link.path (.link (.missing link.holderModel.name holder)))
  | some record =>
    let value ← linkValue written link
    if link.many then
      let items := linkSet record link.field
      let items := if value.isNull || items.any value.same then items else items ++ [value]
      Writing.replace link.holderModel.name holder (record.put link.field (.list items))
    else
      checkUnique link.holderModel link value holder
      Writing.replace link.holderModel.name holder (record.put link.field value)

/-- Carries out a plan and gives the first record as it is stored then. -/
def apply (sources : Sources) (plan : Plan) (order : List Nat) : Writing Record := do
  let written ← order.foldlM (plan.writeNode sources) []
  plan.lateLinks.forM (attach written)
  match plan.nodes.head?, written.lookup 0 with
  | some root, some id =>
    match ← Writing.get? root.model.name id with
    | some record => pure record
    | none => Writing.breach (.vanished root.model.name id)
  | _, _ => Writing.breach .emptyPlan

end Plan

end ModelSurface
