import ModelSurface.Engine.Writing
import ModelSurface.Surface.Schema

/-!
Deletion. Before a record goes, every record that refers to it is dealt with as its relationship
says: it keeps the record from going, goes with it, or loses the reference.
-/

namespace ModelSurface

/-- Whether a stored reference, single or a set of links, leads to a record. -/
def Value.refersTo (id : Value) : Option Value → Bool
  | some (.list items) => items.any id.same
  | some value => value.same id
  | none => false

namespace Deletion

inductive Effect where
  | cascade
  | unlink
  | clear
  | restrict
deriving DecidableEq, Repr

/-- What the records that hold a relationship undergo. A set of links only loses a member, and a
single reference is cleared only if it may be null. -/
def effectOf (relationship : Relationship) : Effect :=
  match relationship.onDelete with
  | .restrict => .restrict
  | .cascade => if relationship.cardinality = .manyToMany then .unlink else .cascade
  | .setNull =>
    if relationship.cardinality = .manyToMany then .unlink
    else if relationship.nullable then .clear
    else .restrict

/-- Every relationship that is held by another record and leads to a model. -/
def holders (schema : Schema) (model : String) : List (Model × Relationship) :=
  schema.models.flatMap fun holder =>
    (holder.relationships.values.filter fun r => r.isOwn && r.target == model).map fun r =>
      (holder, r)

/-- The records, other than the deleted one itself, that refer to it. -/
def dependents (model : String) (id : Identity) (holder : Model) (relationship : Relationship)
    (records : List Record) : List Record :=
  records.filter fun record =>
    id.toValue.refersTo (record.get? relationship.name) &&
      !(holder.name == model && Record.identity? record holder.identity.name == some id)

def changeEach (holder : Model) (change : Record → Record) (records : List Record) :
    Writing Unit :=
  records.forM fun record =>
    match Record.identity? record holder.identity.name with
    | none => pure ()
    | some id => Writing.replace holder.name id (change record)

def unlink (field : String) (id : Identity) (record : Record) : Record :=
  match record.get? field with
  | some (.list items) => record.put field (.list (items.filter fun item => !item.same id.toValue))
  | _ => record

def restriction (model : String) (id : Identity) (holder : Model) (relationship : Relationship)
    (count : Nat) : Violation :=
  { cause := .restricted ⟨model, id, count, holder.name, relationship.name⟩
    field := some (relationship.inverse.getD s!"{holder.name}.{relationship.name}") }

/-- Deals with the records that refer to a record by one relationship. `removal` removes a further
record; `visited` are the records whose removal has begun. -/
def detach (removal : List RowKey → RowKey → Writing (List RowKey)) (key : RowKey)
    (visited : List RowKey) (holding : Model × Relationship) : Writing (List RowKey) := do
  let (holder, relationship) := holding
  let records := dependents key.model key.id holder relationship (← Writing.scan holder.name)
  if records.isEmpty then pure visited
  else
    match effectOf relationship with
    | .cascade =>
      records.foldlM (fun visited record =>
        match Record.identity? record holder.identity.name with
        | none => pure visited
        | some id => removal visited ⟨holder.name, id⟩) visited
    | .unlink => do
      changeEach holder (unlink relationship.name key.id) records
      pure visited
    | .clear => do
      changeEach holder (·.put relationship.name .null) records
      pure visited
    | .restrict =>
      Writing.refuse (restriction key.model key.id holder relationship records.length)

/-- Removes a record after those that depend on it. `depth` bounds how far removals may lead to
further ones. -/
def remove (schema : Schema) : Nat → List RowKey → RowKey → Writing (List RowKey)
  | depth, visited, key => do
    if visited.contains key then pure visited
    else
      Writing.checkpoint
      match depth with
      | 0 => Writing.breach .depth
      | depth + 1 =>
        let visited ← (holders schema key.model).foldlM (detach (remove schema depth) key)
          (key :: visited)
        let _ ← Writing.remove key.model key.id
        pure visited

/-- Deletes a record and gives it back as it was. A removal leads to another one at most once for
every stored record. -/
def delete (schema : Schema) (model : String) (id : Identity) : Writing Record := do
  match ← Writing.get? model id with
  | none => Writing.refuse (.ofCause .notFound)
  | some record =>
    let work ← get
    let _ ← remove schema (work.transaction.tables.rows.length + 1) [] ⟨model, id⟩
    pure record

end Deletion

end ModelSurface
