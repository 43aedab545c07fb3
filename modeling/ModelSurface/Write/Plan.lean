import ModelSurface.Model.Basic
import ModelSurface.Scalar.Identity
import ModelSurface.Violation.Basic

/-!
Plans of writes: the records to create or update, and the references to set between them and the
records that are stored. A plan is written in an order in which each record stands behind those that
it refers to by a single reference. References that run in a circle have no such order.
-/

namespace ModelSurface

inductive NodeAction where
  | create
  | update (id : Identity)
deriving DecidableEq, Repr, Inhabited

structure PlanNode where
  model : Model
  action : NodeAction
  /-- The values that the caller gives. -/
  values : Keyed Value
  /-- The place of the input, empty for the whole of it. -/
  path : String
deriving Inhabited

/-- A record that takes part in a link. -/
inductive NodeRef where
  | node (index : Nat)
  | stored (id : Identity)
deriving DecidableEq, Repr

/-- A reference to set. `ρ` is the way in which records are named. -/
structure Link (ρ : Type) where
  holder : ρ
  holderModel : Model
  field : String
  /-- Nothing, to clear a single reference. -/
  value : Option ρ
  valueModel : Model
  /-- Whether the value is added to a set of links. -/
  many : Bool
  path : String

structure Plan where
  /-- The first record is the one that the caller writes. -/
  nodes : List PlanNode
  links : List (Link NodeRef)

/-! ### The order of writing -/

namespace NodeRef

def node? : NodeRef → Option Nat
  | .node index => some index
  | .stored _ => none

end NodeRef

namespace Plan

/-- The planned records to which a planned record refers by single references. -/
def references (plan : Plan) (index : Nat) : List Nat :=
  plan.links.filterMap fun link =>
    if !link.many && link.holder == .node index then link.value.bind NodeRef.node? else none

mutual

/-- Adds a node, behind all it refers to, to those that are done. `free` are the nodes that are not
on the path, whose last node comes first. A node on the path closes a cycle. -/
def visit (next : Nat → List Nat) (free path done : List Nat) (node : Nat) :
    Except (List Nat) (List Nat) :=
  if done.contains node then .ok done
  else if h : node ∈ free then do
    have : (free.erase node).length < free.length := by
      have := List.length_erase_of_mem h
      have := List.length_pos_of_mem h
      omega
    let done ← visitAll next (free.erase node) (node :: path) done (next node)
    .ok (done ++ [node])
  else .error (node :: (path.takeWhile (· ≠ node)).reverse ++ [node])
termination_by (free.length, 0)

def visitAll (next : Nat → List Nat) (free path done : List Nat) :
    List Nat → Except (List Nat) (List Nat)
  | [] => .ok done
  | node :: nodes => do
    let done ← visit next free path done node
    visitAll next free path done nodes
termination_by nodes => (free.length, nodes.length + 1)

end

/-- The order of the nodes of a plan, or a cycle of nodes. -/
def order (plan : Plan) : Except (List Nat) (List Nat) :=
  let nodes := List.range plan.nodes.length
  visitAll plan.references nodes [] [] nodes

def cycleViolation (plan : Plan) (cycle : List Nat) : Violation :=
  let stops := cycle.filterMap fun index =>
    plan.nodes[index]?.map fun node => (⟨node.model.name, node.path⟩ : CycleStop)
  { cause := .circular stops
    field := (stops.head?.map (·.path)).filter fun path => !path.isEmpty }

end Plan

end ModelSurface
