import ModelSurface.Violation.Fault

/-!
Violations: what a caller is told of a request that fails. And results of checks that report every
violation, not only the first.
-/

namespace ModelSurface

inductive ErrorKind where
  | validation
  | notFound
  | circularReference
  | cascadeRestricted
  | transactionFailure
deriving DecidableEq, Repr, Inhabited

namespace ErrorKind

def name : ErrorKind → String
  | .validation => "ValidationError"
  | .notFound => "NotFound"
  | .circularReference => "CircularReference"
  | .cascadeRestricted => "CascadeRestricted"
  | .transactionFailure => "TransactionFailure"

def all : List ErrorKind :=
  [.validation, .notFound, .circularReference, .cascadeRestricted, .transactionFailure]

end ErrorKind

/-- Dependents that keep a record from being deleted. -/
structure Restriction where
  model : String
  id : Identity
  count : Nat
  holder : String
  relation : String

def Restriction.message (r : Restriction) : String :=
  s!"cannot delete {r.model} {r.id.text}: referenced by {r.count} {r.holder} record(s) " ++
    s!"through {r.holder}.{r.relation}"

/-- A record on a cycle of references, and the place of the input that writes it. -/
structure CycleStop where
  model : String
  path : String
deriving DecidableEq, Repr

def CycleStop.text (stop : CycleStop) : String :=
  if stop.path.isEmpty then stop.model else s!"{stop.model} at `{stop.path}`"

inductive Cause where
  | filter (fault : FilterFault)
  | argument (fault : ArgumentFault)
  | call (fault : CallFault)
  | input (fault : InputFault)
  | link (fault : LinkFault)
  | assignment (fault : AssignmentFault)
  | notFound
  | circular (stops : List CycleStop)
  | restricted (restriction : Restriction)
  /-- A failure of which callers learn nothing more. -/
  | transaction
  /-- What a method says of its own accord. -/
  | reported (kind : ErrorKind) (message : String)

namespace Cause

def kind : Cause → ErrorKind
  | .notFound => .notFound
  | .circular _ => .circularReference
  | .restricted _ => .cascadeRestricted
  | .transaction => .transactionFailure
  | .reported kind _ => kind
  | _ => .validation

def message : Cause → String
  | .filter fault => fault.message
  | .argument fault => fault.message
  | .call fault => fault.message
  | .input fault => fault.message
  | .link fault => fault.message
  | .assignment fault => fault.message
  | .notFound => "not found"
  | .circular stops => "circular reference: " ++ " -> ".intercalate (stops.map CycleStop.text)
  | .restricted restriction => restriction.message
  | .transaction => "transaction failed"
  | .reported _ message => message

end Cause

structure Violation where
  cause : Cause
  field : Option String := none
  /-- The item of a bulk call that is at fault. -/
  index : Option Nat := none

namespace Violation

def ofCause (cause : Cause) : Violation := { cause := cause }

def ofField (field : String) (cause : Cause) : Violation := { cause := cause, field := some field }

/-- A violation at a place of the request; the empty path stands for the whole request. -/
def ofPath (path : String) (cause : Cause) : Violation :=
  { cause := cause, field := if path.isEmpty then none else some path }

def atIndex (index : Nat) (violation : Violation) : Violation :=
  { violation with index := some index }

def kind (violation : Violation) : ErrorKind := violation.cause.kind

def message (violation : Violation) : String := violation.cause.message

def text (violation : Violation) : String :=
  match violation.field with
  | some field => s!"{field}: {violation.message}"
  | none => violation.message

def toJson (violation : Violation) : Json :=
  Json.object
    ([("kind", .str violation.kind.name), ("message", .str violation.message)] ++
      (violation.field.map fun field => ("field", Json.str field)).toList ++
      (violation.index.map fun index => ("index", Json.ofNat index)).toList)

def queryMessage (violations : List Violation) : String :=
  "invalid query arguments: " ++ "; ".intercalate (violations.map text)

end Violation

/-! ### Checks -/

/-- A value that passed, or all that is wrong with what it was read from. -/
abbrev Checked (α : Type) := Except (List Violation) α

namespace Checked

variable {α β γ : Type}

def violations : Checked α → List Violation
  | .ok _ => []
  | .error violations => violations

def fault (field : String) (cause : Cause) : Checked α := .error [.ofField field cause]

def value? : Checked α → Option α
  | .ok a => some a
  | .error _ => none

/-- Joins two results; what is wrong with the first is reported first. -/
def both (f : α → β → γ) : Checked α → Checked β → Checked γ
  | .ok a, .ok b => .ok (f a b)
  | .ok _, .error violations => .error violations
  | .error violations, .ok _ => .error violations
  | .error first, .error second => .error (first ++ second)

@[simp] theorem violations_both (f : α → β → γ) (a : Checked α) (b : Checked β) :
    (both f a b).violations = a.violations ++ b.violations := by
  cases a <;> cases b <;> simp [both, violations]

theorem both_eq_ok_iff {f : α → β → γ} {a : Checked α} {b : Checked β} {c : γ} :
    both f a b = .ok c ↔ ∃ x y, a = .ok x ∧ b = .ok y ∧ c = f x y := by
  cases a <;> cases b <;> simp [both, eq_comm]

theorem bind_eq_ok {a : Checked α} {f : α → Checked β} {b : β} :
    (a >>= f) = .ok b ↔ ∃ x, a = .ok x ∧ f x = .ok b := by
  cases a <;> simp [bind, Except.bind]

end Checked

end ModelSurface
