import ModelSurface.Calendar.Instant
import ModelSurface.Registry.Definition
import ModelSurface.Store.Transaction
import ModelSurface.Violation.Basic

/-!
Work inside a transaction, which may be refused, may meet a fault of the store, and may be
cancelled.
-/

namespace ModelSurface

/-- Where times and identifiers come from: the values that are drawn, in order. -/
structure Sources where
  instant : Nat → Instant
  uuid : Nat → Uuid

structure CallOptions where
  /-- In milliseconds. -/
  timeout : Option Nat := none
  /-- Whether the call has been cancelled; nothing when it cannot be. -/
  cancellation : Option Bool := none
deriving DecidableEq, Repr, Inhabited

/-- A rule of this library, or of a method, that has been broken. -/
inductive Breach where
  | unwrittenNode (index : Nat)
  | emptyPlan
  | noIdentity
  | noValue (generator : Generator) (kind : Kind)
  | vanished (model : String) (id : Identity)
  | depth
  | method (message : String)
  | result (model method : String)
deriving DecidableEq, Repr

inductive Failure where
  | refused (violations : List Violation)
  | storage (fault : StorageFault)
  | breach (breach : Breach)

namespace Failure

/-- What callers are told; they learn nothing of the store or of broken rules. -/
def violations : Failure → List Violation
  | .refused violations => violations
  | .storage _ => [.ofCause .transaction]
  | .breach _ => [.ofCause .transaction]

def atIndex (index : Nat) : Failure → Failure
  | .refused violations => .refused (violations.map (Violation.atIndex index))
  | failure => failure

end Failure

structure Work where
  transaction : Transaction
  drawn : Nat
  cancellation : Option Bool

namespace Work

def isCancelled (work : Work) : Bool := work.cancellation == some true

/-- Cancels the call, if it can be cancelled. -/
def cancel (work : Work) : Work := { work with cancellation := work.cancellation.map fun _ => true }

end Work

abbrev Writing := EStateM Failure Work

namespace Writing

def read {α : Type} (look : Transaction → Except StorageFault α) : Writing α := fun work =>
  match look work.transaction with
  | .ok a => .ok a work
  | .error fault => .error (.storage fault) work

def change {α : Type} (act : Transaction → Except StorageFault (α × Transaction)) : Writing α :=
  fun work =>
    match act work.transaction with
    | .ok (a, transaction) => .ok a { work with transaction := transaction }
    | .error fault => .error (.storage fault) work

def get? (model : String) (id : Identity) : Writing (Option Record) := read (·.get? model id)

def scan (model : String) : Writing (List Record) := read (·.scan model)

def insert (model : String) (id : Identity) (record : Record) : Writing Unit :=
  change fun tx => (tx.insert model id record).map fun tx => ((), tx)

def replace (model : String) (id : Identity) (record : Record) : Writing Unit :=
  change fun tx => (tx.replace model id record).map fun tx => ((), tx)

def remove (model : String) (id : Identity) : Writing (Option Record) := change (·.remove model id)

def next (sequence : String) : Writing Int := change (·.next sequence)

/-- The number of the value to draw from the sources. -/
def draw : Writing Nat := fun work => .ok work.drawn { work with drawn := work.drawn + 1 }

def refuse {α : Type} (violation : Violation) : Writing α := throw (.refused [violation])

def breach {α : Type} (breach : Breach) : Writing α := throw (.breach breach)

/-- Stops if the call has been cancelled. -/
def checkpoint : Writing Unit := fun work =>
  if work.isCancelled then .error (.storage .cancelled) work else .ok () work

end Writing

/-- Runs work in one transaction: publishes all of it when it succeeds, and nothing when it fails
or is cancelled. -/
def Store.transact {α : Type} (store : Store) (options : CallOptions) (work : Writing α) :
    Store × Checked α :=
  let start : Work := ⟨store.begin options.timeout, store.drawn, options.cancellation⟩
  if start.isCancelled then (store, .error (Failure.storage .cancelled).violations)
  else
    match (do let a ← work; Writing.checkpoint; pure a : Writing α).run start with
    | .error failure stop => ({ store with drawn := stop.drawn }, .error failure.violations)
    | .ok a stop =>
      let store := { store with drawn := stop.drawn }
      match stop.transaction.commit with
      | .ok tables => ({ store with tables := tables }, .ok a)
      | .error fault => (store, .error (Failure.storage fault).violations)

end ModelSurface
