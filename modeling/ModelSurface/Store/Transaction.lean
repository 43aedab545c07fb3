import ModelSurface.Store.Tables

/-!
Transactions: work on a copy of the tables that is published as a whole, or not at all.
-/

namespace ModelSurface

inductive StorageFault where
  | timeout
  | cancelled
  | missing (model : String) (id : Identity)
  | duplicate (model : String) (id : Identity)
  /-- Writes to the model have been made to fail. -/
  | failing (model : String)
deriving DecidableEq, Repr

namespace StorageFault

def message : StorageFault → String
  | .timeout => "storage operation timed out"
  | .cancelled => "operation cancelled"
  | .missing model id => s!"no record {id.text} in {model}"
  | .duplicate model id => s!"duplicate identity {id.text} in {model}"
  | .failing model => s!"storage backend error: writes to {model} are failing"

end StorageFault

structure Transaction where
  tables : Tables
  failing : List String := []
  /-- Whether the time for the transaction is over. -/
  expired : Bool := false
deriving Inhabited

namespace Transaction

def checkTime (tx : Transaction) : Except StorageFault Unit :=
  if tx.expired then .error .timeout else .ok ()

def checkWrite (tx : Transaction) (model : String) : Except StorageFault Unit := do
  tx.checkTime
  if tx.failing.contains model then .error (.failing model)

def get? (tx : Transaction) (model : String) (id : Identity) :
    Except StorageFault (Option Record) := do
  tx.checkTime
  .ok (tx.tables.get? model id)

def scan (tx : Transaction) (model : String) : Except StorageFault (List Record) := do
  tx.checkTime
  .ok (tx.tables.scan model)

def insert (tx : Transaction) (model : String) (id : Identity) (record : Record) :
    Except StorageFault Transaction := do
  tx.checkWrite model
  match tx.tables.get? model id with
  | some _ => .error (.duplicate model id)
  | none => .ok { tx with tables := tx.tables.put model id record }

def replace (tx : Transaction) (model : String) (id : Identity) (record : Record) :
    Except StorageFault Transaction := do
  tx.checkWrite model
  match tx.tables.get? model id with
  | some _ => .ok { tx with tables := tx.tables.put model id record }
  | none => .error (.missing model id)

/-- Removes a record and gives it back, if it is stored. -/
def remove (tx : Transaction) (model : String) (id : Identity) :
    Except StorageFault (Option Record × Transaction) := do
  tx.checkWrite model
  .ok (tx.tables.get? model id, { tx with tables := tx.tables.erase model id })

def next (tx : Transaction) (sequence : String) : Except StorageFault (Int × Transaction) := do
  tx.checkTime
  let (number, tables) := tx.tables.next sequence
  .ok (number, { tx with tables := tables })

def commit (tx : Transaction) : Except StorageFault Tables := do
  tx.checkTime
  .ok tx.tables

/-- A second transaction beside this one; only one is open at a time. -/
def openAnother (_ : Transaction) : Except StorageFault Transaction := .error .timeout

end Transaction

/-- What has been committed, and what is known of the outside. -/
structure Store where
  tables : Tables := {}
  failing : List String := []
  /-- How many values have been drawn from clocks and identifier sources. -/
  drawn : Nat := 0
deriving Inhabited

namespace Store

/-- Opens a transaction. A timeout, in milliseconds, is over at once when it is zero and not
within one call otherwise. -/
def begin (store : Store) (timeout : Option Nat) : Transaction where
  tables := store.tables
  failing := store.failing
  expired := timeout == some 0

def failWrites (store : Store) (model : String) : Store :=
  { store with failing := model :: store.failing }

def clearFailures (store : Store) : Store := { store with failing := [] }

end Store

end ModelSurface
