import Mathlib.Data.List.Forall2
import ModelSurface.Engine.Mutations
import ModelSurface.Proofs.Engine.Work

/-!
# Calls and the stores they lead to

Every mutation is a call. A call works on the committed tables in transactions only, so that a
property of tables that the work of each transaction keeps holds of every store that calls lead to.
-/

namespace ModelSurface

/-- A mutation that a caller asks for. -/
inductive Call where
  | create (model : String) (input : Json)
  | update (model : String) (input : Json)
  | delete (model : String) (input : Json)
  | bulk (model : String) (kind : InputKind) (items : List Json) (policy : BulkPolicy)
  | invoke (model method : String) (args : Json)
  /-- A mutation that is asked for by the name of its operation. -/
  | byName (name : String) (args : Json)

/-- The single call for an item of a bulk call. -/
def Call.single (model : String) : InputKind → Json → Call
  | .create, input => .create model input
  | .update, input => .update model input
  | .delete, input => .delete model input

namespace Engine

def call (engine : Engine) (store : Store) (options : CallOptions) :
    Call → Store × MutationResult
  | .create model input => engine.create store model input options
  | .update model input => engine.update store model input options
  | .delete model input => engine.delete store model input options
  | .bulk model kind items policy => engine.bulk store model kind items policy options
  | .invoke model method args => engine.invoke store model method args options
  | .byName name args => engine.mutate store name args options

/-- The stores that calls lead to from an empty one. Between calls, writes to a model may be made
to fail, or to succeed again. -/
inductive Reachable (engine : Engine) : Store → Prop where
  | empty (failing : List String) (drawn : Nat) :
      Reachable engine { failing := failing, drawn := drawn }
  | call {store : Store} (options : CallOptions) (call : Call) :
      Reachable engine store → Reachable engine (engine.call store options call).1
  | failWrites {store : Store} (model : String) :
      Reachable engine store → Reachable engine (store.failWrites model)
  | clearFailures {store : Store} :
      Reachable engine store → Reachable engine store.clearFailures

theorem call_single (engine : Engine) (store : Store) (options : CallOptions) (model : String)
    (kind : InputKind) (item : Json) :
    engine.call store options (.single model kind item) =
      engine.runSingle store model kind item options := by
  cases kind <;> rfl

end Engine

/-! ### One transaction -/

namespace Store

/-- Where the work of a transaction starts. -/
def start (store : Store) (options : CallOptions) : Work :=
  ⟨store.begin options.timeout, store.drawn, options.cancellation⟩

variable {α : Type}

/-- A transaction leaves the tables as they were. Or it is not cancelled and has time up to its end,
and publishes what its work made of them. -/
theorem transact_ends (store : Store) (options : CallOptions) (work : Writing α) :
    (∃ violations, (store.transact options work).2 = .error violations ∧
      (store.transact options work).1.tables = store.tables) ∨
    ∃ a stop, work (store.start options) = .ok a stop ∧
      (store.start options).isCancelled = false ∧ stop.transaction.expired = false ∧
      store.transact options work =
        ({ store with tables := stop.tables, drawn := stop.drawn }, .ok a) := by
  unfold transact
  dsimp only
  split
  · exact .inl ⟨_, rfl, rfl⟩
  · rename_i hwanted
    split
    · exact .inl ⟨_, rfl, rfl⟩
    · rename_i a stop hrun
      obtain ⟨b, between, hwork, hrest⟩ := Writing.bind_eq_ok.mp hrun
      obtain ⟨u, after, hcheck, hpure⟩ := Writing.bind_eq_ok.mp hrest
      obtain ⟨rfl, rfl⟩ := Writing.pure_eq_ok.mp hpure
      obtain rfl := Writing.checkpoint_ok hcheck
      split
      · rename_i tables hcommit
        refine .inr ⟨b, after, hwork, Bool.eq_false_iff.mpr hwanted, ?_⟩
        unfold Transaction.commit Transaction.checkTime at hcommit
        split at hcommit
        · cases hcommit
        · rename_i htimely
          injection hcommit with htables
          rw [← htables]
          exact ⟨Bool.eq_false_iff.mpr htimely, rfl⟩
      · exact .inl ⟨_, rfl, rfl⟩

/-- A transaction leaves the tables as they were, or publishes what its work made of them. -/
theorem transact_cases (store : Store) (options : CallOptions) (work : Writing α) :
    (∃ violations, (store.transact options work).2 = .error violations ∧
      (store.transact options work).1.tables = store.tables) ∨
    ∃ a stop, work (store.start options) = .ok a stop ∧
      store.transact options work =
        ({ store with tables := stop.tables, drawn := stop.drawn }, .ok a) :=
  (store.transact_ends options work).imp_right fun ⟨a, stop, hwork, _, _, htransact⟩ =>
    ⟨a, stop, hwork, htransact⟩

theorem tables_transact_of_error {store : Store} {options : CallOptions} {work : Writing α}
    {violations : List Violation} (h : (store.transact options work).2 = .error violations) :
    (store.transact options work).1.tables = store.tables := by
  obtain ⟨_, -, htables⟩ | ⟨a, stop, -, htransact⟩ := store.transact_cases options work
  · exact htables
  · rw [htransact] at h
    cases h

/-- What the work of a transaction keeps, the transaction keeps. -/
theorem transact_keeps {store : Store} {options : CallOptions} {work : Writing α}
    (holds : Tables → Prop)
    (hwork : ∀ a stop, work (store.start options) = .ok a stop → holds stop.tables)
    (h : holds store.tables) : holds (store.transact options work).1.tables := by
  obtain ⟨_, -, htables⟩ | ⟨a, stop, hrun, htransact⟩ := store.transact_cases options work
  · rwa [htables]
  · rw [htransact]
    exact hwork a stop hrun

end Store

/-! ### What all work keeps -/

namespace Engine

/-- What is kept by every write and every deletion that an input asks for. -/
def KeepsInputs (engine : Engine) (holds : Tables → Prop) : Prop :=
  ∀ {name : String} {model : Model} {kind : InputKind} {input : Json} {prepared : Prepared}
    {start stop : Work} {json : Json}, engine.schema.model? name = some model →
    Prepared.ofInput engine.schema model kind input = .ok prepared →
    prepared.run engine.schema engine.sources model start = .ok json stop →
    holds start.tables → holds stop.tables

/-- What is kept by every invocation of a method that has a handler. -/
def KeepsMethods (engine : Engine) (holds : Tables → Prop) : Prop :=
  ∀ {name method : String} {model : Model} {exposed : Method} {handler : Handler}
    {id : Identity} {arguments : Record} {start stop : Work} {json : Json},
    engine.schema.model? name = some model → model.methods.get? method = some exposed →
    engine.handler? name method = some handler →
    exposed.invoke engine.schema model handler id arguments start = .ok json stop →
    holds start.tables → holds stop.tables

variable {engine : Engine} {holds : Tables → Prop}

theorem keepsMethods_of_no_handlers (h : engine.handlers = []) : engine.KeepsMethods holds := by
  intro name method model exposed handler id arguments start stop json _ _ hhandler
  unfold handler? at hhandler
  rw [h] at hhandler
  cases hhandler

theorem mem_handlers {name method : String} {handler : Handler}
    (h : engine.handler? name method = some handler) :
    ((name, method), handler) ∈ engine.handlers := by
  obtain ⟨before, behind, hentries, -⟩ := List.lookup_eq_some_iff.mp h
  rw [hentries]
  exact List.mem_append_right before List.mem_cons_self

theorem model?_of_findModel {schema : Schema} {name : String} {model : Model}
    (h : schema.findModel name = .ok model) : schema.model? name = some model := by
  unfold Schema.findModel at h
  split at h
  · rename_i found hfound
    injection h with heq
    exact heq ▸ hfound
  · cases h

theorem findModel_of_model? {schema : Schema} {name : String} {model : Model}
    (h : schema.model? name = some model) : schema.findModel name = .ok model := by
  unfold Schema.findModel
  rw [h]

theorem model?_of_findModel_error {schema : Schema} {name : String}
    {violations : List Violation} (h : schema.findModel name = .error violations) :
    schema.model? name = none := by
  unfold Schema.findModel at h
  split at h
  · cases h
  · rename_i hnone
    exact hnone

theorem findModel_ne_untold {schema : Schema} {name : String} {violations : List Violation}
    (h : schema.findModel name = .error violations) : violations ≠ [] := by
  unfold Schema.findModel at h
  split at h
  · cases h
  · rw [← Except.error.inj h]
    exact List.cons_ne_nil _ _

theorem of_findModel_bind {α : Type} {schema : Schema} {name : String} {model : Model}
    {prepare : Model → Checked α} {prepared : α}
    (h : (do let found ← schema.findModel name; let a ← prepare found; pure (found, a)) =
      (.ok (model, prepared) : Checked (Model × α))) :
    schema.model? name = some model ∧ prepare model = .ok prepared := by
  obtain ⟨found, hfound, hrest⟩ := Checked.bind_eq_ok.mp h
  obtain ⟨a, ha, hpure⟩ := Checked.bind_eq_ok.mp hrest
  obtain ⟨rfl, rfl⟩ := Prod.mk.inj (Except.ok.inj hpure)
  exact ⟨model?_of_findModel hfound, ha⟩

theorem runOne_of_prepared {name : String} {model : Model} {kind : InputKind} {item : Json}
    {plan : Prepared} {options : CallOptions} (hmodel : engine.schema.findModel name = .ok model)
    (hplan : Prepared.ofInput engine.schema model kind item = .ok plan) (store : Store) :
    engine.runOne store name kind item options =
      store.transact options (plan.run engine.schema engine.sources model) := by
  simp only [runOne, hmodel, bind, Except.bind, hplan, pure, Except.pure]

theorem runOne_keeps (hinputs : engine.KeepsInputs holds) (store : Store) (name : String)
    (kind : InputKind) (input : Json) (options : CallOptions) (h : holds store.tables) :
    holds (engine.runOne store name kind input options).1.tables := by
  unfold runOne
  split
  · exact h
  · rename_i model prepared hchecked
    obtain ⟨hmodel, hprepared⟩ := of_findModel_bind hchecked
    exact Store.transact_keeps holds
      (fun json stop hrun => hinputs hmodel hprepared hrun h) h

theorem runEach_cons (engine : Engine) (store : Store) (name : String) (kind : InputKind)
    (options : CallOptions) (index : Nat) (item : Json) (items : List Json) :
    engine.runEach name kind options store index (item :: items) =
      let one := engine.runOne store name kind item options
      let rest := engine.runEach name kind options one.1 (index + 1) items
      (rest.1, one.2.value? :: rest.2.1,
        one.2.violations.map (Violation.atIndex index) ++ rest.2.2) := by
  rw [runEach]
  cases hone : engine.runOne store name kind item options with
  | mk stop result => cases result <;> rfl

theorem runEach_keeps (hinputs : engine.KeepsInputs holds) (name : String) (kind : InputKind)
    (options : CallOptions) (items : List Json) (store : Store) (index : Nat)
    (h : holds store.tables) :
    holds (engine.runEach name kind options store index items).1.tables := by
  induction items generalizing store index with
  | nil => exact h
  | cons item items ih =>
      rw [runEach_cons]
      exact ih (engine.runOne store name kind item options).1 (index + 1)
        (runOne_keeps hinputs store name kind item options h)

theorem prepareAll_ok {model : Model} {kind : InputKind} {index : Nat} {items : List Json}
    {prepared : List Prepared} (h : engine.prepareAll model kind index items = .ok prepared) :
    items.Forall₂ (fun item plan => Prepared.ofInput engine.schema model kind item = .ok plan)
      prepared := by
  induction items generalizing index prepared with
  | nil =>
      obtain rfl : [] = prepared := Except.ok.inj h
      exact .nil
  | cons item items ih =>
      obtain ⟨plan, plans, hplan, hplans, rfl⟩ := Checked.both_eq_ok_iff.mp h
      refine .cons ?_ (ih hplans)
      split at hplan
      · rename_i found hfound
        rw [hfound, Except.ok.inj hplan]
      · cases hplan

theorem atIndex_ok {α : Type} {index : Nat} {work : Writing α} {start stop : Work} {a : α}
    (h : atIndex index work start = .ok a stop) : work start = .ok a stop := by
  unfold atIndex at h
  split at h
  · rename_i b between hwork
    rw [hwork, h]
  · cases h

theorem atIndex_error {α : Type} {index : Nat} {work : Writing α} {start stop : Work}
    {failure : Failure} (h : atIndex index work start = .error failure stop) :
    ∃ inner, work start = .error inner stop := by
  unfold atIndex at h
  split at h
  · cases h
  · rename_i inner between hwork
    injection h with _ hstop
    exact ⟨inner, hstop ▸ hwork⟩

theorem runPrepared_keeps {name : String} {model : Model} {kind : InputKind}
    (hinputs : engine.KeepsInputs holds) (hmodel : engine.schema.model? name = some model)
    {items : List Json} {prepared : List Prepared} {index : Nat}
    (hprepared : items.Forall₂
      (fun item plan => Prepared.ofInput engine.schema model kind item = .ok plan) prepared)
    {objects : List (Option Json)} {start stop : Work}
    (hrun : engine.runPrepared model index prepared start = .ok objects stop)
    (h : holds start.tables) : holds stop.tables := by
  induction hprepared generalizing index objects start with
  | nil =>
      obtain ⟨-, rfl⟩ := Writing.pure_eq_ok.mp hrun
      exact h
  | cons hplan hplans ih =>
      obtain ⟨object, between, hfirst, hrest⟩ := Writing.bind_eq_ok.mp hrun
      obtain ⟨others, after, hothers, hpure⟩ := Writing.bind_eq_ok.mp hrest
      obtain ⟨-, rfl⟩ := Writing.pure_eq_ok.mp hpure
      exact ih hothers (hinputs hmodel hplan (atIndex_ok hfirst) h)

theorem runTogether_keeps (hinputs : engine.KeepsInputs holds) (store : Store) (name : String)
    (kind : InputKind) (items : List Json) (options : CallOptions) (h : holds store.tables) :
    holds (engine.runTogether store name kind items options).1.tables := by
  unfold runTogether
  split
  · exact h
  · rename_i model prepared hchecked
    obtain ⟨hmodel, hprepared⟩ := of_findModel_bind hchecked
    have hkeeps : holds (store.transact options (engine.runPrepared model 0 prepared)).1.tables :=
      Store.transact_keeps holds
        (fun objects stop hrun =>
          runPrepared_keeps hinputs hmodel (prepareAll_ok hprepared) hrun h) h
    split <;> rename_i heq <;> rwa [heq] at hkeeps

theorem bulk_keeps (hinputs : engine.KeepsInputs holds) (store : Store) (name : String)
    (kind : InputKind) (items : List Json) (policy : BulkPolicy) (options : CallOptions)
    (h : holds store.tables) :
    holds (engine.bulk store name kind items policy options).1.tables := by
  cases policy with
  | allOrNothing => exact runTogether_keeps hinputs store name kind items options h
  | bestEffort => exact runEach_keeps hinputs name kind options items store 0 h

/-- An invocation leaves the tables as they are, or runs the handler of a method of the model on the
record that its arguments name. -/
theorem invoke_cases (engine : Engine) (store : Store) (name method : String) (args : Json)
    (options : CallOptions) :
    (engine.invoke store name method args options).1.tables = store.tables ∨
    ∃ model exposed id arguments handler json stop, engine.schema.model? name = some model ∧
      model.methods.get? method = some exposed ∧
      exposed.readArguments model args = .ok (id, arguments) ∧
      engine.handler? name method = some handler ∧
      exposed.invoke engine.schema model handler id arguments (store.start options) =
        .ok json stop ∧
      (engine.invoke store name method args options).1.tables = stop.tables := by
  unfold invoke
  dsimp only
  split
  · exact .inl rfl
  · rename_i found hfound
    split
    · exact .inl rfl
    · rename_i exposed hexposed
      split
      · exact .inl rfl
      · rename_i id arguments hread
        split
        · exact .inl rfl
        · rename_i handler hhandler
          obtain ⟨_, -, htables⟩ | ⟨json, stop, hrun, htransact⟩ := store.transact_cases options
            (exposed.invoke engine.schema found handler id arguments)
          · exact .inl htables
          · exact .inr ⟨found, exposed, id, arguments, handler, json, stop,
              model?_of_findModel hfound, hexposed, hread, hhandler, hrun,
              congrArg (·.1.tables) htransact⟩

theorem invoke_keeps (hmethods : engine.KeepsMethods holds) (store : Store)
    (name method : String) (args : Json) (options : CallOptions) (h : holds store.tables) :
    holds (engine.invoke store name method args options).1.tables := by
  rcases engine.invoke_cases store name method args options with
    htables | ⟨_, _, _, _, _, _, _, hmodel, hexposed, -, hhandler, hrun, htables⟩
  · rwa [htables]
  · rw [htables]
    exact hmethods hmodel hexposed hhandler hrun h

theorem mutate_keeps (hinputs : engine.KeepsInputs holds) (hmethods : engine.KeepsMethods holds)
    (store : Store) (name : String) (args : Json) (options : CallOptions)
    (h : holds store.tables) : holds (engine.mutate store name args options).1.tables := by
  have hinput : ∀ model kind,
      holds (engine.runInput store model kind args options).1.tables := by
    intro model kind
    unfold runInput
    split
    · exact h
    · exact runOne_keeps hinputs store model kind _ options h
  have hitems : ∀ model kind,
      holds (engine.runItems store model kind args options).1.tables := by
    intro model kind
    unfold runItems
    split
    · exact h
    · exact bulk_keeps hinputs store model kind _ _ options h
  unfold mutate
  split
  · exact h
  · dsimp only
    split <;> first
      | exact hinput _ _
      | exact hitems _ _
      | exact invoke_keeps hmethods store _ _ args options h
      | exact h

/-- What inputs and methods keep, every call keeps. -/
theorem call_keeps (hinputs : engine.KeepsInputs holds) (hmethods : engine.KeepsMethods holds)
    (store : Store) (options : CallOptions) (call : Call) (h : holds store.tables) :
    holds (engine.call store options call).1.tables := by
  cases call with
  | create model input => exact runOne_keeps hinputs store model .create input options h
  | update model input => exact runOne_keeps hinputs store model .update input options h
  | delete model input => exact runOne_keeps hinputs store model .delete input options h
  | bulk model kind items policy =>
      exact bulk_keeps hinputs store model kind items policy options h
  | invoke model method args => exact invoke_keeps hmethods store model method args options h
  | byName name args => exact mutate_keeps hinputs hmethods store name args options h

/-- What holds of no records at all, and is kept by inputs and methods, holds of every store that
calls lead to. -/
theorem Reachable.tables_hold {store : Store} (hstore : engine.Reachable store)
    (hinputs : engine.KeepsInputs holds) (hmethods : engine.KeepsMethods holds)
    (hempty : holds {}) : holds store.tables := by
  induction hstore with
  | empty failing drawn => exact hempty
  | call options call _ ih => exact call_keeps hinputs hmethods _ options call ih
  | failWrites model _ ih => exact ih
  | clearFailures _ ih => exact ih

end Engine

/-! ### An engine to try calls with -/

theorem Registry.schema_eq_ok {registry : Registry} (schema : Schema)
    (h : registry.schema.toOption.isSome = true) :
    registry.schema = .ok (registry.schema.toOption.getD schema) := by
  cases hschema : registry.schema with
  | ok found => rfl
  | error conflict =>
      rw [hschema] at h
      cases h

/-- Nodes, each of which may refer to a next one, and goes when that one goes. -/
def chainRegistry : Registry where
  models := [{
    name := "Node"
    relations := [{
      name := "next", target := "Node", kind := .foreignKey, nullable := true
      onDelete := .cascade }] }]

def chainSchema : Schema :=
  match chainRegistry.schema with
  | .ok schema => schema
  | .error _ => {}

theorem schema_chainRegistry : chainRegistry.schema = .ok chainSchema := by
  have hok : (match chainRegistry.schema with | .ok _ => true | .error _ => false) = true := by
    decide +kernel
  unfold chainSchema
  cases hschema : chainRegistry.schema with
  | ok schema => rfl
  | error conflict =>
      rw [hschema] at hok
      cases hok

def chainEngine : Engine where
  schema := chainSchema
  sources := {
    instant := fun _ => {
      date := { year := 2000, month := 1, day := 1, valid := by decide }
      time := {
        hour := 0, minute := 0, second := 0, nano := 0
        hour_lt := by decide, minute_lt := by decide, second_lt := by decide
        nano_lt := by decide } }
    uuid := fun _ => { value := 0, value_lt := by decide } }

/-- The record of a node that refers to another one, or to none. -/
def chainNode (id : Int) (next : Value) : Record := Keyed.ofList [("id", .int id), ("next", next)]

end ModelSurface
