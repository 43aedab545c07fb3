import ModelSurface.Proofs.Engine.Atomicity
import ModelSurface.Proofs.Engine.Integrity

/-!
# Calls put together from inputs

A call carries out the plans of its inputs one after another, or deletes record after record. What
is known of a single input, and is passed on from each input to the next, is known of every call
that has inputs, bulk calls and calls by name included. A call that has none invokes a method, or
does nothing to the store.
-/

namespace ModelSurface

/-! ### What a call writes -/

/-- The inputs of an operation that writes or deletes records. -/
def OperationKind.inputs? (args : Json) : OperationKind → Option (InputKind × List Json)
  | .create => (args.get? "input").map fun input => (.create, [input])
  | .update => (args.get? "input").map fun input => (.update, [input])
  | .delete => (args.get? "input").map fun input => (.delete, [input])
  | .bulkCreate => (Engine.readBulk args).value?.map fun read => (.create, read.1)
  | .bulkUpdate => (Engine.readBulk args).value?.map fun read => (.update, read.1)
  | .bulkDelete => (Engine.readBulk args).value?.map fun read => (.delete, read.1)
  | .method _ | .single | .list | .pages => none

/-- The model and the inputs of a call that writes or deletes records. -/
def Call.inputs? (schema : Schema) : Call → Option (String × InputKind × List Json)
  | .create model input => some (model, .create, [input])
  | .update model input => some (model, .update, [input])
  | .delete model input => some (model, .delete, [input])
  | .bulk model kind items _ => some (model, kind, items)
  | .invoke _ _ _ => none
  | .byName name args => do
    let operation ← schema.operation? name
    let (kind, inputs) ← operation.kind.inputs? args
    some (operation.model, kind, inputs)

/-- The record whose method is invoked. -/
def Schema.receiver? (schema : Schema) (model method : String) (args : Json) : Option RowKey := do
  let found ← schema.model? model
  let exposed ← found.methods.get? method
  let (id, _) ← (exposed.readArguments found args).value?
  some ⟨found.name, id⟩

/-- The record whose method a call invokes. -/
def Call.receiver? (schema : Schema) : Call → Option RowKey
  | .invoke model method args => schema.receiver? model method args
  | .byName name args => do
    let operation ← schema.operation? name
    match operation.kind with
    | .method method => schema.receiver? operation.model method args
    | _ => none
  | _ => none

/-- What has come of each input: an object, or nothing. -/
def MutationResult.outcomes : MutationResult → List (Option Json)
  | .single object => [some object]
  | .bulk objects _ => objects
  | .failure _ => []

namespace Engine

/-- What is planned for an input. A deletion has no plan. -/
def planned (engine : Engine) (name : String) (kind : InputKind) (input : Json) : List Plan :=
  if kind = .delete then [] else (engine.plan? name kind input).toList

/-- The plans that have been carried out for the inputs that an object has come of. -/
def carriedOut (engine : Engine) (name : String) (kind : InputKind) :
    List Json → List (Option Json) → List Plan
  | input :: inputs, outcome :: outcomes =>
    (if outcome.isSome then engine.planned name kind input else []) ++
      carriedOut engine name kind inputs outcomes
  | _, _ => []

/-- The plans that a call has carried out, by its result. -/
def plans (engine : Engine) (call : Call) (result : MutationResult) : List Plan :=
  match call.inputs? engine.schema with
  | some (name, kind, inputs) => engine.carriedOut name kind inputs result.outcomes
  | none => []

variable {engine : Engine} {name : String} {kind : InputKind}

theorem planned_of_delete {input : Json} (hkind : kind = .delete) :
    engine.planned name kind input = [] := if_pos hkind

theorem planned_of_plan? {input : Json} {plan : Plan} (hkind : kind ≠ .delete)
    (hplan : engine.plan? name kind input = some plan) :
    engine.planned name kind input = [plan] := by
  rw [planned, if_neg hkind, hplan, Option.toList_some]

theorem carriedOut_nil (engine : Engine) (name : String) (kind : InputKind) (inputs : List Json) :
    engine.carriedOut name kind inputs [] = [] := by
  cases inputs <;> rfl

theorem carriedOut_single (engine : Engine) (name : String) (kind : InputKind) (input : Json)
    (outcome : Option Json) : engine.carriedOut name kind [input] [outcome] =
      if outcome.isSome then engine.planned name kind input else [] :=
  List.append_nil _

theorem plans_of_inputs {call : Call} {inputs : List Json}
    (h : call.inputs? engine.schema = some (name, kind, inputs)) (result : MutationResult) :
    engine.plans call result = engine.carriedOut name kind inputs result.outcomes := by
  unfold plans
  rw [h]

theorem plans_of_no_inputs {call : Call} (h : call.inputs? engine.schema = none)
    (result : MutationResult) : engine.plans call result = [] := by
  unfold plans
  rw [h]

theorem kind_of_delete {schema : Schema} {model : Model} {input : Json} {id : Identity}
    (h : Prepared.ofInput schema model kind input = .ok (.delete id)) : kind = .delete := by
  unfold Prepared.ofInput at h
  by_contra hkind
  rw [if_neg hkind] at h
  obtain ⟨plan, -, hordered⟩ := Checked.bind_eq_ok.mp h
  split at hordered <;> cases hordered

/-! ### From input to input -/

/-- What inputs do to tables, by the plans that are carried out for them: an input that succeeds
leads from the tables in front of it to those behind it, if something `holds` in front of it that
every input keeps, and what inputs have done one after another adds up. -/
structure Composes (engine : Engine) (holds : Tables → Prop)
    (leads : InputKind → List Plan → Tables → Tables → Prop) : Prop where
  keeps : engine.KeepsInputs holds
  refl : ∀ kind {tables : Tables}, holds tables → leads kind [] tables tables
  trans : ∀ {kind : InputKind} {plans plans' : List Plan} {before between after : Tables},
    leads kind plans before between → leads kind plans' between after →
    leads kind (plans ++ plans') before after
  run : ∀ {name : String} {model : Model} {kind : InputKind} {input : Json} {prepared : Prepared}
    {start stop : Work} {json : Json}, engine.schema.model? name = some model →
    Prepared.ofInput engine.schema model kind input = .ok prepared →
    prepared.run engine.schema engine.sources model start = .ok json stop →
    holds start.tables → leads kind (engine.planned name kind input) start.tables stop.tables

namespace Composes

variable {holds : Tables → Prop} {leads : InputKind → List Plan → Tables → Tables → Prop}
  {store : Store}

theorem of_eq (hcomposes : engine.Composes holds leads) {before after : Tables}
    (heq : after = before) (h : holds before) : leads kind [] before after := by
  rw [heq]
  exact hcomposes.refl kind h

theorem runOne (hcomposes : engine.Composes holds leads) (name : String) (kind : InputKind)
    (input : Json) (options : CallOptions) (h : holds store.tables) :
    leads kind
      (engine.carriedOut name kind [input] [(engine.runOne store name kind input options).2.value?])
      store.tables (engine.runOne store name kind input options).1.tables := by
  rw [carriedOut_single]
  cases hresult : (engine.runOne store name kind input options).2 with
  | error violations =>
      exact hcomposes.of_eq (engine.runOne_of_error store options hresult) h
  | ok object =>
      rw [Checked.value?, Option.isSome_some, if_pos rfl]
      unfold Engine.runOne at hresult ⊢
      split at hresult
      · cases hresult
      · rename_i model prepared hchecked
        obtain ⟨hmodel, hprepared⟩ := of_findModel_bind hchecked
        obtain ⟨violations, herror, -⟩ | ⟨json, stop, hrun, htransact⟩ :=
          store.transact_cases options (prepared.run engine.schema engine.sources model)
        · rw [herror] at hresult
          cases hresult
        · rw [htransact]
          exact hcomposes.run hmodel hprepared hrun h

theorem runEach (hcomposes : engine.Composes holds leads) (options : CallOptions)
    (inputs : List Json) (index : ℕ) (h : holds store.tables) :
    leads kind
      (engine.carriedOut name kind inputs
        (engine.runEach name kind options store index inputs).2.1)
      store.tables (engine.runEach name kind options store index inputs).1.tables := by
  induction inputs generalizing store index with
  | nil => exact hcomposes.refl kind h
  | cons input inputs ih =>
      have hone := hcomposes.runOne name kind input options h
      have hrest := ih (index + 1) (runOne_keeps hcomposes.keeps store name kind input options h)
      rw [carriedOut_single] at hone
      rw [runEach_cons]
      exact hcomposes.trans hone hrest

theorem runPrepared (hcomposes : engine.Composes holds leads) {model : Model}
    (hmodel : engine.schema.model? name = some model)
    {inputs : List Json} {prepared : List Prepared} (hprepared : inputs.Forall₂
      (fun input plan => Prepared.ofInput engine.schema model kind input = .ok plan) prepared)
    {index : ℕ} {objects : List (Option Json)} {start stop : Work}
    (hrun : engine.runPrepared model index prepared start = .ok objects stop)
    (h : holds start.tables) :
    leads kind (engine.carriedOut name kind inputs objects) start.tables stop.tables := by
  induction hprepared generalizing index objects start with
  | nil =>
      obtain ⟨rfl, rfl⟩ := Writing.pure_eq_ok.mp hrun
      exact hcomposes.refl kind h
  | cons hplan hplans ih =>
      obtain ⟨object, between, hfirst, hrest⟩ := Writing.bind_eq_ok.mp hrun
      obtain ⟨others, after, hothers, hpure⟩ := Writing.bind_eq_ok.mp hrest
      obtain ⟨rfl, rfl⟩ := Writing.pure_eq_ok.mp hpure
      have hdone := atIndex_ok hfirst
      exact hcomposes.trans (hcomposes.run hmodel hplan hdone h)
        (ih hothers (hcomposes.keeps hmodel hplan hdone h))

theorem runTogether (hcomposes : engine.Composes holds leads) (inputs : List Json)
    (options : CallOptions) (h : holds store.tables) :
    leads kind
      (engine.carriedOut name kind inputs
        (engine.runTogether store name kind inputs options).2.outcomes)
      store.tables (engine.runTogether store name kind inputs options).1.tables := by
  unfold Engine.runTogether
  split
  · rw [MutationResult.outcomes, carriedOut_nil]
    exact hcomposes.refl kind h
  · rename_i model prepared hchecked
    obtain ⟨hmodel, hprepared⟩ := of_findModel_bind hchecked
    obtain ⟨violations, herror, hkept⟩ | ⟨objects, stop, hrun, htransact⟩ :=
      store.transact_cases options (engine.runPrepared model 0 prepared)
    · split <;> rename_i heq <;> rw [heq] at herror hkept
      · cases herror
      · rw [MutationResult.outcomes, carriedOut_nil]
        exact hcomposes.of_eq hkept h
    · rw [htransact]
      exact hcomposes.runPrepared hmodel (prepareAll_ok hprepared) hrun h

theorem bulk (hcomposes : engine.Composes holds leads) (inputs : List Json) (policy : BulkPolicy)
    (options : CallOptions) (h : holds store.tables) :
    leads kind
      (engine.carriedOut name kind inputs
        (engine.bulk store name kind inputs policy options).2.outcomes)
      store.tables (engine.bulk store name kind inputs policy options).1.tables := by
  cases policy with
  | allOrNothing => exact hcomposes.runTogether inputs options h
  | bestEffort => exact hcomposes.runEach options inputs 0 h

theorem runSingle (hcomposes : engine.Composes holds leads) (input : Json) (options : CallOptions)
    (h : holds store.tables) :
    leads kind
      (engine.carriedOut name kind [input]
        (engine.runSingle store name kind input options).2.outcomes)
      store.tables (engine.runSingle store name kind input options).1.tables := by
  have hone := hcomposes.runOne name kind input options h
  unfold Engine.runSingle
  dsimp only
  cases hresult : (engine.runOne store name kind input options).2 with
  | ok object =>
      rw [hresult] at hone
      exact hone
  | error violations =>
      rw [hresult] at hone
      exact hone

theorem runInput (hcomposes : engine.Composes holds leads) {args : Json} {inputs : List Json}
    (options : CallOptions)
    (hinputs : (args.get? "input").map (fun input => (kind, [input])) = some (kind, inputs))
    (h : holds store.tables) :
    leads kind
      (engine.carriedOut name kind inputs (engine.runInput store name kind args options).2.outcomes)
      store.tables (engine.runInput store name kind args options).1.tables := by
  obtain ⟨input, hinput, heq⟩ := Option.map_eq_some_iff.mp hinputs
  obtain ⟨-, rfl⟩ := Prod.mk.inj heq
  unfold Engine.runInput
  rw [hinput]
  exact hcomposes.runSingle input options h

theorem runItems (hcomposes : engine.Composes holds leads) {args : Json} {inputs : List Json}
    (options : CallOptions)
    (hinputs : (readBulk args).value?.map (fun read => (kind, read.1)) = some (kind, inputs))
    (h : holds store.tables) :
    leads kind
      (engine.carriedOut name kind inputs (engine.runItems store name kind args options).2.outcomes)
      store.tables (engine.runItems store name kind args options).1.tables := by
  obtain ⟨read, hread, heq⟩ := Option.map_eq_some_iff.mp hinputs
  obtain ⟨-, rfl⟩ := Prod.mk.inj heq
  unfold Engine.runItems
  cases hbulk : readBulk args with
  | error violations =>
      rw [hbulk] at hread
      cases hread
  | ok found =>
      rw [hbulk] at hread
      obtain rfl := Option.some.inj hread
      exact hcomposes.bulk found.1 found.2 options h

theorem mutate (hcomposes : engine.Composes holds leads) {operation : Operation} {args : Json}
    {inputs : List Json} (options : CallOptions) {called : String}
    (hoperation : engine.schema.operation? called = some operation)
    (hinputs : operation.kind.inputs? args = some (kind, inputs)) (h : holds store.tables) :
    leads kind
      (engine.carriedOut operation.model kind inputs
        (engine.mutate store called args options).2.outcomes)
      store.tables (engine.mutate store called args options).1.tables := by
  unfold Engine.mutate
  rw [hoperation]
  dsimp only
  cases hkind : operation.kind with
  | create | update | delete =>
      rw [hkind] at hinputs
      obtain ⟨input, hinput, heq⟩ := Option.map_eq_some_iff.mp hinputs
      obtain ⟨rfl, rfl⟩ := Prod.mk.inj heq
      exact hcomposes.runInput options hinputs h
  | bulkCreate | bulkUpdate | bulkDelete =>
      rw [hkind] at hinputs
      obtain ⟨read, hread, heq⟩ := Option.map_eq_some_iff.mp hinputs
      obtain ⟨rfl, rfl⟩ := Prod.mk.inj heq
      exact hcomposes.runItems options hinputs h
  | method method =>
      rw [hkind] at hinputs
      cases hinputs
  | single | list | pages =>
      rw [hkind] at hinputs
      cases hinputs

/-- What a call leads to that has inputs. -/
theorem call (hcomposes : engine.Composes holds leads) {call : Call} {inputs : List Json}
    (options : CallOptions) (hinputs : call.inputs? engine.schema = some (name, kind, inputs))
    (h : holds store.tables) :
    leads kind (engine.plans call (engine.call store options call).2) store.tables
      (engine.call store options call).1.tables := by
  rw [plans_of_inputs hinputs]
  cases call with
  | create | update | delete =>
      obtain ⟨rfl, heq⟩ := Prod.mk.inj (Option.some.inj hinputs)
      obtain ⟨rfl, rfl⟩ := Prod.mk.inj heq
      exact hcomposes.runSingle _ options h
  | bulk model kind items policy =>
      obtain ⟨rfl, heq⟩ := Prod.mk.inj (Option.some.inj hinputs)
      obtain ⟨rfl, rfl⟩ := Prod.mk.inj heq
      exact hcomposes.bulk _ policy options h
  | invoke model method args => cases hinputs
  | byName called args =>
      obtain ⟨operation, hoperation, hrest⟩ := Option.bind_eq_some_iff.mp hinputs
      obtain ⟨⟨_, _⟩, hread, heq⟩ := Option.bind_eq_some_iff.mp hrest
      cases heq
      exact hcomposes.mutate options hoperation hread h

end Composes

/-! ### Calls that have no inputs -/

/-- A call that has no inputs leaves the store as it is, or invokes a method. -/
theorem call_of_no_inputs {call : Call} (hinputs : call.inputs? engine.schema = none)
    (store : Store) (options : CallOptions) :
    (engine.call store options call).1 = store ∨ ∃ model method args,
      call.receiver? engine.schema = engine.schema.receiver? model method args ∧
      (engine.call store options call).1 = (engine.invoke store model method args options).1 := by
  cases call with
  | create | update | delete => cases hinputs
  | bulk => cases hinputs
  | invoke model method args => exact .inr ⟨model, method, args, rfl, rfl⟩
  | byName name args =>
      have hcall : engine.call store options (.byName name args) =
        engine.mutate store name args options := rfl
      rw [hcall]
      unfold mutate
      cases hoperation : engine.schema.operation? name with
      | none => exact .inl rfl
      | some operation =>
          simp only [Call.inputs?, Call.receiver?, hoperation, Option.bind_eq_bind,
            Option.bind_some] at hinputs ⊢
          cases hkind : operation.kind with
          | create | update | delete =>
              rw [hkind, OperationKind.inputs?, Option.bind_map] at hinputs
              unfold runInput
              cases hinput : args.get? "input" with
              | none => exact .inl rfl
              | some input =>
                  rw [hinput] at hinputs
                  cases hinputs
          | bulkCreate | bulkUpdate | bulkDelete =>
              rw [hkind, OperationKind.inputs?, Option.bind_map] at hinputs
              unfold runItems
              cases hread : readBulk args with
              | error violations => exact .inl rfl
              | ok read =>
                  rw [hread] at hinputs
                  cases hinputs
          | method method => exact .inr ⟨operation.model, method, args, rfl, rfl⟩
          | single | list | pages => exact .inl rfl

end Engine

end ModelSurface
