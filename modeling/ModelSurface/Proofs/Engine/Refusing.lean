import ModelSurface.Proofs.Deletion.Refusing
import ModelSurface.Proofs.Engine.BulkPolicies
import ModelSurface.Proofs.Engine.Integrity
import ModelSurface.Proofs.Write.Refusing

/-!
# Calls that are refused

A call that nothing from outside makes fail is carried out, or callers are told why it is not: no
fault of the store and no broken rule of the library comes to light.
-/

namespace ModelSurface

/-- Violations that name the reason of a refusal. -/
def Checked.Told {α : Type} (result : Checked α) : Prop :=
  ∀ violation ∈ result.violations, violation.kind ≠ .transactionFailure

namespace Checked.Told

variable {α β γ : Type}

theorem ok (a : α) : Told (.ok a) := fun _ h => absurd h List.not_mem_nil

theorem fault {field : String} {cause : Cause} (h : cause.kind ≠ .transactionFailure) :
    Told (Checked.fault field cause : Checked α) := by
  intro violation hmem
  rw [List.mem_singleton.mp hmem]
  exact h

theorem both {f : α → β → γ} {a : Checked α} {b : Checked β} (ha : a.Told) (hb : b.Told) :
    (Checked.both f a b).Told := by
  intro violation hmem
  rw [Checked.violations_both] at hmem
  exact (List.mem_append.mp hmem).elim (ha violation) (hb violation)

theorem map {f : α → β} {a : Checked α} (ha : a.Told) : Told (a.map f) := by
  cases a with
  | ok x => exact ok (f x)
  | error violations => exact ha

end Checked.Told

/-! ### Inputs -/

namespace Prepared

variable {schema : Schema} {model : Model}

theorem readDelete_told (model : Model) (input : Json) : (readDelete model input).Told := by
  unfold readDelete
  split
  · refine .both ?_ ?_
    · split
      · exact .ok ()
      · intro violation hmem
        obtain ⟨key, -, rfl⟩ := List.mem_map.mp hmem
        exact fun h => by cases h
    · split
      · exact .fault fun h => by cases h
      · split
        · exact .ok _
        · exact .fault fun h => by cases h
  · intro violation hmem
    rw [List.mem_singleton.mp hmem]
    exact fun h => by cases h

/-- What is wrong with an input is told. -/
theorem ofInput_told (hschema : schema.Sound) (hmodel : model ∈ schema.models) (kind : InputKind)
    (input : Json) : (ofInput schema model kind input).Told := by
  unfold ofInput
  by_cases hkind : kind = .delete
  · rw [if_pos hkind]
    exact (readDelete_told model input).map
  · rw [if_neg hkind]
    unfold readWrite
    cases hplan : Plan.ofInput schema model kind input with
    | error violations =>
        intro violation hmem
        rw [Plan.ofInput_error hschema hmodel hkind hplan violation hmem]
        exact fun h => by cases h
    | ok plan =>
        dsimp only [bind, Except.bind]
        split
        · exact .ok _
        · intro violation hmem
          rw [List.mem_singleton.mp hmem]
          exact fun h => by cases h

end Prepared

namespace Engine

variable {engine : Engine} {store : Store} {name : String} {model : Model} {kind : InputKind}
  {input : Json} {options : CallOptions}

theorem findModel_told (schema : Schema) (name : String) : (schema.findModel name).Told := by
  unfold Schema.findModel
  split
  · exact .ok _
  · exact .fault fun h => by cases h

/-! ### Between calls -/

/-- Tables whose references are stored, and whose sequences are ahead. -/
structure Consistent (engine : Engine) (tables : Tables) : Prop where
  intact : tables.Intact engine.schema
  ahead : tables.Ahead

theorem ahead_of_delete (hschema : engine.schema.Sound) {model : String} {id : Identity}
    {start stop : Work} {record : Record} (hidentified : start.tables.Identified engine.schema)
    (hahead : start.tables.Ahead)
    (hrun : Deletion.delete engine.schema model id start = .ok record stop) :
    stop.tables.Ahead := by
  obtain ⟨-, gone, houtcome⟩ :=
    (Deletion.delete_ends hschema.regular model id hidentified).ok hrun
  intro other number hstored
  obtain ⟨new, hnew⟩ := Option.isSome_iff_exists.mp hstored
  obtain ⟨-, old, hold, -⟩ := houtcome.of_after ⟨other, .int number⟩ hnew
  rw [houtcome.sequences]
  exact hahead other number (Option.isSome_of_eq_some hold)

theorem keepsInputs_consistent (hschema : engine.schema.Sound) :
    engine.KeepsInputs engine.Consistent := by
  refine keepsInputs_of hschema ?_ ?_
  · intro plan order start stop record hplan hrun h
    exact ⟨Plan.intact_of_apply hschema hplan h.intact hrun,
      Plan.ahead_of_apply (hplan.models hschema) h.ahead hrun⟩
  · intro model id start stop record hrun h
    exact ⟨intact_of_delete hschema h.intact hrun,
      ahead_of_delete hschema h.intact.identified h.ahead hrun⟩

/-! ### Calls -/

/-- What an input asks for is done or refused, unless an identifier clashes. -/
theorem run_safe (hschema : engine.schema.Sound) (hmodel : model ∈ engine.schema.models)
    {prepared : Prepared}
    (hprepared : Prepared.ofInput engine.schema model kind input = .ok prepared) {start : Work}
    (hstart : engine.Consistent start.tables) :
    Writing.Safe (prepared.run engine.schema engine.sources model) start (fun _ _ => True)
      fun failure stop => failure.IsTold ∨
        ¬ engine.sources.Fresh engine.schema start.tables start.drawn stop.drawn := by
  cases prepared with
  | write plan order =>
      obtain ⟨hkind, hplan, horder⟩ := ofInput_write hprepared
      exact .bind _ (Plan.apply_safe (fun _ _ => .inl) hschema
        (Plan.ofInput_sound hschema hmodel hkind hplan) horder
        (Plan.ofInput_planned hschema hmodel hkind hplan) hstart.intact hstart.ahead
        fun _ _ => .inr) fun _ _ _ => .pure trivial
  | delete id =>
      exact .bind _ ((Deletion.delete_safe hschema.regular model.name id
        hstart.intact.identified).mono (fun _ _ h => h) fun _ _ => .inl) fun _ _ _ => .pure trivial

theorem calm_start (hfailing : store.failing = []) (htimeout : options.timeout = none)
    (hcancellation : options.cancellation ≠ some true) : (store.start options).Calm where
  timely := by
    change (options.timeout == some 0) = false
    rw [htimeout]
    rfl
  willing := hfailing
  wanted := beq_false_of_ne hcancellation

section

variable (hschema : engine.schema.Sound) (hstore : engine.Consistent store.tables)
  (hfailing : store.failing = []) (htimeout : options.timeout = none)
  (hcancellation : options.cancellation ≠ some true)
  (hfresh : engine.sources.Fresh engine.schema store.tables store.drawn
    (engine.runOne store name kind input options).1.drawn)

include hschema hstore hfailing htimeout hcancellation hfresh

theorem run_told (hmodel : engine.schema.model? name = some model) {prepared : Prepared}
    (hprepared : Prepared.ofInput engine.schema model kind input = .ok prepared)
    {failure : Failure} {stop : Work}
    (hrun : prepared.run engine.schema engine.sources model (store.start options) =
      .error failure stop) : failure.IsTold := by
  have hmem := (hschema.model?_eq_some.mp hmodel).1
  rw [runOne_of_prepared (findModel_of_model? hmodel) hprepared,
    Store.transact_of_error hcancellation hrun] at hfresh
  have hstart : engine.Consistent (store.start options).tables := hstore
  have hsafe := run_safe hschema hmem hprepared hstart
  exact (hsafe.error (calm_start hfailing htimeout hcancellation) hrun).resolve_right
    fun hclash => hclash hfresh

/-- What callers are told of a single call that nothing from outside makes fail is a reason. -/
theorem runOne_told : (engine.runOne store name kind input options).2.Told := by
  cases hfound : engine.schema.findModel name with
  | error violations =>
      have htold := findModel_told engine.schema name
      rw [hfound] at htold
      rw [runOne_of_unknown hfound]
      exact htold
  | ok model =>
      have hmodel := model?_of_findModel hfound
      have hmem := (hschema.model?_eq_some.mp hmodel).1
      cases hinput : Prepared.ofInput engine.schema model kind input with
      | error violations =>
          have htold := Prepared.ofInput_told hschema hmem kind input
          rw [hinput] at htold
          rw [runOne_of_refused hfound hinput]
          exact htold
      | ok prepared =>
          rw [runOne_of_prepared hfound hinput]
          have horderly := prepared.orderly_run engine.schema engine.sources model
          cases hrun : prepared.run engine.schema engine.sources model (store.start options) with
          | ok object stop =>
              rw [Store.transact_of_ok horderly htimeout hcancellation hrun]
              exact .ok object
          | error failure stop =>
              obtain ⟨violations, rfl, htold⟩ := run_told hschema hstore hfailing htimeout
                hcancellation hfresh hmodel hinput hrun
              rw [Store.transact_of_error hcancellation hrun]
              exact htold

end

theorem violations_ofChecked (result : Checked Json) :
    (MutationResult.ofChecked result).violations = result.violations := by
  cases result <;> rfl

/-- When a create, an update or a delete fails in a store that calls lead to, and neither an
injected failure nor a timeout, a cancellation or a clash of generated identifiers is the cause,
then the input or the stored records are: what the work fails with is a refusal, and each violation
that callers get is of a kind that says why. -/
theorem failures_told {registry : Registry} (hschema : registry.schema = .ok engine.schema)
    (hhandlers : engine.handlers = []) (hstore : engine.Reachable store)
    (hfailing : store.failing = []) (htimeout : options.timeout = none)
    (hcancellation : options.cancellation ≠ some true)
    (hfresh : engine.sources.Fresh engine.schema store.tables store.drawn
      (engine.call store options (.single name kind input)).1.drawn) :
    (∀ violation ∈ (engine.call store options (.single name kind input)).2.violations,
      violation.kind ∈
        [ErrorKind.validation, .notFound, .circularReference, .cascadeRestricted]) ∧
    ∀ model prepared failure stop, engine.schema.model? name = some model →
      Prepared.ofInput engine.schema model kind input = .ok prepared →
      prepared.run engine.schema engine.sources model (store.start options) =
        .error failure stop → ∃ violations, failure = .refused violations := by
  have hsound := Registry.sound_schema hschema
  have hconsistent : engine.Consistent store.tables :=
    hstore.tables_hold (keepsInputs_consistent hsound) (keepsMethods_of_no_handlers hhandlers)
      ⟨Tables.intact_empty, Tables.ahead_empty⟩
  rw [call_single] at hfresh ⊢
  constructor
  · intro violation hmem
    change violation ∈
      (MutationResult.ofChecked (engine.runOne store name kind input options).2).violations at hmem
    rw [violations_ofChecked] at hmem
    have htold := runOne_told hsound hconsistent hfailing htimeout hcancellation hfresh violation
      hmem
    cases hkind : violation.kind with
    | transactionFailure => exact absurd hkind htold
    | _ => simp
  · intro model prepared failure stop hmodel hprepared hrun
    obtain ⟨violations, hfailure, -⟩ := run_told hsound hconsistent hfailing htimeout
      hcancellation hfresh hmodel hprepared hrun
    exact ⟨violations, hfailure⟩

/-- A node that is to refer to one that is not there. -/
def strayInput : Json := .obj [("next", .num (.int 99))]

def strayPlan : Plan := (chainEngine.plan? "Node" .create strayInput).getD ⟨[], []⟩

theorem create_strayInput : chainEngine.runOne {} "Node" .create strayInput {} =
    Store.transact {} {} (do pure (Record.toJson (← strayPlan.apply chainEngine.sources [0]))) := by
  have hplanned : (chainEngine.plan? "Node" .create strayInput).isSome = true := by decide +kernel
  have horder : strayPlan.order = .ok [0] :=
    order_of_single (by decide +kernel) (by decide +kernel)
  exact runOne_of_plan? (by decide) (eq_some_getD hplanned) horder {} {}

/-- The node is refused when its identity has been drawn. -/
theorem failures_told_stray :
    let result := chainEngine.call {} {} (.single "Node" .create strayInput)
    result.1.drawn = 1 ∧ result.2.violations.map Violation.kind = [.validation] ∧
      ∀ violation ∈ result.2.violations, violation.kind ∈
        [ErrorKind.validation, .notFound, .circularReference, .cascadeRestricted] := by
  intro result
  have hdrawn : result.1.drawn = 1 := by
    change (chainEngine.runOne {} "Node" .create strayInput {}).1.drawn = 1
    rw [create_strayInput]
    decide +kernel
  have hfresh : chainEngine.sources.Fresh chainSchema {} 0 result.1.drawn := by
    rw [hdrawn]
    refine ⟨fun _ _ _ _ _ _ => rfl, ?_⟩
    intro model _ _ j k _ hlt hlast
    omega
  refine ⟨hdrawn, ?_, (failures_told schema_chainRegistry rfl (.empty [] 0) rfl rfl
    (by decide) hfresh).1⟩
  change (MutationResult.ofChecked (chainEngine.runOne {} "Node" .create strayInput
    {}).2).violations.map Violation.kind = [.validation]
  rw [create_strayInput]
  decide +kernel

end Engine

end ModelSurface
