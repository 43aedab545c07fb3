import ModelSurface.Proofs.Deletion.Linked
import ModelSurface.Proofs.Engine.Call
import ModelSurface.Proofs.Write.Applying

/-!
# Referential integrity

Whatever inputs callers give, in whatever order, every reference in the store leads to a stored
record.
-/

namespace ModelSurface.Engine

variable {engine : Engine}

theorem ofInput_write {schema : Schema} {model : Model} {kind : InputKind} {input : Json}
    {plan : Plan} {order : List Nat}
    (h : Prepared.ofInput schema model kind input = .ok (.write plan order)) :
    kind ≠ .delete ∧ Plan.ofInput schema model kind input = .ok plan ∧ plan.order = .ok order := by
  unfold Prepared.ofInput at h
  by_cases hkind : kind = .delete
  · rw [if_pos hkind] at h
    cases hread : Prepared.readDelete model input with
    | error violations => rw [hread] at h; cases h
    | ok id => rw [hread] at h; cases h
  · rw [if_neg hkind] at h
    obtain ⟨found, hfound, hordered⟩ := Checked.bind_eq_ok.mp h
    split at hordered
    · rename_i order horder
      obtain ⟨rfl, rfl⟩ := Prepared.write.inj (Except.ok.inj hordered)
      exact ⟨hkind, hfound, horder⟩
    · cases hordered

/-- What sound plans and deletions keep, all inputs keep. -/
theorem keepsInputs_of (hschema : engine.schema.Sound) {holds : Tables → Prop}
    (hwrite : ∀ {plan : Plan} {order : List Nat} {start stop : Work} {record : Record},
      plan.Sound engine.schema → plan.apply engine.sources order start = .ok record stop →
      holds start.tables → holds stop.tables)
    (hdelete : ∀ {model : String} {id : Identity} {start stop : Work} {record : Record},
      Deletion.delete engine.schema model id start = .ok record stop →
      holds start.tables → holds stop.tables) : engine.KeepsInputs holds := by
  intro name model kind input prepared start stop json hmodel hprepared hrun h
  obtain ⟨hmem, -⟩ := hschema.model?_eq_some.mp hmodel
  cases prepared with
  | write plan order =>
      obtain ⟨record, between, happly, hpure⟩ := Writing.bind_eq_ok.mp hrun
      obtain ⟨-, rfl⟩ := Writing.pure_eq_ok.mp hpure
      obtain ⟨hkind, hplan, -⟩ := ofInput_write hprepared
      exact hwrite (Plan.ofInput_sound hschema hmem hkind hplan) happly h
  | delete id =>
      obtain ⟨record, between, hremoved, hpure⟩ := Writing.bind_eq_ok.mp hrun
      obtain ⟨-, rfl⟩ := Writing.pure_eq_ok.mp hpure
      exact hdelete hremoved h

theorem intact_of_delete (hschema : engine.schema.Sound) {model : String} {id : Identity}
    {start stop : Work} {record : Record} (hintact : start.tables.Intact engine.schema)
    (hrun : Deletion.delete engine.schema model id start = .ok record stop) :
    stop.tables.Intact engine.schema := by
  obtain ⟨-, gone, houtcome⟩ :=
    (Deletion.delete_ends hschema.regular model id hintact.identified).ok hrun
  exact houtcome.intact hschema hintact

theorem keepsInputs_intact (hschema : engine.schema.Sound) :
    engine.KeepsInputs (Tables.Intact engine.schema) :=
  keepsInputs_of hschema
    (fun hplan hrun hintact => Plan.intact_of_apply hschema hplan hintact hrun)
    fun hrun hintact => intact_of_delete hschema hintact hrun

/-- In every store that calls lead to, each reference that a record holds leads to a stored record
of the model it is meant for, and a single reference that must not be null is not. -/
theorem references_stored {registry : Registry} {store : Store}
    (hschema : registry.schema = .ok engine.schema) (hhandlers : engine.handlers = [])
    (hstore : engine.Reachable store) : store.tables.Linked engine.schema := by
  have hinputs : engine.KeepsInputs (Tables.Intact engine.schema) :=
    keepsInputs_intact (Registry.sound_schema hschema)
  have hmethods : engine.KeepsMethods (Tables.Intact engine.schema) :=
    keepsMethods_of_no_handlers hhandlers
  exact (hstore.tables_hold hinputs hmethods Tables.intact_empty).linked

/-! ### Calls that carry out plans -/

/-- The plan that a call carries out for an input. -/
def plan? (engine : Engine) (name : String) (kind : InputKind) (input : Json) : Option Plan :=
  (engine.schema.model? name).bind fun model =>
    (Plan.ofInput engine.schema model kind input).toOption

variable {name : String} {kind : InputKind} {input : Json} {plan : Plan} {store after : Store}
  {options : CallOptions} {object : Json}

theorem plan?_eq_some : engine.plan? name kind input = some plan ↔
    ∃ model, engine.schema.model? name = some model ∧
      Plan.ofInput engine.schema model kind input = .ok plan := by
  unfold plan?
  rw [Option.bind_eq_some_iff]
  refine exists_congr fun model => and_congr_right fun _ => ?_
  cases Plan.ofInput engine.schema model kind input with
  | error violations => simp [Except.toOption]
  | ok found => simp [Except.toOption]

theorem sound_of_plan? (hschema : engine.schema.Sound) (hkind : kind ≠ .delete)
    (h : engine.plan? name kind input = some plan) : plan.Sound engine.schema := by
  obtain ⟨model, hmodel, hplan⟩ := plan?_eq_some.mp h
  exact Plan.ofInput_sound hschema (hschema.model?_eq_some.mp hmodel).1 hkind hplan

theorem runOne_of_plan? {order : List Nat} (hkind : kind ≠ .delete)
    (hplan : engine.plan? name kind input = some plan) (horder : plan.order = .ok order)
    (store : Store) (options : CallOptions) :
    engine.runOne store name kind input options = store.transact options
      (do pure (Record.toJson (← plan.apply engine.sources order))) := by
  obtain ⟨model, hmodel, hchecked⟩ := plan?_eq_some.mp hplan
  have hprepared : Prepared.ofInput engine.schema model kind input = .ok (.write plan order) := by
    unfold Prepared.ofInput Prepared.readWrite
    rw [if_neg hkind]
    refine Checked.bind_eq_ok.mpr ⟨plan, hchecked, ?_⟩
    rw [horder]
  exact runOne_of_prepared (findModel_of_model? hmodel) hprepared store

/-- A plan without an order is refused before a transaction is opened. -/
theorem call_of_order_error {stops : List Nat} (hkind : kind ≠ .delete)
    (hplan : engine.plan? name kind input = some plan) (horder : plan.order = .error stops) :
    engine.call store options (.single name kind input) =
      (store, .failure [plan.cycleViolation stops]) := by
  obtain ⟨model, hmodel, hchecked⟩ := plan?_eq_some.mp hplan
  have hprepared : Prepared.ofInput engine.schema model kind input =
      .error [plan.cycleViolation stops] := by
    unfold Prepared.ofInput Prepared.readWrite
    rw [if_neg hkind, hchecked]
    simp only [bind, Except.bind, horder]
  rw [call_single]
  unfold runSingle runOne
  simp only [findModel_of_model? hmodel, hprepared, bind, Except.bind, MutationResult.ofChecked]

/-- A create or an update that succeeds has carried out its plan. -/
theorem applied_of_call (hkind : kind ≠ .delete)
    (h : engine.call store options (.single name kind input) = (after, .single object)) :
    ∃ plan order record stop, engine.plan? name kind input = some plan ∧
      plan.order = .ok order ∧
      plan.apply engine.sources order (store.start options) = .ok record stop ∧
      object = record.toJson ∧
      after = { store with tables := stop.tables, drawn := stop.drawn } := by
  rw [call_single] at h
  have hone : (engine.runOne store name kind input options).1 = after ∧
      MutationResult.ofChecked (engine.runOne store name kind input options).2 = .single object :=
    Prod.mk.inj h
  cases hmodel : engine.schema.findModel name with
  | error violations =>
      simp [runOne, hmodel, bind, Except.bind, MutationResult.ofChecked] at hone
  | ok model =>
      cases hprepared : Prepared.ofInput engine.schema model kind input with
      | error violations =>
          simp [runOne, hmodel, hprepared, bind, Except.bind, MutationResult.ofChecked] at hone
      | ok prepared =>
          rw [runOne_of_prepared hmodel hprepared] at hone
          cases prepared with
          | delete id =>
              unfold Prepared.ofInput Prepared.readWrite at hprepared
              rw [if_neg hkind] at hprepared
              obtain ⟨plan, -, hordered⟩ := Checked.bind_eq_ok.mp hprepared
              split at hordered <;> cases hordered
          | write plan order =>
              obtain ⟨-, hplan, horder⟩ := ofInput_write hprepared
              obtain ⟨hafter, hsingle⟩ := hone
              obtain ⟨violations, herror, -⟩ | ⟨json, stop, hrun, htransact⟩ :=
                store.transact_cases options
                  ((Prepared.write plan order).run engine.schema engine.sources model)
              · rw [herror] at hsingle
                cases hsingle
              · rw [htransact] at hafter hsingle
                obtain ⟨record, between, happly, hpure⟩ := Writing.bind_eq_ok.mp hrun
                obtain ⟨hjson, rfl⟩ := Writing.pure_eq_ok.mp hpure
                refine ⟨plan, order, record, between, ?_, horder, happly, ?_, hafter.symm⟩
                · exact plan?_eq_some.mpr ⟨model, model?_of_findModel hmodel, hplan⟩
                · rw [hjson]
                  exact (MutationResult.single.inj hsingle).symm

/-- A create or an update whose plan can be carried out succeeds. -/
theorem call_of_plan? {order : List Nat} (hkind : kind ≠ .delete)
    (hplan : engine.plan? name kind input = some plan) (horder : plan.order = .ok order)
    (store : Store) (options : CallOptions) (hok : (store.transact options
      (do pure (Record.toJson (← plan.apply engine.sources order)))).2.isOk = true) :
    ∃ object, engine.call store options (.single name kind input) =
      ((store.transact options (do pure (Record.toJson (← plan.apply engine.sources order)))).1,
        .single object) := by
  rw [call_single]
  unfold runSingle
  rw [runOne_of_plan? hkind hplan horder]
  dsimp only
  cases hresult : (store.transact options
    (do pure (Record.toJson (← plan.apply engine.sources order)))).2 with
  | error violations =>
      rw [hresult] at hok
      cases hok
  | ok object => exact ⟨object, rfl⟩

/-! ### Plans to try calls with -/

theorem eq_some_getD {α : Type} {found : Option α} {other : α} (h : found.isSome = true) :
    found = some (found.getD other) := by
  obtain ⟨a, rfl⟩ := Option.isSome_iff_exists.mp h
  rfl

theorem order_of_single {plan : Plan} (hlength : plan.nodes.length = 1)
    (hreferences : plan.references 0 = []) : plan.order = .ok [0] := by
  unfold Plan.order
  rw [hlength]
  simp [Plan.visitAll, Plan.visit, hreferences, List.range_succ, bind, Except.bind]

/-- Of two records, the one that the first refers to is written first. -/
theorem order_of_pair {plan : Plan} (hlength : plan.nodes.length = 2)
    (hfirst : plan.references 0 = [1]) (hsecond : plan.references 1 = []) :
    plan.order = .ok [1, 0] := by
  unfold Plan.order
  rw [hlength]
  simp [Plan.visitAll, Plan.visit, hfirst, hsecond, List.range_succ, bind, Except.bind]

/-- A node that is created together with the next one. -/
def pairInput : Json := .obj [("next", .obj [])]

def pairPlan : Plan := (chainEngine.plan? "Node" .create pairInput).getD ⟨[], []⟩

theorem create_pairInput : chainEngine.runOne {} "Node" .create pairInput {} =
    Store.transact {} {}
      (do pure (Record.toJson (← pairPlan.apply chainEngine.sources [1, 0]))) := by
  have hplanned : (chainEngine.plan? "Node" .create pairInput).isSome = true := by decide +kernel
  have horder : pairPlan.order = .ok [1, 0] :=
    order_of_pair (by decide +kernel) (by decide +kernel) (by decide +kernel)
  exact runOne_of_plan? (by decide) (eq_some_getD hplanned) horder {} {}

/-- Both nodes are stored, and linked. -/
theorem references_stored_pair :
    let store := (chainEngine.call {} {} (.create "Node" pairInput)).1
    store.tables.rows.length = 2 ∧ store.tables.Linked chainSchema := by
  intro store
  have hreachable : chainEngine.Reachable store := .call {} _ (.empty [] 0)
  refine ⟨?_, references_stored schema_chainRegistry rfl hreachable⟩
  change (chainEngine.runOne {} "Node" .create pairInput {}).1.tables.rows.length = 2
  rw [create_pairInput]
  decide +kernel

end ModelSurface.Engine
