import ModelSurface.Proofs.Deletion.Linked
import ModelSurface.Proofs.Engine.Call

/-!
# Calls that delete

A call that deletes a record takes exactly the records along that are doomed with it.
-/

namespace ModelSurface.Engine

variable {engine : Engine} {store : Store} {name : String} {model : Model} {input : Json}
  {id : Identity} {options : CallOptions}

theorem ofInput_delete {schema : Schema} (hinput : Prepared.readDelete model input = .ok id) :
    Prepared.ofInput schema model .delete input = .ok (.delete id) := by
  unfold Prepared.ofInput
  rw [if_pos rfl, hinput]
  rfl

theorem run_delete_ok {schema : Schema} {sources : Sources} {start stop : Work} {object : Json}
    (h : (Prepared.delete id).run schema sources model start = .ok object stop) :
    ∃ record, Deletion.delete schema model.name id start = .ok record stop ∧
      object = record.toJson := by
  obtain ⟨record, between, hdelete, hpure⟩ := Writing.bind_eq_ok.mp h
  obtain ⟨hobject, rfl⟩ := Writing.pure_eq_ok.mp hpure
  exact ⟨record, hdelete, hobject.symm⟩

/-- A delete call runs the deletion of the record that it names in a transaction. -/
theorem delete_eq_transact (hmodel : engine.schema.model? name = some model)
    (hinput : Prepared.readDelete model input = .ok id) :
    engine.delete store name input options =
      ((store.transact options ((Prepared.delete id).run engine.schema engine.sources model)).1,
        .ofChecked (store.transact options
          ((Prepared.delete id).run engine.schema engine.sources model)).2) := by
  rw [← runOne_of_prepared (findModel_of_model? hmodel) (ofInput_delete hinput) store]
  rfl

/-- A delete call that succeeds has carried out the deletion of the record that it names. -/
theorem delete_eq_single (hmodel : engine.schema.model? name = some model)
    (hinput : Prepared.readDelete model input = .ok id) {after : Store} {object : Json}
    (h : engine.delete store name input options = (after, .single object)) :
    ∃ record stop, Deletion.delete engine.schema model.name id (store.start options) =
      .ok record stop ∧ object = record.toJson ∧ after.tables = stop.tables := by
  rw [delete_eq_transact hmodel hinput] at h
  obtain ⟨hafter, hsingle⟩ := Prod.mk.inj h
  obtain ⟨violations, herror, -⟩ | ⟨json, stop, hrun, htransact⟩ := store.transact_cases options
    ((Prepared.delete id).run engine.schema engine.sources model)
  · rw [herror] at hsingle
    cases hsingle
  · rw [htransact] at hafter hsingle
    obtain ⟨record, hdelete, hjson⟩ := run_delete_ok hrun
    refine ⟨record, stop, hdelete, ?_, ?_⟩
    · rw [← hjson]
      exact (MutationResult.single.inj hsingle).symm
    · rw [← hafter]

/-- A record is deleted together with the records that are doomed with it, and with no others. All
other records only lose their references to those, and the deletion comes to an end whichever way
records refer to each other. -/
theorem delete_takes_doomed {registry : Registry} (hschema : registry.schema = .ok engine.schema)
    (hidentified : store.tables.Identified engine.schema)
    (hmodel : engine.schema.model? name = some model)
    (hinput : Prepared.readDelete model input = .ok id) :
    (∀ options after object, engine.delete store name input options = (after, .single object) →
      ∃ record gone, store.tables.get? name id = some record ∧ object = record.toJson ∧
        Deletion.Outcome engine.schema store.tables ⟨name, id⟩ gone after.tables) ∧
    ∀ work stop, work.tables = store.tables →
      Deletion.delete engine.schema name id work ≠ .error (.breach .depth) stop := by
  have hregular := (Registry.sound_schema hschema).regular
  constructor
  · intro options after object hdelete
    obtain ⟨record, stop, hrun, hobject, htables⟩ := delete_eq_single hmodel hinput hdelete
    rw [(hregular.model?_eq_some.mp hmodel).2] at hrun
    have hstart : (store.start options).tables.Identified engine.schema := hidentified
    obtain ⟨hrecord, gone, houtcome⟩ := (Deletion.delete_ends hregular name id hstart).ok hrun
    rw [← htables] at houtcome
    exact ⟨record, gone, hrecord, hobject, houtcome⟩
  · intro work stop htables hrun
    rw [← htables] at hidentified
    exact (Deletion.delete_ends hregular name id hidentified).error hrun rfl

/-- Two nodes that refer to each other, one that refers to the first of them, and one apart. -/
def ringTables : Tables :=
  (((({} : Tables).put "Node" (.int 1) (chainNode 1 (.int 2))).put "Node" (.int 2)
    (chainNode 2 (.int 1))).put "Node" (.int 3) (chainNode 3 (.int 1))).put "Node" (.int 4)
    (chainNode 4 .null)

theorem identity_chainSchema : ∀ model ∈ chainSchema.models, model.identity.name = "id" := by
  decide +kernel

theorem identified_chainNode {tables : Tables} (h : tables.Identified chainSchema) (id : Int)
    (next : Value) : (tables.put "Node" (.int id) (chainNode id next)).Identified chainSchema := by
  refine h.put ?_
  intro model hmodel _
  rw [identity_chainSchema model hmodel]
  rfl

theorem identified_ringTables : ringTables.Identified chainSchema :=
  identified_chainNode (identified_chainNode (identified_chainNode
    (identified_chainNode Tables.identified_empty _ _) _ _) _ _) _ _

/-- A node is deleted out of a ring. -/
theorem delete_takes_doomed_ring :
    let store : Store := { tables := ringTables }
    let input : Json := .obj [("id", .num (.int 1))]
    ∃ after object record gone,
      chainEngine.delete store "Node" input = (after, .single object) ∧
        store.tables.get? "Node" (.int 1) = some record ∧ object = record.toJson ∧
        Deletion.Outcome chainSchema store.tables ⟨"Node", .int 1⟩ gone after.tables := by
  intro store input
  have hok : (chainEngine.delete store "Node" input).2.object?.isSome = true := by decide +kernel
  have hread : (chainSchema.model? "Node").bind (fun model =>
      (Prepared.readDelete model input).toOption) = some (.int 1) := by decide +kernel
  obtain ⟨model, hmodel, hid⟩ := Option.bind_eq_some_iff.mp hread
  have hinput : Prepared.readDelete model input = .ok (.int 1) := by
    cases hprepared : Prepared.readDelete model input with
    | error violations => rw [hprepared] at hid; cases hid
    | ok id => rw [hprepared] at hid; exact congrArg Except.ok (Option.some.inj hid)
  cases hcall : chainEngine.delete store "Node" input with
  | mk after result =>
      rw [hcall] at hok
      cases result with
      | bulk objects violations => cases hok
      | failure violations => cases hok
      | single object =>
          obtain ⟨record, gone, h⟩ := (delete_takes_doomed schema_chainRegistry
            identified_ringTables hmodel hinput).1 {} after object hcall
          exact ⟨after, object, record, gone, rfl, h⟩

end ModelSurface.Engine
