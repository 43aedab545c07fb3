import ModelSurface.Proofs.Deletion.Alike
import ModelSurface.Proofs.Engine.Conformity
import ModelSurface.Proofs.Engine.Deleting
import ModelSurface.Proofs.Engine.Refusing
import ModelSurface.Proofs.Write.Placing

/-!
# Calls that delete under schemas that are alike

What a call that deletes a record comes to does not depend on the order in which models and
relationships are declared, unless all that is in its way would be gone with the record. In that
case the order decides whether the call succeeds.
-/

namespace ModelSurface

theorem Prepared.readDelete_congr {model model' : Model}
    (hname : model'.identity.name = model.identity.name)
    (hkind : model'.identity.kind = model.identity.kind) (input : Json) :
    readDelete model' input = readDelete model input := by
  unfold readDelete
  rw [hname, hkind]

/-- What is to be deleted is named alike. -/
theorem Schema.Covers.readDelete {schema schema' : Schema} (h : schema.Covers schema')
    (hregular : schema.Regular) (hregular' : schema'.Regular) {name : String} {model : Model}
    (hmodel : schema.model? name = some model) {input : Json} {id : Identity}
    (hinput : Prepared.readDelete model input = .ok id) :
    ∃ model', schema'.model? name = some model' ∧ Prepared.readDelete model' input = .ok id := by
  obtain ⟨hmem, hname⟩ := hregular.model?_eq_some.mp hmodel
  obtain ⟨model', hmem', hname', hidentity, hkind, -⟩ := h model hmem
  exact ⟨model', hregular'.model?_eq_some.mpr ⟨hmem', hname'.trans hname⟩,
    (Prepared.readDelete_congr hidentity hkind input).trans hinput⟩

/-! ### Stores that calls lead to -/

/-- Every stored record belongs to a model. -/
def Tables.Modelled (schema : Schema) (tables : Tables) : Prop :=
  ∀ name id, (tables.get? name id).isSome → ∃ model ∈ schema.models, model.name = name

/-- Every stored record belongs to a model, and is as that describes it. -/
structure Tables.Owned (schema : Schema) (tables : Tables) : Prop where
  described : tables.Described schema
  modelled : tables.Modelled schema

theorem Tables.owned_empty {schema : Schema} : Owned schema {} where
  described := described_empty
  modelled _ _ h := by cases h

theorem Tables.Modelled.stores {schema : Schema} {before after : Tables} {model : Model}
    {id : Identity} {record : Record} (h : before.Modelled schema) (hmodel : model ∈ schema.models)
    (hstores : before.Stores after model.name id record) : after.Modelled schema := by
  intro name other hstored
  rcases hstores.stored hstored with ⟨rfl, rfl⟩ | hbefore
  · exact ⟨model, hmodel, rfl⟩
  · exact h name other hbefore

theorem Plan.modelled_of_apply {schema : Schema} {sources : Sources} {plan : Plan}
    {order : List Nat} {start stop : Work} {record : Record} (hschema : schema.Sound)
    (hplan : plan.Sound schema) (hmodelled : start.tables.Modelled schema)
    (hrun : plan.apply sources order start = .ok record stop) : stop.tables.Modelled schema := by
  suffices h : Writing.Yields (plan.apply sources order) start
      fun _ stop => stop.tables.Modelled schema from h.ok hrun
  refine (apply_yields (hplan.models hschema) (fun _ _ stop => stop.tables.Modelled schema)
    hmodelled ?_ ?_).mono fun _ _ ⟨_, h, _⟩ => h
  · intro done index written before written' after hbefore hwrote
    cases hwrote with
    | created hnode _ hcreated =>
        obtain ⟨-, hstores⟩ := hcreated.stores
        exact hbefore.stores (hplan.nodes _ (List.mem_of_getElem? hnode)).model hstores
    | updated hnode _ hupdated =>
        exact hbefore.stores (hplan.nodes _ (List.mem_of_getElem? hnode)).model hupdated.stores
  · intro link hlink written before after holder old value hbefore hattached
    obtain ⟨new, hstores⟩ := hattached.stores
    exact hbefore.stores (hplan.links link hlink).model hstores

namespace Engine

open Deletion (Outcome Refused Entangled)

theorem keepsInputs_owned {engine : Engine} (hschema : engine.schema.Sound) :
    engine.KeepsInputs (Tables.Owned engine.schema) := by
  refine keepsInputs_of hschema ?_ ?_
  · rintro plan order start stop record hplan hrun ⟨hdescribed, hmodelled⟩
    exact ⟨Plan.described_of_apply hschema hplan hdescribed hrun,
      Plan.modelled_of_apply hschema hplan hmodelled hrun⟩
  · rintro model id start stop record hrun ⟨hdescribed, hmodelled⟩
    obtain ⟨-, gone, houtcome⟩ := (Deletion.delete_ends hschema.regular model id
      hdescribed.intact.identified).ok hrun
    refine ⟨⟨houtcome.intact hschema hdescribed.intact,
      houtcome.filled hschema hdescribed.filled⟩, ?_⟩
    intro name other hstored
    obtain ⟨new, hnew⟩ := Option.isSome_iff_exists.mp hstored
    obtain ⟨-, old, hold, -⟩ := houtcome.of_after ⟨name, other⟩ hnew
    exact hmodelled name other (Option.isSome_of_eq_some hold)

/-- What deletions rely on holds of every store that calls lead to. -/
theorem Reachable.identified_distinct {engine : Engine} {store : Store} {registry : Registry}
    (hschema : registry.schema = .ok engine.schema) (hhandlers : engine.handlers = [])
    (hstore : engine.Reachable store) :
    store.tables.Identified engine.schema ∧ store.tables.Distinct := by
  have hsound := Registry.sound_schema hschema
  obtain ⟨hdescribed, hmodelled⟩ := hstore.tables_hold (keepsInputs_owned hsound)
    (keepsMethods_of_no_handlers hhandlers) Tables.owned_empty
  refine ⟨hdescribed.intact.identified, ?_⟩
  rintro ⟨⟨name, id⟩, record⟩ hrow
  have hrecord := Tables.mem_rows.mp hrow
  obtain ⟨model, hmodel, rfl⟩ := hmodelled name id (Option.isSome_of_eq_some hrecord)
  rw [(hdescribed.filled model hmodel id record hrecord).keys]
  exact (hsound.model model hmodel).nodup_members

/-! ### Calls under two schemas -/

variable {engine engine' : Engine} {store : Store} {name : String} {model : Model} {input : Json}
  {id : Identity} {options : CallOptions}

/-- A call that is refused because of records in its way, and leaves all records as they were. -/
structure Restricted (before : Tables) (result : Store × MutationResult) : Prop where
  refused : ∃ violation, result.2 = .failure [violation] ∧ violation.kind = .cascadeRestricted
  kept : result.1.tables = before

namespace Restricted

variable {before : Tables} {result : Store × MutationResult}

theorem isOk (h : Restricted before result) : result.2.isOk = false := by
  obtain ⟨violation, hfailure, -⟩ := h.refused
  rw [hfailure]
  rfl

theorem ne_single (h : Restricted before result) (after : Store) (object : Json) :
    result ≠ (after, .single object) := by
  rintro rfl
  cases h.isOk

end Restricted

section

variable (hfailing : store.failing = []) (htimeout : options.timeout = none)
  (hcancellation : options.cancellation ≠ some true)

include hfailing htimeout hcancellation

/-- A call that deletes a stored record does so, or records are in its way. -/
theorem delete_of_stored (hregular : engine.schema.Regular)
    (hidentified : store.tables.Identified engine.schema)
    (hmodel : engine.schema.model? name = some model)
    (hinput : Prepared.readDelete model input = .ok id) {record : Record}
    (hrecord : store.tables.get? name id = some record) :
    (∃ after gone, engine.delete store name input options = (after, .single record.toJson) ∧
      Outcome engine.schema store.tables ⟨name, id⟩ gone after.tables) ∨
    Restricted store.tables (engine.delete store name input options) ∧
      ∃ failure, Refused engine.schema store.tables ⟨name, id⟩ failure := by
  obtain ⟨-, rfl⟩ := hregular.model?_eq_some.mp hmodel
  rw [delete_eq_transact hmodel hinput]
  rcases Deletion.delete_cases hregular (calm_start hfailing htimeout hcancellation) hidentified
    hrecord with ⟨stop, gone, hdelete, houtcome⟩ | ⟨failure, stop, hdelete, hrefused⟩
  · have hrun : (Prepared.delete id).run engine.schema engine.sources model
        (store.start options) = .ok record.toJson stop :=
      Writing.bind_eq_ok.mpr ⟨record, stop, hdelete, rfl⟩
    rw [Store.transact_of_ok (Prepared.orderly_run engine.schema engine.sources model _) htimeout
      hcancellation hrun]
    exact .inl ⟨_, gone, rfl, houtcome⟩
  · have hrun : (Prepared.delete id).run engine.schema engine.sources model
        (store.start options) = .error failure stop := Writing.bind_eq_error.mpr (.inl hdelete)
    rw [Store.transact_of_error hcancellation hrun]
    refine .inr ⟨⟨?_, rfl⟩, failure, hrefused⟩
    obtain ⟨violation, rfl, hkind⟩ := hrefused.restricted
    exact ⟨violation, rfl, hkind⟩

/-- Let two schemas have the same models and relationships, in whatever order, and let a stored
record be deleted under both. If both calls succeed, then with the same object and the same tables.
If nothing is in the way, or something that stays, then both succeed or both are refused because of
it and leave the tables as they were. -/
theorem delete_indifferent {registry registry' : Registry}
    (hschema : registry.schema = .ok engine.schema)
    (hschema' : registry'.schema = .ok engine'.schema)
    (halike : engine.schema.Alike engine'.schema)
    (hidentified : store.tables.Identified engine.schema) (hdistinct : store.tables.Distinct)
    (hmodel : engine.schema.model? name = some model)
    (hinput : Prepared.readDelete model input = .ok id)
    (hstored : (store.tables.get? name id).isSome) :
    (∀ after after' object object',
      engine.delete store name input options = (after, .single object) →
      engine'.delete store name input options = (after', .single object') →
      object' = object ∧ after'.tables = after.tables) ∧
    (¬ Entangled engine.schema store.tables ⟨name, id⟩ →
      (∃ after after' object, engine.delete store name input options = (after, .single object) ∧
        engine'.delete store name input options = (after', .single object) ∧
        after'.tables = after.tables) ∨
      Restricted store.tables (engine.delete store name input options) ∧
        Restricted store.tables (engine'.delete store name input options)) := by
  have hregular := (Registry.sound_schema hschema).regular
  have hregular' := (Registry.sound_schema hschema').regular
  obtain ⟨record, hrecord⟩ := Option.isSome_iff_exists.mp hstored
  obtain ⟨model', hmodel', hinput'⟩ :=
    halike.covers.readDelete hregular hregular' hmodel hinput
  rcases delete_of_stored hfailing htimeout hcancellation hregular hidentified hmodel hinput
    hrecord with ⟨after, gone, hcall, houtcome⟩ | ⟨hrestricted, failure, hrefused⟩ <;>
  rcases delete_of_stored hfailing htimeout hcancellation hregular'
    (halike.covered.identified hidentified) hmodel' hinput' hrecord with
    ⟨after', gone', hcall', houtcome'⟩ | ⟨hrestricted', failure', hrefused'⟩
  · have htables := houtcome.eq_of_alike halike hregular hregular' hdistinct houtcome'
    rw [hcall, hcall']
    refine ⟨?_, fun _ => .inl ⟨after, after', record.toJson, rfl, rfl, htables⟩⟩
    rintro _ _ _ _ ⟨⟩ ⟨⟩
    exact ⟨rfl, htables⟩
  · refine ⟨fun _ after' _ object' _ h => absurd h (hrestricted'.ne_single after' object'), ?_⟩
    intro huntangled
    exact absurd ((hrefused'.entangled halike.symm houtcome).of_covers halike.symm) huntangled
  · refine ⟨fun after _ object _ h => absurd h (hrestricted.ne_single after object), ?_⟩
    intro huntangled
    exact absurd (hrefused.entangled halike houtcome') huntangled
  · refine ⟨fun after _ object _ h => absurd h (hrestricted.ne_single after object), ?_⟩
    exact fun _ => .inr ⟨hrestricted, hrestricted'⟩

end

/-- By this relation items go with their box. -/
def alpha : RelationDef where
  name := "alpha"
  target := "Box"
  kind := .foreignKey
  nullable := true
  onDelete := .cascade
  relatedName := some "alphas"

/-- By this relation items keep their box from going. -/
def beta : RelationDef where
  name := "beta"
  target := "Box"
  kind := .foreignKey
  nullable := true
  onDelete := .restrict
  relatedName := some "betas"

/-- Boxes, and items that refer to them. -/
def boxRegistry (relations : List RelationDef) : Registry where
  models := [{ name := "Box" }, { name := "Item", relations := relations }]

def boxSchema (relations : List RelationDef) : Schema :=
  (boxRegistry relations).schema.toOption.getD {}

theorem schema_boxRegistry : (boxRegistry [alpha, beta]).schema = .ok (boxSchema [alpha, beta]) :=
  Registry.schema_eq_ok {} (by decide +kernel)

theorem schema_boxRegistry_turned :
    (boxRegistry [beta, alpha]).schema = .ok (boxSchema [beta, alpha]) :=
  Registry.schema_eq_ok {} (by decide +kernel)

theorem alike_boxSchema : (boxSchema [alpha, beta]).Alike (boxSchema [beta, alpha]) :=
  ⟨by decide +kernel, by decide +kernel⟩

def boxEngine (relations : List RelationDef) : Engine :=
  { chainEngine with schema := boxSchema relations }

/-- A box, and items with the references that they hold by the two relations. -/
def boxTables (items : List (Value × Value)) : Tables :=
  items.zipIdx.foldl
    (fun tables (item, index) => tables.put "Item" (.int (index + 1)) (Keyed.ofList
      [("id", .int (index + 1)), ("alpha", item.1), ("beta", item.2)]))
    (({} : Tables).put "Box" (.int 1) (Keyed.ofList [("id", .int 1)]))

def boxInput : Json := .obj [("id", .num (.int 1))]

theorem readDelete_boxInput : ∃ model, (boxSchema [alpha, beta]).model? "Box" = some model ∧
    Prepared.readDelete model boxInput = .ok (.int 1) := by
  have hread : ((boxSchema [alpha, beta]).model? "Box").bind (fun model =>
      (Prepared.readDelete model boxInput).toOption) = some (.int 1) := by decide +kernel
  obtain ⟨model, hmodel, hid⟩ := Option.bind_eq_some_iff.mp hread
  refine ⟨model, hmodel, ?_⟩
  cases hprepared : Prepared.readDelete model boxInput with
  | error violations => rw [hprepared] at hid; cases hid
  | ok id => rw [hprepared] at hid; exact congrArg Except.ok (Option.some.inj hid)

/-- One item goes with the box, and another one keeps it. -/
def keptTables : Tables := boxTables [(.int 1, .null), (.null, .int 1)]

theorem not_entangled_keptTables :
    ¬ Entangled (boxSchema [alpha, beta]) keptTables ⟨"Box", .int 1⟩ := by
  intro hentangled
  have hkeeps : Deletion.Restricts (boxSchema [alpha, beta]) keptTables ⟨"Box", .int 1⟩
      ⟨"Item", .int 2⟩ := by
    have hholding : ∃ holding ∈ Deletion.holders (boxSchema [alpha, beta]) "Box",
        Deletion.effectOf holding.2 = .restrict ∧ holding.1.name = "Item" ∧
          holding.2.name = "beta" := by decide +kernel
    have hrefers : (keptTables.get? "Item" (.int 2)).any
        (fun record => (Identity.int 1).toValue.refersTo (record.get? "beta")) = true := by
      decide +kernel
    obtain ⟨⟨holder, relationship⟩, hholder, heffect, hname, hfield⟩ := hholding
    obtain ⟨record, hrecord, hrefers⟩ := (Option.any_eq_true _ _).mp hrefers
    dsimp only at heffect hname hfield
    rw [← hname] at hrecord ⊢
    rw [← hfield] at hrefers
    exact .holder hholder heffect (by simp [hname]) hrecord hrefers
  have hdoomed := hentangled.doomed _ _ .root hkeeps
  have hmem : (⟨"Item", .int 2⟩ : RowKey) ∈ [⟨"Box", .int 1⟩, ⟨"Item", .int 1⟩] :=
    hdoomed.mem_of_closed (by decide) (by decide +kernel)
  exact absurd hmem (by decide)

/-- A box that one of its items keeps stays with both of them, whichever relation comes first. -/
theorem delete_indifferent_kept :
    let store : Store := { tables := keptTables }
    Restricted keptTables ((boxEngine [alpha, beta]).delete store "Box" boxInput) ∧
      Restricted keptTables ((boxEngine [beta, alpha]).delete store "Box" boxInput) := by
  intro store
  obtain ⟨model, hmodel, hinput⟩ := readDelete_boxInput
  have hidentified : keptTables.Identified (boxSchema [alpha, beta]) :=
    Tables.identified_of_rows (by decide +kernel)
  have hdistinct : keptTables.Distinct := by decide +kernel
  have hstored : (keptTables.get? "Box" (.int 1)).isSome = true := by decide +kernel
  have hfailed : ((boxEngine [alpha, beta]).delete store "Box" boxInput).2.isOk = false := by
    decide +kernel
  have hagree : (∃ after after' object,
      (boxEngine [alpha, beta]).delete store "Box" boxInput = (after, .single object) ∧
        (boxEngine [beta, alpha]).delete store "Box" boxInput = (after', .single object) ∧
        after'.tables = after.tables) ∨
      Restricted keptTables ((boxEngine [alpha, beta]).delete store "Box" boxInput) ∧
        Restricted keptTables ((boxEngine [beta, alpha]).delete store "Box" boxInput) :=
    (delete_indifferent rfl rfl (by decide) schema_boxRegistry schema_boxRegistry_turned
      alike_boxSchema hidentified hdistinct hmodel hinput hstored).2 not_entangled_keptTables
  refine hagree.resolve_left ?_
  rintro ⟨after, after', object, hcall, -⟩
  rw [hcall] at hfailed
  cases hfailed

/-- A box with an item that keeps it and goes with it. -/
def heldTables : Tables := boxTables [(.int 1, .int 1)]

/-- Whether a box can be deleted that is kept by nothing but what goes with it, is a matter of which
relation of the items is listed first. -/
theorem delete_of_held_ordered : ∃ after object,
    (boxRegistry [alpha, beta]).schema = .ok (boxEngine [alpha, beta]).schema ∧
      (boxRegistry [beta, alpha]).schema = .ok (boxEngine [beta, alpha]).schema ∧
      (boxEngine [alpha, beta]).schema.Alike (boxEngine [beta, alpha]).schema ∧
      (boxEngine [alpha, beta]).delete { tables := heldTables } "Box" boxInput =
        (after, .single object) ∧
      Restricted heldTables
        ((boxEngine [beta, alpha]).delete { tables := heldTables } "Box" boxInput) := by
  obtain ⟨model, hmodel, hinput⟩ := readDelete_boxInput
  have hregular := (Registry.sound_schema schema_boxRegistry).regular
  have hregular' := (Registry.sound_schema schema_boxRegistry_turned).regular
  obtain ⟨model', hmodel', hinput'⟩ :=
    alike_boxSchema.covers.readDelete hregular hregular' hmodel hinput
  have hidentified : heldTables.Identified (boxSchema [alpha, beta]) :=
    Tables.identified_of_rows (by decide +kernel)
  have hstored : (heldTables.get? "Box" (.int 1)).isSome = true := by decide +kernel
  have hok : ((boxEngine [alpha, beta]).delete { tables := heldTables } "Box"
      boxInput).2.isOk = true := by decide +kernel
  have hfailed : ((boxEngine [beta, alpha]).delete { tables := heldTables } "Box"
      boxInput).2.isOk = false := by decide +kernel
  obtain ⟨record, hrecord⟩ := Option.isSome_iff_exists.mp hstored
  have hdone := @delete_of_stored (boxEngine [alpha, beta]) { tables := heldTables } "Box" model
    boxInput (.int 1) {} rfl rfl (by decide) hregular hidentified hmodel hinput record hrecord
  have hrefused := @delete_of_stored (boxEngine [beta, alpha]) { tables := heldTables } "Box" model'
    boxInput (.int 1) {} rfl rfl (by decide) hregular'
    (alike_boxSchema.covered.identified hidentified) hmodel' hinput' record hrecord
  rcases hdone with ⟨after, -, hcall, -⟩ | ⟨hrestricted, -⟩
  · rcases hrefused with ⟨after', -, hcall', -⟩ | ⟨hrestricted, -⟩
    · rw [hcall'] at hfailed
      cases hfailed
    · exact ⟨after, record.toJson, schema_boxRegistry, schema_boxRegistry_turned, alike_boxSchema,
        hcall, hrestricted⟩
  · rw [hrestricted.isOk] at hok
    cases hok

end Engine

end ModelSurface
