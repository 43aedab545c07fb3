import ModelSurface.Proofs.Engine.Advancing
import ModelSurface.Proofs.Engine.Setting
import ModelSurface.Proofs.Write.Revising

/-!
# Revisions along calls

Whatever a call does, the revision of a stored record does not go back, and rises if the call
updates the record. Three ways lead around an update: a link that is set on the record from the
input of another one, a reference that a deletion clears, and a field that a handler sets. They
change the record and leave its revision as it is.
-/

namespace ModelSurface

/-- A reference that a deletion clears or takes out of a set of links, while the record stays. -/
def Model.Clears (model : Model) (name : String) : Prop :=
  ∃ relationship ∈ model.relationships.values, relationship.isOwn ∧ relationship.name = name ∧
    (Deletion.effectOf relationship = .clear ∨ Deletion.effectOf relationship = .unlink)

/-- Records are as their models describe them, with revisions that the sequence has given. -/
structure Tables.Dated (schema : Schema) (model : Model) (field : Field) (tables : Tables) :
    Prop where
  described : tables.Described schema
  counted : tables.Counted model field

/-- What becomes of the stored records of a model under plans that are carried out, or deletions. -/
structure Tables.Revises (model : Model) (field : Field) (kind : InputKind) (plans : List Plan)
    (before after : Tables) : Prop where
  retains : kind ≠ .delete → before.Retains after
  shrinks : kind = .delete → ∀ name id, (after.get? name id).isSome → (before.get? name id).isSome
  records : ∀ id old new, before.get? model.name id = some old →
    after.get? model.name id = some new →
    old.Revised field.name (∃ plan ∈ plans, plan.Updates model id)
      (fun name => (∃ plan ∈ plans, plan.Links model id name) ∨
        (kind = .delete ∧ model.Clears name)) new

namespace Tables

variable {schema : Schema} {model : Model} {field : Field} {kind : InputKind}
  {plans plans' : List Plan} {before between after : Tables}

theorem Counted.revised_self (h : before.Counted model field) {id : Identity} {record : Record}
    (hrecord : before.get? model.name id = some record) {saved : Prop} (hsaved : ¬saved)
    {loose : String → Prop} : record.Revised field.name saved loose record := by
  obtain ⟨number, hnumber, -⟩ := h id record hrecord
  exact .refl hnumber hsaved

namespace Revises

theorem refl (kind : InputKind) (h : before.Counted model field) :
    Revises model field kind [] before before where
  retains _ _ _ h := h
  shrinks _ _ _ h := h
  records id old new hold hnew := by
    obtain rfl := Option.some.inj (hold.symm.trans hnew)
    refine h.revised_self hold ?_
    rintro ⟨_, hnone, -⟩
    cases hnone

theorem trans (h : Revises model field kind plans before between)
    (h' : Revises model field kind plans' between after) :
    Revises model field kind (plans ++ plans') before after where
  retains hkind := (h.retains hkind).trans (h'.retains hkind)
  shrinks hkind name id hafter := h.shrinks hkind name id (h'.shrinks hkind name id hafter)
  records id old new hold hnew := by
    -- a record that is there before and after is there in between
    have hthere : (between.get? model.name id).isSome := by
      by_cases hkind : kind = .delete
      · exact h'.shrinks hkind _ _ (Option.isSome_of_eq_some hnew)
      · exact h.retains hkind _ _ (Option.isSome_of_eq_some hold)
    obtain ⟨found, hfound⟩ := Option.isSome_iff_exists.mp hthere
    refine ((h.records id old found hold hfound).trans (h'.records id found new hfound hnew)).mono
      ?_ ?_
    · simp only [List.mem_append, or_and_right, exists_or]
    · rintro - name ((⟨plan, hplan, hlinks⟩ | hcleared) | (⟨plan, hplan, hlinks⟩ | hcleared))
      · exact .inl ⟨plan, List.mem_append_left _ hplan, hlinks⟩
      · exact .inr hcleared
      · exact .inl ⟨plan, List.mem_append_right _ hplan, hlinks⟩
      · exact .inr hcleared

end Revises

end Tables

/-- Of a record that stays, a deletion changes nothing but references that it clears. -/
theorem Record.Cleared.kept_or_clears {schema : Schema} (hschema : schema.Sound) {model : Model}
    (hmodel : model ∈ schema.models) {gone : List RowKey} {old new : Record}
    (h : Record.Cleared schema model.name gone old new) (name : String) :
    new.get? name = old.get? name ∨ model.Clears name := by
  rw [h.get?]
  cases hreference : schema.reference? model.name name with
  | none =>
      rw [Schema.remaining_of_no_reference hreference, Option.map_id]
      exact .inl rfl
  | some relationship =>
      obtain ⟨holder, hholder, hname, hmem, hnamed, hown⟩ :=
        hschema.regular.reference?_eq_some.mp hreference
      rw [hschema.model_ext hmodel hholder hname] at hmem
      have hkept : Deletion.effectOf relationship = .cascade ∨
          Deletion.effectOf relationship = .restrict →
          (old.get? name).map (schema.remaining gone model.name name) = old.get? name := by
        intro heffect
        refine (Option.map_congr fun value _ => ?_).trans Option.map_id'
        rw [Schema.remaining_of_reference hreference, relationship.remaining_of_kept heffect]
      cases heffect : Deletion.effectOf relationship with
      | cascade => exact .inl (hkept (.inl heffect))
      | restrict => exact .inl (hkept (.inr heffect))
      | clear => exact .inr ⟨relationship, hmem, hown, hnamed, .inl heffect⟩
      | unlink => exact .inr ⟨relationship, hmem, hown, hnamed, .inr heffect⟩

theorem Deletion.Outcome.revises {schema : Schema} {before after : Tables} {root : RowKey}
    {gone : List RowKey} (h : Outcome schema before root gone after) (hschema : schema.Sound)
    {model : Model} (hmodel : model ∈ schema.models) {field : Field}
    (hfield : field ∈ model.fields.values) (hcounted : before.Counted model field) :
    after.Counted model field ∧ before.Revises model field .delete [] after := by
  have hkey := (hschema.model _ hmodel).mem_fields_keys hfield
  have hrevision : ∀ id old new, before.get? model.name id = some old →
      after.get? model.name id = some new → new.get? field.name = old.get? field.name := by
    intro id old new hold hnew
    obtain ⟨-, found, hfound, hcleared⟩ := h.of_after ⟨model.name, id⟩ hnew
    obtain rfl := Option.some.inj (hold.symm.trans hfound)
    rw [hcleared.get?, Schema.remaining_of_field hschema hmodel hkey, Option.map_id]
    rfl
  refine ⟨fun id new hnew => ?_, fun hkind => absurd rfl hkind, fun _ name id hafter => ?_,
    fun id old new hold hnew => ?_⟩
  · obtain ⟨-, old, hold, -⟩ := h.of_after ⟨model.name, id⟩ hnew
    rw [hrevision id old new hold hnew]
    unfold Tables.number
    rw [h.sequences]
    exact hcounted id old hold
  · obtain ⟨new, hnew⟩ := Option.isSome_iff_exists.mp hafter
    obtain ⟨-, old, hold, -⟩ := h.of_after ⟨name, id⟩ hnew
    exact Option.isSome_of_eq_some hold
  · obtain ⟨number, hnumber, -⟩ := hcounted id old hold
    refine ⟨⟨number, number, hnumber, (hrevision id old new hold hnew).trans hnumber,
      Int.le_refl _, ?_⟩, fun name => ?_⟩
    · rintro ⟨_, hnone, -⟩
      cases hnone
    · obtain ⟨-, found, hfound, hcleared⟩ := h.of_after ⟨model.name, id⟩ hnew
      obtain rfl := Option.some.inj (hold.symm.trans hfound)
      exact (hcleared.kept_or_clears hschema hmodel name).imp_right fun hclears =>
        .inr (.inr ⟨rfl, hclears⟩)

namespace Engine

variable {engine : Engine} {store : Store} {model : Model} {field : Field}

/-- A call carries out an update of a stored record. -/
def Updates (engine : Engine) (call : Call) (result : MutationResult) (model : Model)
    (id : Identity) : Prop :=
  ∃ plan ∈ engine.plans call result, plan.Updates model id

/-- What a call may change in a stored record without updating it: the references that are set from
the input of another record or cleared by a deletion, and the fields that a handler sets. -/
inductive Loose (engine : Engine) (call : Call) (result : MutationResult) (model : Model)
    (id : Identity) : String → Prop
  | linked {plan : Plan} {name : String} (hplan : plan ∈ engine.plans call result)
      (hlinks : plan.Links model id name) : Loose engine call result model id name
  | cleared {of name : String} {inputs : List Json}
      (hinputs : call.inputs? engine.schema = some (of, .delete, inputs))
      (hclears : model.Clears name) : Loose engine call result model id name
  | assigned {name : String} (hreceiver : call.receiver? engine.schema = some ⟨model.name, id⟩)
      (hname : name ∈ model.plain.keys) : Loose engine call result model id name

/-! ### What keeps revisions within their sequence -/

section Kept

variable (hschema : engine.schema.Sound) (hmodel : model ∈ engine.schema.models)
  (hfield : field ∈ model.fields.values) (hrevises : field.Revises)

include hschema hmodel hfield hrevises

theorem prepared_revises {name : String} {kind : InputKind} {other : Model} {input : Json}
    {prepared : Prepared} {start stop : Work} {json : Json}
    (hother : engine.schema.model? name = some other)
    (hprepared : Prepared.ofInput engine.schema other kind input = .ok prepared)
    (hrun : prepared.run engine.schema engine.sources other start = .ok json stop)
    (hstart : start.tables.Dated engine.schema model field) :
    stop.tables.Counted model field ∧
      start.tables.Revises model field kind (engine.planned name kind input) stop.tables := by
  cases prepared with
  | write plan order =>
      obtain ⟨record, between, happly, hpure⟩ := Writing.bind_eq_ok.mp hrun
      obtain ⟨-, rfl⟩ := Writing.pure_eq_ok.mp hpure
      obtain ⟨hkind, hplan, horder⟩ := ofInput_write hprepared
      have hsome : engine.plan? name kind input = some plan :=
        plan?_eq_some.mpr ⟨other, hother, hplan⟩
      have hsound := sound_of_plan? hschema hkind hsome
      obtain ⟨hretains, hafter, hrecords⟩ := Plan.revised_of_apply hschema hsound hmodel hfield
        hrevises hstart.counted horder happly
      rw [planned_of_plan? hkind hsome]
      refine ⟨hafter, fun _ => hretains, fun hdelete => absurd hdelete hkind,
        fun id old new hold hnew => (hrecords id old new hold hnew).mono ?_ ?_⟩
      · simp only [List.mem_singleton, exists_eq_left]
      · exact fun _ found hlinks => .inl ⟨plan, List.mem_singleton.mpr rfl, hlinks⟩
  | delete id =>
      obtain ⟨record, between, hremoved, hpure⟩ := Writing.bind_eq_ok.mp hrun
      obtain ⟨-, rfl⟩ := Writing.pure_eq_ok.mp hpure
      obtain rfl := kind_of_delete hprepared
      obtain ⟨-, gone, houtcome⟩ :=
        (Deletion.delete_ends hschema.regular other.name id
          hstart.described.intact.identified).ok hremoved
      rw [planned_of_delete rfl]
      exact houtcome.revises hschema hmodel hfield hstart.counted

/-- What is known of the tables between the inputs of a call. -/
theorem composes_revises : engine.Composes (Tables.Dated engine.schema model field)
    (Tables.Revises model field) where
  keeps hother hprepared hrun h :=
    ⟨keepsInputs_described hschema hother hprepared hrun h.described,
      (prepared_revises hschema hmodel hfield hrevises hother hprepared hrun h).1⟩
  refl kind _ h := .refl kind h.counted
  trans h h' := h.trans h'
  run hother hprepared hrun h :=
    (prepared_revises hschema hmodel hfield hrevises hother hprepared hrun h).2

omit hmodel hfield hrevises in
/-- Methods leave revisions as they are, and so does the sequence stay. -/
theorem keepsMethods_dated (hhandlers : ∀ entry ∈ engine.handlers, Handler.WritesBySet entry.2)
    (hspares : ∀ entry ∈ engine.handlers, entry.2.Spares engine.schema model.name field.name) :
    engine.KeepsMethods (Tables.Dated engine.schema model field) := by
  intro name method other exposed handler id arguments start stop json hother hexposed hhandler
    hrun h
  have hentry := mem_handlers hhandler
  have hsame := (Method.invoke_sameKeys (hhandlers _ hentry)).ok hrun
  have hspared := (Method.invoke_spares (hschema.model?_eq_some.mp hother).1 (hspares _ hentry)
    h.described).ok hrun
  refine ⟨keepsMethods_described hschema hhandlers hother hexposed hhandler hrun h.described,
    fun key new hnew => ?_⟩
  obtain ⟨old, hold⟩ := Option.isSome_iff_exists.mp
    ((hsame.stored _ _).mp (Option.isSome_of_eq_some hnew))
  obtain ⟨number, hnumber, hlast⟩ := h.counted key old hold
  refine ⟨number, (hspared.get? hold hnew).trans hnumber, ?_⟩
  unfold Tables.number
  rw [hsame.sequences]
  exact hlast

end Kept

/-! ### Calls -/

/-- An invocation saves nothing: of the record that it is made for it may change fields. -/
theorem invoke_revised (hschema : engine.schema.Sound)
    (hhandlers : ∀ entry ∈ engine.handlers, Handler.WritesBySet entry.2)
    (hspares : ∀ entry ∈ engine.handlers, entry.2.Spares engine.schema model.name field.name)
    (hmodel : model ∈ engine.schema.models)
    (hdated : store.tables.Dated engine.schema model field) (name method : String) (args : Json)
    (options : CallOptions) {id : Identity} {old new : Record}
    (hold : store.tables.get? model.name id = some old)
    (hnew : (engine.invoke store name method args options).1.tables.get? model.name id =
      some new) :
    old.Revised field.name False (fun changed =>
      engine.schema.receiver? name method args = some ⟨model.name, id⟩ ∧
        changed ∈ model.plain.keys) new := by
  have hspared := (invoke_spared hschema hspares hdated.described name method args options).get?
    hold hnew
  obtain ⟨number, hnumber, -⟩ := hdated.counted id old hold
  refine ⟨⟨number, number, hnumber, hspared.trans hnumber, Int.le_refl _, False.elim⟩,
    fun changed => ?_⟩
  rcases invoke_assigned hschema hhandlers hdated.described.intact.identified name method args
    options with
    htables | ⟨other, hother, receiver, hreceiver, hassigned⟩
  · rw [htables, hold] at hnew
    exact .inl (congrArg (·.get? changed) (Option.some.inj hnew).symm)
  · rcases hassigned model.name id with hsame | ⟨⟨hname, rfl⟩, old', new', hold', hnew', hothers⟩
    · rw [hnew, hold] at hsame
      exact .inl (congrArg (·.get? changed) (Option.some.inj hsame))
    · obtain rfl := hschema.model_ext hother hmodel hname
      obtain rfl := Option.some.inj (hold.symm.trans hold')
      obtain rfl := Option.some.inj (hnew.symm.trans hnew')
      by_cases hplain : changed ∈ model.plain.keys
      · exact .inr (.inr ⟨hreceiver, hplain⟩)
      · exact .inl (hothers changed hplain)

/-- Whatever a call does, the revision of a record that is stored before and after it does not go
back, and is strictly greater afterwards if the call updates the record. Any other change of the
record is a link that is set on it from the input of another one, a reference that a deletion
clears, or a field that a handler sets. -/
theorem revision_follows_updates {registry : Registry}
    (hschema : registry.schema = .ok engine.schema)
    (hhandlers : ∀ entry ∈ engine.handlers, Handler.WritesBySet entry.2)
    (hmodel : model ∈ engine.schema.models) (hfield : field ∈ model.fields.values)
    (hrevises : field.Revises)
    (hspares : ∀ entry ∈ engine.handlers, entry.2.Spares engine.schema model.name field.name)
    (hstore : engine.Reachable store) (options : CallOptions) (call : Call) {id : Identity}
    {old new : Record} (hold : store.tables.get? model.name id = some old)
    (hnew : (engine.call store options call).1.tables.get? model.name id = some new) :
    old.Revised field.name (engine.Updates call (engine.call store options call).2 model id)
      (engine.Loose call (engine.call store options call).2 model id) new := by
  have hsound := Registry.sound_schema hschema
  have hcomposes := composes_revises hsound hmodel hfield hrevises
  have hdated := hstore.tables_hold hcomposes.keeps
    (keepsMethods_dated hsound hhandlers hspares)
    ⟨Tables.described_empty, Tables.counted_empty model field⟩
  cases hinputs : call.inputs? engine.schema with
  | some inputs =>
      obtain ⟨name, kind, inputs⟩ := inputs
      refine ((hcomposes.call options hinputs hdated).records id old new hold
        hnew).mono Iff.rfl ?_
      rintro - changed (⟨plan, hplan, hlinks⟩ | ⟨rfl, hclears⟩)
      · exact .linked hplan hlinks
      · exact .cleared hinputs hclears
  | none =>
      have hnothing : ¬engine.Updates call (engine.call store options call).2 model id := by
        unfold Updates
        rw [plans_of_no_inputs hinputs]
        rintro ⟨_, hnone, -⟩
        cases hnone
      rcases call_of_no_inputs hinputs store options with
        hsame | ⟨name, method, args, hreceiver, hinvoke⟩
      · rw [hsame, hold] at hnew
        obtain rfl := Option.some.inj hnew
        exact hdated.counted.revised_self hold hnothing
      · rw [hinvoke] at hnew
        refine (invoke_revised hsound hhandlers hspares hmodel hdated name method args options hold
          hnew).mono (iff_false_intro hnothing) ?_
        rintro - changed ⟨hnamed, hplain⟩
        exact .assigned (hreceiver.trans hnamed) hplain

/-! ### Memos -/

/-- Memos that count their revisions, and each of which may lead to a next one. -/
def memoRegistry : Registry where
  models := [{
    name := "Memo"
    fields := [
      { name := "title", kind := .string, nullable := true },
      { name := "revision", kind := .integer, computed := some ⟨.save, .sequence⟩ }]
    relations := [{
      name := "next", target := "Memo", kind := .foreignKey, nullable := true
      onDelete := .setNull }]
    methods := [{
      name := "rename", exposed := true
      params := [{ name := "title", kind := some .string }] }] }]

def memoSchema : Schema := memoRegistry.introspected

theorem schema_memoRegistry : memoRegistry.schema = .ok memoSchema :=
  Registry.schema_eq_introspected (by decide +kernel)

def memoEngine : Engine :=
  { noteEngine with
    schema := memoSchema
    handlers := [(("Memo", "rename"), renameHandler)] }

def memoPlan : Plan := (memoEngine.plan? "Memo" .create (.obj [])).getD ⟨[], []⟩

theorem create_memo : memoEngine.runOne {} "Memo" .create (.obj []) {} =
    Store.transact {} {} (do pure (Record.toJson (← memoPlan.apply memoEngine.sources [0]))) := by
  obtain ⟨hplanned, hlength, hreferences⟩ :
      (memoEngine.plan? "Memo" .create (.obj [])).isSome = true ∧ memoPlan.nodes.length = 1 ∧
        memoPlan.references 0 = [] := by decide +kernel
  exact runOne_of_plan? (by decide) (eq_some_getD hplanned) (order_of_single hlength hreferences)
    {} {}

/-- A store with one memo. -/
def memoStore : Store := (memoEngine.call {} {} (.create "Memo" (.obj []))).1

theorem memoStore_eq : memoStore = (Store.transact {} {}
    (do pure (Record.toJson (← memoPlan.apply memoEngine.sources [0])))).1 :=
  congrArg (·.1) create_memo

def memoModel : Model := (memoSchema.model? "Memo").getD default

theorem memoModel_mem : memoModel ∈ memoSchema.models ∧ memoModel.name = "Memo" :=
  (Registry.sound_schema schema_memoRegistry).model?_eq_some.mp (eq_some_getD (by decide +kernel))

def revisionField : Field := (memoModel.field? "revision").getD default

theorem revisionField_mem :
    revisionField ∈ memoModel.fields.values ∧ revisionField.name = "revision" :=
  ((Registry.sound_schema schema_memoRegistry).model _ memoModel_mem.1).fields_named.get?_eq_some.mp
    (eq_some_getD (by decide +kernel))

theorem revises_revisionField : revisionField.Revises := by
  unfold Field.Revises
  decide +kernel

theorem spares_renameHandler :
    renameHandler.Spares memoSchema memoModel.name revisionField.name := by
  intro arguments start given stop hrun hstart hstored
  change EStateM.bind _ _ start = _ at hrun
  unfold EStateM.bind at hrun
  split at hrun
  · rename_i between hset
    obtain ⟨-, rfl⟩ := EStateM.Result.ok.inj hrun
    refine Invocation.spared_of_set (Registry.sound_schema schema_memoRegistry) hstart hstored hset
      ?_ memoModel.name
    rw [revisionField_mem.2]
    decide
  · cases hrun

/-- The memo is renamed by its method. -/
def renamedStore : Store :=
  (memoEngine.call memoStore {} (.invoke "Memo" "rename"
    (.obj [("id", .num (.int 1)), ("title", .str "first")]))).1

/-- The memo is renamed by an update. -/
def titleInput : Json := .obj [("id", .num (.int 1)), ("title", .str "second")]

def titlePlan : Plan := (memoEngine.plan? "Memo" .update titleInput).getD ⟨[], []⟩

/-- A memo that is updated, after its method has been invoked, has a greater revision. -/
theorem revision_follows_updates_memo :
    let result := memoEngine.call renamedStore {} (.update "Memo" titleInput)
    ∃ old new number number', renamedStore.tables.get? memoModel.name (.int 1) = some old ∧
      result.1.tables.get? memoModel.name (.int 1) = some new ∧
      old.get? revisionField.name = some (.int number) ∧
      new.get? revisionField.name = some (.int number') ∧ number < number' := by
  intro result
  have hsound := Registry.sound_schema schema_memoRegistry
  obtain ⟨hplanned, hlength, hreferences, hnodes⟩ :
      (memoEngine.plan? "Memo" .update titleInput).isSome = true ∧ titlePlan.nodes.length = 1 ∧
        titlePlan.references 0 = [] ∧ titlePlan.nodes.any (fun node =>
          node.model.name == "Memo" && node.action == .update (.int 1)) = true := by
    decide +kernel
  have hplan : memoEngine.plan? "Memo" .update titleInput = some titlePlan := eq_some_getD hplanned
  obtain ⟨hok, hold, hnew⟩ :
      let transacted := renamedStore.transact {}
        (do pure (Record.toJson (← titlePlan.apply memoEngine.sources [0])))
      transacted.2.isOk = true ∧
        (renamedStore.tables.get? memoModel.name (.int 1)).isSome = true ∧
        (transacted.1.tables.get? memoModel.name (.int 1)).isSome = true := by
    unfold renamedStore
    rw [memoStore_eq]
    decide +kernel
  obtain ⟨object, hcall⟩ := call_of_plan? (by decide) hplan (order_of_single hlength hreferences)
    renamedStore {} hok
  have hresult : result = _ := hcall
  rw [← congrArg (·.1) hcall] at hnew
  obtain ⟨old, hold⟩ := Option.isSome_iff_exists.mp hold
  obtain ⟨new, hnew⟩ := Option.isSome_iff_exists.mp hnew
  have hupdates : memoEngine.Updates (.update "Memo" titleInput) result.2 memoModel (.int 1) := by
    obtain ⟨node, hnode, htest⟩ := List.any_eq_true.mp hnodes
    obtain ⟨hname, haction⟩ := Bool.and_eq_true_iff.mp htest
    have hmodel := (sound_of_plan? hsound (by decide) hplan).nodes node hnode
    refine ⟨titlePlan, ?_, node, hnode, hsound.model_ext memoModel_mem.1 hmodel.model
      ((beq_iff_eq.mp hname).trans memoModel_mem.2.symm), beq_iff_eq.mp haction⟩
    rw [hresult, plans_of_inputs rfl, MutationResult.outcomes, carriedOut_single,
      Option.isSome_some, if_pos rfl, planned_of_plan? (by decide) hplan]
    exact List.mem_singleton.mpr rfl
  have hhandlers : ∀ entry ∈ memoEngine.handlers, Handler.WritesBySet entry.2 ∧
      entry.2.Spares memoEngine.schema memoModel.name revisionField.name := by
    intro entry hentry
    rw [List.mem_singleton.mp hentry]
    exact ⟨writesBySet_renameHandler, spares_renameHandler⟩
  have hreachable : memoEngine.Reachable renamedStore := .call {} _ (.call {} _ (.empty [] 0))
  obtain ⟨number, number', hbefore, hrevision, -, hlt⟩ := (revision_follows_updates
    schema_memoRegistry (fun entry hentry => (hhandlers entry hentry).1) memoModel_mem.1
    revisionField_mem.1 revises_revisionField (fun entry hentry => (hhandlers entry hentry).2)
    hreachable {} (.update "Memo" titleInput) hold hnew).risen
  exact ⟨old, new, number, number', hold, hnew, hbefore, hrevision, hlt hupdates⟩

/-- The number that a record has under a name. -/
def number? (record : Record) (name : String) : Option Int :=
  match record.get? name with
  | some (.int number) => some number
  | _ => none

theorem number?_eq_some {record : Record} {name : String} {number : Int} :
    number? record name = some number ↔ record.get? name = some (.int number) := by
  unfold number?
  split
  · rename_i found hfound
    rw [hfound, Option.some.injEq, Option.some.injEq, Value.int.injEq]
  · rename_i hother
    refine iff_of_false nofun fun h => hother number h

/-- A memo is created that the stored one leads to. -/
def linkingInput : Json := .obj [("memos", .arr [.num (.int 1)])]

def linkingPlan : Plan := (memoEngine.plan? "Memo" .create linkingInput).getD ⟨[], []⟩

theorem create_linking : memoEngine.runOne memoStore "Memo" .create linkingInput {} =
    Store.transact memoStore {}
      (do pure (Record.toJson (← linkingPlan.apply memoEngine.sources [0]))) := by
  obtain ⟨hplanned, hlength, hreferences⟩ :
      (memoEngine.plan? "Memo" .create linkingInput).isSome = true ∧
        linkingPlan.nodes.length = 1 ∧ linkingPlan.references 0 = [] := by decide +kernel
  exact runOne_of_plan? (by decide) (eq_some_getD hplanned) (order_of_single hlength hreferences)
    memoStore {}

/-- The stored memo comes to lead to the new one, and its revision stays 1. -/
theorem revision_kept_by_link :
    let result := memoEngine.call memoStore {} (.create "Memo" linkingInput)
    memoEngine.Reachable memoStore ∧ result.2.isOk = true ∧
    (∃ model ∈ memoSchema.models, model.name = "Memo" ∧ ∃ field ∈ model.fields.values,
      field.name = "revision" ∧ field.Revises) ∧
    ∃ old new, memoStore.tables.get? "Memo" (.int 1) = some old ∧
      result.1.tables.get? "Memo" (.int 1) = some new ∧
      new.get? "next" = some (.int 2) ∧ old.get? "next" ≠ some (.int 2) ∧
      old.get? "revision" = some (.int 1) ∧ new.get? "revision" = some (.int 1) := by
  intro result
  have hcall : result = ((memoEngine.runOne memoStore "Memo" .create linkingInput {}).1,
    .ofChecked (memoEngine.runOne memoStore "Memo" .create linkingInput {}).2) := rfl
  obtain ⟨hok, hold, hnew⟩ : result.2.isOk = true ∧
      (memoStore.tables.get? "Memo" (.int 1)).any (fun old =>
        number? old "next" == none && number? old "revision" == some 1) = true ∧
      (result.1.tables.get? "Memo" (.int 1)).any (fun new =>
        number? new "next" == some 2 && number? new "revision" == some 1) = true := by
    rw [hcall, create_linking, memoStore_eq]
    decide +kernel
  refine ⟨.call {} _ (.empty [] 0), hok, ⟨memoModel, memoModel_mem.1, memoModel_mem.2,
    revisionField, revisionField_mem.1, revisionField_mem.2, revises_revisionField⟩, ?_⟩
  obtain ⟨old, hold_stored, hold⟩ := (Option.any_eq_true _ _).mp hold
  obtain ⟨new, hnew_stored, hnew⟩ := (Option.any_eq_true _ _).mp hnew
  obtain ⟨hnext, hrevision⟩ := Bool.and_eq_true_iff.mp hold
  obtain ⟨hnext', hrevision'⟩ := Bool.and_eq_true_iff.mp hnew
  refine ⟨old, new, hold_stored, hnew_stored, number?_eq_some.mp (beq_iff_eq.mp hnext'), ?_,
    number?_eq_some.mp (beq_iff_eq.mp hrevision), number?_eq_some.mp (beq_iff_eq.mp hrevision')⟩
  intro hlinked
  rw [number?_eq_some.mpr hlinked] at hnext
  cases hnext

end Engine

end ModelSurface
