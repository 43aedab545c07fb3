import ModelSurface.Proofs.Engine.Integrity
import ModelSurface.Proofs.Engine.Setting
import ModelSurface.Proofs.Write.Described

/-!
# Records and their models

Whatever inputs callers give, every stored record has exactly the members that its model describes,
and each of its values may stand where it stands. Methods whose handlers set fields keep it so.
-/

namespace ModelSurface

/-! ### Deletions -/

/-- Nothing is cleared in a field. -/
theorem Schema.remaining_of_field {schema : Schema} (hschema : schema.Sound) {model : Model}
    (hmodel : model ∈ schema.models) {name : String} (hname : name ∈ model.fields.keys)
    (gone : List RowKey) : schema.remaining gone model.name name = id := by
  refine remaining_of_no_reference ?_
  by_contra hsome
  obtain ⟨relationship, hreference⟩ := Option.ne_none_iff_exists'.mp hsome
  obtain ⟨other, hother, hother_name, hmem, rfl, -⟩ :=
    hschema.regular.reference?_eq_some.mp hreference
  obtain rfl := hschema.model_ext hmodel hother hother_name
  exact (hschema.model _ hmodel).not_mem_fields hmem hname

theorem Deletion.Outcome.filled {schema : Schema} {before after : Tables} {root : RowKey}
    {gone : List RowKey} (h : Outcome schema before root gone after) (hschema : schema.Sound)
    (hbefore : before.Filled schema) : after.Filled schema := by
  intro model hmodel id new hnew
  obtain ⟨-, old, hold, hcleared⟩ := h.of_after ⟨model.name, id⟩ hnew
  have hold_record := hbefore model hmodel id old hold
  refine ⟨hcleared.keys.trans hold_record.keys, ?_⟩
  intro field hfield
  have hkey := (hschema.model model hmodel).mem_fields_keys hfield
  rw [hcleared.get?, Schema.remaining_of_field hschema hmodel hkey, Option.map_id]
  exact hold_record.fields field hfield

/-! ### Stores -/

namespace Engine

variable {engine : Engine}

theorem keepsInputs_described (hschema : engine.schema.Sound) :
    engine.KeepsInputs (Tables.Described engine.schema) := by
  refine keepsInputs_of hschema ?_ ?_
  · intro plan order start stop record hplan hrun h
    exact Plan.described_of_apply hschema hplan h hrun
  · intro model id start stop record hrun h
    obtain ⟨-, gone, houtcome⟩ :=
      (Deletion.delete_ends hschema.regular model id h.intact.identified).ok hrun
    exact ⟨houtcome.intact hschema h.intact, houtcome.filled hschema h.filled⟩

theorem keepsMethods_described (hschema : engine.schema.Sound)
    (hhandlers : ∀ entry ∈ engine.handlers, Handler.WritesBySet entry.2) :
    engine.KeepsMethods (Tables.Described engine.schema) := by
  intro name method model exposed handler id arguments start stop json hmodel _ hhandler hrun h
  obtain ⟨hmem, -⟩ := hschema.model?_eq_some.mp hmodel
  exact (Method.invoke_yields hschema hmem (hhandlers _ (mem_handlers hhandler)) h).ok hrun

/-- In every store that calls lead to, each record is as its model describes it, also when methods
with handlers that set fields are among the calls. -/
theorem records_conform {registry : Registry} {store : Store}
    (hschema : registry.schema = .ok engine.schema)
    (hhandlers : ∀ entry ∈ engine.handlers, Handler.WritesBySet entry.2)
    (hstore : engine.Reachable store) : store.tables.Conform engine.schema := by
  have hsound := Registry.sound_schema hschema
  have hdescribed := hstore.tables_hold (keepsInputs_described hsound)
    (keepsMethods_described hsound hhandlers) Tables.described_empty
  exact hdescribed.conform hsound

/-- Notes whose titles can be changed. -/
def noteRegistry : Registry where
  models := [{
    name := "Note"
    fields := [{ name := "title", kind := .string, default := some (.str "untitled") }]
    methods := [{
      name := "rename", exposed := true
      params := [{ name := "title", kind := some .string }] }] }]

def noteSchema : Schema :=
  match noteRegistry.schema with
  | .ok schema => schema
  | .error _ => {}

theorem schema_noteRegistry : noteRegistry.schema = .ok noteSchema := by
  have hok : (match noteRegistry.schema with | .ok _ => true | .error _ => false) = true := by
    decide +kernel
  unfold noteSchema
  cases hschema : noteRegistry.schema with
  | ok schema => rfl
  | error conflict =>
      rw [hschema] at hok
      cases hok

def renameHandler : Handler := fun arguments => do
  Invoking.set "title" ((arguments.get? "title").getD .null)
  pure .null

theorem writesBySet_renameHandler : Handler.WritesBySet renameHandler := by
  intro arguments start given stop hrun
  change EStateM.bind _ _ start = _ at hrun
  unfold EStateM.bind at hrun
  split at hrun
  · rename_i between hset
    obtain ⟨-, rfl⟩ := EStateM.Result.ok.inj hrun
    exact .set hset
  · cases hrun

def noteEngine : Engine :=
  { chainEngine with
    schema := noteSchema
    handlers := [(("Note", "rename"), renameHandler)] }

def notePlan : Plan := (noteEngine.plan? "Note" .create (.obj [])).getD ⟨[], []⟩

theorem create_note : noteEngine.runOne {} "Note" .create (.obj []) {} =
    Store.transact {} {} (do pure (Record.toJson (← notePlan.apply noteEngine.sources [0]))) := by
  have hplanned : (noteEngine.plan? "Note" .create (.obj [])).isSome = true := by decide +kernel
  have horder : notePlan.order = .ok [0] :=
    order_of_single (by decide +kernel) (by decide +kernel)
  exact runOne_of_plan? (by decide) (eq_some_getD hplanned) horder {} {}

/-- A note is created and renamed. -/
theorem records_conform_note :
    let created := (noteEngine.call {} {} (.create "Note" (.obj []))).1
    let store := (noteEngine.call created {} (.invoke "Note" "rename"
      (.obj [("id", .num (.int 1)), ("title", .str "renamed")]))).1
    ((store.tables.get? "Note" (.int 1)).bind (·.get? "title")).bind Value.str? =
      some "renamed" ∧ store.tables.Conform noteSchema := by
  intro created store
  have hreachable : noteEngine.Reachable store := .call {} _ (.call {} _ (.empty [] 0))
  have hhandlers : ∀ entry ∈ noteEngine.handlers, Handler.WritesBySet entry.2 := by
    intro entry hentry
    rw [List.mem_singleton.mp hentry]
    exact writesBySet_renameHandler
  refine ⟨?_, records_conform schema_noteRegistry hhandlers hreachable⟩
  change (((noteEngine.call (noteEngine.runOne {} "Note" .create (.obj []) {}).1 {} _).1.tables.get?
    "Note" (.int 1)).bind (·.get? "title")).bind Value.str? = some "renamed"
  rw [create_note]
  decide +kernel

end Engine

end ModelSurface
