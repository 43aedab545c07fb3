import ModelSurface.Proofs.Engine.BulkPolicies
import ModelSurface.Proofs.Engine.Conformity
import ModelSurface.Proofs.Engine.Traversal
import ModelSurface.Proofs.Write.Repeating

/-!
# Updates that are retried

A caller who does not know whether an update has been made may make it again. Where the input
creates nothing and nothing is computed on each save, an update that has succeeded succeeds again on
the store that it left, gives the same object and changes nothing: links that are there are not
added twice, a reference that only one record may have is not taken from this record itself, and
references that were overwritten later in the first run are overwritten again.
-/

namespace ModelSurface.Engine

variable {engine : Engine} {store after : Store} {options : CallOptions} {name : String}
  {kind : InputKind} {input : Json} {plan : Plan} {order : List Nat} {object : Json}

/-- A create or an update is the transaction in which its plan is carried out. -/
theorem call_eq_transact (hkind : kind ≠ .delete) (hplan : engine.plan? name kind input = some plan)
    (horder : plan.order = .ok order) (store : Store) (options : CallOptions) :
    let result := store.transact options
      (do pure (Record.toJson (← plan.apply engine.sources order)))
    engine.call store options (.single name kind input) = (result.1, .ofChecked result.2) := by
  rw [call_single]
  unfold runSingle
  rw [runOne_of_plan? hkind hplan horder]

/-- There is time for a call that succeeds, and it is not cancelled. -/
theorem open_of_call (hkind : kind ≠ .delete) (hplan : engine.plan? name kind input = some plan)
    (horder : plan.order = .ok order)
    (h : engine.call store options (.single name kind input) = (after, .single object)) :
    ∃ record stop, plan.apply engine.sources order (store.start options) = .ok record stop ∧
      stop.Open ∧ object = record.toJson ∧ after = store.publish stop := by
  have horderly : Orderly (do pure (Record.toJson (← plan.apply engine.sources order))) :=
    Writing.orderly_bind (plan.orderly_apply engine.sources order) fun _ => Writing.orderly_pure _
  rw [call_eq_transact hkind hplan horder] at h
  obtain ⟨hafter, hobject⟩ := Prod.mk.inj h
  obtain ⟨violations, herror, -⟩ | ⟨json, stop, hwork, hwanted, htimely, htransact⟩ :=
    store.transact_ends options (do pure (Record.toJson (← plan.apply engine.sources order)))
  · rw [herror] at hobject
    cases hobject
  · rw [htransact] at hafter hobject
    have hstop := horderly.ok hwork
    obtain ⟨record, between, happly, hpure⟩ := Writing.bind_eq_ok.mp hwork
    obtain ⟨rfl, rfl⟩ := Writing.pure_eq_ok.mp hpure
    refine ⟨record, between, happly, ⟨htimely, ?_⟩, (MutationResult.single.inj hobject).symm,
      hafter.symm⟩
    rw [hstop]
    exact hwanted

/-- A call whose plan can be carried out again without any change succeeds again. -/
theorem call_again (hkind : kind ≠ .delete) (hplan : engine.plan? name kind input = some plan)
    (horder : plan.order = .ok order) {record : Record} {stop : Work}
    (hrun : plan.apply engine.sources order (store.start options) = .ok record stop)
    (hopen : stop.Open) (hagain : plan.apply engine.sources order stop = .ok record stop) :
    engine.call (store.publish stop) options (.single name kind input) =
      (store.publish stop, .single record.toJson) := by
  have horderly : Orderly (do pure (Record.toJson (← plan.apply engine.sources order))) :=
    Writing.orderly_bind (plan.orderly_apply engine.sources order) fun _ => Writing.orderly_pure _
  have hstart : (store.publish stop).start options = stop :=
    Store.start_publish (plan.orderly_apply engine.sources order) hrun
  have hwork : (do pure (Record.toJson (← plan.apply engine.sources order)) : Writing Json)
      ((store.publish stop).start options) = .ok record.toJson stop := by
    rw [hstart]
    exact Writing.bind_eq_ok.mpr ⟨record, stop, hagain, rfl⟩
  rw [call_eq_transact hkind hplan horder, Store.transact_of_timely horderly
    (hstart ▸ hopen.timely) (hstart ▸ hopen.wanted) hwork]
  rfl

/-- An update that succeeds can be made again. If its input creates nothing, and its model has no
values that are computed on each save, it then gives the same object and leaves the store as it
is. -/
theorem update_retry_safe {registry : Registry} (hschema : registry.schema = .ok engine.schema)
    (hhandlers : ∀ entry ∈ engine.handlers, Handler.WritesBySet entry.2)
    (hstore : engine.Reachable store) {model : Model} (hmodel : model ∈ engine.schema.models)
    (hsave : Plan.onSave model = []) (hproper : input.isProper)
    (hnone : ∀ object ∈ engine.schema.inputObjects model .update input, object.action ≠ .create)
    (h : engine.call store options (.update model.name input) = (after, .single object)) :
    engine.call after options (.update model.name input) = (after, .single object) := by
  have hsound := Registry.sound_schema hschema
  have hdescribed := hstore.tables_hold (keepsInputs_described hsound)
    (keepsMethods_described hsound hhandlers) Tables.described_empty
  have hkind : InputKind.update ≠ .delete := by decide
  obtain ⟨plan, order, -, -, hplan, horder, -⟩ :=
    applied_of_call hkind h
  have hplan_sound := sound_of_plan? hsound hkind hplan
  obtain ⟨found, hfound, hread⟩ := plan?_eq_some.mp hplan
  obtain rfl := Option.some.inj (hfound.symm.trans (hsound.model?_eq_some.mpr ⟨hmodel, rfl⟩))
  obtain ⟨node, id, rfl, hflat⟩ := Plan.flat_of_ofInput hsound hmodel hproper hnone hread
  have hsingle : plan.order = .ok [0] :=
    order_of_single (by rw [hflat.nodes]; rfl) hflat.references
  obtain rfl := Except.ok.inj (horder.symm.trans hsingle)
  obtain ⟨record, stop, hrun, hopen, rfl, rfl⟩ := open_of_call hkind hplan horder h
  have hstart : (store.start options).tables.Described engine.schema := hdescribed
  obtain ⟨hstanding, hwilling, hrecord⟩ :=
    Plan.standing_of_apply hsound hplan_sound hflat hsave hstart.intact hrun
  have hfilled := (Plan.described_of_apply hsound hplan_sound hstart hrun).filled _ hmodel id
    record hrecord
  have hdistinct : record.keys.Nodup := by
    rw [hfilled.keys]
    exact (hsound.model _ hmodel).nodup_members
  exact call_again hkind hplan horder hrun hopen
    (Plan.apply_again hsound hplan_sound hflat hstanding hrecord hsave hdistinct hopen hwilling _)

/-- A person who is put among the friends of another one, names that one as partner, and itself
twice as a friend. -/
def friendInput : Json :=
  .obj [("friend_of", .arr [.num (.int 2)]), ("friends", .arr [.num (.int 1), .num (.int 1)]),
    ("id", .num (.int 1)), ("partner", .num (.int 2))]

def friendPlan : Plan := (circleEngine.plan? "Person" .update friendInput).getD ⟨[], []⟩

/-- The person is updated once more, with the same result. -/
theorem update_retry_safe_circle :
    ∃ after object,
      circleEngine.call circleStore {} (.update personModel.name friendInput) =
        (after, .single object) ∧
      circleEngine.call after {} (.update personModel.name friendInput) =
        (after, .single object) := by
  have hstore : circleStore = (Store.transact {} {}
      (do pure (Record.toJson (← circlePlan.apply circleEngine.sources [1, 0])))).1 :=
    congrArg (·.1) create_circleInput
  obtain ⟨hperson, hsave, hnone, hplanned, hlength, hreferences, hok⟩ :
      (circleSchema.model? "Person").isSome = true ∧ Plan.onSave personModel = [] ∧
        (∀ object ∈ circleSchema.inputObjects personModel .update friendInput,
          object.action ≠ .create) ∧
        (circleEngine.plan? "Person" .update friendInput).isSome = true ∧
        friendPlan.nodes.length = 1 ∧ friendPlan.references 0 = [] ∧
        (circleStore.transact {}
          (do pure (Record.toJson (← friendPlan.apply circleEngine.sources [0])))).2.isOk = true := by
    rw [hstore]
    decide +kernel
  obtain ⟨hmodel, hname⟩ : personModel ∈ circleSchema.models ∧ personModel.name = "Person" :=
    (Registry.sound_schema schema_circleRegistry).model?_eq_some.mp (eq_some_getD hperson)
  obtain ⟨object, hcall⟩ := call_of_plan? (by decide) (eq_some_getD hplanned)
    (order_of_single hlength hreferences) circleStore {} hok
  rw [← hname] at hcall
  have hreachable : circleEngine.Reachable circleStore := .call {} _ (.empty [] 0)
  have hnothing : ∀ entry ∈ circleEngine.handlers, Handler.WritesBySet entry.2 :=
    fun entry hentry => absurd hentry List.not_mem_nil
  exact ⟨_, object, hcall, update_retry_safe schema_circleRegistry hnothing hreachable hmodel
    hsave (by decide +kernel) hnone hcall⟩

end ModelSurface.Engine
