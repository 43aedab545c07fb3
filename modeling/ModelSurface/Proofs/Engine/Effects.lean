import ModelSurface.Proofs.Engine.Conformity
import ModelSurface.Proofs.Write.Effects

/-!
# What calls do

A create or an update that succeeds does exactly what its input asks for, and answers with the
record as it is stored then. There is one exception. Whether the record to update is stored is
looked up when its turn comes, and the records that it refers to are created before that. An update
of a record that is not stored may thus find one that its own input has just created, and overwrite
it.
-/

namespace ModelSurface.Engine

variable {engine : Engine} {name : String} {kind : InputKind} {input : Json} {store after : Store}
  {options : CallOptions} {object : Json}

/-- The record that an input asks to update. -/
def updated? (engine : Engine) (name : String) (kind : InputKind) (input : Json) :
    Option Identity :=
  ((engine.plan? name kind input).bind (·.nodes.head?)).bind fun root =>
    match root.action with
    | .update id => some id
    | .create => none

theorem rooted_of_updated {model : Model} {plan : Plan} {tables : Tables}
    (hkind : kind ≠ .delete) (hname : model.name = name)
    (hplan : engine.plan? name kind input = some plan)
    (hreads : plan.Reads engine.schema (engine.schema.inputObjects model kind input))
    (hupdated : ∀ id, engine.updated? name kind input = some id → (tables.get? name id).isSome) :
    Plan.Rooted (engine.schema.inputObjects model kind input) tables := by
  intro index object named hindex haction
  obtain ⟨-, houtermost, hroot⟩ := Schema.mem_inputObjects hkind hindex
  obtain rfl : index = 0 := houtermost (by rw [haction]; exact NodeAction.noConfusion)
  obtain ⟨node, hnode, hplans⟩ := hreads.node hindex
  refine ⟨rfl, ?_⟩
  rw [hroot rfl, hname]
  refine hupdated named ?_
  unfold updated?
  rw [hplan, Option.bind_some, List.head?_eq_getElem?, hnode, Option.bind_some, hplans.action,
    haction]

/-- A create or an update that succeeds has its exact effect, and answers with the record that a
query finds then; a record to update has to be stored before. -/
theorem effect_exact {registry : Registry} (hschema : registry.schema = .ok engine.schema)
    (hhandlers : engine.handlers = []) (hstore : engine.Reachable store) (hkind : kind ≠ .delete)
    (hupdated : ∀ id, engine.updated? name kind input = some id →
      (store.tables.get? name id).isSome)
    (hcall : engine.call store options (.single name kind input) = (after, .single object)) :
    ∃ model plan written root record, engine.schema.model? name = some model ∧
      engine.plan? name kind input = some plan ∧
      plan.Reads engine.schema (engine.schema.inputObjects model kind input) ∧
      plan.Effect engine.sources (engine.schema.inputObjects model kind input) written
        store.tables store.meter after.tables after.meter ∧
      written.lookup 0 = some root ∧ object = record.toJson ∧
      after.tables.get? name root = some record ∧
      ∀ json, Identity.ofJson model.identity.kind json = .ok root →
        Query.single engine.schema after.tables name json = .ok (some record) := by
  have hsound := Registry.sound_schema hschema
  have hmethods : engine.KeepsMethods (Tables.Described engine.schema) :=
    keepsMethods_of_no_handlers hhandlers
  have hdescribed := hstore.tables_hold (keepsInputs_described hsound) hmethods
    Tables.described_empty
  obtain ⟨plan, order, record, stop, hplan, horder, hrun, hobject, rfl⟩ :=
    applied_of_call hkind hcall
  obtain ⟨model, hmodel, hread⟩ := plan?_eq_some.mp hplan
  have hplan_sound := sound_of_plan? hsound hkind hplan
  have hreads := Plan.ofInput_reads hread
  have hname := (hsound.model?_eq_some.mp hmodel).2
  have hproper := Plan.proper_of_reads hkind hplan_sound hreads
  have hrooted : Plan.Rooted (engine.schema.inputObjects model kind input)
      (store.start options).tables := rooted_of_updated hkind hname hplan hreads hupdated
  obtain ⟨written, heffect, root, id, hroot, hid, hrecord⟩ :=
    Plan.effect_of_apply hsound hplan_sound hreads hproper hrooted hdescribed.filled horder hrun
  rw [List.head?_eq_getElem?] at hroot
  rw [(Schema.mem_inputObjects hkind hroot).2.2 rfl] at hrecord
  refine ⟨model, plan, written, id, record, hmodel, hplan, hreads, heffect, hid, hobject, ?_, ?_⟩
  · rw [← hname]
    exact hrecord
  · intro json hjson
    simp only [Query.single, findModel_of_model? hmodel, bind, Except.bind, hjson]
    exact congrArg Except.ok hrecord

/-! ### Records to update that are not stored -/

/-- Posts, each of which may answer another one. -/
def postRegistry : Registry where
  models := [{
    name := "Post"
    fields := [{ name := "title", kind := .string, nullable := true }]
    relations := [{
      name := "parent", target := "Post", kind := .foreignKey, nullable := true
      onDelete := .cascade }] }]

def postSchema : Schema := postRegistry.schema.toOption.getD {}

theorem schema_postRegistry : postRegistry.schema = .ok postSchema :=
  Registry.schema_eq_ok {} (by decide +kernel)

def postEngine : Engine := { chainEngine with schema := postSchema }

def postPlan : Plan := (postEngine.plan? "Post" .create (.obj [])).getD ⟨[], []⟩

/-- A store with one post. -/
def postStore : Store := (postEngine.call {} {} (.create "Post" (.obj []))).1

theorem postStore_eq : postStore = (Store.transact {} {}
    (do pure (Record.toJson (← postPlan.apply postEngine.sources [0])))).1 := by
  have hplanned : (postEngine.plan? "Post" .create (.obj [])).isSome = true := by decide +kernel
  have horder : postPlan.order = .ok [0] :=
    order_of_single (by decide +kernel) (by decide +kernel)
  change (postEngine.runOne {} "Post" .create (.obj []) {}).1 = _
  rw [runOne_of_plan? (by decide) (eq_some_getD hplanned) horder]
  rfl

/-- The first post comes to answer a new one. -/
def answerInput : Json :=
  .obj [("id", .num (.int 1)), ("title", .str "answer"),
    ("parent", .obj [("title", .str "question")])]

def answerPlan : Plan := (postEngine.plan? "Post" .update answerInput).getD ⟨[], []⟩

theorem plan?_answerInput : postEngine.plan? "Post" .update answerInput = some answerPlan := by
  have hplanned : (postEngine.plan? "Post" .update answerInput).isSome = true := by decide +kernel
  exact eq_some_getD hplanned

theorem order_answerPlan : answerPlan.order = .ok [1, 0] :=
  order_of_pair (by decide +kernel) (by decide +kernel) (by decide +kernel)

theorem updated?_answerInput :
    postEngine.updated? "Post" .update answerInput = some (.int 1) := by decide +kernel

/-- A stored post is updated while the post that it answers is created. -/
theorem effect_exact_answer : ∃ after object model, ∃ plan : Plan, ∃ written,
    postEngine.call postStore {} (.update "Post" answerInput) = (after, .single object) ∧
      plan.Effect postEngine.sources (postSchema.inputObjects model .update answerInput) written
        postStore.tables postStore.meter after.tables after.meter := by
  have hreachable : postEngine.Reachable postStore := .call {} _ (.empty [] 0)
  have hstored : (postStore.tables.get? "Post" (.int 1)).isSome = true := by
    rw [postStore_eq]
    decide +kernel
  obtain ⟨object, hcall⟩ := call_of_plan? (by decide) plan?_answerInput order_answerPlan postStore
    {} (by rw [postStore_eq]; decide +kernel)
  have hupdated : ∀ id, postEngine.updated? "Post" .update answerInput = some id →
      (postStore.tables.get? "Post" id).isSome := by
    intro id hid
    rw [updated?_answerInput] at hid
    rw [← Option.some.inj hid]
    exact hstored
  obtain ⟨model, plan, written, -, -, -, -, -, heffect, -⟩ := effect_exact schema_postRegistry rfl
    hreachable (show InputKind.update ≠ .delete by decide) hupdated hcall
  exact ⟨_, object, model, plan, written, hcall, heffect⟩

/-- The objects of an input for posts: what is to be done for each, and the title it gives. -/
def postObjects (kind : InputKind) (input : Json) : List (NodeAction × Option String) :=
  ((postSchema.model? "Post").map fun model =>
    (postSchema.inputObjects model kind input).map fun object =>
      (object.action, (object.members.lookup "title").bind Json.str?)).getD []

/-- Where there are no posts, the post to update is found to be the one that the input has just
created: one post is stored for two objects, and the title of the new one is lost. -/
theorem update_of_created_accepted : ∃ after object,
    postEngine.Reachable {} ∧
      postEngine.call {} {} (.update "Post" answerInput) = (after, .single object) ∧
      postObjects .update answerInput =
        [(.update (.int 1), some "answer"), (.create, some "question")] ∧
      after.tables.rows.map (fun row => (row.1.id, (row.2.get? "title").bind Value.str?)) =
        [(.int 1, some "answer")] ∧
      ∀ model written, postSchema.model? "Post" = some model →
        ¬ answerPlan.Effect postEngine.sources
          (postSchema.inputObjects model .update answerInput) written {} (Store.meter {})
          after.tables after.meter := by
  have hobjects : postObjects .update answerInput =
      [(.update (.int 1), some "answer"), (.create, some "question")] := by decide +kernel
  obtain ⟨object, hcall⟩ := call_of_plan? (by decide) plan?_answerInput order_answerPlan {} {}
    (by decide +kernel)
  refine ⟨_, object, .empty [] 0, hcall, hobjects, by decide +kernel, ?_⟩
  intro model written hmodel heffect
  unfold postObjects at hobjects
  rw [hmodel, Option.map_some, Option.getD_some] at hobjects
  -- an update makes its record of the one that was stored, and there was none
  obtain ⟨root, rest, hroot, haction, -⟩ := List.map_eq_cons_iff.mp hobjects
  obtain ⟨id, hid⟩ := (heffect.placed.reached 0).mp (by simp [hroot])
  obtain ⟨record, -, hmakes⟩ := heffect.made 0 root id (by simp [hroot]) hid
  unfold InputObject.Makes at hmakes
  rw [(Prod.mk.inj haction).1] at hmakes
  obtain ⟨old, hold, -⟩ := hmakes
  cases hold

end ModelSurface.Engine
