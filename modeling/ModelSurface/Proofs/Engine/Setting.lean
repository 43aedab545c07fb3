import ModelSurface.Engine.Method
import ModelSurface.Proofs.Described
import ModelSurface.Proofs.Engine.Composing
import ModelSurface.Proofs.Engine.Work

/-!
# Handlers that set fields

A handler can do much to a store. When it writes by setting fields of its receiver only, records
stay as their models describe them, whichever fields it sets and whether they can be set or not. It
changes no record but its receiver, and of this neither the identity nor a reference. It may besides
leave one field alone in all that it does.
-/

namespace ModelSurface

namespace Invocation

/-- What a handler does to its invocation that writes by setting fields only. A field may fail to be
set, and whatever else the handler does changes neither its receiver nor the tables. -/
inductive SetsFields : Invocation → Invocation → Prop
  | idle {before after : Invocation} (hschema : after.schema = before.schema)
      (hmodel : after.model = before.model) (hreceiver : after.receiver = before.receiver)
      (htables : after.work.tables = before.work.tables) : SetsFields before after
  | set {before after : Invocation} {field : String} {value : Value}
      (h : Invoking.set field value before = .ok () after) : SetsFields before after
  | fail {before after : Invocation} {field : String} {value : Value} {failure : MethodFailure}
      (h : Invoking.set field value before = .error failure after) : SetsFields before after
  | trans {before between after : Invocation} (h : SetsFields before between)
      (h' : SetsFields between after) : SetsFields before after

/-- The receiver of an invocation is as its model describes it, and so are all records. -/
structure Described (schema : Schema) (invocation : Invocation) : Prop where
  model : invocation.model ∈ schema.models
  tables : invocation.work.tables.Described schema
  filled : invocation.receiver.Filled invocation.model
  linked : invocation.receiver.Linked invocation.model invocation.work.tables

end Invocation

/-- A handler that writes by setting fields of its receiver only. -/
def Handler.WritesBySet (handler : Handler) : Prop :=
  ∀ arguments start given stop, (handler arguments).run start = .ok given stop →
    start.SetsFields stop

namespace Invoking

theorem admits_of_assignment {model : Model} {name : String} {value : Value}
    (h : assignmentFault? model name value = none) : ∃ field, model.field? name = some field ∧
      field.Admits value := by
  unfold assignmentFault? at h
  split at h
  · cases h
  · rename_i field hfield
    refine ⟨field, hfield, ?_⟩
    split at h
    · cases h
    · split at h
      · cases h
      · rename_i hnull
        split at h
        · rename_i hfits
          refine ⟨hfits, fun hisNull => ?_⟩
          simpa [hisNull] using hnull
        · cases h

theorem transaction_ok {α : Type} {act : Transaction → Except StorageFault (α × Transaction)}
    {before after : Invocation} {a : α} (h : transaction act before = .ok a after) :
    ∃ work, Writing.change act before.work = .ok a work ∧ after = { before with work := work } := by
  unfold transaction at h
  split at h
  · rename_i found transaction hact
    obtain ⟨rfl, rfl⟩ := EStateM.Result.ok.inj h
    refine ⟨{ before.work with transaction := transaction }, ?_, rfl⟩
    unfold Writing.change
    rw [hact]
  · cases h

theorem transaction_error {α : Type} {act : Transaction → Except StorageFault (α × Transaction)}
    {before after : Invocation} {failure : MethodFailure}
    (h : transaction act before = .error failure after) : after = before := by
  unfold transaction at h
  split at h
  · cases h
  · exact (EStateM.Result.error.inj h).2.symm

/-- The invocation whose receiver has a new value, before it is stored. -/
def withField (invocation : Invocation) (name : String) (value : Value) : Invocation :=
  { invocation with receiver := invocation.receiver.put name value }

theorem get_bind {α : Type} (next : Invocation → Invoking α) (start : Invocation) :
    ((get : Invoking Invocation) >>= next) start = next start start := rfl

theorem set_of_fault {name : String} {value : Value} {before : Invocation}
    {fault : AssignmentFault} (h : assignmentFault? before.model name value = some fault) :
    set name value before = .error (.ofField name (.assignment fault)) before := by
  unfold set
  rw [get_bind]
  dsimp only
  rw [h]
  rfl

theorem set_of_accepted {name : String} {value : Value} {before : Invocation}
    (h : assignmentFault? before.model name value = none) :
    set name value before =
      match Record.identity? (before.receiver.put name value) before.model.identity.name with
      | none => .error (.failed "receiver has no identity") (withField before name value)
      | some id => transaction (fun tx =>
          (tx.replace before.model.name id (before.receiver.put name value)).map fun tx => ((), tx))
          (withField before name value) := by
  unfold set
  rw [get_bind]
  dsimp only
  rw [h]
  cases Record.identity? (before.receiver.put name value) before.model.identity.name with
  | none => rfl
  | some id => rfl

/-- Where setting a field leads, if the field takes the value: the value goes into the receiver,
which is stored in the place of a stored record unless that fails. -/
structure Sets (name : String) (value : Value) (before after : Invocation) : Prop where
  model : after.model = before.model
  accepted : assignmentFault? before.model name value = none
  receiver : after.receiver = before.receiver.put name value
  tables : after.work.tables = before.work.tables ∨ ∃ id,
    Record.identity? after.receiver before.model.identity.name = some id ∧
      (before.work.tables.get? before.model.name id).isSome ∧
      after.work.tables = before.work.tables.put before.model.name id after.receiver

theorem set_cases {name : String} {value : Value} {before after : Invocation}
    (h : set name value before = .ok () after ∨
      ∃ failure, set name value before = .error failure after) :
    after = before ∨ Sets name value before after := by
  cases hfault : assignmentFault? before.model name value with
  | some fault =>
      rw [set_of_fault hfault] at h
      rcases h with hok | ⟨failure, herror⟩
      · cases hok
      · exact .inl (EStateM.Result.error.inj herror).2.symm
  | none =>
      have hunstored : Sets name value before (withField before name value) :=
        ⟨rfl, hfault, rfl, .inl rfl⟩
      rw [set_of_accepted hfault] at h
      split at h
      · rcases h with hok | ⟨failure, herror⟩
        · cases hok
        · rw [← (EStateM.Result.error.inj herror).2]
          exact .inr hunstored
      · rename_i id hid
        rcases h with hok | ⟨failure, herror⟩
        · obtain ⟨work, hwork, rfl⟩ := transaction_ok hok
          obtain ⟨⟨old, hold⟩, rfl⟩ := Writing.replace_ok hwork
          exact .inr ⟨rfl, hfault, rfl, .inr ⟨id, hid, Option.isSome_of_eq_some hold, rfl⟩⟩
        · rw [transaction_error herror]
          exact .inr hunstored

end Invoking

namespace Invocation

variable {schema : Schema}

/-- What every field keeps that is set, and what is known from the receiver and the tables alone,
is kept by a handler that sets fields. -/
theorem SetsFields.keeps (holds : Invocation → Prop)
    (hidle : ∀ {before after : Invocation}, after.model = before.model →
      after.receiver = before.receiver → after.work.tables = before.work.tables →
      holds before → holds after)
    (hset : ∀ {before after : Invocation} {name : String} {value : Value},
      Invoking.Sets name value before after → holds before → holds after)
    {before after : Invocation} (h : before.SetsFields after) (hbefore : holds before) :
    holds after := by
  induction h with
  | idle _ hmodel hreceiver htables => exact hidle hmodel hreceiver htables hbefore
  | set hrun =>
      rcases Invoking.set_cases (.inl hrun) with rfl | hsets
      · exact hbefore
      · exact hset hsets hbefore
  | fail hrun =>
      rcases Invoking.set_cases (.inr ⟨_, hrun⟩) with rfl | hsets
      · exact hbefore
      · exact hset hsets hbefore
  | trans _ _ ih ih' => exact ih' (ih hbefore)

/-- An invocation begins with a record that is stored. -/
theorem Described.of_stored {model : Model} (hmodel : model ∈ schema.models) {work : Work}
    (hwork : work.tables.Described schema) {id : Identity} {receiver : Record}
    (hfound : work.tables.get? model.name id = some receiver) :
    Described schema ⟨schema, model, receiver, work⟩ where
  model := hmodel
  tables := hwork
  filled := hwork.filled model hmodel id receiver hfound
  linked := hwork.intact.linked model hmodel id receiver hfound

theorem Described.sets {before after : Invocation} (h : before.Described schema)
    (hschema : schema.Sound) {name : String} {value : Value}
    (hsets : Invoking.Sets name value before after) : after.Described schema := by
  have hmodel := hschema.model _ h.model
  obtain ⟨field, hfound, hadmits⟩ := Invoking.admits_of_assignment hsets.accepted
  obtain ⟨hfield, rfl⟩ := hmodel.fields_named.get?_eq_some.mp hfound
  have hfilled : after.receiver.Filled before.model := by
    rw [hsets.receiver]
    exact h.filled.putField hmodel hfield hadmits
  have hlinked : after.receiver.Linked before.model before.work.tables := by
    intro relationship hmem hown
    have hname : relationship.name ≠ field.name := by
      intro heq
      apply hmodel.not_mem_fields hmem
      rw [heq]
      exact hmodel.mem_fields_keys hfield
    rw [hsets.receiver, Keyed.get?_put_of_ne _ _ hname]
    exact h.linked relationship hmem hown
  rcases hsets.tables with htables | ⟨id, hidentity, -, htables⟩
  · refine ⟨?_, ?_, ?_, ?_⟩
    · rw [hsets.model]
      exact h.model
    · rw [htables]
      exact h.tables
    · rw [hsets.model]
      exact hfilled
    · rw [hsets.model, htables]
      exact hlinked
  · refine ⟨?_, ?_, ?_, ?_⟩
    · rw [hsets.model]
      exact h.model
    · rw [htables]
      exact ⟨h.tables.intact.put hschema h.model hidentity hlinked,
        h.tables.filled.put hschema h.model hfilled⟩
    · rw [hsets.model]
      exact hfilled
    · rw [hsets.model, htables]
      exact hlinked.mono (Tables.retains_put _ _ _ _)

/-- A handler that writes by setting fields leaves records as their models describe them. -/
theorem Described.setsFields {before after : Invocation} (h : before.Described schema)
    (hschema : schema.Sound) (hsets : before.SetsFields after) : after.Described schema := by
  refine hsets.keeps (Described schema) ?_ (fun hset hbefore => hbefore.sets hschema hset) h
  intro before after hmodel hreceiver htables h
  refine ⟨?_, ?_, ?_, ?_⟩
  · rw [hmodel]
    exact h.model
  · rw [htables]
    exact h.tables
  · rw [hmodel, hreceiver]
    exact h.filled
  · rw [hmodel, hreceiver, htables]
    exact h.linked

end Invocation

theorem Method.result_yields {model : Model} {method : Method} {id : Identity} {receiver : Record}
    {given : Json} {start : Work} :
    Writing.Yields (method.result model id receiver given) start fun _ stop => stop = start := by
  unfold result
  split
  · split
    · exact .breach trivial
    · refine .bind (fun _ stop => stop = start) (.get? (fun _ => trivial) rfl) ?_
      rintro found _ rfl
      split
      · exact .pure rfl
      · exact .breach trivial
  · split
    · split
      · exact .breach trivial
      · exact .pure rfl
    · exact .breach trivial
  · exact .pure rfl

/-- What holds whenever the handler is done with a stored record holds behind the invocation. -/
theorem Method.invoke_yields_of {schema : Schema} {model : Model} {method : Method}
    {handler : Handler} {id : Identity} {arguments : Record} {start : Work}
    (holds : Tables → Prop)
    (hhandled : ∀ receiver given final, start.tables.get? model.name id = some receiver →
      (handler arguments).run ⟨schema, model, receiver, start⟩ = .ok given final →
      holds final.work.tables) :
    Writing.Yields (method.invoke schema model handler id arguments) start
      fun _ stop => holds stop.tables := by
  unfold invoke
  refine .bind (fun found stop => stop = start ∧ start.tables.get? model.name id = found)
    (.get? (fun _ => trivial) ⟨rfl, rfl⟩) ?_
  rintro found start ⟨rfl, hfound⟩
  split
  · exact .refuse trivial
  · rename_i receiver
    refine .bind (fun _ stop => holds stop.tables) (.intro ?_ fun _ _ _ => trivial) ?_
    · rintro ⟨given, receiver'⟩ stop hrun
      unfold runHandler at hrun
      split at hrun
      · rename_i result after hrun_handler
        obtain ⟨-, rfl⟩ := EStateM.Result.ok.inj hrun
        exact hhandled receiver result after hfound hrun_handler
      · cases hrun
    · rintro ⟨given, receiver'⟩ between hbetween
      exact result_yields.mono fun _ stop hstop => hstop ▸ hbetween

theorem Method.invoke_yields {schema : Schema} (hschema : schema.Sound) {model : Model}
    (hmodel : model ∈ schema.models) {method : Method} {handler : Handler}
    (hhandler : Handler.WritesBySet handler) {id : Identity} {arguments : Record} {start : Work}
    (hstart : start.tables.Described schema) :
    Writing.Yields (method.invoke schema model handler id arguments) start
      fun _ stop => stop.tables.Described schema := by
  refine invoke_yields_of (Tables.Described schema) fun receiver _ _ hfound hhandled => ?_
  have hbefore : Invocation.Described schema ⟨schema, model, receiver, start⟩ :=
    .of_stored hmodel hstart hfound
  exact (hbefore.setsFields hschema (hhandler arguments _ _ _ hhandled)).tables

/-! ### What handlers leave alone -/

/-- Records of a model are stored under the same identities, with the same values of a field. -/
def Tables.Spared (model field : String) (before after : Tables) : Prop :=
  ∀ id, (after.get? model id).map (·.get? field) = (before.get? model id).map (·.get? field)

theorem Tables.Spared.get? {model field : String} {before after : Tables}
    (h : before.Spared model field after) {id : Identity} {old new : Record}
    (hold : before.get? model id = some old) (hnew : after.get? model id = some new) :
    new.get? field = old.get? field := by
  have hsame := h id
  rwa [hold, hnew, Option.map_some, Option.map_some, Option.some.injEq] at hsame

/-- A handler that leaves a field of a model as it is, whichever stored record it is run for. -/
def Handler.Spares (handler : Handler) (schema : Schema) (model field : String) : Prop :=
  ∀ arguments start given stop, (handler arguments).run start = .ok given stop →
    start.Described schema →
    (∃ id, start.work.tables.get? start.model.name id = some start.receiver) →
    start.work.tables.Spared model field stop.work.tables

/-- Nothing has changed but fields of one record, other than its identity. -/
def Tables.Assigned (model : Model) (id : Identity) (before after : Tables) : Prop :=
  ∀ name other, after.get? name other = before.get? name other ∨
    (name = model.name ∧ other = id) ∧ ∃ old new, before.get? name other = some old ∧
      after.get? name other = some new ∧
      ∀ field, field ∉ model.plain.keys → new.get? field = old.get? field

namespace Invocation

/-- How far a handler has come with a record: its receiver is the record as it was, and so is the
record that is stored, apart from fields that have been set. -/
structure Assigning (model : Model) (id : Identity) (record : Record) (origin : Tables)
    (invocation : Invocation) : Prop where
  model_eq : invocation.model = model
  identity : Record.identity? invocation.receiver model.identity.name = some id
  receiver : ∀ field, field ∉ model.plain.keys →
    invocation.receiver.get? field = record.get? field
  tables : origin.Assigned model id invocation.work.tables

/-- The fields that can be set are those besides the identity. -/
theorem mem_plain_of_accepted {model : Model} (hmodel : model.Sound) {name : String} {value : Value}
    (h : Invoking.assignmentFault? model name value = none) : name ∈ model.plain.keys := by
  unfold Invoking.assignmentFault? at h
  split at h
  · cases h
  · rename_i field hfound
    obtain ⟨hfield, rfl⟩ := hmodel.fields_named.get?_eq_some.mp hfound
    split at h
    · cases h
    · rename_i hordinary
      rcases List.mem_cons.mp hfield with rfl | hplain
      · exact absurd hmodel.identity.identity hordinary
      · exact hmodel.plain.mem_keys.mpr ⟨field, hplain, rfl⟩

/-- The identity of a receiver cannot be set. -/
theorem identity?_put_of_accepted {model : Model} (hmodel : model.Sound) {name : String}
    {value : Value} (h : Invoking.assignmentFault? model name value = none) (record : Record) :
    Record.identity? (record.put name value) model.identity.name =
      Record.identity? record model.identity.name := by
  have hne : model.identity.name ≠ name := by
    obtain ⟨field, hfield, hname⟩ := hmodel.plain.mem_keys.mp (mem_plain_of_accepted hmodel h)
    rw [← hname]
    exact (hmodel.ordinary field hfield).2.symm
  unfold Record.identity?
  rw [Keyed.get?_put_of_ne _ _ hne]

theorem identity?_of_sets {before after : Invocation} (hmodel : before.model.Sound) {name : String}
    {value : Value} (hsets : Invoking.Sets name value before after) :
    Record.identity? after.receiver before.model.identity.name =
      Record.identity? before.receiver before.model.identity.name := by
  rw [hsets.receiver]
  exact identity?_put_of_accepted hmodel hsets.accepted before.receiver

/-- To set a field leaves all other fields alone. -/
theorem spared_of_set {schema : Schema} (hschema : schema.Sound) {before after : Invocation}
    (hbefore : before.Described schema)
    (hstored : ∃ id, before.work.tables.get? before.model.name id = some before.receiver)
    {name field : String} {value : Value} (hset : Invoking.set name value before = .ok () after)
    (hne : field ≠ name) (model : String) :
    before.work.tables.Spared model field after.work.tables := by
  obtain ⟨id, hstored⟩ := hstored
  rcases Invoking.set_cases (.inl hset) with rfl | hsets
  · exact fun _ => rfl
  · rcases hsets.tables with htables | ⟨other, hother, -, htables⟩
    · rw [htables]
      exact fun _ => rfl
    · rw [identity?_of_sets (hschema.model _ hbefore.model) hsets,
        hbefore.tables.intact.identified _ hbefore.model id before.receiver hstored] at hother
      obtain rfl := Option.some.inj hother
      intro key
      rw [htables, Tables.get?_put]
      by_cases hplace : model = before.model.name ∧ key = id
      · rw [if_pos hplace, hplace.1, hplace.2, hstored, Option.map_some, Option.map_some,
          hsets.receiver, Keyed.get?_put_of_ne _ _ hne]
      · rw [if_neg hplace]

variable {model : Model} {id : Identity} {record : Record} {origin : Tables}
  {before after : Invocation}

theorem Assigning.sets (h : before.Assigning model id record origin) (hmodel : model.Sound)
    (hstored : origin.get? model.name id = some record) {name : String} {value : Value}
    (hsets : Invoking.Sets name value before after) :
    after.Assigning model id record origin := by
  obtain rfl := h.model_eq
  have hplain := mem_plain_of_accepted hmodel hsets.accepted
  have hidentity := (identity?_of_sets hmodel hsets).trans h.identity
  have hreceiver : ∀ field, field ∉ before.model.plain.keys →
      after.receiver.get? field = record.get? field := by
    intro field hfield
    rw [hsets.receiver, Keyed.get?_put_of_ne _ _ (ne_of_mem_of_not_mem hplain hfield).symm,
      h.receiver field hfield]
  refine ⟨hsets.model, hidentity, hreceiver, ?_⟩
  rcases hsets.tables with htables | ⟨other, hother, -, htables⟩
  · rw [htables]
    exact h.tables
  · obtain rfl := Option.some.inj (hother.symm.trans hidentity)
    intro table key
    rw [htables, Tables.get?_put]
    by_cases hplace : table = before.model.name ∧ key = other
    · rw [if_pos hplace]
      refine .inr ⟨hplace, record, after.receiver, ?_, rfl, hreceiver⟩
      rw [hplace.1, hplace.2, hstored]
    · rw [if_neg hplace]
      exact h.tables table key

theorem Assigning.setsFields (h : before.Assigning model id record origin) (hmodel : model.Sound)
    (hstored : origin.get? model.name id = some record) (hsets : before.SetsFields after) :
    after.Assigning model id record origin := by
  refine hsets.keeps (Assigning model id record origin) ?_
    (fun hset hbefore => hbefore.sets hmodel hstored hset) h
  intro before after hsame hreceiver htables h
  refine ⟨hsame.trans h.model_eq, ?_, ?_, ?_⟩
  · rw [hreceiver]
    exact h.identity
  · rw [hreceiver]
    exact h.receiver
  · rw [htables]
    exact h.tables

end Invocation

theorem Method.invoke_assigned {schema : Schema} {model : Model} (hmodel : model.Sound)
    {method : Method} {handler : Handler} (hhandler : Handler.WritesBySet handler) {id : Identity}
    {arguments : Record} {start : Work}
    (hidentified : ∀ record, start.tables.get? model.name id = some record →
      Record.identity? record model.identity.name = some id) :
    Writing.Yields (method.invoke schema model handler id arguments) start
      fun _ stop => start.tables.Assigned model id stop.tables := by
  refine invoke_yields_of (start.tables.Assigned model id) fun receiver _ _ hfound hhandled => ?_
  have hbefore : Invocation.Assigning model id receiver start.tables
      ⟨schema, model, receiver, start⟩ :=
    ⟨rfl, hidentified receiver hfound, fun _ _ => rfl, fun _ _ => .inl rfl⟩
  exact (hbefore.setsFields hmodel hfound (hhandler arguments _ _ _ hhandled)).tables

theorem Method.invoke_spares {schema : Schema} {model : Model} (hmodel : model ∈ schema.models)
    {method : Method} {handler : Handler} {name field : String}
    (hhandler : handler.Spares schema name field) {id : Identity} {arguments : Record}
    {start : Work} (hstart : start.tables.Described schema) :
    Writing.Yields (method.invoke schema model handler id arguments) start
      fun _ stop => start.tables.Spared name field stop.tables :=
  invoke_yields_of (start.tables.Spared name field) fun _ _ _ hfound hhandled =>
    hhandler arguments _ _ _ hhandled (.of_stored hmodel hstart hfound) ⟨id, hfound⟩

namespace Engine

variable {engine : Engine}

/-- An invocation changes at most fields of the record that it is made for. -/
theorem invoke_assigned (hschema : engine.schema.Sound)
    (hhandlers : ∀ entry ∈ engine.handlers, Handler.WritesBySet entry.2) {store : Store}
    (hidentified : store.tables.Identified engine.schema) (name method : String) (args : Json)
    (options : CallOptions) :
    (engine.invoke store name method args options).1.tables = store.tables ∨
    ∃ model ∈ engine.schema.models, ∃ id,
      engine.schema.receiver? name method args = some ⟨model.name, id⟩ ∧
      store.tables.Assigned model id (engine.invoke store name method args options).1.tables := by
  rcases engine.invoke_cases store name method args options with htables |
    ⟨model, exposed, id, arguments, handler, json, stop, hmodel, hexposed, hread, hhandler, hrun,
      htables⟩
  · exact .inl htables
  · have hmem := (hschema.model?_eq_some.mp hmodel).1
    refine .inr ⟨model, hmem, id, ?_, ?_⟩
    · unfold Schema.receiver?
      simp only [hmodel, hexposed, hread, Checked.value?, Option.bind_eq_bind, Option.bind_some]
    · rw [htables]
      have hstart : (store.start options).tables.Identified engine.schema := hidentified
      exact (Method.invoke_assigned (hschema.model _ hmem) (hhandlers _ (mem_handlers hhandler))
        (hstart model hmem id)).ok hrun

/-- An invocation leaves a field alone that all handlers leave alone. -/
theorem invoke_spared (hschema : engine.schema.Sound) {model field : String}
    (hspares : ∀ entry ∈ engine.handlers, entry.2.Spares engine.schema model field) {store : Store}
    (hstore : store.tables.Described engine.schema) (name method : String) (args : Json)
    (options : CallOptions) :
    store.tables.Spared model field (engine.invoke store name method args options).1.tables := by
  rcases engine.invoke_cases store name method args options with
    htables | ⟨found, _, _, _, _, _, _, hfound, -, -, hhandler, hrun, htables⟩
  · rw [htables]
    exact fun _ => rfl
  · have hstart : (store.start options).tables.Described engine.schema := hstore
    rw [htables]
    exact (Method.invoke_spares (hschema.model?_eq_some.mp hfound).1
      (hspares _ (mem_handlers hhandler)) hstart).ok hrun

end Engine

end ModelSurface
