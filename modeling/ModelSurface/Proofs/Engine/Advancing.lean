import ModelSurface.Proofs.Engine.Composing
import ModelSurface.Proofs.Engine.Conformity
import ModelSurface.Proofs.Write.Numbering

/-!
# What calls do to sequences

A call draws from the sequences what the plans draw that it carries out, and nothing else that it
does moves a sequence: neither an input that is refused or fails, nor a deletion, nor a method whose
handler sets fields. Its new records are numbered on from those before.
-/

namespace ModelSurface

/-! ### What inputs do to sequences and identities -/

/-- Plans, or deletions, lead from tables to tables: sequences move by what the plans draw, new
records are numbered on, and what is deleted is not replaced by anything. -/
structure Tables.Advances (schema : Schema) (kind : InputKind) (plans : List Plan)
    (before after : Tables) : Prop where
  sound : ∀ plan ∈ plans, plan.Sound schema
  moved : before.Moved after (plans.flatMap Plan.sequences)
  grows : kind ≠ .delete → ∀ model ∈ schema.models, model.identity.Numbered →
    Grows model.name before after
  shrinks : kind = .delete → ∀ name id, (after.get? name id).isSome → (before.get? name id).isSome
  unplanned : kind = .delete → plans = []

namespace Tables.Advances

variable {schema : Schema} {kind : InputKind} {plans plans' : List Plan}
  {before between after : Tables}

theorem refl (schema : Schema) (kind : InputKind) (tables : Tables) :
    Advances schema kind [] tables tables where
  sound _ h := absurd h List.not_mem_nil
  moved := .refl tables
  grows _ _ _ _ := .refl _ tables
  shrinks _ _ _ h := h
  unplanned _ := rfl

theorem of_eq (h : after = before) : Advances schema kind [] before after :=
  h ▸ refl schema kind after

theorem trans (h : Advances schema kind plans before between)
    (h' : Advances schema kind plans' between after) :
    Advances schema kind (plans ++ plans') before after where
  sound plan hplan := (List.mem_append.mp hplan).elim (h.sound plan) (h'.sound plan)
  moved := by
    rw [List.flatMap_append]
    exact h.moved.trans h'.moved
  grows hkind model hmodel hnumbered :=
    (h.grows hkind model hmodel hnumbered).trans (h'.grows hkind model hmodel hnumbered)
  shrinks hkind name id hafter := h.shrinks hkind name id (h'.shrinks hkind name id hafter)
  unplanned hkind := by rw [h.unplanned hkind, h'.unplanned hkind, List.append_nil]

/-- The identities that are new are the numbers that the sequence has given. -/
theorem new_iff (h : Advances schema kind plans before after) {model : Model}
    (hmodel : model ∈ schema.models) (hnumbered : model.identity.Numbered) (id : Identity) :
    ((after.get? model.name id).isSome ∧ before.get? model.name id = none) ↔
      ∃ number, before.number model.name < number ∧ number ≤ after.number model.name ∧
        id = .int number := by
  by_cases hkind : kind = .delete
  · have hnumber := h.moved model.name
    rw [h.unplanned hkind, List.flatMap_nil, List.count_nil, Int.natCast_zero,
      Int.add_zero] at hnumber
    refine iff_of_false ?_ ?_
    · rintro ⟨hafter, hbefore⟩
      have hstored := h.shrinks hkind model.name id hafter
      rw [hbefore] at hstored
      cases hstored
    · rintro ⟨number, hnew, hold, -⟩
      omega
  · have hgrows := h.grows hkind model hmodel hnumbered
    constructor
    · rintro ⟨hafter, hbefore⟩
      refine ((hgrows.stored id).mp hafter).resolve_left ?_
      rw [hbefore]
      exact Bool.false_ne_true
    · rintro ⟨number, hnew, hold, rfl⟩
      exact ⟨(hgrows.stored _).mpr (.inr ⟨number, hnew, hold, rfl⟩),
        hgrows.unused number hnew hold⟩

end Tables.Advances

/-! ### Methods -/

/-- Records are stored under the same keys, and no sequence has moved. -/
structure Tables.SameKeys (before after : Tables) : Prop where
  sequences : after.sequences = before.sequences
  stored : ∀ name id, (after.get? name id).isSome ↔ (before.get? name id).isSome

namespace Tables.SameKeys

variable {before between after : Tables}

theorem refl (tables : Tables) : tables.SameKeys tables := ⟨rfl, fun _ _ => Iff.rfl⟩

theorem trans (h : before.SameKeys between) (h' : between.SameKeys after) :
    before.SameKeys after :=
  ⟨h'.sequences.trans h.sequences, fun name id => (h'.stored name id).trans (h.stored name id)⟩

theorem put {model : String} {id : Identity} {record : Record}
    (h : (before.get? model id).isSome) : before.SameKeys (before.put model id record) where
  sequences := sequences_put _ _ _ _
  stored name other := by
    rw [isSome_get?_put]
    refine or_iff_right_of_imp ?_
    rintro ⟨rfl, rfl⟩
    exact h

theorem advances (h : before.SameKeys after) (schema : Schema) :
    Advances schema .update [] before after where
  sound _ hmem := absurd hmem List.not_mem_nil
  moved := .of_sequences h.sequences
  grows _ model _ _ := by
    refine .of_same ?_ (h.stored model.name)
    unfold number
    rw [h.sequences]
  shrinks hkind := by cases hkind
  unplanned hkind := by cases hkind

end Tables.SameKeys

theorem Invocation.SetsFields.sameKeys {before after : Invocation} (h : before.SetsFields after) :
    before.work.tables.SameKeys after.work.tables := by
  refine h.keeps (fun invocation => before.work.tables.SameKeys invocation.work.tables) ?_ ?_
    (.refl _)
  · intro between after _ _ htables hbetween
    rw [htables]
    exact hbetween
  · intro between after name value hsets hbetween
    rcases hsets.tables with htables | ⟨id, -, hstored, htables⟩
    · rw [htables]
      exact hbetween
    · rw [htables]
      exact hbetween.trans (.put hstored)

theorem Method.invoke_sameKeys {schema : Schema} {model : Model} {method : Method}
    {handler : Handler} (hhandler : Handler.WritesBySet handler) {id : Identity}
    {arguments : Record} {start : Work} :
    Writing.Yields (method.invoke schema model handler id arguments) start
      fun _ stop => start.tables.SameKeys stop.tables :=
  invoke_yields_of start.tables.SameKeys fun _ _ _ _ hhandled =>
    (hhandler arguments _ _ _ hhandled).sameKeys

namespace Engine

variable {engine : Engine}

section Inputs

variable (hschema : engine.schema.Sound)
  (hdotless : ∀ model ∈ engine.schema.models, '.' ∉ model.name.toList)

include hschema hdotless

theorem prepared_advances {name : String} {kind : InputKind} {model : Model} {input : Json}
    {prepared : Prepared} {start stop : Work}
    {json : Json} (hmodel : engine.schema.model? name = some model)
    (hprepared : Prepared.ofInput engine.schema model kind input = .ok prepared)
    (hrun : prepared.run engine.schema engine.sources model start = .ok json stop)
    (hstart : start.tables.Described engine.schema) :
    Tables.Advances engine.schema kind (engine.planned name kind input) start.tables
      stop.tables := by
  cases prepared with
  | write plan order =>
      obtain ⟨record, between, happly, hpure⟩ := Writing.bind_eq_ok.mp hrun
      obtain ⟨-, rfl⟩ := Writing.pure_eq_ok.mp hpure
      obtain ⟨hkind, hplan, horder⟩ := ofInput_write hprepared
      have hsome : engine.plan? name kind input = some plan :=
        plan?_eq_some.mpr ⟨model, hmodel, hplan⟩
      have hsound := sound_of_plan? hschema hkind hsome
      rw [planned_of_plan? hkind hsome]
      refine ⟨List.forall_mem_singleton.mpr hsound, ?_, ?_, fun h => absurd h hkind,
        fun h => absurd h hkind⟩
      · rw [List.flatMap_singleton]
        exact (Plan.apply_moved engine.sources horder).ok happly
      · intro _ other hother hnumbered
        exact (Plan.apply_grows hschema hdotless hsound hother hnumbered).ok happly
  | delete id =>
      obtain ⟨record, between, hremoved, hpure⟩ := Writing.bind_eq_ok.mp hrun
      obtain ⟨-, rfl⟩ := Writing.pure_eq_ok.mp hpure
      obtain rfl := kind_of_delete hprepared
      obtain ⟨-, gone, houtcome⟩ :=
        (Deletion.delete_ends hschema.regular model.name id hstart.intact.identified).ok hremoved
      refine ⟨fun _ h => absurd h List.not_mem_nil, .of_sequences houtcome.sequences,
        fun h => absurd rfl h, fun _ other id hafter => ?_, planned_of_delete⟩
      obtain ⟨new, hnew⟩ := Option.isSome_iff_exists.mp hafter
      obtain ⟨-, old, hold, -⟩ := houtcome.of_after ⟨other, id⟩ hnew
      exact Option.isSome_of_eq_some hold

/-- What inputs do one after another. -/
theorem composes_advances : engine.Composes (Tables.Described engine.schema)
    (Tables.Advances engine.schema) where
  keeps := keepsInputs_described hschema
  refl kind tables _ := .refl engine.schema kind tables
  trans h h' := h.trans h'
  run hmodel hprepared hrun h := prepared_advances hschema hdotless hmodel hprepared hrun h

end Inputs

/-! ### Calls -/

section Calls

variable (hschema : engine.schema.Sound)
  (hdotless : ∀ model ∈ engine.schema.models, '.' ∉ model.name.toList)
  (hhandlers : ∀ entry ∈ engine.handlers, Handler.WritesBySet entry.2)

include hhandlers

theorem keepsMethods_sameKeys (tables : Tables) :
    engine.KeepsMethods (Tables.SameKeys tables) := by
  intro name method model exposed handler id arguments start stop json _ _ hhandler hrun h
  exact h.trans ((Method.invoke_sameKeys (hhandlers _ (mem_handlers hhandler))).ok hrun)

theorem invoke_advances (store : Store) (model method : String) (args : Json)
    (options : CallOptions) : Tables.Advances engine.schema .update [] store.tables
      (engine.invoke store model method args options).1.tables :=
  (invoke_keeps (keepsMethods_sameKeys hhandlers store.tables) store model method args options
    (.refl _)).advances engine.schema

include hschema hdotless

/-- What a call carries out are its plans, or it deletes. -/
theorem call_advances (store : Store) (options : CallOptions) (call : Call)
    (h : store.tables.Described engine.schema) :
    ∃ kind, Tables.Advances engine.schema kind
      (engine.plans call (engine.call store options call).2) store.tables
      (engine.call store options call).1.tables := by
  cases hinputs : call.inputs? engine.schema with
  | some inputs =>
      obtain ⟨name, kind, inputs⟩ := inputs
      exact ⟨kind, (composes_advances hschema hdotless).call options hinputs h⟩
  | none =>
      rw [plans_of_no_inputs hinputs]
      rcases call_of_no_inputs hinputs store options with
        hstore | ⟨model, method, args, -, hinvoke⟩
      · exact ⟨.update, .of_eq (congrArg Store.tables hstore)⟩
      · rw [hinvoke]
        exact ⟨.update, invoke_advances hhandlers store model method args options⟩

end Calls

end Engine

end ModelSurface
