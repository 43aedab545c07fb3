import ModelSurface.Proofs.Engine.Call
import ModelSurface.Proofs.Engine.Orderly

/-!
# The two policies of bulk calls

A bulk call works on all of its items in one transaction, or gives each item a transaction of its
own. Where nothing fails, both do the same: behind each item, the working copy of the one
transaction is what the chain of transactions has committed.
-/

namespace ModelSurface

/-! ### Failures are told -/

namespace Checked

variable {α β γ : Type}

theorem both_ne_untold {f : α → β → γ} {a : Checked α} {b : Checked β} (ha : a ≠ .error [])
    (hb : b ≠ .error []) : both f a b ≠ .error [] := by
  cases a with
  | ok x =>
      cases b with
      | ok y => exact fun h => by cases h
      | error second =>
          intro h
          exact hb (congrArg Except.error (Except.error.inj h))
  | error first =>
      cases b with
      | ok y =>
          intro h
          exact ha (congrArg Except.error (Except.error.inj h))
      | error second =>
          intro h
          have hfirst := (List.append_eq_nil_iff.mp (Except.error.inj h)).1
          exact ha (congrArg Except.error hfirst)

theorem fault_ne_untold (field : String) (cause : Cause) :
    (fault field cause : Checked α) ≠ .error [] := by
  unfold fault
  simp

end Checked

theorem Plan.ofInput_ne_untold (schema : Schema) (model : Model) (kind : InputKind)
    (input : Json) : Plan.ofInput schema model kind input ≠ .error [] := by
  unfold Plan.ofInput PlanDraft.finish
  dsimp only
  split
  · simp
  · rename_i hviolations
    intro h
    exact hviolations (Except.error.inj h)

namespace Prepared

theorem readDelete_ne_untold (model : Model) (input : Json) :
    readDelete model input ≠ .error [] := by
  unfold readDelete
  split
  · refine Checked.both_ne_untold ?_ ?_
    · split
      · simp
      · rename_i hunknown
        intro h
        rw [Except.error.inj h] at hunknown
        exact hunknown rfl
    · split
      · exact Checked.fault_ne_untold _ _
      · split
        · simp
        · exact Checked.fault_ne_untold _ _
  · simp

/-- An input that cannot be prepared is refused with a reason. -/
theorem ofInput_ne_untold (schema : Schema) (model : Model) (kind : InputKind) (input : Json) :
    ofInput schema model kind input ≠ .error [] := by
  unfold ofInput
  split
  · cases hread : readDelete model input with
    | ok id => exact fun h => by cases h
    | error violations =>
        intro h
        have hnil : violations = [] := Except.error.inj h
        exact readDelete_ne_untold model input (hnil ▸ hread)
  · unfold readWrite
    cases hplan : Plan.ofInput schema model kind input with
    | error violations =>
        intro h
        have hnil : violations = [] := Except.error.inj h
        exact Plan.ofInput_ne_untold schema model kind input (hnil ▸ hplan)
    | ok plan =>
        dsimp only [bind, Except.bind]
        split <;> simp

end Prepared

/-! ### Transactions of orderly work -/

namespace Store

variable {α : Type} {store : Store} {options : CallOptions} {work : Writing α}

/-- The store in which what a transaction has reached is published. -/
def publish (store : Store) (stop : Work) : Store :=
  { store with tables := stop.tables, drawn := stop.drawn }

theorem start_publish (horderly : Orderly work) {a : α} {stop : Work}
    (hwork : work (store.start options) = .ok a stop) :
    (store.publish stop).start options = stop := by
  rw [horderly.ok hwork]
  rfl

/-- Orderly work for which there is time, and which nobody cancels, is published. -/
theorem transact_of_timely (horderly : Orderly work)
    (htimely : (store.start options).transaction.expired = false)
    (hwanted : (store.start options).isCancelled = false) {a : α} {stop : Work}
    (hwork : work (store.start options) = .ok a stop) :
    store.transact options work = (store.publish stop, .ok a) := by
  have hstop : stop.isCancelled = false := by
    rw [horderly.ok hwork]
    exact hwanted
  have hexpired : stop.transaction.expired = false := by
    rw [horderly.ok hwork]
    exact htimely
  have hrun : (do let a ← work; Writing.checkpoint; pure a : Writing α).run (store.start options) =
      .ok a stop := by
    refine Writing.bind_eq_ok.mpr ⟨a, stop, hwork, Writing.bind_eq_ok.mpr ⟨(), stop, ?_, rfl⟩⟩
    unfold Writing.checkpoint
    rw [hstop]
    rfl
  have hcommit : stop.transaction.commit = .ok stop.tables := by
    unfold Transaction.commit Transaction.checkTime
    rw [hexpired]
    rfl
  rw [start] at hwanted hrun
  simp only [transact, hwanted, hrun, hcommit, Bool.false_eq_true, if_false]
  rfl

theorem transact_of_ok (horderly : Orderly work) (htimeout : options.timeout = none)
    (hcancellation : options.cancellation ≠ some true) {a : α} {stop : Work}
    (hwork : work (store.start options) = .ok a stop) :
    store.transact options work = (store.publish stop, .ok a) := by
  refine transact_of_timely horderly ?_ (beq_false_of_ne hcancellation) hwork
  change (options.timeout == some 0) = false
  rw [htimeout]
  rfl

theorem transact_of_error (hcancellation : options.cancellation ≠ some true) {failure : Failure}
    {stop : Work} (hwork : work (store.start options) = .error failure stop) :
    store.transact options work =
      ({ store with drawn := stop.drawn }, .error failure.violations) := by
  have hstart : (store.start options).isCancelled = false := beq_false_of_ne hcancellation
  have hrun : (do let a ← work; Writing.checkpoint; pure a : Writing α).run (store.start options) =
      .error failure stop := Writing.bind_eq_error.mpr (.inl hwork)
  rw [start] at hstart hrun
  simp only [transact, hstart, hrun, Bool.false_eq_true, if_false]

end Store

/-! ### One transaction against a chain of them -/

namespace Engine

variable {engine : Engine} {options : CallOptions} {name : String} {model : Model}
  {kind : InputKind}

theorem runOne_of_unknown {violations : List Violation}
    (hmodel : engine.schema.findModel name = .error violations) (store : Store) (item : Json) :
    engine.runOne store name kind item options = (store, .error violations) := by
  unfold runOne
  rw [hmodel]
  rfl

theorem runOne_of_refused (hmodel : engine.schema.findModel name = .ok model) {item : Json}
    {violations : List Violation}
    (hplan : Prepared.ofInput engine.schema model kind item = .error violations) (store : Store) :
    engine.runOne store name kind item options = (store, .error violations) := by
  simp only [runOne, hmodel, bind, Except.bind, hplan]

theorem runEach_of_unknown {violations : List Violation}
    (hmodel : engine.schema.findModel name = .error violations) {items : List Json}
    (hitems : items ≠ []) (store : Store) (first : Nat) :
    (engine.runEach name kind options store first items).2.2 ≠ [] := by
  cases items with
  | nil => exact absurd rfl hitems
  | cons item items =>
      rw [runEach_cons, runOne_of_unknown hmodel]
      intro hnil
      have hnone := List.map_eq_nil_iff.mp (List.append_eq_nil_iff.mp hnil).1
      exact findModel_ne_untold hmodel hnone

/-- The outcome of the one transaction for all items. -/
theorem runTogether_of_prepared (hmodel : engine.schema.findModel name = .ok model)
    {items : List Json} {plans : List Prepared}
    (hplans : engine.prepareAll model kind 0 items = .ok plans) (store : Store) :
    engine.runTogether store name kind items options =
      ((store.transact options (engine.runPrepared model 0 plans)).1,
        match (store.transact options (engine.runPrepared model 0 plans)).2 with
        | .ok objects => .bulk objects []
        | .error violations => .failure violations) := by
  simp only [runTogether, hmodel, bind, Except.bind, hplans, pure, Except.pure]
  cases store.transact options (engine.runPrepared model 0 plans) with
  | mk stop result => cases result <;> rfl

/-- An item that cannot be prepared fails in its own transaction, too. -/
theorem runEach_of_prepareAll_error (hmodel : engine.schema.findModel name = .ok model)
    {items : List Json} {index : Nat} {violations : List Violation}
    (h : engine.prepareAll model kind index items = .error violations) (store : Store)
    (first : Nat) : (engine.runEach name kind options store first items).2.2 ≠ [] := by
  induction items generalizing index violations store first with
  | nil => cases h
  | cons item items ih =>
      rw [runEach_cons]
      dsimp only
      intro hnil
      obtain ⟨hone, hrest⟩ := List.append_eq_nil_iff.mp hnil
      cases hplan : Prepared.ofInput engine.schema model kind item with
      | error failed =>
          rw [runOne_of_refused hmodel hplan] at hone
          have hfailed : failed = [] := List.map_eq_nil_iff.mp hone
          exact Prepared.ofInput_ne_untold engine.schema model kind item (hfailed ▸ hplan)
      | ok plan =>
          cases hplans : engine.prepareAll model kind (index + 1) items with
          | error others => exact ih hplans _ _ hrest
          | ok plans =>
              rw [prepareAll, hplan, hplans] at h
              cases h

theorem orderly_runPrepared (engine : Engine) (model : Model) (index : Nat)
    (plans : List Prepared) : Orderly (engine.runPrepared model index plans) := by
  induction plans generalizing index with
  | nil => exact Writing.orderly_pure _
  | cons plan plans ih =>
      exact Writing.orderly_bind (orderly_atIndex (plan.orderly_run _ _ _)) fun _ =>
        Writing.orderly_bind (ih (index + 1)) fun _ => Writing.orderly_pure _

section Prepared

variable (hmodel : engine.schema.findModel name = .ok model) (htimeout : options.timeout = none)
  (hcancellation : options.cancellation ≠ some true)

include hmodel htimeout hcancellation

/-- Where all items succeed together, each of them succeeds on its own, and leads to what the
others have led to before it. -/
theorem runEach_of_runPrepared_ok {items : List Json} {plans : List Prepared}
    (hplans : items.Forall₂
      (fun item plan => Prepared.ofInput engine.schema model kind item = .ok plan) plans)
    {store : Store} {index : Nat} {objects : List (Option Json)} {stop : Work}
    (hrun : engine.runPrepared model index plans (store.start options) = .ok objects stop)
    (first : Nat) :
    engine.runEach name kind options store first items = (store.publish stop, objects, []) := by
  induction hplans generalizing store index objects first with
  | nil =>
      obtain ⟨rfl, rfl⟩ := Writing.pure_eq_ok.mp hrun
      rfl
  | @cons item plan items plans hplan hplans ih =>
      obtain ⟨object, between, hobject, hrest⟩ := Writing.bind_eq_ok.mp hrun
      obtain ⟨others, after, hothers, hpure⟩ := Writing.bind_eq_ok.mp hrest
      obtain ⟨rfl, rfl⟩ := Writing.pure_eq_ok.mp hpure
      have horderly := plan.orderly_run engine.schema engine.sources model
      have hfirst : engine.runOne store name kind item options =
          (store.publish between, .ok object) := by
        rw [runOne_of_prepared hmodel hplan]
        exact Store.transact_of_ok horderly htimeout hcancellation (atIndex_ok hobject)
      rw [← Store.start_publish horderly (atIndex_ok hobject)] at hothers
      rw [runEach_cons, hfirst]
      dsimp only
      rw [ih hothers (first + 1)]
      rfl

/-- Where the items fail together, one of them fails on its own. -/
theorem runEach_of_runPrepared_error {items : List Json} {plans : List Prepared}
    (hplans : items.Forall₂
      (fun item plan => Prepared.ofInput engine.schema model kind item = .ok plan) plans)
    {store : Store} {index : Nat} {failure : Failure} {stop : Work}
    (hrun : engine.runPrepared model index plans (store.start options) = .error failure stop)
    (first : Nat) : (engine.runEach name kind options store first items).2.2 ≠ [] := by
  induction hplans generalizing store index first with
  | nil => exact absurd hrun Writing.pure_ne_error
  | @cons item plan items plans hplan hplans ih =>
      have horderly := plan.orderly_run engine.schema engine.sources model
      have hone : engine.runOne store name kind item options =
          store.transact options (plan.run engine.schema engine.sources model) :=
        runOne_of_prepared hmodel hplan store
      rw [runEach_cons]
      dsimp only
      intro hnil
      obtain ⟨hfirst, hrest⟩ := List.append_eq_nil_iff.mp hnil
      obtain herror | ⟨object, between, hobject, hothers⟩ := Writing.bind_eq_error.mp hrun
      · obtain ⟨inner, hinner⟩ := atIndex_error herror
        rw [hone, Store.transact_of_error hcancellation hinner] at hfirst
        exact horderly.error hinner (List.map_eq_nil_iff.mp hfirst)
      · obtain hothers | ⟨objects, after, -, hpure⟩ := Writing.bind_eq_error.mp hothers
        · rw [← Store.start_publish horderly (atIndex_ok hobject)] at hothers
          rw [hone, Store.transact_of_ok horderly htimeout hcancellation (atIndex_ok hobject)]
            at hrest
          exact ih hothers (first + 1) hrest
        · exact absurd hpure Writing.pure_ne_error

end Prepared

/-! ### Both policies -/

theorem bulk_bestEffort_of_failed {store : Store} {items : List Json}
    (h : (engine.runEach name kind options store 0 items).2.2 ≠ []) :
    (engine.bulk store name kind items .bestEffort options).2.isOk = false := by
  change (engine.runEach name kind options store 0 items).2.2.isEmpty = false
  rw [List.isEmpty_eq_false_iff]
  exact h

theorem agree_of_not_ok {together each : Store × MutationResult}
    (htogether : together.2.isOk = false) (heach : each.2.isOk = false) :
    together.2.isOk = each.2.isOk ∧ (together.2.isOk = true → together = each) := by
  refine ⟨htogether.trans heach.symm, ?_⟩
  intro hok
  rw [htogether] at hok
  cases hok

/-- Without cancellation and timeout, a bulk call succeeds under one policy exactly if it succeeds
under the other, and then both give the same result and lead to the same store. The model is known,
or there are items: a model is looked up once for all items, or once for each of them. -/
theorem bulk_policies_agree (engine : Engine) (store : Store) (name : String) (kind : InputKind)
    (items : List Json) (options : CallOptions) (htimeout : options.timeout = none)
    (hcancellation : options.cancellation ≠ some true)
    (hknown : (engine.schema.model? name).isSome ∨ items ≠ []) :
    (engine.bulk store name kind items .allOrNothing options).2.isOk =
        (engine.bulk store name kind items .bestEffort options).2.isOk ∧
      ((engine.bulk store name kind items .allOrNothing options).2.isOk = true →
        engine.bulk store name kind items .allOrNothing options =
          engine.bulk store name kind items .bestEffort options) := by
  cases hmodel : engine.schema.findModel name with
  | error violations =>
      have hunknown : engine.schema.model? name = none := model?_of_findModel_error hmodel
      have hitems : items ≠ [] := by
        rw [hunknown] at hknown
        exact hknown.resolve_left Bool.false_ne_true
      refine agree_of_not_ok ?_
        (bulk_bestEffort_of_failed (runEach_of_unknown hmodel hitems store 0))
      simp only [bulk, runTogether, hmodel, bind, Except.bind, MutationResult.isOk]
  | ok model =>
      cases hprepared : engine.prepareAll model kind 0 items with
      | error violations =>
          refine agree_of_not_ok ?_ (bulk_bestEffort_of_failed
            (runEach_of_prepareAll_error hmodel hprepared store 0))
          simp only [bulk, runTogether, hmodel, bind, Except.bind, hprepared, MutationResult.isOk]
      | ok plans =>
          have hplans := prepareAll_ok hprepared
          cases hrun : engine.runPrepared model 0 plans (store.start options) with
          | error failure stop =>
              refine agree_of_not_ok ?_ (bulk_bestEffort_of_failed
                (runEach_of_runPrepared_error hmodel htimeout hcancellation hplans hrun 0))
              have htransact := Store.transact_of_error hcancellation hrun
              rw [bulk, runTogether_of_prepared hmodel hprepared, htransact]
              rfl
          | ok objects stop =>
              have horderly := orderly_runPrepared engine model 0 plans
              have htransact := Store.transact_of_ok horderly htimeout hcancellation hrun
              have heach :=
                runEach_of_runPrepared_ok hmodel htimeout hcancellation hplans hrun 0
              have hequal : engine.bulk store name kind items .allOrNothing options =
                  engine.bulk store name kind items .bestEffort options := by
                rw [bulk, runTogether_of_prepared hmodel hprepared, htransact, bulk, heach]
              exact ⟨congrArg (·.2.isOk) hequal, fun _ => hequal⟩

/-- Two stored nodes are deleted under either policy. -/
theorem bulk_policies_agree_chain :
    let store : Store := { tables :=
      ((({} : Tables).put "Node" (.int 1) (chainNode 1 .null)).put "Node" (.int 2)
        (chainNode 2 .null)) }
    let items : List Json := [.obj [("id", .num (.int 1))], .obj [("id", .num (.int 2))]]
    (chainEngine.bulk store "Node" .delete items .allOrNothing).2.isOk = true ∧
      chainEngine.bulk store "Node" .delete items .allOrNothing =
        chainEngine.bulk store "Node" .delete items .bestEffort := by
  intro store items
  have hok : (chainEngine.bulk store "Node" .delete items .allOrNothing).2.isOk = true := by
    decide +kernel
  exact ⟨hok, (bulk_policies_agree chainEngine store "Node" .delete items {} rfl
    (Option.some_ne_none true).symm (.inr (List.cons_ne_nil _ _))).2 hok⟩

/-- Where the model is unknown and there are no items, the policies disagree: there is no item for
which a model would be looked up. -/
theorem bulk_policies_disagree_on_nothing :
    ¬ ∀ (engine : Engine) (store : Store) (name : String) (kind : InputKind) (items : List Json),
      (engine.bulk store name kind items .allOrNothing).2.isOk = true ↔
        (engine.bulk store name kind items .bestEffort).2.isOk = true := by
  intro h
  have hbest : (chainEngine.bulk {} "Missing" .create [] .bestEffort).2.isOk = true := rfl
  have htogether : (chainEngine.bulk {} "Missing" .create [] .allOrNothing).2.isOk = false := by
    decide +kernel
  rw [(h chainEngine {} "Missing" .create []).mpr hbest] at htogether
  cases htogether

end Engine

end ModelSurface
