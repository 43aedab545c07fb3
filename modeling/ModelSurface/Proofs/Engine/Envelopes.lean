import ModelSurface.Proofs.Engine.Atomicity
import ModelSurface.Proofs.Engine.BulkPolicies
import ModelSurface.Proofs.Json.Proper

/-!
# The form of results

Every mutation answers in one form: the call has succeeded just when there are no errors, what it
gives is there when it has succeeded, and a bulk call tells item by item which ones have failed.

The form depends on handlers in two places only. A handler can refuse a call without an error, and
it can give null for a result that its method declares.
-/

namespace ModelSurface

/-! ### What a call asks for -/

/-- The items of a bulk call. -/
def Call.items? (schema : Schema) : Call → Option (List Json)
  | .bulk _ _ items _ => some items
  | .byName name args => do
    let operation ← schema.operation? name
    let _ ← operation.kind.bulk?
    match Engine.readBulk args with
    | .ok (items, _) => some items
    | .error _ => none
  | _ => none

/-- The model and the method of an invocation. -/
def Call.invoked? (schema : Schema) : Call → Option (String × String)
  | .invoke model method _ => some (model, method)
  | .byName name _ => do
    let operation ← schema.operation? name
    match operation.kind with
    | .method method => some (operation.model, method)
    | _ => none
  | _ => none

/-- A handler that is called with what the store holds refuses without an error, or gives null where
its method declares a structured result. -/
def Engine.Evades (engine : Engine) (store : Store) (options : CallOptions)
    (model method : String) : Prop :=
  ∃ (handler : Handler) (found : Model) (exposed : Method) (arguments receiver : Record),
    engine.handler? model method = some handler ∧ engine.schema.model? model = some found ∧
      found.methods.get? method = some exposed ∧
      ((∃ stop, handler arguments ⟨engine.schema, found, receiver, store.start options⟩ =
          .error (.refused []) stop) ∨
        exposed.returns = .structured ∧
          ∃ stop, handler arguments ⟨engine.schema, found, receiver, store.start options⟩ =
            .ok .null stop)

/-! ### Envelopes -/

/-- A result as callers see it, where null stands for what is absent. -/
structure Envelope where
  ok : Bool
  object : Json
  objects : Json
  errors : List Json

namespace Envelope

def toJson (envelope : Envelope) : Json :=
  Json.object
    [("ok", .bool envelope.ok), ("object", envelope.object), ("objects", envelope.objects),
      ("errors", .arr envelope.errors)]

/-- What callers may rely on in the answer to a call. -/
structure WellFormed (schema : Schema) (call : Call) (envelope : Envelope) : Prop where
  ok_iff : envelope.ok = true ↔ envelope.errors = []
  single : envelope.ok = true → call.items? schema = none →
    envelope.object ≠ .null ∧ envelope.objects = .null
  bulk : ∀ items, call.items? schema = some items →
    envelope.object = .null ∧ (envelope.ok = true → envelope.objects ≠ .null)
  entries : envelope.objects ≠ .null → ∃ items entries, call.items? schema = some items ∧
    envelope.objects = .arr entries ∧ entries.length = items.length ∧
    ∀ i < items.length, entries[i]? = some .null ↔
      ∃ error ∈ envelope.errors, error.get? "index" = some (Json.ofNat i)
  failure : envelope.ok = false → call.bestEffort? schema = none →
    envelope.object = .null ∧ envelope.objects = .null

end Envelope

namespace MutationResult

def envelope (result : MutationResult) : Envelope where
  ok := result.isOk
  object := result.object?.getD .null
  objects := match result.objects? with
    | some objects => .arr (objects.map (·.getD .null))
    | none => .null
  errors := result.violations.map Violation.toJson

theorem toJson_eq (result : MutationResult) : result.toJson = result.envelope.toJson := rfl

end MutationResult

/-! ### Results of each kind -/

/-- What the items of a bulk call have come to, the first of which has the index `start`. -/
structure Outcomes (start count : ℕ) (objects : List (Option Json))
    (violations : List Violation) : Prop where
  length : objects.length = count
  given : ∀ object, some object ∈ objects → object ≠ .null
  failed_iff : ∀ i < count, objects[i]? = some none ↔
    ∃ violation ∈ violations, violation.index = some (start + i)
  behind : ∀ violation ∈ violations, ∃ i, violation.index = some i ∧ start ≤ i

namespace Outcomes

variable {start count : ℕ} {objects : List (Option Json)} {violations : List Violation}

/-- An item in front has given something. -/
theorem given_cons {object : Json} (hobject : object ≠ .null)
    (h : Outcomes (start + 1) count objects violations) :
    Outcomes start (count + 1) (some object :: objects) violations where
  length := by rw [List.length_cons, h.length]
  given := by
    intro other hmem
    rcases List.mem_cons.mp hmem with heq | hlater
    · exact Option.some.inj heq ▸ hobject
    · exact h.given other hlater
  failed_iff := by
    intro i hi
    cases i with
    | zero =>
        refine iff_of_false (fun h => by cases h) ?_
        rintro ⟨violation, hmem, hindex⟩
        obtain ⟨i, hi, hle⟩ := h.behind violation hmem
        rw [hindex] at hi
        have := Option.some.inj hi
        omega
    | succ i =>
        rw [List.getElem?_cons_succ, h.failed_iff i (Nat.lt_of_succ_lt_succ hi), Nat.add_right_comm,
          Nat.add_assoc]
  behind := by
    intro violation hmem
    obtain ⟨i, hindex, hle⟩ := h.behind violation hmem
    exact ⟨i, hindex, by omega⟩

/-- An item in front has failed. -/
theorem failed_cons {failed : List Violation} (hfailed : failed ≠ [])
    (h : Outcomes (start + 1) count objects violations) :
    Outcomes start (count + 1) (none :: objects)
      (failed.map (Violation.atIndex start) ++ violations) where
  length := by rw [List.length_cons, h.length]
  given := by
    intro other hmem
    rcases List.mem_cons.mp hmem with heq | hlater
    · cases heq
    · exact h.given other hlater
  failed_iff := by
    intro i hi
    cases i with
    | zero =>
        refine iff_of_true rfl ?_
        obtain ⟨violation, others, rfl⟩ := List.exists_cons_of_ne_nil hfailed
        exact ⟨violation.atIndex start, List.mem_append_left _ List.mem_cons_self, rfl⟩
    | succ i =>
        rw [List.getElem?_cons_succ, h.failed_iff i (Nat.lt_of_succ_lt_succ hi)]
        constructor
        · rintro ⟨violation, hmem, hindex⟩
          exact ⟨violation, List.mem_append_right _ hmem, by rw [hindex]; congr 1; omega⟩
        · rintro ⟨violation, hmem, hindex⟩
          rcases List.mem_append.mp hmem with hfirst | hlater
          · obtain ⟨_, -, rfl⟩ := List.mem_map.mp hfirst
            have : start = start + (i + 1) := Option.some.inj hindex
            omega
          · exact ⟨violation, hlater, by rw [hindex]; congr 1; omega⟩
  behind := by
    intro violation hmem
    rcases List.mem_append.mp hmem with hfirst | hlater
    · obtain ⟨_, -, rfl⟩ := List.mem_map.mp hfirst
      exact ⟨start, rfl, le_rfl⟩
    · obtain ⟨i, hindex, hle⟩ := h.behind violation hlater
      exact ⟨i, hindex, by omega⟩

/-- Where all items have given something there are no violations. -/
theorem of_given (hlength : objects.length = count)
    (hgiven : ∀ object ∈ objects, ∃ json, object = some json ∧ json ≠ Json.null) :
    Outcomes start count objects [] where
  length := hlength
  given := by
    intro object hmem
    obtain ⟨json, heq, hjson⟩ := hgiven _ hmem
    exact Option.some.inj heq ▸ hjson
  failed_iff := by
    intro i hi
    refine iff_of_false ?_ (fun ⟨_, h, _⟩ => absurd h List.not_mem_nil)
    intro hnone
    obtain ⟨json, heq, -⟩ := hgiven _ (List.mem_of_getElem? hnone)
    cases heq
  behind := fun _ h => absurd h List.not_mem_nil

end Outcomes

/-- A result that suits a call. -/
inductive Suits (schema : Schema) (call : Call) : MutationResult → Prop where
  | single {object : Json} : call.items? schema = none → object ≠ .null →
      Suits schema call (.single object)
  | bulk {items : List Json} {objects : List (Option Json)} {violations : List Violation} :
      call.items? schema = some items → Outcomes 0 items.length objects violations →
      (violations ≠ [] → call.bestEffort? schema ≠ none) →
      Suits schema call (.bulk objects violations)
  | failure {violations : List Violation} : violations ≠ [] →
      Suits schema call (.failure violations)

/-- The index of an error is the one of its violation. -/
theorem Violation.get?_index (violation : Violation) :
    violation.toJson.get? "index" = violation.index.map Json.ofNat := by
  obtain ⟨cause, field, index⟩ := violation
  cases index with
  | some i =>
      change (Json.insertAll [] (_ ++ [("index", Json.ofNat i)])).lookup "index" = _
      rw [Json.insertAll, List.foldl_append]
      exact Json.lookup_insertMember_self _ _ _
  | none =>
      refine Option.not_isSome_iff_eq_none.mp fun hsome => ?_
      have hname := Json.isSome_get?_object.mp hsome
      cases field <;> simp at hname

theorem getD_eq_null_iff {object : Option Json} (h : ∀ json, object = some json → json ≠ .null) :
    object.getD .null = .null ↔ object = none := by
  cases object with
  | none => simp
  | some json => simpa using h json rfl

/-- A result that suits its call is shown in the form that callers rely on. -/
theorem Suits.wellFormed {schema : Schema} {call : Call} {result : MutationResult}
    (h : Suits schema call result) : result.envelope.WellFormed schema call := by
  cases h with
  | @single object hitems hobject =>
      exact {
        ok_iff := iff_of_true rfl rfl
        single := fun _ _ => ⟨hobject, rfl⟩
        bulk := fun items h => by rw [hitems] at h; cases h
        entries := fun h => absurd rfl h
        failure := fun h => by cases h }
  | @bulk items objects violations hitems houtcomes hbest =>
      have hnone : ∀ i < items.length, (objects.map (·.getD Json.null))[i]? = some Json.null ↔
          objects[i]? = some none := by
        intro i hi
        rw [List.getElem?_map]
        cases hentry : objects[i]? with
        | none =>
            rw [List.getElem?_eq_none_iff, houtcomes.length] at hentry
            omega
        | some object =>
            have hgiven := houtcomes.given
            rw [Option.map_some, Option.some.injEq, Option.some.injEq, getD_eq_null_iff]
            rintro json rfl
            exact hgiven json (List.mem_of_getElem? hentry)
      exact {
        ok_iff := by
          change violations.isEmpty = true ↔ violations.map Violation.toJson = []
          rw [List.isEmpty_iff, List.map_eq_nil_iff]
        single := fun _ h => by rw [hitems] at h; cases h
        bulk := fun _ _ => ⟨rfl, fun _ h => by cases h⟩
        entries := fun _ => by
          refine ⟨items, _, hitems, rfl, by rw [List.length_map, houtcomes.length], ?_⟩
          intro i hi
          rw [hnone i hi, houtcomes.failed_iff i hi, Nat.zero_add]
          constructor
          · rintro ⟨violation, hmem, hindex⟩
            refine ⟨violation.toJson, List.mem_map_of_mem hmem, ?_⟩
            rw [violation.get?_index, hindex]
            rfl
          · rintro ⟨error, hmem, hindex⟩
            obtain ⟨violation, hviolation, rfl⟩ := List.mem_map.mp hmem
            rw [violation.get?_index, Option.map_eq_some_iff] at hindex
            obtain ⟨found, hfound, heq⟩ := hindex
            have hsame : (found : Int) = i := by injection heq with h; injection h
            exact ⟨violation, hviolation, by rw [hfound, Int.ofNat_inj.mp hsame]⟩
        failure := fun hok hbest' => by
          refine absurd hbest' (hbest ?_)
          rintro rfl
          cases hok }
  | @failure violations hviolations =>
      exact {
        ok_iff := by
          refine iff_of_false (fun h => by cases h) ?_
          rwa [MutationResult.envelope, List.map_eq_nil_iff]
        single := fun h => by cases h
        bulk := fun _ _ => ⟨rfl, fun h => by cases h⟩
        entries := fun h => absurd rfl h
        failure := fun _ _ => ⟨rfl, rfl⟩ }

/-! ### One target -/

/-- What one target has come to: something, or errors. -/
def Checked.Answers (result : Checked Json) : Prop :=
  match result with
  | .ok json => json ≠ .null
  | .error violations => violations ≠ []

theorem Record.toJson_ne_null (record : Record) : record.toJson ≠ .null := fun h => by cases h

/-- A transaction says why it fails if its work does. -/
theorem Store.transact_ne_untold {α : Type} {store : Store} {options : CallOptions}
    {work : Writing α} (herror : ∀ failure stop, work (store.start options) = .error failure stop →
      failure.violations ≠ []) : (store.transact options work).2 ≠ .error [] := by
  unfold transact
  dsimp only
  split
  · exact fun h => List.cons_ne_nil _ _ (Except.error.inj h)
  · split
    · rename_i failure stop hrun
      intro hnil
      have htold : failure.violations = [] := Except.error.inj hnil
      rcases Writing.bind_eq_error.mp hrun with hwork | ⟨a, between, -, hrest⟩
      · exact herror failure stop hwork htold
      · rcases Writing.bind_eq_error.mp hrest with hcheck | ⟨_, _, -, hpure⟩
        · rw [(Writing.checkpoint_error hcheck).1] at htold
          exact List.cons_ne_nil _ _ htold
        · exact Writing.pure_ne_error hpure
    · split
      · exact fun h => by cases h
      · exact fun h => List.cons_ne_nil _ _ (Except.error.inj h)

theorem Store.transact_answers {store : Store} {options : CallOptions} {work : Writing Json}
    (hok : ∀ json stop, work (store.start options) = .ok json stop → json ≠ .null)
    (herror : ∀ failure stop, work (store.start options) = .error failure stop →
      failure.violations ≠ []) : (store.transact options work).2.Answers := by
  have htold := Store.transact_ne_untold herror
  obtain ⟨violations, hrefused, -⟩ | ⟨json, stop, hrun, htransact⟩ :=
    store.transact_cases options work
  · rw [hrefused] at htold ⊢
    exact fun hnil => htold (congrArg Except.error hnil)
  · rw [htransact]
    exact hok json stop hrun

namespace Prepared

theorem run_ne_null {schema : Schema} {sources : Sources} {model : Model} {prepared : Prepared}
    {start stop : Work} {json : Json}
    (h : prepared.run schema sources model start = .ok json stop) : json ≠ .null := by
  cases prepared with
  | write plan order =>
      obtain ⟨record, between, -, hpure⟩ := Writing.bind_eq_ok.mp h
      obtain ⟨rfl, -⟩ := Writing.pure_eq_ok.mp hpure
      exact record.toJson_ne_null
  | delete id =>
      obtain ⟨record, between, -, hpure⟩ := Writing.bind_eq_ok.mp h
      obtain ⟨rfl, -⟩ := Writing.pure_eq_ok.mp hpure
      exact record.toJson_ne_null

end Prepared

namespace Engine

variable (engine : Engine) (store : Store) (options : CallOptions)

theorem runOne_answers (model : String) (kind : InputKind) (input : Json) :
    (engine.runOne store model kind input options).2.Answers := by
  cases hfound : engine.schema.findModel model with
  | error violations =>
      rw [runOne_of_unknown hfound]
      exact findModel_ne_untold hfound
  | ok found =>
      cases hprepared : Prepared.ofInput engine.schema found kind input with
      | error violations =>
          rw [runOne_of_refused hfound hprepared]
          intro hnil
          exact Prepared.ofInput_ne_untold engine.schema found kind input (hnil ▸ hprepared)
      | ok prepared =>
          rw [runOne_of_prepared hfound hprepared]
          exact Store.transact_answers (fun _ _ => Prepared.run_ne_null) fun _ _ h =>
            (prepared.orderly_run engine.schema engine.sources found).error h

variable {engine store options} {call : Call}

theorem suits_ofChecked {schema : Schema} {result : Checked Json}
    (hitems : call.items? schema = none) (h : result.Answers) :
    Suits schema call (.ofChecked result) := by
  cases result with
  | ok json => exact .single hitems h
  | error violations => exact .failure h

theorem suits_runSingle (hitems : call.items? engine.schema = none) (model : String)
    (kind : InputKind) (input : Json) :
    Suits engine.schema call (engine.runSingle store model kind input options).2 :=
  suits_ofChecked hitems (engine.runOne_answers store options model kind input)

/-! ### Items -/

theorem outcomes_runEach (model : String) (kind : InputKind) (items : List Json) (store : Store)
    (start : ℕ) : Outcomes start items.length
      (engine.runEach model kind options store start items).2.1
      (engine.runEach model kind options store start items).2.2 := by
  induction items generalizing store start with
  | nil => exact {
      length := rfl
      given := fun _ h => absurd h List.not_mem_nil
      failed_iff := fun i hi => absurd hi (Nat.not_lt_zero i)
      behind := fun _ h => absurd h List.not_mem_nil }
  | cons item items ih =>
      rw [runEach_cons]
      dsimp only
      have hone := engine.runOne_answers store options model kind item
      have hrest := ih (engine.runOne store model kind item options).1 (start + 1)
      cases hresult : (engine.runOne store model kind item options).2 with
      | ok object =>
          rw [hresult] at hone
          exact .given_cons hone hrest
      | error violations =>
          rw [hresult] at hone
          exact .failed_cons hone hrest

/-! ### Items in one transaction -/

theorem runPrepared_given {model : Model} {index : ℕ} {plans : List Prepared} {start stop : Work}
    {objects : List (Option Json)}
    (h : engine.runPrepared model index plans start = .ok objects stop) :
    objects.length = plans.length ∧
      ∀ object ∈ objects, ∃ json, object = some json ∧ json ≠ .null := by
  induction plans generalizing index start stop objects with
  | nil =>
      obtain ⟨rfl, -⟩ := Writing.pure_eq_ok.mp h
      exact ⟨rfl, fun _ hmem => absurd hmem List.not_mem_nil⟩
  | cons plan plans ih =>
      obtain ⟨json, between, hfirst, hrest⟩ := Writing.bind_eq_ok.mp h
      obtain ⟨others, _, hothers, hpure⟩ := Writing.bind_eq_ok.mp hrest
      obtain ⟨rfl, -⟩ := Writing.pure_eq_ok.mp hpure
      obtain ⟨hlength, hgiven⟩ := ih hothers
      refine ⟨by rw [List.length_cons, List.length_cons, hlength],
        List.forall_mem_cons.mpr ⟨?_, hgiven⟩⟩
      exact ⟨json, rfl, Prepared.run_ne_null (atIndex_ok hfirst)⟩

theorem prepareAll_ne_untold (model : Model) (kind : InputKind) (index : ℕ) (items : List Json) :
    engine.prepareAll model kind index items ≠ .error [] := by
  induction items generalizing index with
  | nil => exact fun h => by cases h
  | cons item items ih =>
      refine Checked.both_ne_untold ?_ (ih (index + 1))
      cases hitem : Prepared.ofInput engine.schema model kind item with
      | ok prepared => exact fun h => by cases h
      | error failed =>
          intro hnil
          have hnone := List.map_eq_nil_iff.mp (Except.error.inj hnil)
          exact Prepared.ofInput_ne_untold engine.schema model kind item (hnone ▸ hitem)

theorem suits_runTogether {items : List Json} (hitems : call.items? engine.schema = some items)
    (model : String) (kind : InputKind) :
    Suits engine.schema call (engine.runTogether store model kind items options).2 := by
  cases hfound : engine.schema.findModel model with
  | error violations =>
      unfold runTogether
      rw [hfound]
      exact .failure (findModel_ne_untold hfound)
  | ok found =>
      cases hplans : engine.prepareAll found kind 0 items with
      | error violations =>
          unfold runTogether
          simp only [hfound, bind, Except.bind, hplans]
          refine .failure fun hnil => ?_
          exact prepareAll_ne_untold found kind 0 items (hnil ▸ hplans)
      | ok plans =>
          have htold : (store.transact options (engine.runPrepared found 0 plans)).2 ≠ .error [] :=
            Store.transact_ne_untold fun _ _ h => (orderly_runPrepared engine found 0 plans).error h
          rw [runTogether_of_prepared hfound hplans]
          dsimp only
          obtain ⟨violations, hrefused, -⟩ | ⟨objects, stop, hrun, htransact⟩ :=
            store.transact_cases options (engine.runPrepared found 0 plans)
          · rw [hrefused] at htold ⊢
            exact .failure fun hnil => htold (congrArg Except.error hnil)
          · obtain ⟨hlength, hgiven⟩ := runPrepared_given hrun
            rw [htransact]
            exact .bulk hitems (.of_given (hlength.trans (prepareAll_ok hplans).length_eq.symm)
              hgiven) fun h => absurd rfl h

/-- A bulk call answers item by item. -/
theorem suits_bulk {items : List Json} {policy : BulkPolicy} (model : String) (kind : InputKind)
    (hitems : call.items? engine.schema = some items)
    (hpolicy : policy = .bestEffort → call.bestEffort? engine.schema ≠ none) :
    Suits engine.schema call (engine.bulk store model kind items policy options).2 := by
  cases policy with
  | allOrNothing => exact suits_runTogether hitems model kind
  | bestEffort =>
      exact .bulk hitems (outcomes_runEach model kind items store 0) fun _ => hpolicy rfl

/-! ### Methods -/

end Engine

namespace Method

theorem readIdentity_ne_untold (model : Model) (members : List (String × Json)) :
    readIdentity model members ≠ .error [] := by
  unfold readIdentity
  dsimp only
  split
  · exact Checked.fault_ne_untold _ _
  · split
    · exact fun h => by cases h
    · exact Checked.fault_ne_untold _ _

theorem readParam_ne_untold (members : List (String × Json)) (param : Param) :
    readParam members param ≠ .error [] := by
  unfold readParam
  split
  · split
    · exact Checked.fault_ne_untold _ _
    · exact fun h => by cases h
  · split
    · exact fun h => by cases h
    · exact Checked.fault_ne_untold _ _

theorem readParams_ne_untold (members : List (String × Json)) (params : List Param) :
    readParams members params ≠ .error [] := by
  induction params with
  | nil => exact fun h => by cases h
  | cons param params ih => exact Checked.both_ne_untold (readParam_ne_untold members param) ih

theorem readMembers_ne_untold (model : Model) (method : Method) (members : List (String × Json)) :
    readMembers model method members ≠ .error [] := by
  have hid := readIdentity_ne_untold model members
  have hparams := readParams_ne_untold members method.params
  unfold readMembers
  dsimp only
  split
  · exact fun h => by cases h
  · rename_i hsome
    intro hnil
    have hnone := Except.error.inj hnil
    obtain ⟨hfront, hparamsNil⟩ := List.append_eq_nil_iff.mp hnone
    obtain ⟨hidNil, -⟩ := List.append_eq_nil_iff.mp hfront
    cases hcaseId : readIdentity model members with
    | error violations =>
        rw [hcaseId] at hid hidNil
        exact hid (congrArg Except.error hidNil)
    | ok id =>
        cases hcaseParams : readParams members method.params with
        | error violations =>
            rw [hcaseParams] at hparams hparamsNil
            exact hparams (congrArg Except.error hparamsNil)
        | ok params => exact hsome _ _ hnone hcaseId hcaseParams

theorem readArguments_ne_untold (model : Model) (method : Method) (args : Json) :
    readArguments model method args ≠ .error [] := by
  unfold readArguments
  split
  · exact readMembers_ne_untold _ _ _
  · exact readMembers_ne_untold _ _ _
  · exact fun h => List.cons_ne_nil _ _ (Except.error.inj h)

open Writing

theorem orderly_result (model : Model) (method : Method) (id : Identity) (receiver : Record)
    (given : Json) : Orderly (method.result model id receiver given) := by
  unfold result
  split
  · split
    · exact orderly_breach _
    · refine orderly_bind (orderly_get? _ _) fun found => ?_
      split
      · exact orderly_pure _
      · exact orderly_breach _
  · split
    · split
      · exact orderly_breach _
      · exact orderly_pure _
    · exact orderly_breach _
  · exact orderly_pure _

/-- A method gives null only where its handler does so for a structured result. -/
theorem result_eq_null {model : Model} {method : Method} {id : Identity} {receiver : Record}
    {given : Json} {start stop : Work}
    (h : method.result model id receiver given start = .ok .null stop) :
    method.returns = .structured ∧ given = .null := by
  unfold result at h
  cases hreturns : method.returns with
  | nothing =>
      rw [hreturns] at h
      dsimp only at h
      cases hstored : Record.identity? receiver model.identity.name with
      | none =>
          rw [hstored] at h
          exact absurd h breach_ne_ok
      | some stored =>
          rw [hstored] at h
          obtain ⟨found, between, -, hrest⟩ := bind_eq_ok.mp h
          cases found with
          | none => exact absurd hrest breach_ne_ok
          | some record => exact absurd (pure_eq_ok.mp hrest).1 record.toJson_ne_null
  | scalar kind =>
      rw [hreturns] at h
      dsimp only at h
      cases hvalue : Value.ofJson kind false given with
      | error fault =>
          rw [hvalue] at h
          exact absurd h breach_ne_ok
      | ok value =>
          rw [hvalue] at h
          dsimp only at h
          by_cases hnull : value.isNull = true
          · rw [if_pos hnull] at h
            exact absurd h breach_ne_ok
          · rw [if_neg hnull] at h
            -- null is read as null, which is refused
            obtain ⟨rfl, -⟩ := pure_eq_ok.mp h
            have hread : Value.null = value := Except.ok.inj hvalue
            exact absurd (hread ▸ rfl) hnull
  | structured =>
      rw [hreturns] at h
      exact ⟨rfl, (pure_eq_ok.mp h).1⟩

/-- What a handler of an invocation has given, on the way to the result. -/
theorem invoke_ok {schema : Schema} {model : Model} {method : Method} {handler : Handler}
    {id : Identity} {arguments : Record} {start stop : Work} {json : Json}
    (h : method.invoke schema model handler id arguments start = .ok json stop) :
    ∃ receiver given record between,
      runHandler schema model handler arguments receiver start = .ok (given, record) between ∧
        method.result model id record given between = .ok json stop := by
  obtain ⟨found, between, hget, hrest⟩ := bind_eq_ok.mp h
  obtain ⟨-, rfl⟩ := get?_ok hget
  cases found with
  | none => exact absurd hrest refuse_ne_ok
  | some receiver =>
      obtain ⟨⟨given, record⟩, after, hgiven, hresult⟩ := bind_eq_ok.mp hrest
      exact ⟨receiver, given, record, after, hgiven, hresult⟩

/-- An invocation fails as its handler does, or says why. -/
theorem invoke_error {schema : Schema} {model : Model} {method : Method} {handler : Handler}
    {id : Identity} {arguments : Record} {start stop : Work} {failure : Failure}
    (h : method.invoke schema model handler id arguments start = .error failure stop) :
    failure.violations ≠ [] ∨
      ∃ receiver,
        runHandler schema model handler arguments receiver start = .error failure stop := by
  rcases bind_eq_error.mp h with hget | ⟨found, between, hget, hrest⟩
  · exact .inl ((orderly_get? _ _).error hget)
  · obtain ⟨-, rfl⟩ := get?_ok hget
    cases found with
    | none => exact .inl ((orderly_refuse _).error hrest)
    | some receiver =>
        rcases bind_eq_error.mp hrest with hgiven | ⟨_, _, -, hresult⟩
        · exact .inr ⟨receiver, hgiven⟩
        · exact .inl ((orderly_result _ _ _ _ _).error hresult)

theorem runHandler_ok {schema : Schema} {model : Model} {handler : Handler}
    {arguments receiver record : Record} {start stop : Work} {given : Json}
    (h : runHandler schema model handler arguments receiver start = .ok (given, record) stop) :
    ∃ final, handler arguments ⟨schema, model, receiver, start⟩ = .ok given final := by
  unfold runHandler EStateM.run at h
  split at h
  · rename_i hhandled
    obtain ⟨hsame, -⟩ := EStateM.Result.ok.inj h
    exact ⟨_, (Prod.mk.inj hsame).1 ▸ hhandled⟩
  · cases h

theorem runHandler_untold {schema : Schema} {model : Model} {handler : Handler}
    {arguments receiver : Record} {start stop : Work} {failure : Failure}
    (h : runHandler schema model handler arguments receiver start = .error failure stop)
    (huntold : failure.violations = []) :
    ∃ final, handler arguments ⟨schema, model, receiver, start⟩ = .error (.refused []) final := by
  unfold runHandler EStateM.run at h
  split at h
  · cases h
  · rename_i raised final hhandled
    obtain ⟨rfl, -⟩ := EStateM.Result.error.inj h
    cases raised with
    | refused violations =>
        obtain rfl : violations = [] := huntold
        exact ⟨final, hhandled⟩
    | failed message => exact absurd huntold (List.cons_ne_nil _ _)
    | storage fault => exact absurd huntold (List.cons_ne_nil _ _)

end Method

namespace Engine

variable {engine : Engine} {store : Store} {options : CallOptions} {call : Call}

/-- An invocation answers, unless its handler evades that. -/
theorem suits_invoke (hitems : call.items? engine.schema = none) (model method : String)
    (args : Json) (hanswers : ¬ engine.Evades store options model method) :
    Suits engine.schema call (engine.invoke store model method args options).2 := by
  unfold invoke
  dsimp only
  split
  · rename_i violations hfound
    exact .failure (findModel_ne_untold hfound)
  · rename_i found hfound
    split
    · exact .failure (List.cons_ne_nil _ _)
    · rename_i exposed hexposed
      split
      · rename_i violations hread
        refine .failure fun hnil => ?_
        exact exposed.readArguments_ne_untold found args (hnil ▸ hread)
      · rename_i id arguments hread
        split
        · exact .failure (List.cons_ne_nil _ _)
        · rename_i handler hhandler
          refine suits_ofChecked hitems (Store.transact_answers ?_ ?_)
          · rintro json stop hrun rfl
            obtain ⟨receiver, given, record, between, hgiven, hresult⟩ := Method.invoke_ok hrun
            obtain ⟨hreturns, rfl⟩ := Method.result_eq_null hresult
            obtain ⟨final, hhandled⟩ := Method.runHandler_ok hgiven
            exact hanswers ⟨handler, found, exposed, arguments, receiver, hhandler,
              model?_of_findModel hfound, hexposed, .inr ⟨hreturns, final, hhandled⟩⟩
          · intro failure stop hrun
            rcases Method.invoke_error hrun with htold | ⟨receiver, hgiven⟩
            · exact htold
            · intro hnil
              obtain ⟨final, hhandled⟩ := Method.runHandler_untold hgiven hnil
              exact hanswers ⟨handler, found, exposed, arguments, receiver, hhandler,
                model?_of_findModel hfound, hexposed, .inl ⟨final, hhandled⟩⟩

/-! ### Mutations by name -/

theorem suits_runInput (hitems : call.items? engine.schema = none) (model : String)
    (kind : InputKind) (args : Json) :
    Suits engine.schema call (engine.runInput store model kind args options).2 := by
  unfold runInput
  split
  · exact .failure (List.cons_ne_nil _ _)
  · exact suits_runSingle hitems model kind _

theorem readBulk_ne_untold (args : Json) : readBulk args ≠ .error [] := by
  unfold readBulk
  refine Checked.both_ne_untold ?_ ?_
  · split
    · exact fun h => by cases h
    · exact Checked.fault_ne_untold _ _
    · exact Checked.fault_ne_untold _ _
  · split
    · exact Checked.fault_ne_untold _ _
    · split
      · exact fun h => by cases h
      · exact Checked.fault_ne_untold _ _

theorem suits_runItems {name : String} {args : Json} {operation : Operation} {kind : InputKind}
    (hoperation : engine.schema.operation? name = some operation)
    (hkind : operation.kind.bulk? = some kind) :
    Suits engine.schema (.byName name args)
      (engine.runItems store operation.model kind args options).2 := by
  unfold runItems
  cases hread : readBulk args with
  | error violations => exact .failure fun hnil => readBulk_ne_untold args (hnil ▸ hread)
  | ok read =>
      obtain ⟨items, policy⟩ := read
      refine suits_bulk operation.model kind ?_ ?_
      · simp only [Call.items?, hoperation, hkind, hread, Option.bind_eq_bind, Option.bind_some]
      · rintro rfl
        simp only [Call.bestEffort?, hoperation, hkind, hread, Option.bind_eq_bind,
          Option.bind_some]
        exact Option.some_ne_none _

theorem items?_byName {name : String} {args : Json} {operation : Operation}
    (hoperation : engine.schema.operation? name = some operation)
    (hkind : operation.kind.bulk? = none) :
    (Call.byName name args).items? engine.schema = none := by
  simp only [Call.items?, hoperation, hkind, Option.bind_eq_bind, Option.bind_some,
    Option.bind_none]

theorem suits_mutate (name : String) (args : Json)
    (hanswers : ∀ model method,
      (Call.byName name args).invoked? engine.schema = some (model, method) →
        ¬ engine.Evades store options model method) :
    Suits engine.schema (.byName name args) (engine.mutate store name args options).2 := by
  unfold mutate
  cases hoperation : engine.schema.operation? name with
  | none => exact .failure (List.cons_ne_nil _ _)
  | some operation =>
      dsimp only
      have hplain : operation.kind.bulk? = none →
          (Call.byName name args).items? engine.schema = none := items?_byName hoperation
      have hbulk : ∀ kind, operation.kind.bulk? = some kind →
          Suits engine.schema (.byName name args)
            (engine.runItems store operation.model kind args options).2 :=
        fun _ => suits_runItems hoperation
      cases hkind : operation.kind with
      | single | list | pages => exact .failure (List.cons_ne_nil _ _)
      | create | update | delete =>
          rw [hkind] at hplain
          exact suits_runInput (hplain rfl) _ _ _
      | bulkCreate | bulkUpdate | bulkDelete =>
          rw [hkind] at hbulk
          exact hbulk _ rfl
      | method method =>
          rw [hkind] at hplain
          refine suits_invoke (hplain rfl) _ _ _ (hanswers _ _ ?_)
          simp only [Call.invoked?, hoperation, hkind, Option.bind_eq_bind, Option.bind_some]

theorem call_suits (engine : Engine) (store : Store) (options : CallOptions) (call : Call)
    (hanswers : ∀ model method, call.invoked? engine.schema = some (model, method) →
      ¬ engine.Evades store options model method) :
    Suits engine.schema call (engine.call store options call).2 := by
  cases call with
  | create model input => exact suits_runSingle rfl model .create input
  | update model input => exact suits_runSingle rfl model .update input
  | delete model input => exact suits_runSingle rfl model .delete input
  | bulk model kind items policy =>
      refine suits_bulk model kind rfl ?_
      rintro rfl
      exact Option.some_ne_none _
  | invoke model method args => exact suits_invoke rfl model method args (hanswers model method rfl)
  | byName name args => exact suits_mutate name args hanswers

/-- **Results have one form.** Whatever a mutation is asked for, in whatever store and with whatever
handlers, its result is shown as a well-formed envelope, unless it invokes a method whose handler
refuses without an error, or gives null for a structured result. -/
theorem call_wellFormed (engine : Engine) (store : Store) (options : CallOptions) (call : Call) :
    let result := (engine.call store options call).2
    result.toJson = result.envelope.toJson ∧ result.envelope.WellFormed engine.schema call ∨
      ∃ model method, call.invoked? engine.schema = some (model, method) ∧
        engine.Evades store options model method := by
  intro result
  by_cases hanswers : ∀ model method, call.invoked? engine.schema = some (model, method) →
      ¬ engine.Evades store options model method
  · exact .inl ⟨result.toJson_eq, (call_suits engine store options call hanswers).wellFormed⟩
  · push Not at hanswers
    exact .inr hanswers

/-- Notes that can be looked at. -/
def peekRegistry : Registry where
  models := [{
    name := "Note"
    methods := [{ name := "peek", exposed := true, returns := .structured }] }]

def peekEngine (handler : Handler) : Engine :=
  { chainEngine with
    schema := (peekRegistry.schema.toOption).getD {}
    handlers := [(("Note", "peek"), handler)] }

/-- A look that gives nothing succeeds without an object, and one that is refused without an error
fails without one. -/
theorem peek_evades :
    let store : Store :=
      { tables := ({} : Tables).put "Note" (.int 1) (Keyed.ofList [("id", .int 1)]) }
    let call : Call := .invoke "Note" "peek" (.obj [("id", .num (.int 1))])
    ∀ handler ∈ [(fun _ => pure .null : Handler), fun _ => throw (.refused [])],
      ¬ ((peekEngine handler).call store {} call).2.envelope.WellFormed
        (peekEngine handler).schema call := by
  intro store call handler hmem hwellFormed
  rw [List.mem_cons, List.mem_singleton] at hmem
  rcases hmem with rfl | rfl
  · have hnothing : (((peekEngine fun _ => pure .null).call store {} call).2.object?.map
        Json.isNull) = some true := by decide +kernel
    obtain ⟨object, hobject, hnull⟩ := Option.map_eq_some_iff.mp hnothing
    cases hresult : ((peekEngine fun _ => pure .null).call store {} call).2 with
    | single given =>
        rw [hresult] at hwellFormed hobject
        obtain rfl : given = object := Option.some.inj hobject
        have hgiven := (hwellFormed.single rfl rfl).1
        cases given <;> first | exact hgiven rfl | cases hnull
    | bulk | failure =>
        rw [hresult] at hobject
        cases hobject
  · have hsilent : ((peekEngine fun _ => throw (.refused [])).call store {} call).2.isOk = false ∧
        ((peekEngine fun _ => throw (.refused [])).call store {} call).2.violations = [] := by
      decide +kernel
    have hok := hwellFormed.ok_iff.mpr (List.map_eq_nil_iff.mpr hsilent.2)
    rw [MutationResult.envelope, hsilent.1] at hok
    cases hok

end Engine

end ModelSurface
