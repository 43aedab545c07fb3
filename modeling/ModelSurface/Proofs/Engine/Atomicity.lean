import ModelSurface.Proofs.Engine.Call

/-!
# Failed calls

A call that fails leaves the committed tables, and the sequences in them, as they were. The one
exception are bulk calls under the policy that treats every item on its own: such a call does what
the single calls for its items do, one after another, and an item without an object does nothing.
-/

namespace ModelSurface

/-- What the items of a bulk operation are. -/
def OperationKind.bulk? : OperationKind → Option InputKind
  | .bulkCreate => some .create
  | .bulkUpdate => some .update
  | .bulkDelete => some .delete
  | _ => none

/-- The model, the kind and the items of a call that treats each of its items on its own. -/
def Call.bestEffort? (schema : Schema) : Call → Option (String × InputKind × List Json)
  | .bulk model kind items .bestEffort => some (model, kind, items)
  | .byName name args => do
    let operation ← schema.operation? name
    let kind ← operation.kind.bulk?
    match Engine.readBulk args with
    | .ok (items, .bestEffort) => some (operation.model, kind, items)
    | _ => none
  | _ => none

namespace Engine

/-- The store behind the single calls for items, one after another. -/
def oneByOne (engine : Engine) (options : CallOptions) (model : String) (kind : InputKind)
    (store : Store) (items : List Json) : Store :=
  items.foldl (fun store item => (engine.call store options (.single model kind item)).1) store

variable (engine : Engine) (store : Store) (options : CallOptions)

/-! ### Calls in one transaction -/

theorem runOne_of_error {model : String} {kind : InputKind} {input : Json}
    {violations : List Violation}
    (h : (engine.runOne store model kind input options).2 = .error violations) :
    (engine.runOne store model kind input options).1.tables = store.tables := by
  unfold runOne at h ⊢
  split
  · rfl
  · rename_i found prepared hchecked
    rw [hchecked] at h
    exact Store.tables_transact_of_error h

theorem runSingle_of_not_ok {model : String} {kind : InputKind} {input : Json}
    (h : (engine.runSingle store model kind input options).2.isOk = false) :
    (engine.runSingle store model kind input options).1.tables = store.tables := by
  cases hresult : (engine.runOne store model kind input options).2 with
  | ok object =>
      have hok : (engine.runSingle store model kind input options).2 = .single object :=
        congrArg MutationResult.ofChecked hresult
      rw [hok] at h
      cases h
  | error violations => exact engine.runOne_of_error store options hresult

theorem runTogether_of_not_ok {model : String} {kind : InputKind} {items : List Json}
    (h : (engine.runTogether store model kind items options).2.isOk = false) :
    (engine.runTogether store model kind items options).1.tables = store.tables := by
  unfold runTogether at h ⊢
  split
  · rfl
  · rename_i found prepared hchecked
    rw [hchecked] at h
    dsimp only at h
    cases hrun : store.transact options (engine.runPrepared found 0 prepared) with
    | mk stop result =>
        cases result with
        | ok objects =>
            rw [hrun] at h
            cases h
        | error violations =>
            have hkept := Store.tables_transact_of_error (congrArg Prod.snd hrun)
            rwa [hrun] at hkept

theorem invoke_of_not_ok {model method : String} {args : Json}
    (h : (engine.invoke store model method args options).2.isOk = false) :
    (engine.invoke store model method args options).1.tables = store.tables := by
  unfold invoke at h ⊢
  dsimp only at h ⊢
  split
  · rfl
  · rename_i found hfound
    rw [hfound] at h
    dsimp only at h
    split
    · rfl
    · rename_i exposed hexposed
      rw [hexposed] at h
      dsimp only at h
      split
      · rfl
      · rename_i id arguments harguments
        rw [harguments] at h
        dsimp only at h
        split
        · rfl
        · rename_i handler hhandler
          rw [hhandler] at h
          dsimp only at h
          cases hresult : (store.transact options
              (exposed.invoke engine.schema found handler id arguments)).2 with
          | ok object =>
              rw [hresult] at h
              cases h
          | error violations => exact Store.tables_transact_of_error hresult

theorem runInput_of_not_ok {model : String} {kind : InputKind} {args : Json}
    (h : (engine.runInput store model kind args options).2.isOk = false) :
    (engine.runInput store model kind args options).1.tables = store.tables := by
  unfold runInput at h ⊢
  split
  · rfl
  · rename_i input hinput
    rw [hinput] at h
    exact engine.runSingle_of_not_ok store options h

theorem runItems_of_not_ok {model : String} {kind : InputKind} {args : Json}
    (hargs : ∀ items, readBulk args ≠ .ok (items, .bestEffort))
    (h : (engine.runItems store model kind args options).2.isOk = false) :
    (engine.runItems store model kind args options).1.tables = store.tables := by
  unfold runItems at h ⊢
  split
  · rfl
  · rename_i items policy hread
    rw [hread] at h
    cases policy with
    | allOrNothing => exact engine.runTogether_of_not_ok store options h
    | bestEffort => exact absurd hread (hargs items)

theorem mutate_of_not_ok {name : String} {args : Json}
    (hcall : (Call.byName name args).bestEffort? engine.schema = none)
    (h : (engine.mutate store name args options).2.isOk = false) :
    (engine.mutate store name args options).1.tables = store.tables := by
  unfold mutate at h ⊢
  split
  · rfl
  · rename_i operation hoperation
    rw [hoperation] at h
    dsimp only at h
    have hargs : operation.kind.bulk? ≠ none →
        ∀ items, readBulk args ≠ .ok (items, .bestEffort) := by
      intro hkind items hread
      obtain ⟨kind, hkind⟩ := Option.ne_none_iff_exists'.mp hkind
      have hsome : (Call.byName name args).bestEffort? engine.schema =
          some (operation.model, kind, items) := by
        simp only [Call.bestEffort?, hoperation, hkind, hread, Option.bind_eq_bind,
          Option.bind_some]
      rw [hcall] at hsome
      cases hsome
    dsimp only
    cases hkind : operation.kind with
    | single | list | pages => rfl
    | create | update | delete =>
        rw [hkind] at h
        exact engine.runInput_of_not_ok store options h
    | bulkCreate | bulkUpdate | bulkDelete =>
        rw [hkind] at h hargs
        exact engine.runItems_of_not_ok store options (hargs (Option.some_ne_none _)) h
    | method method =>
        rw [hkind] at h
        exact engine.invoke_of_not_ok store options h

/-- A call whose items are not treated on their own does nothing when it fails. -/
theorem call_of_not_ok {call : Call} (hcall : call.bestEffort? engine.schema = none)
    (h : (engine.call store options call).2.isOk = false) :
    (engine.call store options call).1.tables = store.tables := by
  cases call with
  | create model input => exact engine.runSingle_of_not_ok store options h
  | update model input => exact engine.runSingle_of_not_ok store options h
  | delete model input => exact engine.runSingle_of_not_ok store options h
  | bulk model kind items policy =>
      cases policy with
      | allOrNothing => exact engine.runTogether_of_not_ok store options h
      | bestEffort => cases hcall
  | invoke model method args => exact engine.invoke_of_not_ok store options h
  | byName name args => exact engine.mutate_of_not_ok store options hcall h

/-! ### Calls that treat each item on its own -/

theorem call_bestEffort {call : Call} {model : String} {kind : InputKind} {items : List Json}
    (h : call.bestEffort? engine.schema = some (model, kind, items)) :
    engine.call store options call = engine.bulk store model kind items .bestEffort options := by
  cases call with
  | bulk model' kind' items' policy =>
      cases policy with
      | bestEffort =>
          cases h
          rfl
      | allOrNothing => cases h
  | byName name args =>
      obtain ⟨operation, hoperation, h⟩ := Option.bind_eq_some_iff.mp h
      obtain ⟨kind, hkind, h⟩ := Option.bind_eq_some_iff.mp h
      split at h
      · rename_i hbulk
        cases h
        have hitems : engine.runItems store operation.model kind args options =
            engine.bulk store operation.model kind items .bestEffort options := by
          unfold runItems
          rw [hbulk]
        unfold Engine.call mutate
        dsimp only
        rw [hoperation, ← hitems]
        dsimp only
        cases hop : operation.kind <;> rw [hop] at hkind <;> cases hkind <;> rfl
      · cases h
  | create | update | delete | invoke => cases h

theorem oneByOne_cons (model : String) (kind : InputKind) (item : Json) (items : List Json) :
    engine.oneByOne options model kind store (item :: items) =
      engine.oneByOne options model kind (engine.runOne store model kind item options).1
        items := by
  have hitem : (engine.call store options (.single model kind item)).1 =
      (engine.runOne store model kind item options).1 :=
    congrArg Prod.fst (engine.call_single store options model kind item)
  rw [← hitem]
  rfl

theorem object?_single (model : String) (kind : InputKind) (item : Json) :
    (engine.call store options (.single model kind item)).2.object? =
      (engine.runOne store model kind item options).2.value? := by
  rw [engine.call_single]
  unfold runSingle
  dsimp only
  cases (engine.runOne store model kind item options).2 <;> rfl

theorem single_of_no_object {model : String} {kind : InputKind} {input : Json}
    (h : (engine.call store options (.single model kind input)).2.object? = none) :
    (engine.call store options (.single model kind input)).1.tables = store.tables := by
  rw [object?_single] at h
  rw [engine.call_single]
  cases hresult : (engine.runOne store model kind input options).2 with
  | ok object =>
      rw [hresult] at h
      cases h
  | error violations => exact engine.runOne_of_error store options hresult

theorem runEach_eq_oneByOne (model : String) (kind : InputKind) (items : List Json) (index : Nat) :
    (engine.runEach model kind options store index items).1 =
      engine.oneByOne options model kind store items := by
  induction items generalizing store index with
  | nil => rfl
  | cons item items ih =>
      rw [runEach_cons, oneByOne_cons]
      exact ih (engine.runOne store model kind item options).1 (index + 1)

/-- Each object of a call that treats its items on their own is that of the single call for its
item. -/
theorem runEach_objects (model : String) (kind : InputKind) (items : List Json) (index : Nat) :
    (engine.runEach model kind options store index items).2.1.length = items.length ∧
    ∀ (i : Nat) (item : Json), items[i]? = some item →
      (engine.runEach model kind options store index items).2.1[i]? =
        some (engine.call (engine.oneByOne options model kind store (items.take i)) options
          (.single model kind item)).2.object? := by
  induction items generalizing store index with
  | nil =>
      refine ⟨rfl, ?_⟩
      intro i item hitem
      cases hitem
  | cons first items ih =>
      obtain ⟨hlength, hobjects⟩ := ih (engine.runOne store model kind first options).1 (index + 1)
      rw [runEach_cons]
      refine ⟨by simp only [List.length_cons, hlength], ?_⟩
      intro i item hitem
      cases i with
      | zero =>
          obtain rfl : first = item := Option.some.inj hitem
          exact congrArg some (engine.object?_single store options model kind first).symm
      | succ i =>
          rw [List.take_succ_cons, oneByOne_cons]
          exact hobjects i item hitem

/-- A call that fails leaves the committed tables and sequences as they were. A call that treats
each of its items on its own leads to the store of the single calls for the items, one after
another, and an item without an object leaves the tables as they were. -/
theorem call_isAtomic (call : Call) :
    (call.bestEffort? engine.schema = none →
      (engine.call store options call).2.isOk = false →
      (engine.call store options call).1.tables = store.tables) ∧
    ∀ (model : String) (kind : InputKind) (items : List Json),
      call.bestEffort? engine.schema = some (model, kind, items) →
      (engine.call store options call).1 = engine.oneByOne options model kind store items ∧
      ∃ objects, (engine.call store options call).2.objects? = some objects ∧
        objects.length = items.length ∧
        ∀ (i : Nat) (item : Json), items[i]? = some item →
          objects[i]? = some (engine.call
            (engine.oneByOne options model kind store (items.take i)) options
            (.single model kind item)).2.object? ∧
          (objects[i]? = some none →
            (engine.oneByOne options model kind store (items.take (i + 1))).tables =
              (engine.oneByOne options model kind store (items.take i)).tables) := by
  refine ⟨engine.call_of_not_ok store options, ?_⟩
  intro model kind items hbest
  rw [engine.call_bestEffort store options hbest]
  obtain ⟨hlength, hobjects⟩ := engine.runEach_objects store options model kind items 0
  refine ⟨engine.runEach_eq_oneByOne store options model kind items 0, _, rfl, hlength, ?_⟩
  intro i item hitem
  refine ⟨hobjects i item hitem, ?_⟩
  intro hnone
  rw [hobjects i item hitem] at hnone
  have hnext : items.take (i + 1) = items.take i ++ [item] := by
    rw [List.take_add_one, hitem]
    rfl
  rw [hnext, oneByOne, List.foldl_append]
  exact engine.single_of_no_object _ options (Option.some.inj hnone)

end Engine

end ModelSurface
