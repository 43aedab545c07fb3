import ModelSurface.Proofs.Engine.Advancing
import ModelSurface.Proofs.Surface.Distinct

/-!
# Identities are used once

The records that come to be committed for a model whose records are numbered have the numbers 1, 2,
3 and so on, in the order in which they are committed. A record that is deleted does not give its
number back, and a transaction that fails takes no number along. A sequence counts the draws for its
own field, and nothing else moves it.
-/

namespace ModelSurface

/-- What a call has committed: the tables that it found and those that it left, and the plans that
it carried out. -/
structure Commit where
  before : Tables
  after : Tables
  plans : List Plan

/-- The identities of the records of a model that are there behind a commit and not before it. -/
def Commit.identities (commit : Commit) (model : String) : List Identity :=
  (commit.after.rows.filter fun row =>
    row.1.model == model && (commit.before.get? model row.1.id).isNone).map (·.1.id)

/-- How often plans draw from the sequence of a field of a model. -/
def Plan.totalDraws (plans : List Plan) (model : String) (field : Field) : ℕ :=
  (plans.flatMap Plan.nodes).countP fun node => node.model.name = model && node.draws field

namespace Engine

def commit (engine : Engine) (store : Store) (options : CallOptions) (call : Call) : Commit where
  before := store.tables
  after := (engine.call store options call).1.tables
  plans := engine.plans call (engine.call store options call).2

/-- Calls one after another, from an empty store, with all that they commit. Between calls, writes
to a model may be made to fail, or to succeed again. -/
inductive Run (engine : Engine) : List Commit → Store → Prop where
  | empty (failing : List String) (drawn : ℕ) :
      Run engine [] { failing := failing, drawn := drawn }
  | call {commits : List Commit} {store : Store} (options : CallOptions) (call : Call) :
      Run engine commits store →
      Run engine (commits ++ [engine.commit store options call])
        (engine.call store options call).1
  | failWrites {commits : List Commit} {store : Store} (model : String) :
      Run engine commits store → Run engine commits (store.failWrites model)
  | clearFailures {commits : List Commit} {store : Store} :
      Run engine commits store → Run engine commits store.clearFailures

end Engine

/-! ### Single commits -/

theorem Plan.count_flatMap_sequences {schema : Schema} (hschema : schema.Sound)
    (hdotless : ∀ model ∈ schema.models, '.' ∉ model.name.toList) {plans : List Plan}
    (hplans : ∀ plan ∈ plans, plan.Sound schema) {model : Model} (hmodel : model ∈ schema.models)
    {field : Field} (hfield : field ∈ model.fields.values) :
    (plans.flatMap Plan.sequences).count (field.sequence model.name) =
      Plan.totalDraws plans model.name field := by
  induction plans with
  | nil => rfl
  | cons plan plans ih =>
      obtain ⟨hplan, hplans⟩ := List.forall_mem_cons.mp hplans
      have hmodels : ∀ node ∈ plan.nodes, node.model ∈ schema.models :=
        fun node hnode => (hplan.nodes node hnode).model
      rw [List.flatMap_cons, List.count_append, ih hplans,
        Plan.count_sequences hschema hdotless hmodels hmodel hfield, Plan.totalDraws,
        Plan.totalDraws, List.flatMap_cons, List.countP_append]
      rfl

theorem Plan.totalDraws_append (plans plans' : List Plan) (model : String) (field : Field) :
    Plan.totalDraws (plans ++ plans') model field =
      Plan.totalDraws plans model field + Plan.totalDraws plans' model field := by
  unfold totalDraws
  rw [List.flatMap_append, List.countP_append]

namespace Commit

variable {commit : Commit}

theorem mem_identities {model : String} {id : Identity} : id ∈ commit.identities model ↔
    (commit.after.get? model id).isSome ∧ commit.before.get? model id = none := by
  unfold identities
  constructor
  · intro h
    obtain ⟨⟨key, record⟩, hrow, rfl⟩ := List.mem_map.mp h
    obtain ⟨hmem, hnew⟩ := List.mem_filter.mp hrow
    obtain ⟨hmodel, hnone⟩ := Bool.and_eq_true_iff.mp hnew
    obtain rfl := beq_iff_eq.mp hmodel
    exact ⟨Option.isSome_of_eq_some (Tables.mem_rows.mp hmem), Option.isNone_iff_eq_none.mp hnone⟩
  · rintro ⟨hafter, hbefore⟩
    obtain ⟨record, hrecord⟩ := Option.isSome_iff_exists.mp hafter
    refine List.mem_map.mpr ⟨(⟨model, id⟩, record), List.mem_filter.mpr ⟨?_, ?_⟩, rfl⟩
    · exact Tables.mem_rows.mpr hrecord
    · exact Bool.and_eq_true_iff.mpr ⟨beq_self_eq_true model, Option.isNone_iff_eq_none.mpr hbefore⟩

/-- The new records of a model are listed in the order of their identities. -/
theorem pairwise_identities (commit : Commit) (model : String) :
    (commit.identities model).Pairwise fun a b => a.compare b = .lt := by
  unfold identities
  rw [List.pairwise_map]
  refine List.Pairwise.imp_of_mem ?_ (commit.after.ordered.filter _)
  intro a b ha hb hlt
  have hmodel : ∀ row ∈ commit.after.rows.filter fun row =>
      row.1.model == model && (commit.before.get? model row.1.id).isNone, row.1.model = model :=
    fun row hrow => beq_iff_eq.mp (Bool.and_eq_true_iff.mp (List.mem_filter.mp hrow).2).1
  unfold RowKey.compare at hlt
  rw [hmodel a ha, hmodel b hb, Std.compare_self] at hlt
  exact hlt

end Commit

theorem pairwise_numbers (first count : ℕ) :
    ((List.range' first count).map fun number : ℕ => Identity.int number).Pairwise
      fun a b => a.compare b = .lt := by
  rw [List.pairwise_map]
  refine (List.pairwise_lt_range' 1).imp fun hlt => ?_
  exact Int.compare_eq_lt.mpr (Int.ofNat_lt.mpr hlt)

/-- The new records of a model have the numbers that its sequence has given. -/
theorem Commit.identities_eq {schema : Schema} {kind : InputKind} {commit : Commit}
    (h : Tables.Advances schema kind commit.plans commit.before commit.after) {model : Model}
    (hmodel : model ∈ schema.models) (hnumbered : model.identity.Numbered) {last count : ℕ}
    (hbefore : commit.before.number model.name = last)
    (hafter : commit.after.number model.name = (last + count : ℕ)) :
    commit.identities model.name =
      (List.range' (last + 1) count).map fun number : ℕ => .int number := by
  have : Std.Irrefl fun a b : Identity => a.compare b = .lt :=
    ⟨fun a h => Std.OrientedCmp.not_lt_of_lt h h⟩
  have : Std.Antisymm fun a b : Identity => a.compare b = .lt :=
    ⟨fun a b h h' => absurd h' (Std.OrientedCmp.not_lt_of_lt h)⟩
  refine List.Pairwise.eq_of_mem_iff (commit.pairwise_identities model.name)
    (pairwise_numbers _ _) fun id => ?_
  rw [mem_identities, h.new_iff hmodel hnumbered, hbefore, hafter, List.mem_map]
  constructor
  · rintro ⟨number, hnew, hold, rfl⟩
    obtain ⟨number, rfl⟩ := Int.eq_ofNat_of_zero_le (show 0 ≤ number by omega)
    exact ⟨number, List.mem_range'_1.mpr (by omega), rfl⟩
  · rintro ⟨number, hnumber, rfl⟩
    have hrange := List.mem_range'_1.mp hnumber
    exact ⟨number, by omega, by omega, rfl⟩

/-! ### Runs -/

theorem Registry.dotless_models {registry : Registry} {schema : Schema}
    (h : registry.schema = .ok schema) : ∀ model ∈ schema.models, '.' ∉ model.name.toList := by
  intro model hmodel hdot
  obtain ⟨found, hfound, rfl, -⟩ := schema_eq_ok_iff.mp h
  have hget : found.models.get? model.name = some model :=
    (sound_introspect hfound).named.get?_eq_some.mpr ⟨(List.mem_filter.mp hmodel).1, rfl⟩
  have hvalid := Naming.isValid_iff.mp (methods_of_introspect hfound hget).2
  exact absurd (hvalid.parts _ hdot) (by decide)

namespace Engine

variable {engine : Engine} {commits : List Commit} {store : Store}

section Runs

variable (hschema : engine.schema.Sound)
  (hdotless : ∀ model ∈ engine.schema.models, '.' ∉ model.name.toList)
  (hhandlers : ∀ entry ∈ engine.handlers, Handler.WritesBySet entry.2)

include hschema hhandlers

theorem Run.described (hrun : engine.Run commits store) :
    store.tables.Described engine.schema := by
  induction hrun with
  | empty failing drawn => exact Tables.described_empty
  | call options call _ ih =>
      exact call_keeps (keepsInputs_described hschema) (keepsMethods_described hschema hhandlers)
        _ options call ih
  | failWrites model _ ih => exact ih
  | clearFailures _ ih => exact ih

include hdotless

/-- A sequence has given as many numbers as have been drawn for its field. -/
theorem Run.number_eq (hrun : engine.Run commits store) {model : Model}
    (hmodel : model ∈ engine.schema.models) {field : Field} (hfield : field ∈ model.fields.values) :
    store.tables.number (field.sequence model.name) =
      Plan.totalDraws (commits.flatMap Commit.plans) model.name field := by
  induction hrun with
  | empty failing drawn => rfl
  | @call commits store options call hbefore ih =>
      obtain ⟨kind, hadvances⟩ := call_advances hschema hdotless hhandlers store options call
        (hbefore.described hschema hhandlers)
      rw [hadvances.moved, ih, Plan.count_flatMap_sequences hschema hdotless hadvances.sound hmodel
        hfield, List.flatMap_append, List.flatMap_singleton, Plan.totalDraws_append,
        Int.natCast_add]
      rfl
  | failWrites model _ ih => exact ih
  | clearFailures _ ih => exact ih

/-- The records of a model that have been committed are numbered on from 1. -/
theorem Run.identities_eq (hrun : engine.Run commits store) {model : Model}
    (hmodel : model ∈ engine.schema.models) (hnumbered : model.identity.Numbered) :
    commits.flatMap (·.identities model.name) =
      (List.range' 1 (Plan.totalDraws (commits.flatMap Commit.plans) model.name
        model.identity)).map fun number : ℕ => .int number := by
  induction hrun with
  | empty failing drawn => rfl
  | @call commits store options call hbefore ih =>
      obtain ⟨kind, hadvances⟩ := call_advances hschema hdotless hhandlers store options call
        (hbefore.described hschema hhandlers)
      have hsequence : model.identity.sequence model.name = model.name :=
        if_pos (hschema.model _ hmodel).identity.identity
      have hidentity : model.identity ∈ model.fields.values := List.mem_cons_self
      have hfirst := hbefore.number_eq hschema hdotless hhandlers hmodel hidentity
      have hlast := (Run.call options call hbefore).number_eq hschema hdotless hhandlers hmodel
        hidentity
      rw [hsequence] at hfirst hlast
      rw [List.flatMap_append, List.flatMap_singleton, Plan.totalDraws_append] at hlast
      rw [List.flatMap_append, List.flatMap_singleton, ih,
        Commit.identities_eq hadvances hmodel hnumbered hfirst hlast, ← List.map_append,
        Nat.add_comm _ 1, List.range'_append_1, List.flatMap_append, List.flatMap_singleton,
        Plan.totalDraws_append]
  | failWrites model _ ih => exact ih
  | clearFailures _ ih => exact ih

end Runs

/-- Whatever calls are made one after another, and whichever of them fail: the records of a model
that come to be committed are numbered on from 1 without a gap, as many as plans that have been
carried out create, so that no number is used twice and each is greater than those before it. The
sequence of a field has given one number for each draw for this very field. -/
theorem identities_never_reused {registry : Registry}
    (hschema : registry.schema = .ok engine.schema)
    (hhandlers : ∀ entry ∈ engine.handlers, Handler.WritesBySet entry.2)
    (hrun : engine.Run commits store) {model : Model} (hmodel : model ∈ engine.schema.models) :
    (model.identity.Numbered →
      (commits.flatMap (·.identities model.name)).Pairwise (fun a b => a.compare b = .lt) ∧
      commits.flatMap (·.identities model.name) =
        (List.range' 1 (Plan.totalDraws (commits.flatMap Commit.plans) model.name
          model.identity)).map fun number : ℕ => .int number) ∧
    ∀ field ∈ model.fields.values, store.tables.number (field.sequence model.name) =
      Plan.totalDraws (commits.flatMap Commit.plans) model.name field := by
  have hsound := Registry.sound_schema hschema
  have hdotless := Registry.dotless_models hschema
  refine ⟨fun hnumbered => ?_, fun field hfield =>
    hrun.number_eq hsound hdotless hhandlers hmodel hfield⟩
  have hall := hrun.identities_eq hsound hdotless hhandlers hmodel hnumbered
  exact ⟨hall ▸ pairwise_numbers _ _, hall⟩

/-! ### A run to try it on -/

/-- A node that refers to no other. -/
def nodeInput : Json := .obj []

def nodePlan : Plan := (chainEngine.plan? "Node" .create nodeInput).getD ⟨[], []⟩

/-- What a call does that creates a node. -/
def createNode (store : Store) (options : CallOptions) : Store × Checked Json :=
  store.transact options (do pure (Record.toJson (← nodePlan.apply chainEngine.sources [0])))

theorem call_nodeInput (store : Store) (options : CallOptions) :
    chainEngine.call store options (.create "Node" nodeInput) =
      ((createNode store options).1, .ofChecked (createNode store options).2) := by
  have hplanned : (chainEngine.plan? "Node" .create nodeInput).isSome = true := by decide +kernel
  have horder : nodePlan.order = .ok [0] :=
    order_of_single (by decide +kernel) (by decide +kernel)
  have hone :
      chainEngine.runOne store "Node" .create nodeInput options = createNode store options :=
    runOne_of_plan? (by decide) (eq_some_getD hplanned) horder store options
  rw [← hone]
  rfl

/-- A node is created and deleted, a second one cannot be stored, and a third one is. -/
theorem identities_never_reused_nodes :
    let first := chainEngine.call {} {} (.create "Node" nodeInput)
    let second := chainEngine.call first.1 {} (.delete "Node" (.obj [("id", .num (.int 1))]))
    let third := chainEngine.call second.1 { timeout := some 0 } (.create "Node" nodeInput)
    let last := chainEngine.call third.1 {} (.create "Node" nodeInput)
    [first, second, third, last].map (·.2.isOk) = [true, true, false, true] ∧
    ∃ commits, chainEngine.Run commits last.1 ∧
      commits.flatMap (·.identities "Node") = [.int 1, .int 2] ∧
      (commits.flatMap (·.identities "Node")).Pairwise fun a b => a.compare b = .lt := by
  have hempty : chainEngine.Run [] {} := .empty [] 0
  have hrun := Run.call {} (.create "Node" nodeInput) (.call { timeout := some 0 }
    (.create "Node" nodeInput) (.call {} (.delete "Node" (.obj [("id", .num (.int 1))]))
      (.call {} (.create "Node" nodeInput) hempty)))
  have hnodes : ∀ model ∈ chainSchema.models, model.name = "Node" ∧
      model.identity.computed = some ⟨.create, .sequence⟩ := by decide +kernel
  obtain ⟨model, hmodel⟩ : ∃ model, model ∈ chainSchema.models :=
    List.exists_mem_of_ne_nil _ (by decide +kernel)
  obtain ⟨hname, hcomputed⟩ := hnodes model hmodel
  have hnumbered : model.identity.Numbered := ⟨_, hcomputed⟩
  obtain ⟨hrising, -⟩ := (identities_never_reused schema_chainRegistry
    (fun _ h => absurd h List.not_mem_nil) hrun hmodel).1 hnumbered
  rw [hname] at hrising
  refine ⟨?_, _, hrun, ?_, hrising⟩
  · simp only [call_nodeInput]
    decide +kernel
  · simp only [commit, call_nodeInput]
    decide +kernel

end Engine

end ModelSurface
