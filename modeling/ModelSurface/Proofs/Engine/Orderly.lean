import ModelSurface.Engine.Mutations
import ModelSurface.Proofs.Engine.Work

/-!
# Orderly work

Work that the library itself does in a transaction changes the tables and draws values. It never
changes which writes fail, the time that is left or whether the call is cancelled, and it never
fails without saying why.
-/

namespace ModelSurface

/-- Work that changes nothing but tables and draws, and whose failures are told. -/
structure Orderly {α : Type} (work : Writing α) : Prop where
  ok : ∀ {start stop a}, work start = .ok a stop →
    stop = { start.withTables stop.tables with drawn := stop.drawn }
  error : ∀ {start stop failure}, work start = .error failure stop → failure.violations ≠ []

namespace Writing

variable {α β : Type}

theorem orderly_pure (a : α) : Orderly (pure a) where
  ok h := by
    obtain ⟨-, rfl⟩ := pure_eq_ok.mp h
    rfl
  error h := absurd h pure_ne_error

theorem orderly_refuse (violation : Violation) : Orderly (refuse violation : Writing α) where
  ok h := absurd h refuse_ne_ok
  error h := by
    obtain ⟨rfl, -⟩ := refuse_eq_error.mp h
    exact List.cons_ne_nil _ _

theorem orderly_breach (broken : Breach) : Orderly (breach broken : Writing α) where
  ok h := absurd h breach_ne_ok
  error h := by
    obtain ⟨rfl, -⟩ := breach_eq_error.mp h
    exact List.cons_ne_nil _ _

theorem orderly_bind {work : Writing α} {next : α → Writing β} (hwork : Orderly work)
    (hnext : ∀ a, Orderly (next a)) : Orderly (work >>= next) where
  ok h := by
    obtain ⟨a, between, hfirst, hrest⟩ := bind_eq_ok.mp h
    rw [(hnext a).ok hrest, hwork.ok hfirst]
    rfl
  error h := by
    obtain hfirst | ⟨a, between, -, hrest⟩ := bind_eq_error.mp h
    · exact hwork.error hfirst
    · exact (hnext a).error hrest

theorem orderly_foldlM {f : β → α → Writing β} (hf : ∀ b a, Orderly (f b a)) (items : List α)
    (b : β) : Orderly (items.foldlM f b) := by
  induction items generalizing b with
  | nil => exact orderly_pure b
  | cons item items ih =>
      rw [List.foldlM_cons]
      exact orderly_bind (hf b item) ih

theorem orderly_forM {f : α → Writing Unit} (hf : ∀ a, Orderly (f a)) (items : List α) :
    Orderly (items.forM f) := by
  rw [forM_eq_foldlM]
  exact orderly_foldlM (fun _ a => hf a) items ()

/-! ### Single steps -/

theorem orderly_read (look : Transaction → Except StorageFault α) : Orderly (read look) where
  ok h := by
    rw [(read_ok h).2]
    rfl
  error h := by
    obtain ⟨fault, rfl, -⟩ := read_error h
    exact List.cons_ne_nil _ _

theorem orderly_change {act : Transaction → Except StorageFault (α × Transaction)}
    (hact : ∀ {start stop a}, change act start = .ok a stop →
      ∃ tables, stop = start.withTables tables) : Orderly (change act) where
  ok h := by
    obtain ⟨tables, rfl⟩ := hact h
    rfl
  error h := by
    obtain ⟨fault, rfl, -⟩ := change_error h
    exact List.cons_ne_nil _ _

theorem orderly_get? (model : String) (id : Identity) : Orderly (get? model id) :=
  orderly_read _

theorem orderly_scan (model : String) : Orderly (scan model) := orderly_read _

theorem orderly_insert (model : String) (id : Identity) (record : Record) :
    Orderly (insert model id record) :=
  orderly_change fun h => ⟨_, (insert_ok h).2⟩

theorem orderly_replace (model : String) (id : Identity) (record : Record) :
    Orderly (replace model id record) :=
  orderly_change fun h => ⟨_, (replace_ok h).2⟩

theorem orderly_remove (model : String) (id : Identity) : Orderly (remove model id) :=
  orderly_change fun h => ⟨_, remove_ok h⟩

theorem orderly_next (sequence : String) : Orderly (next sequence) :=
  orderly_change fun h => ⟨_, (next_ok h).2⟩

theorem orderly_draw : Orderly draw where
  ok h := by
    rw [(draw_ok h).2]
    rfl
  error h := by cases h

theorem orderly_checkpoint : Orderly checkpoint where
  ok h := by
    rw [checkpoint_ok h]
    rfl
  error h := by
    rw [(checkpoint_error h).1]
    exact List.cons_ne_nil _ _

end Writing

/-! ### Deletions -/

namespace Deletion

open Writing

theorem orderly_changeEach (holder : Model) (change : Record → Record) (records : List Record) :
    Orderly (changeEach holder change records) := by
  refine orderly_forM (fun record => ?_) records
  split
  · exact orderly_pure ()
  · exact orderly_replace _ _ _

theorem orderly_detach {removal : List RowKey → RowKey → Writing (List RowKey)}
    (hremoval : ∀ visited key, Orderly (removal visited key)) (key : RowKey)
    (visited : List RowKey) (holding : Model × Relationship) :
    Orderly (detach removal key visited holding) := by
  refine orderly_bind (orderly_scan _) fun records => ?_
  dsimp only
  split
  · exact orderly_pure _
  · split
    · refine orderly_foldlM (fun visited record => ?_) _ _
      split
      · exact orderly_pure _
      · exact hremoval _ _
    · exact orderly_bind (orderly_changeEach _ _ _) fun _ => orderly_pure _
    · exact orderly_bind (orderly_changeEach _ _ _) fun _ => orderly_pure _
    · exact orderly_refuse _

theorem orderly_removal (schema : Schema) (depth : Nat) (visited : List RowKey) (key : RowKey) :
    Orderly (remove schema depth visited key) := by
  induction depth generalizing visited key with
  | zero =>
      unfold remove
      split
      · exact orderly_pure _
      · exact orderly_bind orderly_checkpoint fun _ => orderly_breach _
  | succ depth ih =>
      unfold remove
      split
      · exact orderly_pure _
      · exact orderly_bind orderly_checkpoint fun _ =>
          orderly_bind (orderly_foldlM (orderly_detach ih key) _ _) fun _ =>
            orderly_bind (orderly_remove _ _) fun _ => orderly_pure _

theorem orderly_delete (schema : Schema) (model : String) (id : Identity) :
    Orderly (delete schema model id) := by
  refine orderly_bind (orderly_get? _ _) fun found => ?_
  split
  · exact orderly_refuse _
  · refine orderly_bind ?_ fun work => orderly_bind (orderly_removal _ _ _ _) fun _ =>
      orderly_pure _
    exact { ok := fun h => by cases h; rfl, error := fun h => by cases h }

end Deletion

/-! ### Plans -/

theorem Field.orderly_generate (sources : Sources) (model : String) (field : Field)
    (generator : Generator) : Orderly (field.generate sources model generator) := by
  refine Writing.orderly_bind Writing.orderly_draw fun drawn => ?_
  split <;> first
    | exact Writing.orderly_pure _
    | exact Writing.orderly_breach _
    | exact Writing.orderly_bind (Writing.orderly_next _) fun _ => Writing.orderly_pure _

namespace Plan

open Writing

theorem orderly_identityOf (written : Written) (ref : NodeRef) :
    Orderly (identityOf written ref) := by
  unfold identityOf
  split
  · exact orderly_pure _
  · split
    · exact orderly_pure _
    · exact orderly_breach _

theorem orderly_linkValue (written : Written) (link : Link NodeRef) :
    Orderly (linkValue written link) := by
  unfold linkValue
  split
  · exact orderly_pure _
  · refine orderly_bind (orderly_identityOf _ _) fun id => orderly_bind ?_ fun _ => orderly_pure _
    unfold checkExists
    split
    · exact orderly_pure _
    · refine orderly_bind (orderly_get? _ _) fun found => ?_
      split
      · exact orderly_refuse _
      · exact orderly_pure _

theorem orderly_checkUnique (model : Model) (link : Link NodeRef) (value : Value)
    (holder : Identity) : Orderly (checkUnique model link value holder) := by
  unfold checkUnique
  split
  · split
    · refine orderly_bind (orderly_scan _) fun records => ?_
      dsimp only
      split
      · exact orderly_refuse _
      · exact orderly_pure _
    · exact orderly_pure _
  · exact orderly_pure _

theorem orderly_setReferences (plan : Plan) (written : Written) (model : Model) (index : Nat)
    (holder : Identity) (record : Record) :
    Orderly (plan.setReferences written model index holder record) :=
  orderly_foldlM (fun _ _ => orderly_bind (orderly_linkValue _ _) fun _ =>
    orderly_bind (orderly_checkUnique _ _ _ _) fun _ => orderly_pure _) _ _

theorem orderly_initialValue (sources : Sources) (node : PlanNode) (field : Field) :
    Orderly (initialValue sources node field) := by
  unfold initialValue
  split
  · exact field.orderly_generate _ _ _
  · exact orderly_pure _

theorem orderly_create (sources : Sources) (plan : Plan) (written : Written) (index : Nat)
    (node : PlanNode) : Orderly (plan.create sources written index node) := by
  refine orderly_bind (orderly_foldlM (fun _ _ => orderly_bind (orderly_initialValue _ _ _)
    fun _ => orderly_pure _) _ _) fun record => ?_
  split
  · exact orderly_breach _
  · exact orderly_bind (orderly_setReferences _ _ _ _ _ _) fun _ =>
      orderly_bind (orderly_insert _ _ _) fun _ => orderly_pure _

theorem orderly_update (sources : Sources) (plan : Plan) (written : Written) (index : Nat)
    (node : PlanNode) (id : Identity) : Orderly (plan.update sources written index node id) := by
  refine orderly_bind (orderly_get? _ _) fun found => ?_
  split
  · exact orderly_refuse _
  · exact orderly_bind (orderly_foldlM (fun _ saved => orderly_bind
      (saved.1.orderly_generate _ _ _) fun _ => orderly_pure _) _ _) fun _ =>
        orderly_bind (orderly_setReferences _ _ _ _ _ _) fun _ => orderly_replace _ _ _

theorem orderly_writeNode (sources : Sources) (plan : Plan) (written : Written) (index : Nat) :
    Orderly (plan.writeNode sources written index) := by
  refine orderly_bind orderly_checkpoint fun _ => ?_
  split
  · exact orderly_breach _
  · split
    · exact orderly_bind (orderly_create _ _ _ _ _) fun _ => orderly_pure _
    · exact orderly_bind (orderly_update _ _ _ _ _ _) fun _ => orderly_pure _

theorem orderly_attach (written : Written) (link : Link NodeRef) :
    Orderly (attach written link) := by
  refine orderly_bind orderly_checkpoint fun _ => ?_
  refine orderly_bind (orderly_identityOf _ _) fun holder => ?_
  refine orderly_bind (orderly_get? _ _) fun found => ?_
  split
  · exact orderly_refuse _
  · refine orderly_bind (orderly_linkValue _ _) fun value => ?_
    split
    · exact orderly_replace _ _ _
    · exact orderly_bind (orderly_checkUnique _ _ _ _) fun _ => orderly_replace _ _ _

theorem orderly_apply (sources : Sources) (plan : Plan) (order : List Nat) :
    Orderly (plan.apply sources order) := by
  refine orderly_bind (orderly_foldlM (plan.orderly_writeNode sources) _ _) fun written => ?_
  refine orderly_bind (orderly_forM (orderly_attach written) _) fun _ => ?_
  split
  · refine orderly_bind (orderly_get? _ _) fun found => ?_
    split
    · exact orderly_pure _
    · exact orderly_breach _
  · exact orderly_breach _

end Plan

/-- What an input asks for is orderly work. -/
theorem Prepared.orderly_run (schema : Schema) (sources : Sources) (model : Model)
    (prepared : Prepared) : Orderly (prepared.run schema sources model) := by
  cases prepared with
  | write plan order =>
      exact Writing.orderly_bind (plan.orderly_apply sources order) fun _ =>
        Writing.orderly_pure _
  | delete id =>
      exact Writing.orderly_bind (Deletion.orderly_delete schema model.name id) fun _ =>
        Writing.orderly_pure _

theorem Engine.orderly_atIndex {α : Type} {index : Nat} {work : Writing α}
    (hwork : Orderly work) : Orderly (atIndex index work) where
  ok h := by
    unfold atIndex at h
    split at h
    · rename_i a between hrun
      obtain ⟨-, rfl⟩ := EStateM.Result.ok.inj h
      exact hwork.ok hrun
    · cases h
  error h := by
    unfold atIndex at h
    split at h
    · cases h
    · rename_i failure between hrun
      obtain ⟨rfl, -⟩ := EStateM.Result.error.inj h
      have htold := hwork.error hrun
      cases failure with
      | refused violations =>
          intro hnil
          exact htold (List.map_eq_nil_iff.mp hnil)
      | storage fault => exact htold
      | breach broken => exact htold

end ModelSurface
