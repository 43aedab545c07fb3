import ModelSurface.Proofs.Engine.BulkPolicies
import ModelSurface.Proofs.Engine.Integrity
import ModelSurface.Proofs.Write.Connecting

/-!
# Links from either side

A link between two records can be set in an update of the one or of the other. The side that holds
it sets it while the record is saved, the other side afterwards and with checks of its own, but both
come to the same: each of the two updates is possible exactly when the records can be connected, and
then it connects them and does nothing else.
-/

namespace ModelSurface

/-- A relationship that a model holds, and the side of it that its target sees. -/
structure Schema.Sides (schema : Schema) (holder target : Model)
    (relationship inverse : Relationship) : Prop where
  holder_mem : holder ∈ schema.models
  target_mem : target ∈ schema.models
  held : relationship ∈ holder.relationships.values
  seen : inverse ∈ target.relationships.values
  ownership : inverse.ownership = .remote relationship.name
  back : inverse.target = holder.name

/-- What the two sides of a relationship have to do with each other. -/
theorem Schema.Sides.fit {schema : Schema} {holder target : Model}
    {relationship inverse : Relationship} (h : schema.Sides holder target relationship inverse)
    (hschema : schema.Sound) : schema.model? inverse.target = some holder ∧
      relationship.ownership = .own ∧ schema.model? relationship.target = some target ∧
      relationship.isMany = decide (inverse.cardinality = .manyToMany) := by
  have hholder : schema.model? inverse.target = some holder :=
    hschema.model?_eq_some.mpr ⟨h.holder_mem, h.back.symm⟩
  obtain ⟨held, hheld, hname, hown, htarget, hmany⟩ :=
    hschema.held_of_remote h.target_mem h.seen hholder h.ownership
  obtain rfl : relationship = held := by
    have hsound := hschema.model holder h.holder_mem
    have hsame := hsound.relationship?_eq_some.mpr ⟨h.held, rfl⟩
    rw [hsound.relationship?_eq_some.mpr ⟨hheld, hname⟩] at hsame
    exact (Option.some.inj hsame).symm
  exact ⟨hholder, Relationship.isOwn_iff.mp hown,
    hschema.model?_eq_some.mpr ⟨h.target_mem, htarget.symm⟩, hmany⟩

namespace Store

variable {store : Store} {options : CallOptions} {reaches : Tables → Prop}

/-- How a call ends that is to reach certain tables: it reaches them if there are any and nothing
from outside is in the way, and otherwise leaves the tables as they are. -/
structure Settles (store : Store) (options : CallOptions) (reaches : Tables → Prop) (ok : Bool)
    (tables : Tables) : Prop where
  ok_iff : ok = true ↔ (store.start options).Calm ∧ ∃ after, reaches after
  reached : ok = true → reaches tables
  kept : ok = false → tables = store.tables

/-- Calls that are to reach the same tables end in the same way. -/
theorem Settles.eq {ok ok' : Bool} {tables tables' : Tables}
    (h : store.Settles options reaches ok tables) (h' : store.Settles options reaches ok' tables')
    (hunique : ∀ after after', reaches after → reaches after' → after = after') :
    ok = ok' ∧ tables = tables' := by
  obtain rfl : ok = ok' := Bool.eq_iff_iff.mpr (h.ok_iff.trans h'.ok_iff.symm)
  refine ⟨rfl, ?_⟩
  cases ok with
  | true => exact hunique _ _ (h.reached rfl) (h'.reached rfl)
  | false => rw [h.kept rfl, h'.kept rfl]

/-! ### Transactions -/

variable {α : Type} {work : Writing α}

/-- Work that is published was calm. -/
theorem calm_of_transact (horderly : Orderly work) (hfailing : store.failing = [])
    (h : (store.transact options work).2.isOk = true) : (store.start options).Calm := by
  obtain ⟨violations, herror, -⟩ | ⟨a, stop, hwork, hwanted, htimely, -⟩ :=
    store.transact_ends options work
  · rw [herror] at h
    cases h
  · rw [horderly.ok hwork] at htimely
    exact ⟨htimely, hfailing, hwanted⟩

theorem transact_settles (horderly : Orderly work) (hfailing : store.failing = [])
    (hwork : work.Decides (store.start options) reaches) :
    store.Settles options reaches (store.transact options work).2.isOk
      (store.transact options work).1.tables := by
  have hreached : (store.transact options work).2.isOk = true →
      reaches (store.transact options work).1.tables := by
    intro h
    have hcalm := calm_of_transact horderly hfailing h
    obtain ⟨violations, herror, -⟩ | ⟨a, stop, hrun, htransact⟩ :=
      store.transact_cases options work
    · rw [herror] at h
      cases h
    · rw [htransact]
      exact (hwork.ok hcalm hrun).2
  refine ⟨⟨fun h => ⟨calm_of_transact horderly hfailing h, _, hreached h⟩, ?_⟩, hreached, ?_⟩
  · rintro ⟨hcalm, after, hafter⟩
    cases hrun : work (store.start options) with
    | ok a stop =>
        rw [transact_of_timely horderly hcalm.timely hcalm.wanted hrun]
        rfl
    | error failure stop => exact absurd hafter (hwork.error hcalm hrun after)
  · intro h
    cases hresult : (store.transact options work).2 with
    | ok a =>
        rw [hresult] at h
        cases h
    | error violations => exact tables_transact_of_error hresult

end Store

namespace Engine

variable {engine : Engine} {store : Store} {options : CallOptions} {reaches : Tables → Prop}

theorem isOk_ofChecked (result : Checked Json) :
    (MutationResult.ofChecked result).isOk = result.isOk := by
  cases result <;> rfl

/-- An update ends as its plan decides, if there is one. -/
theorem update_settles {name : String} {model : Model} {input : Json}
    (hmodel : engine.schema.model? name = some model) (hfailing : store.failing = [])
    (hplanned : ∀ plan, Plan.ofInput engine.schema model .update input = .ok plan →
      plan.order = .ok [0] ∧ (plan.apply engine.sources [0]).Decides (store.start options) reaches)
    (hrefused : ∀ violations, Plan.ofInput engine.schema model .update input = .error violations →
      ∀ after, ¬ reaches after) :
    store.Settles options reaches (engine.update store name input options).2.isOk
      (engine.update store name input options).1.tables := by
  unfold update runSingle
  dsimp only
  rw [isOk_ofChecked]
  cases hplan : Plan.ofInput engine.schema model .update input with
  | ok plan =>
      obtain ⟨horder, hdecides⟩ := hplanned plan hplan
      rw [runOne_of_plan? (by decide) (plan?_eq_some.mpr ⟨model, hmodel, hplan⟩) horder]
      exact Store.transact_settles
        (Writing.orderly_bind (plan.orderly_apply _ _) fun _ => Writing.orderly_pure _) hfailing
        (.bind _ hdecides fun _ _ h => .pure h)
  | error violations =>
      have hprepared : Prepared.ofInput engine.schema model .update input = .error violations := by
        unfold Prepared.ofInput Prepared.readWrite
        rw [if_neg (by decide), hplan]
        rfl
      rw [runOne_of_refused (findModel_of_model? hmodel) hprepared]
      refine ⟨⟨nofun, ?_⟩, nofun, fun _ => rfl⟩
      rintro ⟨-, after, hafter⟩
      exact absurd hafter (hrefused violations hplan after)

section Links

variable {holder target : Model} {relationship inverse : Relationship} {id other : Identity}

/-- What both updates are to reach: the tables in which the records are connected whose identities
are given. -/
def Links (holder target : Model) (relationship : Relationship) (id other : Identity)
    (before after : Tables) : Prop :=
  ∃ found linked, Identity.ofJson holder.identity.kind id.toJson = .ok found ∧
    Identity.ofJson target.identity.kind other.toJson = .ok linked ∧
    Plan.Connects holder target relationship.name relationship.isMany found linked before after

theorem links_iff {found linked : Identity}
    (hfound : Identity.ofJson holder.identity.kind id.toJson = .ok found)
    (hlinked : Identity.ofJson target.identity.kind other.toJson = .ok linked)
    {before after : Tables} : Links holder target relationship id other before after ↔
      Plan.Connects holder target relationship.name relationship.isMany found linked before
        after := by
  constructor
  · rintro ⟨found', linked', hfound', hlinked', h⟩
    obtain rfl := Except.ok.inj (hfound.symm.trans hfound')
    obtain rfl := Except.ok.inj (hlinked.symm.trans hlinked')
    exact h
  · exact fun h => ⟨found, linked, hfound, hlinked, h⟩

theorem Links.unique {before after after' : Tables}
    (h : Links holder target relationship id other before after)
    (h' : Links holder target relationship id other before after') : after = after' := by
  obtain ⟨found, linked, hfound, hlinked, hafter⟩ := h
  exact hafter.unique ((links_iff hfound hlinked).mp h')

section Sides

variable (hschema : engine.schema.Sound)
  (hsides : engine.schema.Sides holder target relationship inverse)
  (hfailing : store.failing = [])

include hschema hsides hfailing

/-- The update from the side that holds the link. -/
theorem update_own_settles (hsave : Plan.onSave holder = []) (options : CallOptions)
    (id other : Identity) :
    let result := engine.update store holder.name (linkInput holder relationship id other) options
    store.Settles options (Links holder target relationship id other store.tables) result.2.isOk
      result.1.tables := by
  obtain ⟨-, hown, htarget, -⟩ := hsides.fit hschema
  have hinput := PlanDraft.ofInput_linkInput hschema hsides.holder_mem hsides.held htarget id other
  refine update_settles (hschema.model?_eq_some.mpr ⟨hsides.holder_mem, rfl⟩) hfailing ?_ ?_
  · intro plan hplan
    obtain ⟨found, linked, hfound, hlinked, rfl⟩ := (hinput plan).mp hplan
    exact ⟨order_of_single rfl (Plan.references_ofLink ..),
      (Plan.apply_own hsave hown found linked).congr fun _ => (links_iff hfound hlinked).symm⟩
  · rintro violations hplan after ⟨found, linked, hfound, hlinked, -⟩
    rw [(hinput _).mpr ⟨found, linked, hfound, hlinked, rfl⟩] at hplan
    cases hplan

/-- The update from the side that sees the link. -/
theorem update_remote_settles (hsave : Plan.onSave target = []) (options : CallOptions)
    (id other : Identity) :
    let result := engine.update store target.name (linkInput target inverse other id) options
    store.Settles options (Links holder target relationship id other store.tables) result.2.isOk
      result.1.tables := by
  obtain ⟨hholder, -, -, hmany⟩ := hsides.fit hschema
  have hinput := PlanDraft.ofInput_linkInput hschema hsides.target_mem hsides.seen hholder other id
  refine update_settles (hschema.model?_eq_some.mpr ⟨hsides.target_mem, rfl⟩) hfailing ?_ ?_
  · intro plan hplan
    obtain ⟨linked, found, hlinked, hfound, rfl⟩ := (hinput plan).mp hplan
    refine ⟨order_of_single rfl (Plan.references_ofLink ..),
      (Plan.apply_remote hsave hsides.ownership linked found).congr fun _ => ?_⟩
    rw [← hmany]
    exact (links_iff hfound hlinked).symm
  · rintro violations hplan after ⟨found, linked, hfound, hlinked, -⟩
    rw [(hinput _).mpr ⟨linked, found, hlinked, hfound, rfl⟩] at hplan
    cases hplan

end Sides

/-- A link between two records can be set from either side. Whether it can be set, and what the
tables are then, is the same: the records are connected, unless they cannot be or something from
outside is in the way. -/
theorem link_from_either_side {registry : Registry} (hschema : registry.schema = .ok engine.schema)
    (hsides : engine.schema.Sides holder target relationship inverse)
    (hholder : Plan.onSave holder = []) (htarget : Plan.onSave target = [])
    (hfailing : store.failing = []) (options : CallOptions) (id other : Identity) :
    let near := engine.update store holder.name (linkInput holder relationship id other) options
    let far := engine.update store target.name (linkInput target inverse other id) options
    near.2.isOk = far.2.isOk ∧ near.1.tables = far.1.tables ∧
      store.Settles options (Links holder target relationship id other store.tables) near.2.isOk
        near.1.tables := by
  have hsound := Registry.sound_schema hschema
  have hnear := update_own_settles hsound hsides hfailing hholder options id other
  have hfar := update_remote_settles hsound hsides hfailing htarget options id other
  obtain ⟨hok, htables⟩ := hnear.eq hfar fun _ _ => Links.unique
  exact ⟨hok, htables, hnear⟩

end Links

/-! ### Nodes that are linked from either side -/

def nodeModel : Model := (chainSchema.model? "Node").getD default

def nextSide : Relationship := (nodeModel.relationship? "next").getD default

def nodesSide : Relationship := (nodeModel.relationship? "nodes").getD default

theorem relationship?_next : nodeModel.relationship? "next" = some nextSide :=
  eq_some_getD (by decide +kernel)

theorem sides_chainSchema : chainSchema.Sides nodeModel nodeModel nextSide nodesSide := by
  have hsound := Registry.sound_schema schema_chainRegistry
  have hmodel : chainSchema.model? "Node" = some nodeModel := eq_some_getD (by decide +kernel)
  obtain ⟨hmem, -⟩ := hsound.model?_eq_some.mp hmodel
  have hnode := hsound.model nodeModel hmem
  have hnodes : nodeModel.relationship? "nodes" = some nodesSide := eq_some_getD (by decide +kernel)
  refine ⟨hmem, hmem, (hnode.relationship?_eq_some.mp relationship?_next).1,
    (hnode.relationship?_eq_some.mp hnodes).1, ?_, ?_⟩
  · decide +kernel
  · decide +kernel

/-- A store with two nodes, neither of which refers to the other. -/
def looseStore : Store :=
  { tables := (({} : Tables).put "Node" (.int 1) (chainNode 1 .null)).put "Node" (.int 2)
      (chainNode 2 .null) }

theorem links_looseStore : Links nodeModel nodeModel nextSide (.int 1) (.int 2) looseStore.tables
    (looseStore.tables.put "Node" (.int 1) (chainNode 1 (.int 2))) := by
  have hname : nodeModel.name = "Node" := by decide +kernel
  have hkind : nodeModel.identity.kind = .integer := by decide +kernel
  have hnext : nextSide.name = "next" := by decide +kernel
  have hsingle : nextSide.isMany = false := by decide +kernel
  refine ⟨.int 1, .int 2, by rw [hkind]; rfl, by rw [hkind]; rfl, ?_⟩
  rw [hnext, hsingle]
  refine ⟨by rw [hname]; rfl, ?_, chainNode 1 .null, by rw [hname]; rfl, by rw [hname]; rfl⟩
  intro _ relationship hrelationship hone
  obtain rfl := Option.some.inj (relationship?_next.symm.trans hrelationship)
  exact absurd hone (by decide +kernel)

/-- The first node refers to the second one, whichever of them is updated. -/
theorem link_from_either_side_chain :
    let near := chainEngine.update looseStore nodeModel.name
      (linkInput nodeModel nextSide (.int 1) (.int 2))
    let far := chainEngine.update looseStore nodeModel.name
      (linkInput nodeModel nodesSide (.int 2) (.int 1))
    near.2.isOk = true ∧ far.2.isOk = true ∧ near.1.tables = far.1.tables ∧
      far.1.tables.get? "Node" (.int 1) = some (chainNode 1 (.int 2)) := by
  have hschema : chainRegistry.schema = .ok chainEngine.schema := schema_chainRegistry
  have hsides : chainEngine.schema.Sides nodeModel nodeModel nextSide nodesSide := sides_chainSchema
  have hsave : Plan.onSave nodeModel = [] := List.isEmpty_iff.mp (by decide +kernel)
  have hfailing : looseStore.failing = [] := rfl
  obtain ⟨hsame, htables, hnear⟩ :=
    link_from_either_side hschema hsides hsave hsave hfailing {} (.int 1) (.int 2)
  have hok := hnear.ok_iff.mpr ⟨⟨rfl, rfl, rfl⟩, _, links_looseStore⟩
  refine ⟨hok, hsame ▸ hok, htables, ?_⟩
  rw [← htables, (hnear.reached hok).unique links_looseStore]
  rfl

end Engine

end ModelSurface
