import ModelSurface.Proofs.Engine.Integrity

/-!
# Exclusive references

Whatever inputs callers give, and however often they link the same records, no two records hold the
same one-to-one reference, and no set of links holds a link twice.
-/

namespace ModelSurface

/-- What a record may hold under a relationship beside the other records of its model: a one-to-one
reference that no other record holds, or a set of links without repetitions. -/
structure Relationship.ExclusiveIn (relationship : Relationship) (tables : Tables) (model : String)
    (id : Identity) (value : Option Value) : Prop where
  single : relationship.cardinality = .oneToOne → ∀ other record,
    tables.get? model other = some record → ∀ target : Value, target.isNull = false →
    value = some target → record.get? relationship.name = some target → other = id
  many : relationship.cardinality = .manyToMany →
    ∃ items, value = some (.list items) ∧ items.Nodup

def Record.Exclusive (model : Model) (tables : Tables) (id : Identity) (record : Record) : Prop :=
  ∀ relationship ∈ model.relationships.values, relationship.isOwn →
    relationship.ExclusiveIn tables model.name id (record.get? relationship.name)

/-- No record of any model holds what another one holds alone, or a link twice. -/
def Tables.Exclusive (schema : Schema) (tables : Tables) : Prop :=
  ∀ model ∈ schema.models, ∀ id record, tables.get? model.name id = some record →
    record.Exclusive model tables id

/-- What holds of the tables between any two mutations. -/
structure Tables.WellLinked (schema : Schema) (tables : Tables) : Prop where
  intact : tables.Intact schema
  exclusive : tables.Exclusive schema

namespace Relationship.ExclusiveIn

variable {relationship : Relationship} {tables : Tables} {model : String} {id : Identity}

theorem null (hsingle : relationship.isMany = false) :
    relationship.ExclusiveIn tables model id (some .null) where
  single _ _ _ _ _ hnull hvalue _ := by
    rw [← Option.some.inj hvalue] at hnull
    cases hnull
  many hmany := by
    rw [isMany, hmany] at hsingle
    cases hsingle

theorem links (hmany : relationship.isMany = true) {items : List Value} (hitems : items.Nodup) :
    relationship.ExclusiveIn tables model id (some (.list items)) where
  single hone := by
    rw [isMany, hone] at hmany
    cases hmany
  many _ := ⟨items, rfl, hitems⟩

end Relationship.ExclusiveIn

namespace Tables

variable {schema : Schema} {tables : Tables} {model : Model} {id : Identity} {record : Record}

theorem wellLinked_empty : WellLinked schema {} where
  intact := intact_empty
  exclusive model _ id record h := by cases h

theorem Exclusive.sameRecords {after : Tables} (h : tables.Exclusive schema)
    (hsame : tables.SameRecords after) : after.Exclusive schema := by
  intro model hmodel id record hrecord relationship hmem hown
  rw [hsame] at hrecord
  have hold := h model hmodel id record hrecord relationship hmem hown
  refine ⟨?_, hold.many⟩
  intro hone other found hfound
  rw [hsame] at hfound
  exact hold.single hone other found hfound

/-- A record that is exclusive beside those that are stored may be put to them, or in the place of
the one with its identity. -/
theorem Exclusive.put (h : tables.Exclusive schema) (hschema : schema.Sound)
    (hmodel : model ∈ schema.models) (hrecord : record.Exclusive model tables id) :
    (tables.put model.name id record).Exclusive schema := by
  intro other hother id' new hnew relationship hmem hown
  rw [get?_put] at hnew
  by_cases hsame : other.name = model.name ∧ id' = id
  · obtain ⟨hname, rfl⟩ := hsame
    rw [if_pos ⟨hname, rfl⟩] at hnew
    obtain rfl := Option.some.inj hnew
    obtain rfl := hschema.model_ext hmodel hother hname
    have hnew_record := hrecord relationship hmem hown
    refine ⟨?_, hnew_record.many⟩
    intro hone holder found hfound
    rw [get?_put] at hfound
    split at hfound
    · rename_i hholder
      exact fun _ _ _ _ => hholder.2
    · exact hnew_record.single hone holder found hfound
  · rw [if_neg hsame] at hnew
    have hold := h other hother id' new hnew relationship hmem hown
    refine ⟨?_, hold.many⟩
    intro hone holder found hfound target hnull hvalue hheld
    rw [get?_put] at hfound
    split at hfound
    · -- what the new record holds alone is not held by one that was there before
      rename_i hholder
      obtain ⟨hname, rfl⟩ := hholder
      obtain rfl := Option.some.inj hfound
      obtain rfl := hschema.model_ext hmodel hother hname
      have hsingle := (hrecord relationship hmem hown).single hone
      exact (hsingle id' new hnew target hnull hheld hvalue).symm
    · exact hold.single hone holder found hfound target hnull hvalue hheld

end Tables

/-! ### Plans -/

namespace Plan

variable {schema : Schema} {sources : Sources} {plan : Plan} {written : Written} {start stop : Work}

/-- A reference that has been found vacant is exclusive. -/
theorem exclusiveIn_of_vacant {model : Model} (hmodel : model.Sound) {relationship : Relationship}
    (hmem : relationship ∈ model.relationships.values) (hsingle : relationship.isMany = false)
    {tables : Tables} (hidentified : ∀ id record, tables.get? model.name id = some record →
      Record.identity? record model.identity.name = some id)
    {link : Link NodeRef} {value : Value} (hvalue : LinkedTo written tables link value)
    {id : Identity} (hvacant : Vacant model relationship.name value id tables) :
    relationship.ExclusiveIn tables model.name id (some value) where
  single hone other record hrecord target hnull htarget hheld := by
    obtain rfl := Option.some.inj htarget
    have hfound := hmodel.relationship?_eq_some.mpr ⟨hmem, rfl⟩
    have hsame : (record.get? relationship.name).any value.same = true := by
      rw [hheld, Option.any_some]
      cases hvalue with
      | nothing => cases hnull
      | record => exact Identity.same_toValue.mpr rfl
    have hidentity := hvacant relationship hfound hone hnull record
      (Tables.mem_scan.mpr ⟨other, hrecord⟩) hsame
    rw [hidentified other record hrecord] at hidentity
    exact Option.some.inj hidentity
  many hmany := by
    rw [Relationship.isMany, hmany] at hsingle
    cases hsingle

/-- A record is exclusive once its references are set, if all its other references were exclusive
before. -/
theorem exclusive_of_assigned (hschema : schema.Sound) (hplan : plan.Sound schema) {index : Nat}
    {node : PlanNode} (hnode : plan.nodes[index]? = some node) {tables : Tables}
    (hidentified : tables.Identified schema) {id : Identity} {before after : Record}
    (h : Assigned (Fitting written node.model id tables) (plan.heldLinks index) before after)
    (hbefore : ∀ relationship ∈ node.model.relationships.values, relationship.isOwn →
      relationship.ExclusiveIn tables node.model.name id (before.get? relationship.name)) :
    after.Exclusive node.model tables id := by
  have hmem_model := (hplan.nodes node (List.mem_of_getElem? hnode)).model
  have hmodel := hschema.model _ hmem_model
  intro relationship hmem hown
  rcases get?_of_assigned h relationship.name with ⟨-, heq⟩ |
    ⟨link, hlink, hfield, value, hvalue, hfitting⟩
  · rw [heq]
    exact hbefore relationship hmem hown
  · obtain ⟨-, other, hother, hname, -, hsingle⟩ := held_of_heldLinks hschema hplan hnode hlink
    obtain rfl := hmodel.relationship_ext hmem hother (hname.trans hfield)
    have hvacant := hfitting.vacant
    rw [hfield] at hvacant
    rw [hvalue]
    exact exclusiveIn_of_vacant hmodel hmem hsingle (hidentified _ hmem_model) hfitting.linked
      hvacant

theorem Created.exclusive (hschema : schema.Sound) (hplan : plan.Sound schema) {index : Nat}
    {node : PlanNode} (hnode : plan.nodes[index]? = some node) {id : Identity}
    {filled record : Record} {between : Work}
    (h : Created sources plan written index node start stop id filled record between)
    (hidentified : between.tables.Identified schema) :
    record.Exclusive node.model between.tables id := by
  have hmodel := hschema.model _ (hplan.nodes node (List.mem_of_getElem? hnode)).model
  apply exclusive_of_assigned hschema hplan hnode hidentified h.assigned
  intro relationship hmem hown
  rw [get?_withReferences hmodel hmem hown]
  split
  · rename_i hmany
    exact .links hmany .nil
  · rename_i hsingle
    exact .null (Bool.eq_false_iff.mpr hsingle)

theorem Updated.exclusive (hschema : schema.Sound) (hplan : plan.Sound schema) {index : Nat}
    {node : PlanNode} (hnode : plan.nodes[index]? = some node) {id : Identity}
    {old refreshed record : Record} {between : Work}
    (h : Updated sources plan written index node start stop id old refreshed record between)
    (hidentified : between.tables.Identified schema)
    (hexclusive : between.tables.Exclusive schema) :
    record.Exclusive node.model between.tables id := by
  have hmem_model := (hplan.nodes node (List.mem_of_getElem? hnode)).model
  have hmodel := hschema.model _ hmem_model
  apply exclusive_of_assigned hschema hplan hnode hidentified h.assigned
  intro relationship hmem hown
  rw [h.others hschema hplan hnode fun hplain => (hmodel.plain_apart hplain).2 _ hmem rfl]
  refine hexclusive _ hmem_model id old ?_ relationship hmem hown
  rw [h.refreshes.draws.records]
  exact h.found

theorem exclusive_of_wrote (hschema : schema.Sound) (hplan : plan.Sound schema) {index : Nat}
    {written' : Written} (hwrote : Wrote sources plan index written start stop written')
    (hintact : start.tables.Intact schema) (hexclusive : start.tables.Exclusive schema) :
    stop.tables.Exclusive schema := by
  cases hwrote with
  | @created node id filled record between hnode haction hcreated =>
      have hmodel := (hplan.nodes node (List.mem_of_getElem? hnode)).model
      have hsame := hcreated.fills.draws.records
      rw [hcreated.stop_eq]
      exact (hexclusive.sameRecords hsame).put hschema hmodel
        (hcreated.exclusive hschema hplan hnode (hintact.sameRecords hsame).identified)
  | @updated node id old refreshed record between hnode haction hupdated =>
      have hmodel := (hplan.nodes node (List.mem_of_getElem? hnode)).model
      have hsame := hupdated.refreshes.draws.records
      rw [hupdated.stop_eq]
      exact (hexclusive.sameRecords hsame).put hschema hmodel (hupdated.exclusive hschema hplan
        hnode (hintact.sameRecords hsame).identified (hexclusive.sameRecords hsame))

/-- A link is added to a set of links only if it is not there yet. -/
theorem nodup_linkSet {record : Record} {field : String} {items : List Value}
    (hitems : record.get? field = some (.list items)) (hnodup : items.Nodup)
    {link : Link NodeRef} {tables : Tables} {value : Value}
    (hvalue : LinkedTo written tables link value) :
    (if value.isNull || (linkSet record field).any value.same then linkSet record field
      else linkSet record field ++ [value]).Nodup := by
  have hset : linkSet record field = items := by
    unfold linkSet
    rw [hitems]
  rw [hset]
  split
  · exact hnodup
  · rename_i hnew
    refine List.nodup_append.mpr ⟨hnodup, List.nodup_singleton value, ?_⟩
    rintro item hitem other hother rfl
    obtain rfl := List.mem_singleton.mp hother
    apply hnew
    cases hvalue with
    | nothing => rfl
    | record =>
        rw [List.any_eq_true.mpr ⟨_, hitem, Identity.same_toValue.mpr rfl⟩, Bool.or_true]

theorem exclusive_of_attached (hschema : schema.Sound) {link : Link NodeRef}
    (hlink : link.Sound schema (NodeRef.LeadsTo plan.nodes)) {holder : Identity} {old : Record}
    {value : Value} (hattached : Attached written link start stop holder old value)
    (hidentified : start.tables.Identified schema) (hexclusive : start.tables.Exclusive schema) :
    stop.tables.Exclusive schema := by
  have hmodel := hschema.model _ hlink.model
  have hold := hexclusive _ hlink.model holder old hattached.found
  obtain ⟨held, hheld, hheld_name, hown, -, hmany, -⟩ := hlink.held
  -- all that is new is the value under the relationship of the link
  have hput : ∀ new : Value,
      held.ExclusiveIn start.tables link.holderModel.name holder (some new) →
      (start.tables.put link.holderModel.name holder (old.put link.field new)).Exclusive
        schema := by
    intro new hnew
    refine hexclusive.put hschema hlink.model ?_
    intro relationship hmem hrelationship_own
    rw [Keyed.get?_put]
    split
    · rename_i hname
      obtain rfl := hmodel.relationship_ext hmem hheld (hheld_name.trans hname.symm)
      exact hnew
    · exact hold relationship hmem hrelationship_own
  rcases hattached.stop_eq with ⟨hset, rfl⟩ | ⟨hsingle, hvacant, rfl⟩
  · apply hput
    rw [hset] at hmany
    obtain ⟨-, hcardinality, -⟩ := hschema.own _ hlink.model held hheld hown
    have hmany_to_many : held.cardinality = .manyToMany := by
      unfold Relationship.isMany at hmany
      cases hkind : held.cardinality <;> simp_all [Cardinality.isMany]
    obtain ⟨items, hitems, hnodup⟩ := (hold held hheld hown).many hmany_to_many
    rw [hheld_name] at hitems
    exact .links hmany (nodup_linkSet hitems hnodup hattached.linked)
  · apply hput
    rw [hsingle] at hmany
    rw [← hheld_name] at hvacant
    exact exclusiveIn_of_vacant hmodel hheld hmany (hidentified _ hlink.model) hattached.linked
      hvacant

/-- A sound plan that is carried out keeps references exclusive. -/
theorem exclusive_of_apply (hschema : schema.Sound) (hplan : plan.Sound schema)
    (hstart : start.tables.WellLinked schema) {order : List Nat} {record : Record}
    (hrun : plan.apply sources order start = .ok record stop) : stop.tables.Exclusive schema := by
  obtain ⟨written, ⟨-, hstop⟩, -⟩ :=
    (apply_yields (hplan.models hschema)
      (fun _ written stop => Carried schema plan written stop.tables ∧
        stop.tables.Exclusive schema) ⟨.outset hstart.intact, hstart.exclusive⟩
      (fun _ _ _ _ _ _ h hwrote => ⟨h.1.wrote hschema hplan hwrote,
        exclusive_of_wrote hschema hplan hwrote h.1.intact h.2⟩)
      fun link hlink _ _ _ _ _ _ h hattached =>
        ⟨h.1.attached hschema (hplan.links link hlink) hattached,
          exclusive_of_attached hschema (hplan.links link hlink) hattached h.1.intact.identified
            h.2⟩).ok hrun
  exact hstop

end Plan

/-! ### Deletions -/

namespace Deletion

variable {schema : Schema} {before after : Tables} {root : RowKey} {gone : List RowKey}

theorem eq_of_remaining {relationship : Relationship}
    (hcardinality : relationship.cardinality = .oneToOne) {value target : Value}
    (hnull : target.isNull = false) (h : relationship.remaining gone value = target) :
    value = target := by
  have hheld : relationship.cardinality ≠ .oneToMany := by
    rw [hcardinality]
    decide
  rcases effectOf_cases hheld with ⟨-, hmany⟩ | ⟨hclear, -⟩ | hkept
  · rw [Relationship.isMany, hcardinality] at hmany
    cases hmany
  · rw [relationship.remaining_of_clear hclear] at h
    split at h
    · rw [← h] at hnull
      cases hnull
    · exact h
  · rwa [relationship.remaining_of_kept hkept] at h

theorem nodup_remaining (relationship : Relationship) {items : List Value} (h : items.Nodup)
    (hcardinality : relationship.cardinality = .manyToMany) :
    ∃ others, relationship.remaining gone (.list items) = .list others ∧ others.Nodup := by
  have hheld : relationship.cardinality ≠ .oneToMany := by
    rw [hcardinality]
    decide
  rcases effectOf_cases hheld with ⟨hunlink, -⟩ | ⟨-, hsingle, -⟩ | hkept
  · exact ⟨_, relationship.remaining_of_unlink hunlink items, h.filter _⟩
  · rw [Relationship.isMany, hcardinality] at hsingle
    cases hsingle
  · exact ⟨items, relationship.remaining_of_kept hkept, h⟩

/-- Deletions keep references exclusive: no record holds more than it held before. -/
theorem Outcome.exclusive (h : Outcome schema before root gone after) (hschema : schema.Sound)
    (hbefore : before.Exclusive schema) : after.Exclusive schema := by
  have hregular := hschema.regular
  intro model hmodel id new hnew relationship hmem hown
  have hremaining : schema.remaining gone model.name relationship.name =
      relationship.remaining gone :=
    funext (Schema.remaining_of_reference (hregular.reference?_own hmodel hmem hown))
  obtain ⟨-, old, hold, hcleared⟩ := h.of_after ⟨model.name, id⟩ hnew
  have hold_record := hbefore model hmodel id old hold relationship hmem hown
  constructor
  · intro hone other found hfound target hnull hvalue hheld
    obtain ⟨-, old', hold', hcleared'⟩ := h.of_after ⟨model.name, other⟩ hfound
    rw [hcleared.get?, hremaining] at hvalue
    rw [hcleared'.get?, hremaining] at hheld
    obtain ⟨value, hvalue, hleft⟩ := Option.map_eq_some_iff.mp hvalue
    obtain ⟨value', hheld, hleft'⟩ := Option.map_eq_some_iff.mp hheld
    rw [eq_of_remaining hone hnull hleft] at hvalue
    rw [eq_of_remaining hone hnull hleft'] at hheld
    exact hold_record.single hone other old' hold' target hnull hvalue hheld
  · intro hmany
    obtain ⟨items, hitems, hnodup⟩ := hold_record.many hmany
    obtain ⟨others, hothers, hnodup_others⟩ := nodup_remaining relationship hnodup hmany
    refine ⟨others, ?_, hnodup_others⟩
    rw [hcleared.get?, hitems, hremaining, Option.map_some, hothers]

end Deletion

/-! ### Stores -/

namespace Engine

variable {engine : Engine}

theorem keepsInputs_wellLinked (hschema : engine.schema.Sound) :
    engine.KeepsInputs (Tables.WellLinked engine.schema) := by
  refine keepsInputs_of hschema ?_ ?_
  · intro plan order start stop record hplan hrun h
    exact ⟨Plan.intact_of_apply hschema hplan h.intact hrun,
      Plan.exclusive_of_apply hschema hplan h hrun⟩
  · intro model id start stop record hrun h
    obtain ⟨-, gone, houtcome⟩ :=
      (Deletion.delete_ends hschema.regular model id h.intact.identified).ok hrun
    exact ⟨houtcome.intact hschema h.intact, houtcome.exclusive hschema h.exclusive⟩

/-- In every store that calls lead to, no two records of a model hold the same one-to-one reference,
and no set of links holds a link twice. -/
theorem links_exclusive {registry : Registry} {store : Store}
    (hschema : registry.schema = .ok engine.schema) (hhandlers : engine.handlers = [])
    (hstore : engine.Reachable store) : store.tables.Exclusive engine.schema := by
  have hinputs : engine.KeepsInputs (Tables.WellLinked engine.schema) :=
    keepsInputs_wellLinked (Registry.sound_schema hschema)
  have hmethods : engine.KeepsMethods (Tables.WellLinked engine.schema) :=
    keepsMethods_of_no_handlers hhandlers
  exact (hstore.tables_hold hinputs hmethods Tables.wellLinked_empty).exclusive

/-- Persons, each with one partner at most and any number of friends. -/
def circleRegistry : Registry where
  models := [{
    name := "Person"
    relations := [
      { name := "partner", target := "Person", kind := .oneToOne, nullable := true,
        onDelete := .setNull, relatedName := some "partner_of" },
      { name := "friends", target := "Person", kind := .manyToMany, onDelete := .cascade,
        relatedName := some "friend_of" }] }]

def circleSchema : Schema :=
  match circleRegistry.schema with
  | .ok schema => schema
  | .error _ => {}

theorem schema_circleRegistry : circleRegistry.schema = .ok circleSchema := by
  have hok : (match circleRegistry.schema with | .ok _ => true | .error _ => false) = true := by
    decide +kernel
  unfold circleSchema
  cases hschema : circleRegistry.schema with
  | ok schema => rfl
  | error conflict =>
      rw [hschema] at hok
      cases hok

def circleEngine : Engine := { chainEngine with schema := circleSchema }

/-- A person whose partner is a friend, and named as one twice. -/
def circleInput : Json :=
  .obj [("partner", .obj [("$id", .str "a")]),
    ("friends", .arr [.obj [("$ref", .str "a")], .obj [("$ref", .str "a")]])]

def circlePlan : Plan := (circleEngine.plan? "Person" .create circleInput).getD ⟨[], []⟩

theorem create_circleInput : circleEngine.runOne {} "Person" .create circleInput {} =
    Store.transact {} {}
      (do pure (Record.toJson (← circlePlan.apply circleEngine.sources [1, 0]))) := by
  have hplanned : (circleEngine.plan? "Person" .create circleInput).isSome = true := by
    decide +kernel
  have horder : circlePlan.order = .ok [1, 0] :=
    order_of_pair (by decide +kernel) (by decide +kernel) (by decide +kernel)
  exact runOne_of_plan? (by decide) (eq_some_getD hplanned) horder {} {}

/-- The friend that is named twice is held once. -/
theorem links_exclusive_circle :
    let store := (circleEngine.call {} {} (.create "Person" circleInput)).1
    (store.tables.get? "Person" (.int 2)).map (fun record =>
      (Plan.linkSet record "friends").length) = some 1 ∧
        store.tables.Exclusive circleSchema := by
  intro store
  have hreachable : circleEngine.Reachable store := .call {} _ (.empty [] 0)
  refine ⟨?_, links_exclusive schema_circleRegistry rfl hreachable⟩
  change ((circleEngine.runOne {} "Person" .create circleInput {}).1.tables.get? "Person"
    (.int 2)).map (fun record => (Plan.linkSet record "friends").length) = some 1
  rw [create_circleInput]
  decide +kernel

end Engine

end ModelSurface
