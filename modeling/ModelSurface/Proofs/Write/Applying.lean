import ModelSurface.Proofs.Linked
import ModelSurface.Proofs.Write.Finishing
import ModelSurface.Proofs.Write.Steps

/-!
# Plans carried out

A sound plan that is carried out keeps the tables intact. Each record that it writes is linked when
it is stored, to records that are stored already; links that are set later lead from stored records
to stored ones.
-/

namespace ModelSurface.Plan

variable {schema : Schema} {sources : Sources} {plan : Plan} {written : Written} {start stop : Work}

theorem Sound.models (hplan : plan.Sound schema) (hschema : schema.Sound) :
    ∀ node ∈ plan.nodes, node.model.Sound :=
  fun node hnode => hschema.model _ (hplan.nodes node hnode).model

/-- The records that have been written are stored. -/
def Stored (plan : Plan) (written : Written) (tables : Tables) : Prop :=
  ∀ entry ∈ written, ∀ node, plan.nodes[entry.1]? = some node →
    (tables.get? node.model.name entry.2).isSome

theorem Stored.mono {tables tables' : Tables} (h : plan.Stored written tables)
    (hretains : tables.Retains tables') : plan.Stored written tables' := by
  intro entry hentry node hnode
  exact hretains _ _ (h entry hentry node hnode)

theorem Stored.cons {tables : Tables} (h : plan.Stored written tables) {index : Nat}
    {id : Identity} {node : PlanNode} (hnode : plan.nodes[index]? = some node)
    (hstored : (tables.get? node.model.name id).isSome) :
    plan.Stored ((index, id) :: written) tables := by
  intro entry hentry other hother
  rcases List.mem_cons.mp hentry with rfl | hbefore
  · rw [hnode] at hother
    rw [← Option.some.inj hother]
    exact hstored
  · exact h entry hbefore other hother

theorem Stored.lookup {tables : Tables} (h : plan.Stored written tables) {index : Nat}
    {id : Identity} (hid : written.lookup index = some id) {node : PlanNode}
    (hnode : plan.nodes[index]? = some node) : (tables.get? node.model.name id).isSome := by
  obtain ⟨before, behind, heq, -⟩ := List.lookup_eq_some_iff.mp hid
  have hmem : (index, id) ∈ written := by simp [heq]
  exact h _ hmem node hnode

/-! ### Values of links -/

/-- A link is set to null, or to a record that is stored. -/
theorem stored_of_linkedTo {tables : Tables} (hstored : plan.Stored written tables)
    {link : Link NodeRef} (hlink : link.Sound schema (NodeRef.LeadsTo plan.nodes)) {value : Value}
    (hvalue : LinkedTo written tables link value) :
    (link.value = none ∧ value = .null) ∨ ∃ id : Identity, value = id.toValue ∧
      (tables.get? link.valueModel.name id).isSome := by
  cases hvalue with
  | nothing h => exact .inl ⟨h, rfl⟩
  | @record target id htarget hnames hexists =>
      refine .inr ⟨id, rfl, ?_⟩
      rcases hnames with rfl | ⟨index, rfl, hfound⟩
      · exact hexists id rfl
      · obtain ⟨node, hnode, hname⟩ := hlink.value _ htarget
        rw [← hname]
        exact hstored.lookup hfound hnode

/-- The value of a link that sets a single reference may be held under its relationship. -/
theorem holdsIn_of_linkedTo {tables : Tables} (hstored : plan.Stored written tables)
    {link : Link NodeRef} (hlink : link.Sound schema (NodeRef.LeadsTo plan.nodes))
    (hsingle : link.many = false) {value : Value} (hvalue : LinkedTo written tables link value) :
    ∃ relationship ∈ link.holderModel.relationships.values, relationship.name = link.field ∧
      relationship.HoldsIn tables (some value) := by
  obtain ⟨relationship, hmem, hname, -, htarget, hmany, hnull⟩ := hlink.held
  refine ⟨relationship, hmem, hname, ?_⟩
  rw [hsingle] at hmany
  rcases stored_of_linkedTo hstored hlink hvalue with ⟨hnone, rfl⟩ | ⟨id, rfl, hid⟩
  · exact .null hmany (hnull hnone).2
  · rw [← htarget] at hid
    exact .single hmany hid

/-! ### Single references -/

/-- The links that a planned record holds set relationships of its model. -/
theorem holderModel_eq (hschema : schema.Sound) (hplan : plan.Sound schema) {index : Nat}
    {node : PlanNode} (hnode : plan.nodes[index]? = some node) {link : Link NodeRef}
    (hlink : link ∈ plan.links) (hholder : link.holder = .node index) :
    link.holderModel = node.model := by
  have hsound := hplan.links link hlink
  have hleads := hsound.holder
  rw [hholder] at hleads
  obtain ⟨found, hfound, hname⟩ := hleads
  rw [hnode] at hfound
  obtain rfl := Option.some.inj hfound
  exact hschema.model_ext (hplan.nodes node (List.mem_of_getElem? hnode)).model hsound.model
    hname.symm

theorem mem_heldLinks {index : Nat} {link : Link NodeRef} : link ∈ plan.heldLinks index ↔
    link ∈ plan.links ∧ link.many = false ∧ link.holder = .node index := by
  unfold heldLinks
  rw [List.mem_filter, Bool.and_eq_true, Bool.not_eq_true', beq_iff_eq]

/-- A link that a planned record holds sets a single relationship of its model. -/
theorem held_of_heldLinks (hschema : schema.Sound) (hplan : plan.Sound schema) {index : Nat}
    {node : PlanNode} (hnode : plan.nodes[index]? = some node) {link : Link NodeRef}
    (hlink : link ∈ plan.heldLinks index) :
    link.holderModel = node.model ∧ ∃ relationship ∈ node.model.relationships.values,
      relationship.name = link.field ∧ relationship.isOwn ∧ relationship.isMany = false := by
  obtain ⟨hmem, hsingle, hholder⟩ := mem_heldLinks.mp hlink
  have hmodel := holderModel_eq hschema hplan hnode hmem hholder
  obtain ⟨relationship, hrelationship, hname, hown, -, hmany, -⟩ := (hplan.links link hmem).held
  rw [hmodel] at hrelationship
  exact ⟨hmodel, relationship, hrelationship, hname, hown, hmany.trans hsingle⟩

/-- What a name stands for in a record that has been assigned its references: what stood there
before, or the value of a link that the record holds. -/
theorem get?_of_assigned {may : Link NodeRef → Value → Prop} {links : List (Link NodeRef)}
    {before after : Record} (h : Assigned may links before after) (name : String) :
    ((∀ link ∈ links, link.field ≠ name) ∧ after.get? name = before.get? name) ∨
      ∃ link ∈ links, link.field = name ∧ ∃ value, after.get? name = some value ∧
        may link value := by
  by_cases hset : ∃ link ∈ links, link.field = name
  · obtain ⟨link, hlink, rfl⟩ := hset
    obtain ⟨last, hlast, hfield, value, hvalue, hmay⟩ := h.set link hlink
    exact .inr ⟨last, hlast, hfield, value, hvalue, hmay⟩
  · have hnone : ∀ link ∈ links, link.field ≠ name :=
      fun link hlink hfield => hset ⟨link, hlink, hfield⟩
    exact .inl ⟨hnone, h.others name hnone⟩

/-- A record is linked once its references are set, if all its other references were linked
before. -/
theorem linked_of_assigned (hschema : schema.Sound) (hplan : plan.Sound schema) {index : Nat}
    {node : PlanNode} (hnode : plan.nodes[index]? = some node) {tables : Tables}
    (hstored : plan.Stored written tables) {id : Identity} {before after : Record}
    (h : Assigned (Fitting written node.model id tables) (plan.heldLinks index) before after)
    (hbefore : ∀ relationship ∈ node.model.relationships.values, relationship.isOwn →
      (∀ link ∈ plan.heldLinks index, link.field ≠ relationship.name) →
        relationship.HoldsIn tables (before.get? relationship.name)) :
    after.Linked node.model tables := by
  have hmodel := hschema.model _ (hplan.nodes node (List.mem_of_getElem? hnode)).model
  intro relationship hmem hown
  rcases get?_of_assigned h relationship.name with ⟨hunset, heq⟩ |
    ⟨link, hlink, hfield, value, hvalue, hfitting⟩
  · rw [heq]
    exact hbefore relationship hmem hown hunset
  · obtain ⟨hplanned, hsingle, hholder⟩ := mem_heldLinks.mp hlink
    obtain ⟨other, hother, hname, hholds⟩ := holdsIn_of_linkedTo hstored
      (hplan.links link hplanned) hsingle hfitting.linked
    rw [holderModel_eq hschema hplan hnode hplanned hholder] at hother
    obtain rfl := hmodel.relationship_ext hmem hother (hname.trans hfield)
    rw [hvalue]
    exact hholds

/-- References change no field. -/
theorem field_of_assigned (hschema : schema.Sound) (hplan : plan.Sound schema) {index : Nat}
    {node : PlanNode} (hnode : plan.nodes[index]? = some node)
    {may : Link NodeRef → Value → Prop} {before after : Record}
    (h : Assigned may (plan.heldLinks index) before after) {name : String}
    (hname : name ∈ node.model.fields.keys) : after.get? name = before.get? name := by
  apply h.others
  intro link hlink hfield
  obtain ⟨-, relationship, hmem, hsame, -⟩ := held_of_heldLinks hschema hplan hnode hlink
  have hmodel := hschema.model _ (hplan.nodes node (List.mem_of_getElem? hnode)).model
  apply hmodel.not_mem_fields hmem
  rw [hsame, hfield]
  exact hname

/-! ### Values that are put into records -/

/-- A record keeps the fields that are not among those that are put into it. -/
theorem get?_foldl_put {entries : List (String × Value)} {record : Record} {name : String}
    (h : name ∉ entries.map (·.1)) :
    (entries.foldl (fun record entry => record.put entry.1 entry.2) record).get? name =
      record.get? name := by
  induction entries generalizing record with
  | nil => rfl
  | cons first rest ih =>
      obtain ⟨hne, hrest⟩ := List.ne_and_not_mem_of_not_mem_cons h
      rw [List.foldl_cons, ih hrest, Keyed.get?_put_of_ne _ _ hne]

/-- Of several values that are put under one name, one has its way. -/
theorem get?_foldl_put_mem {entries : List (String × Value)} {record : Record} {name : String}
    (h : name ∈ entries.map (·.1)) : ∃ value, (name, value) ∈ entries ∧
      (entries.foldl (fun record entry => record.put entry.1 entry.2) record).get? name =
        some value := by
  induction entries generalizing record with
  | nil => cases h
  | cons first rest ih =>
      rw [List.foldl_cons]
      by_cases hbehind : name ∈ rest.map (·.1)
      · obtain ⟨value, hmem, hvalue⟩ := ih hbehind
        exact ⟨value, List.mem_cons_of_mem _ hmem, hvalue⟩
      · rcases List.mem_cons.mp h with rfl | hrest
        · exact ⟨first.2, List.mem_cons_self, by rw [get?_foldl_put hbehind, Keyed.get?_put_self]⟩
        · exact absurd hrest hbehind

theorem get?_foldl_put_of_mem {entries : List (String × Value)} {record : Record} {name : String}
    {value : Value} (hdistinct : (entries.map (·.1)).Nodup) (h : (name, value) ∈ entries) :
    (entries.foldl (fun record entry => record.put entry.1 entry.2) record).get? name =
      some value := by
  obtain ⟨found, hfound, hget⟩ :=
    @get?_foldl_put_mem entries record name (List.mem_map.mpr ⟨(name, value), h, rfl⟩)
  rw [hget]
  have hlookup := Keyed.lookup_of_mem hdistinct hfound
  rwa [Keyed.lookup_of_mem hdistinct h, eq_comm] at hlookup

theorem keys_emptyReferences (model : Model) : (emptyReferences model).map (·.1) =
    (model.relationships.values.filter (·.isOwn)).map Relationship.name := by
  unfold emptyReferences
  rw [List.map_map]
  rfl

/-- A relationship of a new record is an empty set of links, or null. -/
theorem get?_withReferences {model : Model} (hmodel : model.Sound) {relationship : Relationship}
    (hmem : relationship ∈ model.relationships.values) (hown : relationship.isOwn)
    (record : Record) : (withReferences model record).get? relationship.name =
      some (if relationship.isMany then .list [] else .null) := by
  apply get?_foldl_put_of_mem
  · rw [keys_emptyReferences]
    exact hmodel.relationships.nodup_names.sublist (List.filter_sublist.map _)
  · exact List.mem_map.mpr ⟨relationship, List.mem_filter.mpr ⟨hmem, hown⟩, rfl⟩

theorem field_withReferences {model : Model} (hmodel : model.Sound) (record : Record)
    {name : String} (hname : name ∈ model.fields.keys) :
    (withReferences model record).get? name = record.get? name := by
  apply get?_foldl_put
  rw [keys_emptyReferences]
  intro hmem
  obtain ⟨relationship, hrelationship, rfl⟩ := List.mem_map.mp hmem
  exact hmodel.not_mem_fields (List.mem_filter.mp hrelationship).1 hname

theorem mem_plain_of_onSave {model : Model} (hmodel : model.Sound) {entry : Field × Generator}
    (h : entry ∈ onSave model) : entry.1 ∈ model.plain.values := by
  obtain ⟨hfield, hsave⟩ := mem_onSave.mp h
  rcases List.mem_cons.mp hfield with heq | hplain
  · obtain ⟨generator, hidentity⟩ := hmodel.identity.computed
    rw [heq, hidentity] at hsave
    cases hsave
  · exact hplain

/-! ### Records that are written -/

/-- What a step of a plan does for the field of a new record. -/
theorem Created.field (hschema : schema.Sound) (hplan : plan.Sound schema) {index : Nat}
    {node : PlanNode} (hnode : plan.nodes[index]? = some node) {id : Identity}
    {filled record : Record} {between : Work}
    (h : Created sources plan written index node start stop id filled record between)
    {name : String} (hname : name ∈ node.model.fields.keys) :
    record.get? name = filled.get? name := by
  have hmodel := hschema.model _ (hplan.nodes node (List.mem_of_getElem? hnode)).model
  rw [field_of_assigned hschema hplan hnode h.assigned hname,
    field_withReferences hmodel filled hname]

theorem Created.identity? (hschema : schema.Sound) (hplan : plan.Sound schema) {index : Nat}
    {node : PlanNode} (hnode : plan.nodes[index]? = some node) {id : Identity}
    {filled record : Record} {between : Work}
    (h : Created sources plan written index node start stop id filled record between) :
    Record.identity? record node.model.identity.name = some id := by
  have hidentity := h.identity
  unfold Record.identity? at hidentity ⊢
  rw [h.field hschema hplan hnode List.mem_cons_self]
  exact hidentity

/-- The references of a new record: those that no link sets are empty, and may be. -/
theorem Created.linked (hschema : schema.Sound) (hplan : plan.Sound schema) {index : Nat}
    {node : PlanNode} (hnode : plan.nodes[index]? = some node) (hcreate : node.action = .create)
    {id : Identity} {filled record : Record} {between : Work}
    (h : Created sources plan written index node start stop id filled record between)
    (hstored : plan.Stored written between.tables) : record.Linked node.model between.tables := by
  have hmodel := hschema.model _ (hplan.nodes node (List.mem_of_getElem? hnode)).model
  apply linked_of_assigned hschema hplan hnode hstored h.assigned
  intro relationship hmem hown hunset
  rw [get?_withReferences hmodel hmem hown]
  by_cases hmany : relationship.isMany = true
  · have hempty : ∀ id ∈ ([] : List Identity),
        (between.tables.get? relationship.target id).isSome := fun _ h => absurd h List.not_mem_nil
    have hholds := Relationship.HoldsIn.many hmany hempty
    rw [if_pos hmany]
    exact hholds
  · have hsingle : relationship.isMany = false := Bool.eq_false_iff.mpr hmany
    rw [if_neg hmany]
    apply Relationship.HoldsIn.null hsingle
    by_contra hnull
    -- a reference that must not be null is set by one of the links
    have hheld : relationship.isForeignKey = true := by
      rw [Relationship.isForeignKey, hown, hsingle]
      rfl
    obtain ⟨link, hlink, hholder, hfield, -⟩ := hplan.complete index node hnode hcreate relationship
      hmem hheld (Bool.eq_false_iff.mpr hnull)
    obtain ⟨other, hother, hname, -, -, hother_many, -⟩ := (hplan.links link hlink).held
    rw [holderModel_eq hschema hplan hnode hlink hholder] at hother
    obtain rfl := hmodel.relationship_ext hmem hother (hname.trans hfield)
    refine hunset link (mem_heldLinks.mpr ⟨hlink, ?_, hholder⟩) hfield
    rw [← hother_many, hsingle]

/-- An update sets plain fields, and the relationships of its links. -/
theorem Updated.others (hschema : schema.Sound) (hplan : plan.Sound schema) {index : Nat}
    {node : PlanNode} (hnode : plan.nodes[index]? = some node) {id : Identity}
    {old refreshed record : Record} {between : Work}
    (h : Updated sources plan written index node start stop id old refreshed record between)
    {name : String} (hplain : name ∉ node.model.plain.keys) :
    refreshed.get? name = old.get? name := by
  have hsound := hplan.nodes node (List.mem_of_getElem? hnode)
  have hmodel := hschema.model _ hsound.model
  rw [h.refreshes.others]
  · apply get?_foldl_put
    intro hvalue
    obtain ⟨⟨_, value⟩, hentry, rfl⟩ := List.mem_map.mp hvalue
    obtain ⟨plain, hmem, hname, -⟩ := hsound.values _ value hentry
    exact hplain (hmodel.plain.mem_keys.mpr ⟨plain, hmem, hname⟩)
  · intro hsaved
    obtain ⟨entry, hentry, rfl⟩ := List.mem_map.mp hsaved
    exact hplain (hmodel.plain.mem_keys.mpr ⟨_, mem_plain_of_onSave hmodel hentry, rfl⟩)

theorem Updated.identity? (hschema : schema.Sound) (hplan : plan.Sound schema) {index : Nat}
    {node : PlanNode} (hnode : plan.nodes[index]? = some node) {id : Identity}
    {old refreshed record : Record} {between : Work}
    (h : Updated sources plan written index node start stop id old refreshed record between)
    (hidentified : start.tables.Identified schema) :
    Record.identity? record node.model.identity.name = some id := by
  have hsound := hplan.nodes node (List.mem_of_getElem? hnode)
  have hmodel := hschema.model _ hsound.model
  have hold := hidentified _ hsound.model id old h.found
  unfold Record.identity? at hold ⊢
  rw [field_of_assigned hschema hplan hnode h.assigned List.mem_cons_self,
    h.others hschema hplan hnode fun hplain => (hmodel.plain_apart hplain).1 rfl]
  exact hold

theorem Updated.linked (hschema : schema.Sound) (hplan : plan.Sound schema) {index : Nat}
    {node : PlanNode} (hnode : plan.nodes[index]? = some node) {id : Identity}
    {old refreshed record : Record} {between : Work}
    (h : Updated sources plan written index node start stop id old refreshed record between)
    (hlinked : start.tables.Linked schema) (hstored : plan.Stored written between.tables) :
    record.Linked node.model between.tables := by
  have hsound := hplan.nodes node (List.mem_of_getElem? hnode)
  have hmodel := hschema.model _ hsound.model
  apply linked_of_assigned hschema hplan hnode hstored h.assigned
  intro relationship hmem hown _
  rw [h.others hschema hplan hnode fun hplain => (hmodel.plain_apart hplain).2 _ hmem rfl]
  exact (hlinked _ hsound.model id old h.found relationship hmem hown).mono
    h.refreshes.draws.records.retains

/-! ### Between two steps -/

/-- Between two steps of a plan, the tables are intact and hold the records that have been
written. -/
structure Carried (schema : Schema) (plan : Plan) (written : Written) (tables : Tables) : Prop where
  intact : tables.Intact schema
  stored : plan.Stored written tables

theorem Carried.put (h : Carried schema plan written start.tables) (hschema : schema.Sound)
    {model : Model} (hmodel : model ∈ schema.models) {between : Work}
    (hsame : start.tables.SameRecords between.tables) {id : Identity} {record : Record}
    (hidentity : Record.identity? record model.identity.name = some id)
    (hrecord : record.Linked model between.tables) :
    Carried schema plan written (between.tables.put model.name id record) where
  intact := (h.intact.sameRecords hsame).put hschema hmodel hidentity hrecord
  stored := h.stored.mono (hsame.retains.trans (Tables.retains_put _ _ _ _))

theorem Carried.wrote (h : Carried schema plan written start.tables) (hschema : schema.Sound)
    (hplan : plan.Sound schema) {index : Nat} {written' : Written}
    (hwrote : Wrote sources plan index written start stop written') :
    Carried schema plan written' stop.tables := by
  cases hwrote with
  | @created node id filled record between hnode haction hcreated =>
      have hmodel := (hplan.nodes node (List.mem_of_getElem? hnode)).model
      have hsame := hcreated.fills.draws.records
      have hput := h.put hschema hmodel hsame (hcreated.identity? hschema hplan hnode)
        (hcreated.linked hschema hplan hnode haction (h.stored.mono hsame.retains))
      rw [hcreated.stop_eq]
      refine ⟨hput.intact, hput.stored.cons hnode ?_⟩
      simp
  | @updated node id old refreshed record between hnode haction hupdated =>
      have hmodel := (hplan.nodes node (List.mem_of_getElem? hnode)).model
      have hsame := hupdated.refreshes.draws.records
      have hput := h.put hschema hmodel hsame
        (hupdated.identity? hschema hplan hnode h.intact.identified)
        (hupdated.linked hschema hplan hnode h.intact.linked (h.stored.mono hsame.retains))
      rw [hupdated.stop_eq]
      refine ⟨hput.intact, hput.stored.cons hnode ?_⟩
      simp

/-- A link that is put into a stored record under the relationship that it sets. -/
theorem Carried.putLink (h : Carried schema plan written start.tables) (hschema : schema.Sound)
    {link : Link NodeRef} (hlink : link.Sound schema (NodeRef.LeadsTo plan.nodes)) {id : Identity}
    {record : Record} (hrecord : start.tables.get? link.holderModel.name id = some record)
    {value : Value} (hvalue : ∀ relationship ∈ link.holderModel.relationships.values,
      relationship.name = link.field → relationship.HoldsIn start.tables (some value)) :
    Carried schema plan written
      (start.tables.put link.holderModel.name id (record.put link.field value)) := by
  have hmodel := hschema.model _ hlink.model
  obtain ⟨held, hheld, hheld_name, -⟩ := hlink.held
  refine h.put hschema hlink.model (fun _ _ => rfl) ?_ ?_
  · have hidentity := h.intact.identified _ hlink.model id record hrecord
    unfold Record.identity? at hidentity ⊢
    rw [Keyed.get?_put_of_ne]
    · exact hidentity
    · rintro hname
      apply hmodel.not_mem_fields hheld
      rw [hheld_name, ← hname]
      exact List.mem_cons_self
  · intro relationship hmem hown
    rw [Keyed.get?_put]
    split
    · rename_i hname
      exact hvalue relationship hmem hname
    · exact h.intact.linked _ hlink.model id record hrecord relationship hmem hown

theorem holdsIn_linkSet {relationship : Relationship} (hmany : relationship.isMany = true)
    {tables : Tables} {record : Record}
    (hrecord : relationship.HoldsIn tables (record.get? relationship.name)) {id : Identity}
    (hid : (tables.get? relationship.target id).isSome) :
    relationship.HoldsIn tables (some (.list
      (if id.toValue.isNull || (linkSet record relationship.name).any id.toValue.same then
        linkSet record relationship.name
      else linkSet record relationship.name ++ [id.toValue]))) := by
  rcases hrecord.cases with ⟨-, ids, hvalue, hids⟩ | ⟨hsingle, -⟩ | ⟨hsingle, -⟩
  · have hset : linkSet record relationship.name = ids.map Identity.toValue := by
      unfold linkSet
      rw [hvalue]
    rw [hset]
    split
    · exact .many hmany hids
    · have hall : ∀ other ∈ ids ++ [id], (tables.get? relationship.target other).isSome := by
        intro other hother
        rcases List.mem_append.mp hother with hold | hnew
        · exact hids other hold
        · rw [List.mem_singleton.mp hnew]
          exact hid
      have hholds := Relationship.HoldsIn.many hmany hall
      rwa [List.map_append] at hholds
  · rw [hmany] at hsingle
    cases hsingle
  · rw [hmany] at hsingle
    cases hsingle

theorem Carried.attached (h : Carried schema plan written start.tables) (hschema : schema.Sound)
    {link : Link NodeRef} (hlink : link.Sound schema (NodeRef.LeadsTo plan.nodes))
    {holder : Identity} {old : Record} {value : Value}
    (hattached : Attached written link start stop holder old value) :
    Carried schema plan written stop.tables := by
  have hmodel := hschema.model _ hlink.model
  rcases hattached.stop_eq with ⟨hmany, rfl⟩ | ⟨hsingle, -, rfl⟩
  · refine h.putLink hschema hlink hattached.found ?_
    intro relationship hmem hname
    obtain ⟨held, hheld, hheld_name, hown, htarget, hheld_many, hnull⟩ := hlink.held
    obtain rfl := hmodel.relationship_ext hmem hheld (hheld_name.trans hname.symm)
    rw [hmany] at hheld_many
    rcases stored_of_linkedTo h.stored hlink hattached.linked with ⟨hnone, -⟩ | ⟨id, rfl, hid⟩
    · rw [(hnull hnone).1] at hheld_many
      cases hheld_many
    · rw [← htarget] at hid
      have hrecord := h.intact.linked _ hlink.model holder old hattached.found _ hmem hown
      have hholds := holdsIn_linkSet hheld_many hrecord hid
      rwa [hname] at hholds
  · refine h.putLink hschema hlink hattached.found ?_
    intro relationship hmem hname
    obtain ⟨held, hheld, hheld_name, hholds⟩ :=
      holdsIn_of_linkedTo h.stored hlink hsingle hattached.linked
    obtain rfl := hmodel.relationship_ext hmem hheld (hheld_name.trans hname.symm)
    exact hholds

theorem Carried.outset (hintact : start.tables.Intact schema) :
    Carried schema plan [] start.tables :=
  ⟨hintact, fun _ hmem => absurd hmem List.not_mem_nil⟩

/-- A sound plan that is carried out keeps the tables intact. -/
theorem intact_of_apply (hschema : schema.Sound) (hplan : plan.Sound schema)
    (hintact : start.tables.Intact schema) {order : List Nat} {record : Record}
    (hrun : plan.apply sources order start = .ok record stop) : stop.tables.Intact schema := by
  obtain ⟨written, hcarried, -⟩ :=
    (apply_yields (hplan.models hschema)
      (fun _ written stop => Carried schema plan written stop.tables) (.outset hintact)
      (fun _ _ _ _ _ _ h hwrote => h.wrote hschema hplan hwrote)
      fun link hlink _ _ _ _ _ _ h hattached =>
        h.attached hschema (hplan.links link hlink) hattached).ok hrun
  exact hcarried.intact

end ModelSurface.Plan
