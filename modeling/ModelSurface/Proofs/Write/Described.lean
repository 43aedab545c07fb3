import ModelSurface.Proofs.Described
import ModelSurface.Proofs.Write.Applying

/-!
# What plans write

Records that a plan creates start with a value for each of their fields, and whatever a plan changes
in a record may stand there.
-/

namespace ModelSurface

theorem Field.Generates.isOf {sources : Sources} {model : String} {field : Field}
    {before after : Work} {generator : Generator} {value : Value}
    (h : field.Generates sources model before after generator value) :
    value.isOf field.kind = true := by
  cases h with
  | instant hkind | time hkind | date hkind | uuid hkind | text hkind | number hkind =>
      rw [hkind]
      rfl

/-- What a generator gives may stand in the field it is for. -/
theorem Field.Typed.admits_generated {field : Field} (h : field.Typed) {computed : Computed}
    (hcomputed : field.computed = some computed) {value : Value}
    (hkind : value.isOf field.kind = true) : field.Admits value where
  fits := by
    rw [(h.computed computed hcomputed).1]
    exact Value.fits_of_isOf hkind
  null hnull := by
    rw [Value.isNull_of_isOf hkind] at hnull
    cases hnull

namespace Plan

variable {schema : Schema} {sources : Sources} {plan : Plan} {written : Written} {start stop : Work}

/-- The value with which a field of a new record starts may stand in it. -/
theorem admits_of_starts (hschema : schema.Sound) (hplan : plan.Sound schema) {node : PlanNode}
    (hnode : node ∈ plan.nodes) (hcreate : node.action = .create) {field : Field}
    (hfield : field ∈ node.model.fields.values) {before after : Work} {value : Value}
    (h : field.Starts sources node before after value) : field.Admits value := by
  have hnode_sound := hplan.nodes node hnode
  have hmodel := hschema.model _ hnode_sound.model
  have htyped := hmodel.typed field hfield
  unfold Field.Starts at h
  cases hcomputed : field.computed with
  | some computed =>
      rw [hcomputed] at h
      exact htyped.admits_generated hcomputed h.2.isOf
  | none =>
      rw [hcomputed] at h
      dsimp only at h
      rw [h]
      have hplain := hmodel.plain_of_given hfield hcomputed
      cases hgiven : node.values.get? field.name with
      | some given =>
          obtain ⟨other, hother, hname, -, hadmits⟩ :=
            hnode_sound.values field.name given (Keyed.mem_entries_of_get? hgiven)
          rwa [hmodel.field_ext hfield (List.mem_cons_of_mem _ hother) hname] at hadmits
      | none =>
          cases hdefault : field.default with
          | some default => exact htyped.default default hdefault
          | none =>
              refine ⟨Value.fits_null _ _, fun _ => ?_⟩
              by_contra hnull
              -- a field that has to be given is given
              have hrequired : field.isOptional = false := by
                unfold Field.isOptional
                rw [Bool.eq_false_iff.mpr hnull, hdefault]
                rfl
              have hkey := hplan.filled node hnode hcreate field hplain hcomputed hrequired
              rw [← Keyed.isSome_get?_iff, hgiven] at hkey
              cases hkey

theorem keys_withReferences {model : Model} (hmodel : model.Sound) {record : Record}
    (hkeys : record.keys = model.fields.keys) :
    (withReferences model record).keys = model.members := by
  have hnodup := hmodel.nodup_members
  unfold Model.members at hnodup ⊢
  rw [← keys_emptyReferences, ← hkeys] at hnodup ⊢
  exact Keyed.keys_foldl_put_of_new hnodup

/-- References that are set leave the names of a record as they are. -/
theorem keys_of_assigned (hschema : schema.Sound) (hplan : plan.Sound schema) {index : Nat}
    {node : PlanNode} (hnode : plan.nodes[index]? = some node)
    {may : Link NodeRef → Value → Prop} {before after : Record}
    (h : Assigned may (plan.heldLinks index) before after)
    (hkeys : before.keys = node.model.members) : after.keys = node.model.members := by
  rw [h.kept, hkeys]
  intro link hlink
  obtain ⟨-, relationship, hmem, hname, hown, -⟩ := held_of_heldLinks hschema hplan hnode hlink
  rw [hkeys, ← hname]
  exact Model.mem_members_of_own hmem hown

theorem Created.filled (hschema : schema.Sound) (hplan : plan.Sound schema) {index : Nat}
    {node : PlanNode} (hnode : plan.nodes[index]? = some node) (hcreate : node.action = .create)
    {id : Identity} {filled record : Record} {between : Work}
    (h : Created sources plan written index node start stop id filled record between) :
    record.Filled node.model := by
  have hmem := List.mem_of_getElem? hnode
  have hmodel := hschema.model _ (hplan.nodes node hmem).model
  constructor
  · apply keys_of_assigned hschema hplan hnode h.assigned
    apply keys_withReferences hmodel
    have hkeys : filled.keys = node.model.fields.values.map Field.name := by
      apply h.fills.added
      exact hmodel.fields_named.nodup_names
    rw [hkeys, hmodel.fields_named.map_name]
  · intro field hfield
    obtain ⟨value, before, after, hvalue, -, hrun, -⟩ := h.fills.values field hfield
    rw [h.field hschema hplan hnode (hmodel.mem_fields_keys hfield)]
    have hstarts := ((initialValue_yields sources node field).ok hrun).2
    exact ⟨value, hvalue, admits_of_starts hschema hplan hmem hcreate hfield hstarts⟩

/-- The values that a caller gives are put into a record. -/
theorem filled_of_given {node : PlanNode} (hnode : node.Sound schema) (hmodel : node.model.Sound)
    {record : Record} (h : record.Filled node.model) :
    Record.Filled node.model
      (node.values.entries.foldl (fun record entry => record.put entry.1 entry.2) record) := by
  have hentries := hnode.values
  generalize node.values.entries = entries at hentries
  induction entries generalizing record with
  | nil => exact h
  | cons first rest ih =>
      obtain ⟨plain, hplain, hname, -, hadmits⟩ := hentries first.1 first.2 List.mem_cons_self
      rw [List.foldl_cons]
      refine ih ?_ fun name value hmem => hentries name value (List.mem_cons_of_mem _ hmem)
      rw [← hname]
      exact h.putField hmodel (List.mem_cons_of_mem _ hplain) hadmits

theorem filled_of_refreshed {model : Model} (hmodel : model.Sound) {before after : Record}
    (h : Puts (onSave model) (fun entry => entry.1.name)
      (fun entry => entry.1.generate sources model.name entry.2) start before after stop)
    (hbefore : before.Filled model) : after.Filled model := by
  constructor
  · rw [h.kept, hbefore.keys]
    intro entry hentry
    rw [hbefore.keys]
    exact List.mem_append_left _ (hmodel.mem_fields_keys (mem_onSave.mp hentry).1)
  · intro field hfield
    by_cases hsaved : field.name ∈ (onSave model).map fun entry => entry.1.name
    · obtain ⟨entry, hentry, hname⟩ := List.mem_map.mp hsaved
      obtain ⟨hmem, hcomputed⟩ := mem_onSave.mp hentry
      obtain ⟨value, earlier, later, hvalue, -, hrun, -⟩ := h.values entry hentry
      obtain ⟨-, -, hgenerates⟩ := (entry.1.generate_yields sources model.name entry.2).ok hrun
      obtain rfl := hmodel.field_ext hfield hmem hname
      exact ⟨value, hvalue, (hmodel.typed _ hmem).admits_generated hcomputed hgenerates.isOf⟩
    · rw [h.others field.name hsaved]
      exact hbefore.fields field hfield

theorem Updated.filled (hschema : schema.Sound) (hplan : plan.Sound schema) {index : Nat}
    {node : PlanNode} (hnode : plan.nodes[index]? = some node) {id : Identity}
    {old refreshed record : Record} {between : Work}
    (h : Updated sources plan written index node start stop id old refreshed record between)
    (hfilled : start.tables.Filled schema) : record.Filled node.model := by
  have hsound := hplan.nodes node (List.mem_of_getElem? hnode)
  have hmodel := hschema.model _ hsound.model
  have hold := hfilled _ hsound.model id old h.found
  have hrefreshed := filled_of_refreshed hmodel h.refreshes (filled_of_given hsound hmodel hold)
  constructor
  · exact keys_of_assigned hschema hplan hnode h.assigned hrefreshed.keys
  · intro field hfield
    rw [field_of_assigned hschema hplan hnode h.assigned (hmodel.mem_fields_keys hfield)]
    exact hrefreshed.fields field hfield

theorem filled_of_wrote (hschema : schema.Sound) (hplan : plan.Sound schema) {index : Nat}
    {written' : Written} (hwrote : Wrote sources plan index written start stop written')
    (h : start.tables.Filled schema) : stop.tables.Filled schema := by
  cases hwrote with
  | @created node id filled record between hnode haction hcreated =>
      have hmodel := (hplan.nodes node (List.mem_of_getElem? hnode)).model
      rw [hcreated.stop_eq]
      exact (h.sameRecords hcreated.fills.draws.records).put hschema hmodel
        (hcreated.filled hschema hplan hnode haction)
  | @updated node id old refreshed record between hnode haction hupdated =>
      have hmodel := (hplan.nodes node (List.mem_of_getElem? hnode)).model
      rw [hupdated.stop_eq]
      exact (h.sameRecords hupdated.refreshes.draws.records).put hschema hmodel
        (hupdated.filled hschema hplan hnode h)

theorem filled_of_attached (hschema : schema.Sound) {link : Link NodeRef}
    (hlink : link.Sound schema (NodeRef.LeadsTo plan.nodes)) {holder : Identity} {old : Record}
    {value : Value} (hattached : Attached written link start stop holder old value)
    (h : start.tables.Filled schema) : stop.tables.Filled schema := by
  have hold := h _ hlink.model holder old hattached.found
  obtain ⟨relationship, hmem, hname, hown, -⟩ := hlink.held
  have hput : ∀ new : Value,
      (start.tables.put link.holderModel.name holder (old.put link.field new)).Filled schema := by
    intro new
    rw [← hname]
    exact h.put hschema hlink.model
      (hold.putReference (hschema.model _ hlink.model) hmem hown new)
  rcases hattached.stop_eq with ⟨-, rfl⟩ | ⟨-, -, rfl⟩
  · exact hput _
  · exact hput _

/-- A sound plan that is carried out leaves records as their models describe them. -/
theorem described_of_apply (hschema : schema.Sound) (hplan : plan.Sound schema)
    (hstart : start.tables.Described schema) {order : List Nat} {record : Record}
    (hrun : plan.apply sources order start = .ok record stop) :
    stop.tables.Described schema := by
  obtain ⟨written, hstop, -⟩ :=
    (apply_yields (hplan.models hschema) (fun _ _ stop => stop.tables.Filled schema) hstart.filled
      (fun _ _ _ _ _ _ h hwrote => filled_of_wrote hschema hplan hwrote h)
      fun link hlink _ _ _ _ _ _ h hattached =>
        filled_of_attached hschema (hplan.links link hlink) hattached h).ok hrun
  exact ⟨intact_of_apply hschema hplan hstart.intact hrun, hstop⟩

end Plan

end ModelSurface
