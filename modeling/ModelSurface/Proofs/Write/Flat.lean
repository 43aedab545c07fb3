import ModelSurface.Proofs.Json.Proper
import ModelSurface.Proofs.Write.Honouring
import ModelSurface.Proofs.Write.Plannable

/-!
# Plans that create nothing

The plan of an update that creates nothing has the record to update and no other one. Its links set
references of that record to stored records or to null, and references of stored records to that
record, and no two of them want different things of one single reference.
-/

namespace ModelSurface

/-- The record that a reference leads to in a plan whose only record has an identity. -/
def NodeRef.identity (id : Identity) : NodeRef → Identity
  | .node _ => id
  | .stored other => other

/-- The record on which a link is set. -/
def Link.holderAt (id : Identity) (link : Link NodeRef) : Identity := link.holder.identity id

/-- What a link sets its relationship to, or adds to it. -/
def Link.valueAt (id : Identity) (link : Link NodeRef) : Value :=
  match link.value with
  | none => .null
  | some target => (target.identity id).toValue

namespace Plan

/-- A plan that updates one record and creates none. -/
structure Flat (plan : Plan) (node : PlanNode) (id : Identity) : Prop where
  nodes : plan.nodes = [node]
  action : node.action = .update id
  distinct : node.values.keys.Nodup
  links : ∀ link ∈ plan.links,
    (link.holder = .node 0 ∧
      ∀ target, link.value = some target → ∃ other, target = .stored other) ∨
    (∃ other, link.holder = .stored other) ∧ link.value = some (.node 0)
  agree : ∀ link ∈ plan.heldLinks 0, ∀ other ∈ plan.heldLinks 0, other.field = link.field →
    other.value = link.value

variable {plan : Plan} {node : PlanNode} {id : Identity} {written : Written} {tables : Tables}

namespace Flat

theorem node_zero (h : plan.Flat node id) : plan.nodes[0]? = some node := by
  rw [h.nodes]
  rfl

theorem node_mem (h : plan.Flat node id) : node ∈ plan.nodes :=
  List.mem_of_getElem? h.node_zero

/-- The only record refers to no planned record. -/
theorem references (h : plan.Flat node id) : plan.references 0 = [] := by
  unfold Plan.references
  refine List.filterMap_eq_nil_iff.mpr fun link hlink => ?_
  split
  · rename_i hheld
    obtain ⟨-, hholder⟩ := Bool.and_eq_true_iff.mp hheld
    rcases h.links link hlink with ⟨-, hvalue⟩ | ⟨⟨other, hstored⟩, -⟩
    · cases htarget : link.value with
      | none => rfl
      | some target =>
          obtain ⟨other, rfl⟩ := hvalue target htarget
          rfl
    · rw [hstored] at hholder
      cases hholder
  · rfl

/-- A late link that sets a single reference sets it to the record that is updated. -/
theorem late_single (h : plan.Flat node id) {link : Link NodeRef} (hlink : link ∈ plan.lateLinks)
    (hsingle : link.many = false) :
    (∃ other, link.holder = .stored other) ∧ link.valueAt id = id.toValue := by
  obtain ⟨hmem, hlate⟩ := mem_lateLinks.mp hlink
  rcases h.links link hmem with ⟨hholder, -⟩ | ⟨hholder, hvalue⟩
  · rcases hlate with hmany | ⟨other, hstored⟩
    · rw [hsingle] at hmany
      cases hmany
    · rw [hholder] at hstored
      cases hstored
  · refine ⟨hholder, ?_⟩
    unfold Link.valueAt
    rw [hvalue]
    rfl

end Flat

/-! ### What names stand for -/

theorem Names.identity_eq (hwritten : ∀ index other, written.lookup index = some other → other = id)
    {ref : NodeRef} {other : Identity} (h : Names written ref other) :
    other = ref.identity id := by
  rcases h with rfl | ⟨index, rfl, hfound⟩
  · rfl
  · exact hwritten index other hfound

/-- Behind the update, all that the links name is known. -/
theorem Flat.names (h : plan.Flat node id) {link : Link NodeRef} (hlink : link ∈ plan.links) :
    Names [(0, id)] link.holder (link.holderAt id) ∧
      ∀ target, link.value = some target → Names [(0, id)] target (target.identity id) := by
  have hroot : Names [(0, id)] (.node 0) id := .inr ⟨0, rfl, rfl⟩
  unfold Link.holderAt
  rcases h.links link hlink with ⟨hholder, hvalue⟩ | ⟨⟨other, hholder⟩, hvalue⟩
  · rw [hholder]
    refine ⟨hroot, fun target htarget => ?_⟩
    obtain ⟨other, rfl⟩ := hvalue target htarget
    exact .inl rfl
  · rw [hholder]
    refine ⟨.inl rfl, fun target htarget => ?_⟩
    rw [← Option.some.inj (hvalue.symm.trans htarget)]
    exact hroot

/-- The references that the updated record is given lead to stored records. -/
theorem Flat.names_of_held (h : plan.Flat node id) {link : Link NodeRef}
    (hlink : link ∈ plan.heldLinks 0) (written : Written) {target : NodeRef}
    (htarget : link.value = some target) : Names written target (target.identity id) := by
  obtain ⟨hmem, -, hheld⟩ := mem_heldLinks.mp hlink
  rcases h.links link hmem with ⟨-, hvalue⟩ | ⟨⟨other, hholder⟩, -⟩
  · obtain ⟨other, rfl⟩ := hvalue target htarget
    exact .inl rfl
  · rw [hheld] at hholder
    cases hholder

theorem linkedTo_valueAt {link : Link NodeRef}
    (hnames : ∀ target, link.value = some target → Names written target (target.identity id))
    (htargets : ∀ other, link.value = some (.stored other) →
      (tables.get? link.valueModel.name other).isSome) :
    LinkedTo written tables link (link.valueAt id) := by
  unfold Link.valueAt
  cases hvalue : link.value with
  | none => exact .nothing hvalue
  | some target =>
      refine .record hvalue (hnames target hvalue) fun other htarget => ?_
      rw [htarget] at hvalue ⊢
      exact htargets other hvalue

theorem LinkedTo.valueAt_eq
    (hwritten : ∀ index other, written.lookup index = some other → other = id)
    {link : Link NodeRef} {value : Value} (h : LinkedTo written tables link value) :
    value = link.valueAt id := by
  unfold Link.valueAt
  cases h with
  | nothing hnone => rw [hnone]
  | record hvalue hnames _ => rw [hvalue, hnames.identity_eq hwritten]

end Plan

/-! ### The plans of inputs -/

section Inputs

variable {schema : Schema} {model target : Model} {input : Json} {draft : PlanDraft}
  {relationship : Relationship} {root : InputObject} {item : Json} {place : ℕ}
  {other : Option DraftRef} {found : Option NodeRef}

/-- The input of an update that creates nothing is one object. -/
theorem Schema.inputObjects_of_update (hidentified : model.Identifies .update input)
    (hnone : ∀ object ∈ schema.inputObjects model .update input, object.action ≠ .create) :
    ∃ root, schema.inputObjects model .update input = [root] ∧ input = .obj root.members ∧
      root.model = model ∧ ∃ id, root.action = .update id := by
  obtain ⟨members, rfl, hnamed⟩ := hidentified
  unfold inputObjects at hnone ⊢
  dsimp only at hnone ⊢
  rcases PlanDraft.readAction_cases model .update members with
    ⟨action, haction, -, hcreate⟩ | ⟨-, hnot⟩
  · rw [haction] at hnone ⊢
    dsimp only at hnone ⊢
    have hnested : schema.objects model (schema.input .update model) none members = [] :=
      List.eq_nil_iff_forall_not_mem.mpr fun object hobject =>
        hnone object (List.mem_cons_of_mem _ hobject) (nested_objects _ _ _ _ object hobject).1
    rw [hnested]
    refine ⟨_, rfl, rfl, rfl, ?_⟩
    cases action with
    | create => exact absurd rfl (hcreate.mp rfl)
    | update id => exact ⟨id, rfl⟩
  · exact absurd ⟨members, rfl, hnamed⟩ hnot

/-- What an item names in an input that creates nothing: null, or a stored record. -/
theorem PlanDraft.Mirrors.found_of_names
    (h : draft.Mirrors schema (schema.inputObjects model .update input))
    (hroot : schema.inputObjects model .update input = [root]) (hupdate : root.action ≠ .create)
    (hgives : root.Gives schema relationship target item)
    (hnames : ItemNames target relationship place item other)
    (hfinds : PlanDraft.Finds (schema.inputObjects model .update input) other found) :
    (found = none ∧ item.isNull = true) ∨
      ∃ id, found = some (.stored id) ∧ Identity.ofJson target.identity.kind item = .ok id := by
  have hmem : root ∈ schema.inputObjects model .update input := by
    rw [hroot]
    exact List.mem_singleton.mpr rfl
  cases hnames with
  | label =>
      -- only an object to create carries a label
      obtain ⟨index, object, -, hobject, hlabel, -⟩ := h.carries (hgives.target_mem h.sound) hfinds
      have hsame := List.mem_of_getElem? hobject
      rw [hroot] at hsame
      obtain rfl := List.mem_singleton.mp hsame
      unfold InputObject.label? at hlabel
      split at hlabel
      · rename_i text hfound
        exact absurd ((h.wellFormed object hmem).label _ hfound).1 hupdate
      · cases hlabel
  | object hnew =>
      have hinner := hgives.inner_mem h.sound (h.proper root hmem) hnew hmem
      rw [hroot] at hinner
      exact absurd (congrArg InputObject.action (List.mem_singleton.mp hinner)).symm hupdate
  | nothing hnull =>
      cases hfinds
      exact .inl ⟨rfl, hnull⟩
  | identity hid =>
      cases hfinds
      exact .inr ⟨_, rfl, hid⟩

/-- Where a link of a plan comes from whose input creates nothing. -/
theorem PlanDraft.Mirrors.source_of_resolved
    (h : draft.Mirrors schema (schema.inputObjects model .update input))
    (hroot : schema.inputObjects model .update input = [root]) (hupdate : root.action ≠ .create)
    {link : Link NodeRef} (hlink : link ∈ draft.resolvedLinks) :
    ∃ relationship target item found, root.Gives schema relationship target item ∧
      link.Joins (.node 0) root.model target relationship found ∧
      ((found = none ∧ item.isNull = true) ∨ ∃ id, found = some (.stored id) ∧
        Identity.ofJson target.identity.kind item = .ok id) := by
  obtain ⟨drafted, hdrafted, hresolve⟩ := mem_resolvedLinks.mp hlink
  obtain @⟨index, place, giver, relationship, target, item, other, hgiver, hgives, hnames, -,
    hjoins⟩ := h.stems.links drafted hdrafted
  obtain ⟨found, hfinds, hfound⟩ := joins_of_resolved h.adds hresolve hjoins
  rw [hroot] at hgiver
  obtain ⟨rfl, rfl⟩ : index = 0 ∧ root = giver := by
    cases index with
    | zero => exact ⟨rfl, Option.some.inj hgiver⟩
    | succ index => cases hgiver
  exact ⟨relationship, target, item, found, hgives, hfound,
    h.found_of_names hroot hupdate hgives hnames hfinds⟩

theorem InputObject.Gives.held (h : root.Gives schema relationship target item)
    (hschema : schema.Sound) (hproper : root.Proper schema) :
    relationship ∈ root.model.relationships.values := by
  obtain ⟨name, json, items, -, hrelationship, -⟩ := h
  exact ((hschema.model _ hproper.model).relationship?_eq_some.mp hrelationship).1

/-- Items that an object gives to one single relationship are the same. -/
theorem InputObject.Gives.item_eq {item' : Json} {target' : Model}
    (h : root.Gives schema relationship target item)
    (h' : root.Gives schema relationship target' item') (hschema : schema.Sound)
    (hproper : root.Proper schema) (hmembers : (root.members.map (·.1)).Nodup)
    (hsingle : relationship.isMany = false) : target' = target ∧ item' = item := by
  obtain ⟨json, items, hmember, hitems, hitem, htarget, -⟩ := h.read hschema hproper
  obtain ⟨json', items', hmember', hitems', hitem', htarget', -⟩ := h'.read hschema hproper
  obtain rfl := Option.some.inj (htarget.symm.trans htarget')
  have hjson := Keyed.lookup_of_mem hmembers hmember
  rw [Keyed.lookup_of_mem hmembers hmember'] at hjson
  obtain rfl := Option.some.inj hjson
  obtain rfl := Option.some.inj (hitems.symm.trans hitems')
  unfold Relationship.items? at hitems
  rw [hsingle, if_neg Bool.false_ne_true] at hitems
  obtain rfl := Option.some.inj hitems
  rw [List.mem_singleton.mp hitem, List.mem_singleton.mp hitem']
  exact ⟨rfl, rfl⟩

theorem Identity.isNull_of_ofJson {kind : Kind} {json : Json} {id : Identity}
    (h : Identity.ofJson kind json = .ok id) : json.isNull = false := by
  unfold ofJson at h
  split at h
  · cases h
  · rename_i hnull
    exact Bool.eq_false_iff.mpr hnull

/-- A link that the record to update holds sets what the object gives for its relationship. -/
theorem PlanDraft.Mirrors.source_of_held
    (h : draft.Mirrors schema (schema.inputObjects model .update input))
    (hroot : schema.inputObjects model .update input = [root]) (hupdate : root.action ≠ .create)
    {link : Link NodeRef} (hlink : link ∈ draft.resolvedLinks) (hholder : link.holder = .node 0) :
    ∃ relationship target item, root.Gives schema relationship target item ∧
      relationship.name = link.field ∧ relationship.isMany = link.many ∧
      ((link.value = none ∧ item.isNull = true) ∨ ∃ id, link.value = some (.stored id) ∧
        Identity.ofJson target.identity.kind item = .ok id) := by
  obtain ⟨relationship, target, item, found, hgives, hjoins, hfound⟩ :=
    h.source_of_resolved hroot hupdate hlink
  unfold Link.Joins at hjoins
  cases hownership : relationship.ownership with
  | own =>
      rw [hownership] at hjoins
      obtain ⟨-, -, hfield, hvalue, -, hmany⟩ := hjoins
      rw [← hvalue] at hfound
      exact ⟨relationship, target, item, hgives, hfield.symm, hmany.symm, hfound⟩
  | remote field =>
      rw [hownership] at hjoins
      rcases hfound with ⟨rfl, -⟩ | ⟨other, rfl, -⟩
      · cases hjoins.1
      · rw [hholder] at hjoins
        cases hjoins.1

/-- A link is between the updated record and a stored one, or sets a reference of the updated
record to null. -/
theorem PlanDraft.Mirrors.link_of_resolved
    (h : draft.Mirrors schema (schema.inputObjects model .update input))
    (hroot : schema.inputObjects model .update input = [root]) (hupdate : root.action ≠ .create)
    {link : Link NodeRef} (hlink : link ∈ draft.resolvedLinks) :
    (link.holder = .node 0 ∧
      ∀ target, link.value = some target → ∃ other, target = .stored other) ∨
    (∃ other, link.holder = .stored other) ∧ link.value = some (.node 0) := by
  obtain ⟨relationship, target, item, found, -, hjoins, hfound⟩ :=
    h.source_of_resolved hroot hupdate hlink
  unfold Link.Joins at hjoins
  cases hownership : relationship.ownership with
  | own =>
      rw [hownership] at hjoins
      obtain ⟨hholder, -, -, hvalue, -⟩ := hjoins
      refine .inl ⟨hholder, fun named hnamed => ?_⟩
      rcases hfound with ⟨rfl, -⟩ | ⟨other, rfl, -⟩
      · rw [hvalue] at hnamed
        cases hnamed
      · exact ⟨other, Option.some.inj (hnamed.symm.trans hvalue)⟩
  | remote field =>
      rw [hownership] at hjoins
      obtain ⟨hholder, -, -, hvalue, -⟩ := hjoins
      rcases hfound with ⟨rfl, -⟩ | ⟨other, rfl, -⟩
      · cases hholder
      · exact .inr ⟨⟨other, Option.some.inj hholder⟩, hvalue⟩

/-- Links that set one single reference of the updated record set it to the same. -/
theorem PlanDraft.Mirrors.value_eq_of_held (hschema : schema.Sound)
    (h : draft.Mirrors schema (schema.inputObjects model .update input))
    (hroot : schema.inputObjects model .update input = [root]) (hupdate : root.action ≠ .create)
    (hmembers : (root.members.map (·.1)).Nodup) {link other : Link NodeRef}
    (hlink : link ∈ draft.resolvedLinks) (hholder : link.holder = .node 0)
    (hsingle : link.many = false) (hother : other ∈ draft.resolvedLinks)
    (hother_holder : other.holder = .node 0) (hfield : other.field = link.field) :
    other.value = link.value := by
  have hproper := h.proper root (by rw [hroot]; exact List.mem_singleton.mpr rfl)
  obtain ⟨relationship, target, item, hgives, hname, hmany, hvalue⟩ :=
    h.source_of_held hroot hupdate hlink hholder
  obtain ⟨relationship', target', item', hgives', hname', -, hvalue'⟩ :=
    h.source_of_held hroot hupdate hother hother_holder
  obtain rfl : relationship' = relationship :=
    (hschema.model _ hproper.model).relationship_ext (hgives.held hschema hproper)
      (hgives'.held hschema hproper) (hname'.trans (hfield.trans hname.symm))
  obtain ⟨rfl, rfl⟩ := hgives.item_eq hgives' hschema hproper hmembers (hmany.trans hsingle)
  rcases hvalue with ⟨hnone, hnull⟩ | ⟨id, hsome, hid⟩
  · rcases hvalue' with ⟨hnone', -⟩ | ⟨id', -, hid'⟩
    · rw [hnone, hnone']
    · rw [Identity.isNull_of_ofJson hid'] at hnull
      cases hnull
  · rcases hvalue' with ⟨-, hnull⟩ | ⟨id', hsome', hid'⟩
    · rw [Identity.isNull_of_ofJson hid] at hnull
      cases hnull
    · rw [hsome, hsome', Except.ok.inj (hid.symm.trans hid')]

/-- The plan of an update that creates nothing. -/
theorem Plan.flat_of_ofInput (hschema : schema.Sound) (hmodel : model ∈ schema.models)
    (hproper : input.isProper)
    (hnone : ∀ object ∈ schema.inputObjects model .update input, object.action ≠ .create)
    {plan : Plan} (h : Plan.ofInput schema model .update input = .ok plan) :
    ∃ node id, node.model = model ∧ plan.Flat node id := by
  have hconforms := Plan.conforms_of_ofInput hschema hmodel (by decide) h
  have hmirrors := hconforms.mirrors hschema hmodel (by decide)
  obtain ⟨root, hroot, rfl, hroot_model, id, haction⟩ :=
    Schema.inputObjects_of_update hconforms.identified hnone
  have hupdate : root.action ≠ .create := by
    rw [haction]
    exact nofun
  have hmembers : (root.members.map (·.1)).Nodup :=
    (Json.isProper_obj.mp hproper).1.imp fun hlt => ne_of_lt hlt
  have hreads := Plan.ofInput_reads h
  obtain ⟨node, hnode, hplans⟩ := hreads.node (show _[0]? = some root by rw [hroot]; rfl)
  have hlength : plan.nodes.length = 1 := by rw [hreads.length, hroot]; rfl
  obtain ⟨rfl, -, -, -⟩ := PlanDraft.finish_ok h
  refine ⟨node, id, hplans.model.trans hroot_model, ?nodes, hplans.action.trans haction, ?distinct,
    fun link hlink => hmirrors.link_of_resolved hroot hupdate hlink, ?agree⟩
  case nodes =>
    obtain ⟨only, honly⟩ := List.length_eq_one_iff.mp hlength
    rw [honly] at hnode ⊢
    rw [Option.some.inj hnode]
  case distinct =>
    rw [hplans.values]
    exact Keyed.nodup_keys_ofList _
  case agree =>
    intro link hlink other hother hfield
    obtain ⟨hmem, hsingle, hholder⟩ := mem_heldLinks.mp hlink
    obtain ⟨hother_mem, -, hother_holder⟩ := mem_heldLinks.mp hother
    exact hmirrors.value_eq_of_held hschema hroot hupdate hmembers hmem hholder hsingle hother_mem
      hother_holder hfield

end Inputs

end ModelSurface
