import ModelSurface.Proofs.Engine.Call
import ModelSurface.Proofs.Write.Building
import ModelSurface.Proofs.Write.Stemming

/-!
# Inputs that can be planned

Exactly the inputs that conform can be planned. What is wrong with single objects and with their
labels is known once the input has been read. Then references to labels are looked up: each of them
is the item of some object, and leads to the one object that carries the label. At last each
reference that must not be null, and that neither its own object nor the one around it gives, needs
a link, which can only come from the far side, by a reference to a label.
-/

namespace ModelSurface

variable {schema : Schema} {objects : List InputObject} {draft : PlanDraft} {model target : Model}
  {kind : InputKind} {input : Json} {relationship : Relationship} {object : InputObject}
  {index : ℕ} {label : String}

/-! ### Items -/

/-- Objects that carry labels that differ from each other are told apart by them. -/
theorem InputObject.index_eq_of_label?
    (hlabels : (objects.filterMap InputObject.label?).Nodup) {place : ℕ} {other : InputObject}
    (hobject : objects[index]? = some object) (hlabel : object.label? = some label)
    (hother : objects[place]? = some other) (hother_label : other.label? = some label) :
    index = place := by
  have hpairs := List.pairwise_iff_getElem.mp (List.pairwise_filterMap.mp hlabels)
  obtain ⟨hindex, rfl⟩ := List.getElem?_eq_some_iff.mp hobject
  obtain ⟨hplace, rfl⟩ := List.getElem?_eq_some_iff.mp hother
  by_contra hne
  rcases Nat.lt_or_gt_of_ne hne with hbefore | hbehind
  · exact hpairs index place hindex hplace hbefore label hlabel label hother_label rfl
  · exact hpairs place index hplace hindex hbehind label hother_label label hlabel rfl

theorem ItemNames.eq_labelled {place : ℕ} {other : Option DraftRef}
    (h : ItemNames target relationship place (.obj [(InputEntry.referenceKey, .str label)]) other) :
    other = some (.labelled label target.name) := by
  generalize hjson : Json.obj [(InputEntry.referenceKey, .str label)] = json at h
  cases h with
  | label h =>
      rw [← Json.obj.inj hjson, List.lookup_cons_self] at h
      rw [Json.str.inj (Option.some.inj h)]
  | object h =>
      rw [← Json.obj.inj hjson, List.lookup_cons_self] at h
      cases h
  | nothing hnull =>
      rw [← hjson] at hnull
      cases hnull
  | identity h => exact absurd (hjson ▸ h) (PlanDraft.not_identity_obj _ _ _)

namespace InputObject.Gives

variable {item : Json}

theorem isSome_lookup (h : object.Gives schema relationship target item) (hschema : schema.Sound)
    (hmodel : object.model ∈ schema.models) :
    (object.members.lookup relationship.name).isSome := by
  obtain ⟨name, json, items, hmember, hrelationship, -⟩ := h
  obtain ⟨-, rfl⟩ := (hschema.model _ hmodel).relationship?_eq_some.mp hrelationship
  have hkey : relationship.name ∈ Keyed.keys ⟨object.members⟩ :=
    List.mem_map.mpr ⟨(_, json), hmember, rfl⟩
  exact Keyed.isSome_get?_iff.mpr hkey

theorem target_mem (h : object.Gives schema relationship target item) (hschema : schema.Sound) :
    target ∈ schema.models := by
  obtain ⟨_, _, _, _, _, htarget, _⟩ := h
  exact (hschema.model?_eq_some.mp htarget).1

/-- A member that gives an item is read as the relationship that it gives the item to. -/
theorem read (h : object.Gives schema relationship target item) (hschema : schema.Sound)
    (hproper : object.Proper schema) : ∃ json items,
      (relationship.name, json) ∈ object.members ∧ relationship.items? json = some items ∧
      item ∈ items ∧ schema.model? relationship.target = some target ∧
      InputEntry.read object.model object.type object.linkedBy relationship.name json =
        .relation relationship := by
  obtain ⟨name, json, items, hmember, hrelationship, htarget, hitems, hitem⟩ := h
  obtain ⟨hmem, rfl⟩ := (hschema.model _ hproper.model).relationship?_eq_some.mp hrelationship
  obtain ⟨kind, hkind, htype⟩ := hproper.type
  refine ⟨json, items, hmember, hitems, hitem, htarget, ?_⟩
  have hreadable := hproper.readable _ json hmember
  rw [htype, InputEntry.read_relationship hschema hproper.model hkind hmem htarget] at hreadable ⊢
  split
  · rename_i henclosing
    exact absurd (if_pos henclosing) (hreadable _)
  · rename_i henclosing
    rw [if_neg henclosing] at hreadable
    split
    · rename_i hnull
      exact absurd (if_pos hnull) (hreadable _)
    · rfl

/-- A record is joined to what an item of its object names. -/
theorem joined (h : object.Gives schema relationship target item) (hschema : schema.Sound)
    (hproper : object.Proper schema) {joins : ModelSurface.Joined}
    (hjoined : object.Joined schema joins index) :
    ∃ place other, ItemNames target relationship place item other ∧
      joins index object.model target relationship other := by
  obtain ⟨json, items, hmember, hitems, hitem, htarget, hread⟩ := h.read hschema hproper
  obtain ⟨before, behind, hmembers⟩ := List.append_of_mem hmember
  obtain ⟨found, hfound, hall⟩ := hjoined before _ json behind hmembers relationship hread target
    htarget
  obtain rfl := Option.some.inj (hitems.symm.trans hfound)
  obtain ⟨first, last, hsplit⟩ := List.append_of_mem hitem
  obtain ⟨other, hnames, hother⟩ := hall first item last hsplit
  exact ⟨_, other, hnames, hother⟩

/-- An object that is well formed only gives items that its relationships take. -/
theorem takes (h : object.Gives schema relationship target item) (hschema : schema.Sound)
    (hproper : object.Proper schema) (hobject : object.WellFormed schema) :
    relationship.Takes target item := by
  obtain ⟨json, items, hmember, hitems, hitem, htarget, hread⟩ := h.read hschema hproper
  obtain ⟨kind, -, htype⟩ := hproper.type
  have hreads := object.readsAs hschema hproper.model htype relationship.name json
  rw [hread] at hreads
  cases hreads with
  | relation _ hfield hallowed =>
      obtain ⟨found, all, hfound, hall, htakes⟩ :=
        hallowed.mp (hobject.members _ json hmember hfield)
      obtain rfl := Option.some.inj (htarget.symm.trans hfound)
      obtain rfl := Option.some.inj (hitems.symm.trans hall)
      exact htakes item hitem

/-- The reference to a label that an object gives is nothing but that. -/
theorem refers (hgives : object.Gives schema relationship target item) (hschema : schema.Sound)
    (hproper : object.Proper schema) (hobject : object.WellFormed schema)
    {members : List (String × Json)} (hitem : item = .obj members)
    (hlabel : members.lookup InputEntry.referenceKey = some (.str label)) :
    object.Refers schema relationship target label := by
  subst hitem
  rcases PlanDraft.takes_obj_iff.mp (hgives.takes hschema hproper hobject) with hnew | ⟨_, rfl⟩
  · rw [hnew] at hlabel
    cases hlabel
  · rw [List.lookup_cons_self] at hlabel
    unfold InputObject.Refers
    rwa [← Json.str.inj (Option.some.inj hlabel)]

/-- An object that is given as an item is one of the objects of the input itself. -/
theorem inner_mem {members : List (String × Json)}
    (h : object.Gives schema relationship target (.obj members)) (hschema : schema.Sound)
    (hproper : object.Proper schema) (hnew : members.lookup InputEntry.referenceKey = none)
    (hobject : object ∈ schema.inputObjects model kind input) :
    ⟨target, schema.input .create target, .create, PlanDraft.innerLink relationship, members⟩ ∈
      schema.inputObjects model kind input := by
  obtain ⟨json, items, hmember, hitems, hitem, htarget, hread⟩ := h.read hschema hproper
  refine schema.closed_inputObjects model kind input object hobject ?_
  refine Schema.memberObjects_subset hmember ?_
  refine Schema.itemObjects_subset_memberObjects hread htarget hitems hitem ?_
  rw [Schema.itemObjects, hnew]
  exact List.mem_cons_self

end InputObject.Gives

/-- What an object lacks is a single reference that must not be null. -/
theorem InputObject.Lacks.not_null {name : String} (h : object.Lacks name)
    (hproper : object.Proper schema) :
    ∃ relationship ∈ object.model.relationships.values, relationship.name = name ∧
      relationship.isForeignKey = true ∧ relationship.nullable = false := by
  obtain ⟨field, hfield, hname, hrequired, relation, hshape⟩ := h.field
  obtain ⟨kind, -, htype⟩ := hproper.type
  rw [htype] at hfield
  rcases mem_input_fields hfield with ⟨_, _, hscalar⟩ | ⟨relationship, hmem, target, -, rfl⟩
  · rw [(ofField?_eq_some hscalar).2.1] at hshape
    cases hshape
  · obtain ⟨hheld, hnullable⟩ := Bool.and_eq_true_iff.mp hrequired
    exact ⟨relationship, hmem, hname, (Bool.and_eq_true_iff.mp hheld).2,
      Bool.not_eq_true' _ ▸ hnullable⟩

/-! ### Clean drafts -/

namespace PlanDraft

/-- What is known of a draft when nothing is wrong with the objects that it was read from. -/
structure Mirrors (draft : PlanDraft) (schema : Schema) (objects : List InputObject) :
    Prop where
  sound : schema.Sound
  clean : draft.violations = []
  proper : ∀ object ∈ objects, object.Proper schema
  wellFormed : ∀ object ∈ objects, object.WellFormed schema
  adds : Adds schema {} draft objects
  stems : draft.Stems schema objects
  distinct : (objects.filterMap InputObject.label?).Nodup
  labels : draft.labels.keys = objects.filterMap InputObject.label?

theorem ofInput_mirrors (hschema : schema.Sound) (hmodel : model ∈ schema.models)
    (hkind : kind ≠ .delete) (hclean : (ofInput schema model kind input).violations = []) :
    (ofInput schema model kind input).Mirrors schema (schema.inputObjects model kind input) := by
  have haccepts := ofInput_accepts hschema hmodel hkind input
  have hadds := ofInput_adds hclean
  have hsound := (ofInput_extends hschema hmodel hkind input).sound sound_empty
  obtain ⟨-, ⟨-, hwellFormed⟩, hdistinct, -⟩ := haccepts.clean_iff.mp hclean
  refine ⟨hschema, hclean, fun object hobject => ?_, hwellFormed, hadds, ofInput_stems _ _ _ _,
    hdistinct, haccepts.labels hclean⟩
  obtain ⟨index, hindex⟩ := List.mem_iff_getElem?.mp hobject
  refine ⟨?_, (Schema.mem_inputObjects hkind hindex).1, (hadds.read hclean index object hindex).1⟩
  obtain ⟨nodes, hnodes, hplans⟩ := hadds.nodes
  obtain ⟨hlength, rfl⟩ := List.getElem?_eq_some_iff.mp hindex
  have hbelow : index < nodes.length := hplans.length_eq ▸ hlength
  have hplanned : nodes[index] ∈ (ofInput schema model kind input).nodes := by
    rw [hnodes]
    exact List.mem_append_right _ (List.getElem_mem hbelow)
  exact (hplans.get hlength hbelow).model ▸ (hsound.nodes _ hplanned).model

theorem resolveLink_isOk {link : Link DraftRef}
    (hholder : ∃ found, resolve draft.labels link.holder = .ok found)
    (hvalue : ∀ ref, link.value = some ref → ∃ found, resolve draft.labels ref = .ok found) :
    ∃ resolved, resolveLink draft.labels link = .ok resolved := by
  obtain ⟨holder, hholder⟩ := hholder
  obtain ⟨value, hvalue⟩ : ∃ value, resolveValue draft.labels link.value = .ok value := by
    cases hlink : link.value with
    | none => exact ⟨none, rfl⟩
    | some ref =>
        obtain ⟨found, hfound⟩ := hvalue ref hlink
        refine ⟨some found, ?_⟩
        change (resolve draft.labels ref).map some = _
        rw [hfound]
        rfl
  unfold resolveLink
  rw [hholder, hvalue]
  exact ⟨_, rfl⟩

/-- A draft is finished exactly when nothing is wrong with the input, nothing is left unresolved,
and all that was asked for is given. -/
theorem finish_isOk_iff : (∃ plan, draft.finish = .ok plan) ↔
    draft.violations = [] ∧
      (∀ link ∈ draft.links, ∃ resolved, resolveLink draft.labels link = .ok resolved) ∧
      ∀ requirement ∈ draft.requirements, ∃ link ∈ draft.resolvedLinks,
        meets requirement link = true := by
  constructor
  · rintro ⟨plan, h⟩
    exact (finish_ok h).2
  · rintro ⟨hclean, hresolved, hmet⟩
    unfold finish
    extract_lets resolved links unresolved unmet
    have hunresolved : unresolved = [] := by
      refine List.flatMap_eq_nil_iff.mpr fun result hresult => ?_
      obtain ⟨link, hlink, rfl⟩ := List.mem_map.mp hresult
      obtain ⟨found, hfound⟩ := hresolved link hlink
      rw [hfound]
    have hunmet : unmet = [] := by
      refine List.filter_eq_nil_iff.mpr fun requirement hrequirement => ?_
      rw [Bool.not_eq_true', Bool.not_eq_false]
      obtain ⟨link, hlink, hmeets⟩ := hmet requirement hrequirement
      exact List.any_eq_true.mpr ⟨link, hlink, hmeets⟩
    rw [hclean, hunresolved, hunmet]
    exact ⟨_, rfl⟩

namespace Mirrors

theorem get?_label (h : draft.Mirrors schema objects) (hobject : objects[index]? = some object)
    (hlabel : object.label? = some label) :
    draft.labels.get? label = some (index, object.model.name) := by
  have hknown : label ∈ draft.labels.keys := by
    rw [h.labels]
    exact List.mem_filterMap.mpr ⟨object, List.mem_of_getElem? hobject, hlabel⟩
  obtain ⟨⟨place, name⟩, hfound⟩ := Option.isSome_iff_exists.mp (Keyed.isSome_get?_iff.mpr hknown)
  rcases h.adds.labels label place name hfound with
    hempty | ⟨found, other, rfl, hother, hother_label, rfl⟩
  · cases hempty
  · obtain rfl := InputObject.index_eq_of_label? h.distinct hobject hlabel hother hother_label
    obtain rfl := Option.some.inj (hobject.symm.trans hother)
    rwa [List.length_nil, Nat.zero_add] at hfound

theorem resolve_label (h : draft.Mirrors schema objects) (hobject : objects[index]? = some object)
    (hlabel : object.label? = some label) :
    resolve draft.labels (.labelled label object.model.name) = .ok (.node index) := by
  unfold resolve
  dsimp only
  rw [h.get?_label hobject hlabel]
  exact if_pos rfl

theorem joined (h : draft.Mirrors schema objects) (hobject : objects[index]? = some object) :
    object.Joined schema draft.Joins index := by
  have hjoined := (h.adds.read h.clean index object hobject).2
  rwa [List.length_nil, Nat.zero_add] at hjoined

/-- If each reference to a label leads to an object that carries it, all links can be resolved. -/
theorem resolved (h : draft.Mirrors schema objects)
    (hreferences : ∀ object ∈ objects, ∀ relationship target label,
      object.Refers schema relationship target label →
        ∃ other ∈ objects, other.label? = some label ∧ other.model = target) :
    ∀ link ∈ draft.links, ∃ resolved, resolveLink draft.labels link = .ok resolved := by
  intro link hlink
  obtain @⟨index, _, object, relationship, target, _, other, hobject, hgives, hnames, -, hjoins⟩ :=
    h.stems.links link hlink
  have hmem := List.mem_of_getElem? hobject
  have hother : ∀ ref, other = some ref → ∃ found, resolve draft.labels ref = .ok found := by
    rintro ref rfl
    cases hnames with
    | label hlabel =>
        obtain ⟨found, hfound, hfound_label, rfl⟩ := hreferences object hmem relationship target _
          (hgives.refers h.sound (h.proper object hmem) (h.wellFormed object hmem) rfl hlabel)
        obtain ⟨place, hplace⟩ := List.mem_iff_getElem?.mp hfound
        exact ⟨_, h.resolve_label hplace hfound_label⟩
    | object | identity => exact ⟨_, rfl⟩
  unfold Link.Joins at hjoins
  cases hownership : relationship.ownership with
  | own =>
      rw [hownership] at hjoins
      refine resolveLink_isOk (hjoins.1 ▸ ⟨_, rfl⟩) fun ref href => hother ref ?_
      rw [← hjoins.2.2.2.1, href]
  | remote field =>
      rw [hownership] at hjoins
      refine resolveLink_isOk (hother _ hjoins.1.symm) fun ref href => ?_
      rw [hjoins.2.2.2.1] at href
      rw [← Option.some.inj href]
      exact ⟨_, rfl⟩

/-- What a reference to a label finds is an object that carries the label. -/
theorem carries (h : draft.Mirrors schema objects) (htarget : target ∈ schema.models)
    {found : Option NodeRef} (hfinds : Finds objects (some (.labelled label target.name)) found) :
    ∃ index object, found = some (.node index) ∧ objects[index]? = some object ∧
      object.label? = some label ∧ object.model = target := by
  cases hfinds with
  | labelled hobject hlabel hname =>
      have hmodel := (h.proper _ (List.mem_of_getElem? hobject)).model
      exact ⟨_, _, rfl, hobject, hlabel, h.sound.model_ext htarget hmodel hname⟩

/-- A reference to a label that can be resolved leads to an object that carries the label. -/
theorem finds (h : draft.Mirrors schema objects)
    (hresolved : ∀ link ∈ draft.links, ∃ resolved, resolveLink draft.labels link = .ok resolved)
    (hobject : object ∈ objects) (hrefers : object.Refers schema relationship target label) :
    ∃ other ∈ objects, other.label? = some label ∧ other.model = target := by
  obtain ⟨index, hindex⟩ := List.mem_iff_getElem?.mp hobject
  obtain ⟨place, named, hnames, link, hlink, hjoins⟩ :=
    InputObject.Gives.joined hrefers h.sound (h.proper object hobject) (h.joined hindex)
  obtain rfl := hnames.eq_labelled
  obtain ⟨resolved, hresolve⟩ := hresolved link hlink
  obtain ⟨found, hfinds, -⟩ := joins_of_resolved h.adds hresolve hjoins
  obtain ⟨_, other, -, hother, hlabel, hmodel⟩ :=
    h.carries (InputObject.Gives.target_mem hrefers h.sound) hfinds
  exact ⟨other, List.mem_of_getElem? hother, hlabel, hmodel⟩

/-- A reference to a label from the far side sets the reference of the object that carries it. -/
theorem sets (h : draft.Mirrors schema objects)
    (hresolved : ∀ link ∈ draft.links, ∃ resolved, resolveLink draft.labels link = .ok resolved)
    {other : InputObject} {reverse : Relationship} {name : String} (hother : other ∈ objects)
    (hrefers : other.Refers schema reverse object.model label)
    (hreverse : reverse.ownership = .remote name) (hobject : objects[index]? = some object)
    (hlabel : object.label? = some label) : ∃ link ∈ draft.resolvedLinks,
      link.holder = .node index ∧ link.field = name ∧ link.value.isSome = true := by
  obtain ⟨place, hplace⟩ := List.mem_iff_getElem?.mp hother
  obtain ⟨_, named, hnames, link, hlink, hjoins⟩ :=
    InputObject.Gives.joined hrefers h.sound (h.proper other hother) (h.joined hplace)
  obtain rfl := hnames.eq_labelled
  unfold Link.Joins at hjoins
  rw [hreverse] at hjoins
  obtain ⟨hholder, -, hfield, hvalue, -⟩ := hjoins
  obtain ⟨resolved, hresolve⟩ := hresolved link hlink
  obtain ⟨holder, value, hfound, hfound_value, rfl⟩ := resolveLink_ok hresolve
  rw [Option.some.inj hholder, h.resolve_label hobject hlabel] at hfound
  rw [hvalue] at hfound_value
  refine ⟨_, mem_resolvedLinks.mpr ⟨link, hlink, hresolve⟩, (Except.ok.inj hfound).symm, hfield, ?_⟩
  rw [← Except.ok.inj hfound_value]
  rfl

/-- All that was asked for is set, if what objects lack is given from the far side. -/
theorem met (h : draft.Mirrors schema objects)
    (hresolved : ∀ link ∈ draft.links, ∃ resolved, resolveLink draft.labels link = .ok resolved)
    (hlinked : ∀ object ∈ objects, object.action = .create →
      ∀ relationship ∈ object.model.relationships.values, relationship.isForeignKey = true →
        relationship.nullable = false → object.Given schema objects relationship.name) :
    ∀ requirement ∈ draft.requirements, ∃ link ∈ draft.resolvedLinks,
      meets requirement link = true := by
  intro requirement hrequirement
  obtain ⟨object, hobject, hlacks⟩ := h.stems.requirements requirement hrequirement
  have hmem := List.mem_of_getElem? hobject
  obtain ⟨relationship, hrelationship, hname, hheld, hnullable⟩ :=
    hlacks.not_null (h.proper object hmem)
  have hgiven := hlinked object hmem hlacks.created relationship hrelationship hheld hnullable
  rw [hname] at hgiven
  rcases hgiven with
    hthere | henclosing | ⟨other, hother, reverse, label, hrefers, hreverse, hlabel⟩
  · rw [hlacks.missing] at hthere
    cases hthere
  · exact absurd henclosing hlacks.linked
  · obtain ⟨link, hlink, hholder, hfield, hvalue⟩ :=
      h.sets hresolved hother hrefers hreverse hobject hlabel
    refine ⟨link, hlink, ?_⟩
    unfold meets
    rw [hholder, hfield, hvalue]
    simp

/-- A reference that a link sets is given by the object itself or by the one around it, or from its
far side. -/
theorem given (h : draft.Mirrors schema objects) (hobject : objects[index]? = some object)
    {resolved : Link NodeRef} (hresolved : resolved ∈ draft.resolvedLinks)
    (hholder : resolved.holder = .node index) : object.Given schema objects resolved.field := by
  obtain ⟨link, hlink, hresolve⟩ := mem_resolvedLinks.mp hresolved
  obtain ⟨holder, value, hfound, -, rfl⟩ := resolveLink_ok hresolve
  obtain rfl : holder = .node index := hholder
  obtain @⟨place, inner, giver, relationship, target, _, other, hgiver, hgives, hnames, hinner,
    hjoins⟩ := h.stems.links link hlink
  have hmem := List.mem_of_getElem? hgiver
  unfold Link.Joins at hjoins
  cases hownership : relationship.ownership with
  | own =>
      rw [hownership] at hjoins
      obtain ⟨heq, -, hfield, -⟩ := hjoins
      rw [heq] at hfound
      obtain rfl : place = index := NodeRef.node.inj (Except.ok.inj hfound)
      obtain rfl := Option.some.inj (hobject.symm.trans hgiver)
      refine .inl ?_
      rw [hfield]
      exact hgives.isSome_lookup h.sound (h.proper object hmem).model
  | remote field =>
      rw [hownership] at hjoins
      obtain ⟨heq, -, rfl, -⟩ := hjoins
      cases hnames with
      | label hlabel =>
          rw [Option.some.inj heq] at hfound
          obtain ⟨_, _, hnode, hother, hother_label, rfl⟩ :=
            h.carries (hgives.target_mem h.sound) (resolve_finds h.adds hfound)
          obtain rfl := NodeRef.node.inj (Option.some.inj hnode)
          obtain rfl := Option.some.inj (hobject.symm.trans hother)
          have hrefers := hgives.refers h.sound (h.proper giver hmem) (h.wellFormed giver hmem) rfl
            hlabel
          exact .inr (.inr ⟨giver, hmem, relationship, _, hrefers, hownership, hother_label⟩)
      | object =>
          rw [Option.some.inj heq] at hfound
          obtain rfl : inner = index := NodeRef.node.inj (Except.ok.inj hfound)
          obtain ⟨found, hinside, hlinked⟩ := hinner rfl
          obtain rfl := Option.some.inj (hobject.symm.trans hinside)
          refine .inr (.inl ?_)
          rw [hlinked]
          unfold innerLink
          rw [hownership]
      | nothing => cases heq
      | identity =>
          rw [Option.some.inj heq] at hfound
          cases hfound

end Mirrors

end PlanDraft

/-- An input that conforms is read without any violation. -/
theorem Schema.Conforms.mirrors (h : schema.Conforms model kind input) (hschema : schema.Sound)
    (hmodel : model ∈ schema.models) (hkind : kind ≠ .delete) :
    (PlanDraft.ofInput schema model kind input).Mirrors schema
      (schema.inputObjects model kind input) := by
  refine PlanDraft.ofInput_mirrors hschema hmodel hkind ?_
  exact (PlanDraft.ofInput_accepts hschema hmodel hkind input).clean_iff.mpr
    ⟨rfl, ⟨h.identified, h.objects⟩, h.labels, List.disjoint_nil_left _⟩

/-- An input conforms down to its innermost objects: what one of its objects gives as an object to
create is one of its objects, too. -/
theorem Schema.Conforms.inner_mem (h : schema.Conforms model kind input) (hschema : schema.Sound)
    (hmodel : model ∈ schema.models) (hkind : kind ≠ .delete)
    (hobject : object ∈ schema.inputObjects model kind input) {members : List (String × Json)}
    (hgives : object.Gives schema relationship target (.obj members))
    (hnew : members.lookup InputEntry.referenceKey = none) :
    ⟨target, schema.input .create target, .create, PlanDraft.innerLink relationship, members⟩ ∈
      schema.inputObjects model kind input :=
  hgives.inner_mem hschema ((h.mirrors hschema hmodel hkind).proper object hobject) hnew hobject

/-- What has been planned conforms. -/
theorem Plan.conforms_of_ofInput (hschema : schema.Sound) (hmodel : model ∈ schema.models)
    (hkind : kind ≠ .delete) {plan : Plan} (h : Plan.ofInput schema model kind input = .ok plan) :
    schema.Conforms model kind input := by
  have hcomplete := (Plan.ofInput_sound hschema hmodel hkind h).complete
  have hreads := Plan.ofInput_reads h
  obtain ⟨rfl, hclean, hresolved, -⟩ := PlanDraft.finish_ok h
  obtain ⟨-, ⟨hidentified, hobjects⟩, hlabels, -⟩ :=
    (PlanDraft.ofInput_accepts hschema hmodel hkind input).clean_iff.mp hclean
  have hmirrors := PlanDraft.ofInput_mirrors hschema hmodel hkind hclean
  refine ⟨hidentified, hobjects, hlabels, fun object hobject relationship target label hrefers =>
    hmirrors.finds hresolved hobject hrefers, ?_⟩
  intro object hobject hcreate relationship hmem hheld hnullable
  obtain ⟨index, hindex⟩ := List.mem_iff_getElem?.mp hobject
  obtain ⟨node, hnode, hplans⟩ := hreads.node hindex
  obtain ⟨link, hlink, hholder, hfield, -⟩ := hcomplete index node hnode
    (hplans.action.trans hcreate) relationship (hplans.model ▸ hmem) hheld hnullable
  exact hfield ▸ hmirrors.given hindex hlink hholder

/-- Exactly the inputs that conform can be planned. -/
theorem Plan.ofInput_ok_iff_conforms {registry : Registry}
    (hregistry : registry.schema = .ok schema) (hmodel : model ∈ schema.models)
    (hkind : kind ≠ .delete) (input : Json) :
    (∃ plan, Plan.ofInput schema model kind input = .ok plan) ↔
      schema.Conforms model kind input := by
  have hschema := Registry.sound_schema hregistry
  constructor
  · rintro ⟨plan, hplan⟩
    exact Plan.conforms_of_ofInput hschema hmodel hkind hplan
  · intro hconforms
    have hmirrors := hconforms.mirrors hschema hmodel hkind
    have hresolved := hmirrors.resolved hconforms.references
    exact PlanDraft.finish_isOk_iff.mpr
      ⟨hmirrors.clean, hresolved, hmirrors.met hresolved hconforms.linked⟩

/-- Two nodes may refer to each other, one of them by its label; but not to a label that no node
carries. -/
theorem Plan.ofInput_ok_iff_conforms_nodes : ∃ model ∈ chainSchema.models,
    InputKind.create ≠ .delete ∧
    chainSchema.Conforms model .create (.obj [("$id", .str "a"),
      ("next", .obj [("next", .obj [("$ref", .str "a")])])]) ∧
    ¬ chainSchema.Conforms model .create (.obj [("next", .obj [("$ref", .str "a")])]) := by
  have hplans : ∃ model ∈ chainSchema.models,
      (Plan.ofInput chainSchema model .create (.obj [("$id", .str "a"),
        ("next", .obj [("next", .obj [("$ref", .str "a")])])])).isOk = true ∧
      (Plan.ofInput chainSchema model .create
        (.obj [("next", .obj [("$ref", .str "a")])])).isOk = false := by
    decide +kernel
  obtain ⟨model, hmodel, hok, hrefused⟩ := hplans
  refine ⟨model, hmodel, by decide, ?_, ?_⟩
  · rw [← Plan.ofInput_ok_iff_conforms schema_chainRegistry hmodel (by decide)]
    cases hplan : Plan.ofInput chainSchema model .create (.obj [("$id", .str "a"),
        ("next", .obj [("next", .obj [("$ref", .str "a")])])]) with
    | ok plan => exact ⟨plan, rfl⟩
    | error violations =>
        rw [hplan] at hok
        cases hok
  · rw [← Plan.ofInput_ok_iff_conforms schema_chainRegistry hmodel (by decide)]
    rintro ⟨plan, hplan⟩
    rw [hplan] at hrefused
    cases hrefused

end ModelSurface
