import ModelSurface.Proofs.Write.Accepting

/-!
# Where links come from

Planning makes up nothing: every link of a draft sets an item that an object of the input gives
under one of its relationships, and everything that is asked for is missing from an object of the
input. This holds of what has been read, also while something is wrong with it.
-/

namespace ModelSurface

/-- What an object to create must be given as a reference, and neither gives itself nor gets from
the object around it. -/
structure InputObject.Lacks (object : InputObject) (name : String) : Prop where
  created : object.action = .create
  field : ∃ field ∈ object.type.fields, field.name = name ∧ field.required = true ∧
    ∃ relation, field.shape = .relation relation
  missing : object.members.lookup name = none
  linked : object.linkedBy ≠ some name

/-- A link sets an item that one of some objects gives. If the item is an object itself, this is
one of them, too. -/
inductive Link.Stems (schema : Schema) (objects : List InputObject) (link : Link DraftRef) : Prop
  | intro {index place : ℕ} {object : InputObject} {relationship : Relationship} {target : Model}
      {item : Json} {other : Option DraftRef} (hobject : objects[index]? = some object)
      (hgives : object.Gives schema relationship target item)
      (hnames : ItemNames target relationship place item other)
      (hinner : other = some (.node place) → ∃ inner, objects[place]? = some inner ∧
        inner.linkedBy = PlanDraft.innerLink relationship)
      (hjoins : link.Joins (.node index) object.model target relationship other)

namespace PlanDraft

structure Stems (schema : Schema) (objects : List InputObject) (draft : PlanDraft) : Prop where
  links : ∀ link ∈ draft.links, link.Stems schema objects
  requirements : ∀ requirement ∈ draft.requirements, ∃ object,
    objects[requirement.node]? = some object ∧ object.Lacks requirement.relation

variable {schema : Schema} {objects : List InputObject}

/-! ### Single steps -/

namespace Stems

variable {draft after : PlanDraft} {object : InputObject} {index : ℕ}

theorem empty : Stems schema objects {} :=
  ⟨fun _ h => absurd h List.not_mem_nil, fun _ h => absurd h List.not_mem_nil⟩

theorem of_eq (h : draft.Stems schema objects) (hlinks : after.links = draft.links)
    (hrequirements : after.requirements = draft.requirements) : after.Stems schema objects :=
  ⟨by rw [hlinks]; exact h.links, by rw [hrequirements]; exact h.requirements⟩

theorem report (h : draft.Stems schema objects) (path : String) (fault : InputFault) :
    (draft.report path fault).Stems schema objects := h.of_eq rfl rfl

theorem openNode (h : draft.Stems schema objects) (object : InputObject) (path : String) :
    (draft.openNode object.model object.type object.action object.linkedBy path
      object.members).Stems schema objects := by
  refine h.of_eq (openNode_adds draft object path).2.1 ?_
  unfold PlanDraft.openNode
  split
  · unfold addLabel
    split
    · split
      · rfl
      · dsimp only
        split <;> rfl
    · rfl
  · rfl

theorem closeNode (h : draft.Stems schema objects) (hobject : objects[index]? = some object)
    (hcreate : object.action = .create) (path : String) :
    (draft.closeNode index object.type object.linkedBy path object.members).Stems schema
      objects := by
  unfold PlanDraft.closeNode
  refine List.foldlRecOn _ (require index path) h fun draft hdraft field hfield => ?_
  rw [List.mem_filter, Bool.and_eq_true, Bool.and_eq_true, decide_eq_true_iff,
    Option.isNone_iff_eq_none] at hfield
  obtain ⟨hmem, ⟨hrequired, hmissing⟩, hlinked⟩ := hfield
  unfold require
  cases hshape : field.shape with
  | scalar kind list => exact hdraft.report _ _
  | relation relation =>
      refine ⟨hdraft.links, fun requirement hrequirement => ?_⟩
      rcases List.mem_append.mp hrequirement with hold | hnew
      · exact hdraft.requirements requirement hold
      · rw [List.mem_singleton.mp hnew]
        exact ⟨object, hobject, hcreate, ⟨field, hmem, rfl, hrequired, relation, hshape⟩, hmissing,
          hlinked⟩

/-- An item that an object gives is set by a link. -/
theorem linkTo (h : draft.Stems schema objects) (place : ℕ) {relationship : Relationship}
    {target : Model} {item : Json} {other : Option DraftRef} (path : String)
    (hobject : objects[index]? = some object)
    (hgives : object.Gives schema relationship target item)
    (hnames : ItemNames target relationship place item other)
    (hinner : other = some (.node place) → ∃ inner, objects[place]? = some inner ∧
      inner.linkedBy = innerLink relationship) :
    (draft.linkTo index object.model target relationship path other).Stems schema objects := by
  have hadd : ∀ link : Link DraftRef,
      link.Joins (.node index) object.model target relationship other →
        (draft.addLink link).Stems schema objects := by
    refine fun link hjoins => ⟨fun found hfound => ?_, h.requirements⟩
    rcases List.mem_append.mp hfound with hold | hnew
    · exact h.links found hold
    · rw [List.mem_singleton.mp hnew]
      exact ⟨hobject, hgives, hnames, hinner, hjoins⟩
  unfold PlanDraft.linkTo
  unfold Link.Joins at hadd
  cases hownership : relationship.ownership with
  | own =>
      rw [hownership] at hadd
      exact hadd _ ⟨rfl, rfl, rfl, rfl, rfl, rfl⟩
  | remote field =>
      rw [hownership] at hadd
      cases other with
      | none => exact h
      | some ref => exact hadd _ ⟨rfl, rfl, rfl, rfl, rfl, rfl⟩

end Stems

/-- Objects that stand in a list one behind the other, from a place on. -/
theorem append_prefix_drop {xs ys : List InputObject} {place : ℕ}
    (h : xs ++ ys <+: objects.drop place) :
    xs <+: objects.drop place ∧ ys <+: objects.drop (place + xs.length) := by
  obtain ⟨behind, hsplit⟩ := h
  refine ⟨⟨ys ++ behind, by rw [← List.append_assoc, hsplit]⟩, behind, ?_⟩
  rw [← List.drop_drop, ← hsplit, List.append_assoc, List.drop_left]

theorem cons_prefix_drop {object : InputObject} {xs : List InputObject} {place : ℕ}
    (h : object :: xs <+: objects.drop place) :
    objects[place]? = some object ∧ xs <+: objects.drop (place + 1) := by
  refine ⟨?_, (append_prefix_drop (List.singleton_append ▸ h)).2⟩
  obtain ⟨behind, hsplit⟩ := h
  rw [← List.head?_drop, ← hsplit]
  rfl

/-! ### Objects within objects -/

mutual

theorem planMembers_stems {object : InputObject} {index : ℕ} {draft : PlanDraft}
    (hobject : objects[index]? = some object) (path : String)
    (hdraft : draft.Stems schema objects) : (members : List (String × Json)) →
    members ⊆ object.members →
    schema.objects object.model object.type object.linkedBy members <+:
      objects.drop draft.nodes.length →
    (planMembers schema index object.model object.type object.linkedBy path draft members).Stems
      schema objects
  | [], _, _ => hdraft
  | (name, json) :: rest, hmembers, hplace => by
    rw [Schema.objects_cons] at hplace
    obtain ⟨hhere, hbehind⟩ := append_prefix_drop hplace
    obtain ⟨hmember, hrest⟩ := List.cons_subset.mp hmembers
    rw [planMembers_cons]
    have hfirst := planMember_stems hobject path hdraft name json hmember hhere
    refine planMembers_stems hobject path hfirst rest hrest ?_
    rwa [(planMember_adds index object.model object.type object.linkedBy path draft name
      json).1.length]
termination_by members => (sizeOf members, 0)

theorem planMember_stems {object : InputObject} {index : ℕ} {draft : PlanDraft}
    (hobject : objects[index]? = some object) (path : String)
    (hdraft : draft.Stems schema objects) (name : String) (json : Json)
    (hmember : (name, json) ∈ object.members)
    (hplace : schema.memberObjects object.model object.type object.linkedBy name json <+:
      objects.drop draft.nodes.length) :
    (planMember schema index object.model object.type object.linkedBy path draft name json).Stems
      schema objects := by
  unfold planMember
  unfold Schema.memberObjects at hplace
  cases hread : InputEntry.read object.model object.type object.linkedBy name json with
  | ignored | scalar => exact hdraft
  | wrong fault => exact hdraft.report _ _
  | relation relationship =>
      rw [hread] at hplace
      exact planRelation_stems hobject (join path name) hdraft json hmember
        (InputEntry.read_relation_field hread).1 hplace
termination_by (sizeOf json, 2)

theorem planRelation_stems {object : InputObject} {index : ℕ} {draft : PlanDraft}
    (hobject : objects[index]? = some object) (path : String)
    (hdraft : draft.Stems schema objects) {name : String} {relationship : Relationship}
    (json : Json) (hmember : (name, json) ∈ object.members)
    (hrelationship : object.model.relationship? name = some relationship)
    (hplace : schema.relationObjects relationship json <+: objects.drop draft.nodes.length) :
    (planRelation schema index object.model path draft relationship json).Stems schema
      objects := by
  unfold planRelation
  unfold Schema.relationObjects at hplace
  cases htarget : schema.model? relationship.target with
  | none => exact hdraft
  | some target =>
      rw [htarget] at hplace
      dsimp only at hplace ⊢
      have hgives : ∀ items, relationship.items? json = some items → ∀ item ∈ items,
          object.Gives schema relationship target item := fun items hitems item hitem =>
        ⟨name, json, items, hmember, hrelationship, htarget, hitems, hitem⟩
      unfold Relationship.items? at hgives
      by_cases hmany : relationship.isMany = true
      · rw [if_pos hmany] at hplace hgives ⊢
        cases json with
        | arr items =>
            exact planItems_stems hobject path 0 hdraft items (hgives items rfl) hplace
        | null | bool | num | str | obj => exact hdraft.report _ _
      · rw [if_neg hmany] at hplace hgives ⊢
        exact planItem_stems hobject path hdraft json
          (hgives [json] rfl json (List.mem_singleton.mpr rfl)) hplace
termination_by (sizeOf json, 1)

theorem planItems_stems {object : InputObject} {index : ℕ} {draft : PlanDraft}
    (hobject : objects[index]? = some object) (path : String)
    (position : ℕ) {target : Model} {relationship : Relationship}
    (hdraft : draft.Stems schema objects) : (items : List Json) →
    (∀ item ∈ items, object.Gives schema relationship target item) →
    schema.itemsObjects target relationship items <+: objects.drop draft.nodes.length →
    (planItems schema index object.model target relationship path position draft items).Stems
      schema objects
  | [], _, _ => hdraft
  | item :: items, hgives, hplace => by
    rw [Schema.itemsObjects] at hplace
    obtain ⟨hhere, hbehind⟩ := append_prefix_drop hplace
    obtain ⟨hitem, hitems⟩ := List.forall_mem_cons.mp hgives
    have hfirst := planItem_stems hobject s!"{path}[{position}]" hdraft item hitem hhere
    refine planItems_stems hobject path (position + 1) hfirst items hitems ?_
    rwa [(planItem_adds index object.model target relationship s!"{path}[{position}]" draft
      item).1.length]
termination_by items => (sizeOf items, 0)

theorem planItem_stems {object : InputObject} {index : ℕ} {draft : PlanDraft}
    (hobject : objects[index]? = some object) (path : String)
    {target : Model} {relationship : Relationship} (hdraft : draft.Stems schema objects)
    (json : Json) (hgives : object.Gives schema relationship target json)
    (hplace : schema.itemObjects target relationship json <+: objects.drop draft.nodes.length) :
    (planItem schema index object.model target relationship path draft json).Stems schema
      objects := by
  cases json with
  | obj members =>
      rw [planItem]
      rw [Schema.itemObjects] at hplace
      by_cases hlabelled : (members.lookup InputEntry.referenceKey).isSome
      · rw [if_pos hlabelled]
        rcases readReference_cases draft target path members with
          ⟨label, rfl, hread⟩ | ⟨-, place, fault, hread⟩
        · rw [hread]
          exact hdraft.linkTo 0 path hobject hgives (.label List.lookup_cons_self) nofun
        · rw [hread]
          exact hdraft.report _ _
      · rw [if_neg hlabelled] at hplace ⊢
        let inner : InputObject :=
          ⟨target, schema.input .create target, .create, innerLink relationship, members⟩
        have hwhole : inner :: schema.objects target inner.type inner.linkedBy members <+:
          objects.drop draft.nodes.length := hplace
        obtain ⟨hinner, hnested⟩ := cons_prefix_drop hwhole
        obtain ⟨⟨node, hnode, -⟩, -⟩ := openNode_adds draft inner path
        have hmembers := planMembers_stems hinner path (hdraft.openNode inner path) members
          (List.Subset.refl _) (by
            rwa [hnode, List.length_append, List.length_singleton])
        rw [Option.not_isSome_iff_eq_none] at hlabelled
        exact (hmembers.closeNode hinner rfl path).linkTo _ path hobject hgives (.object hlabelled)
          fun _ => ⟨inner, hinner, rfl⟩
  | null | bool | num | str | arr =>
      rw [planItem.eq_2 _ _ _ _ _ _ _ _ (by simp)]
      split
      · rename_i hnone
        obtain ⟨hnull, hown⟩ := Bool.and_eq_true_iff.mp hnone
        split
        · exact hdraft.report _ _
        · exact hdraft.linkTo 0 path hobject hgives (.nothing hnull hown) nofun
      · rcases readIdentity_cases draft target path _ with ⟨id, hid, hread⟩ | ⟨-, fault, hread⟩
        · rw [hread]
          exact hdraft.linkTo 0 path hobject hgives (.identity hid) nofun
        · rw [hread]
          exact hdraft.report _ _
termination_by (sizeOf json, 0)

end

/-- Nothing of a draft is made up. -/
theorem ofInput_stems (schema : Schema) (model : Model) (kind : InputKind) (input : Json) :
    (ofInput schema model kind input).Stems schema (schema.inputObjects model kind input) := by
  unfold ofInput Schema.inputObjects
  cases input with
  | null | bool | num | str | arr => exact Stems.empty.report _ _
  | obj members =>
      dsimp only
      rcases readAction_cases model kind members with
        ⟨action, haction, -, hcreate⟩ | ⟨⟨fault, hfault⟩, -⟩
      · rw [haction]
        dsimp only
        let object : InputObject := ⟨model, schema.input kind model, action, none, members⟩
        obtain ⟨⟨node, hnode, -⟩, -⟩ := openNode_adds {} object ""
        have hobject : (object :: schema.objects model object.type none members)[0]? =
          some object := rfl
        have hmembers := planMembers_stems hobject "" (Stems.empty.openNode object "") members
          (List.Subset.refl _) (by rw [hnode]; exact List.prefix_rfl)
        split
        · rename_i hnew
          exact hmembers.closeNode hobject (hcreate.mpr (by rw [hnew]; decide)) ""
        · exact hmembers
      · rw [hfault]
        exact Stems.empty.report _ _

end PlanDraft

end ModelSurface
