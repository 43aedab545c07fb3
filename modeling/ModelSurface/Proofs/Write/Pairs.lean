import ModelSurface.Proofs.Write.Finishing
import ModelSurface.Write.Plan

/-!
# Inputs that link two records

The update of a record that sets one of its relationships to another record, both by their
identities. Its plan has one record and one link; which of the two records the link starts from
depends on the side of the relationship.
-/

namespace ModelSurface

/-- What an input gives for a relationship that is to lead to a record. -/
def linkJson (relationship : Relationship) (other : Identity) : Json :=
  if relationship.isMany then .arr [other.toJson] else other.toJson

/-- The input that links a record to another one. -/
def linkInput (model : Model) (relationship : Relationship) (id other : Identity) : Json :=
  Json.object
    [(model.identity.name, id.toJson), (relationship.name, linkJson relationship other)]

namespace Plan

def linkPath (relationship : Relationship) : String :=
  if relationship.isMany then s!"{relationship.name}[{0}]" else relationship.name

/-- The reference between the record that is updated and another one, from the side that holds
it. -/
def linkBetween (model target : Model) (relationship : Relationship) (other : Identity) :
    Link NodeRef :=
  match relationship.ownership with
  | .own =>
    ⟨.node 0, model, relationship.name, some (.stored other), target, relationship.isMany,
      linkPath relationship⟩
  | .remote field =>
    ⟨.stored other, target, field, some (.node 0), model, relationship.cardinality = .manyToMany,
      linkPath relationship⟩

def ofLink (model target : Model) (relationship : Relationship) (id other : Identity) : Plan :=
  ⟨[⟨model, .update id, .empty, ""⟩], [linkBetween model target relationship other]⟩

theorem references_ofLink (model target : Model) (relationship : Relationship)
    (id other : Identity) : (ofLink model target relationship id other).references 0 = [] := by
  unfold references ofLink linkBetween
  cases relationship.ownership <;> simp [NodeRef.node?]

end Plan

namespace PlanDraft

variable {schema : Schema} {model target : Model} {relationship : Relationship}
  {id other : Identity}

theorem isNull_toJson (id : Identity) : id.toJson.isNull = false := by
  cases id <;> rfl

theorem isNull_linkJson (relationship : Relationship) (other : Identity) :
    (linkJson relationship other).isNull = false := by
  unfold linkJson
  split
  · rfl
  · exact isNull_toJson other

/-- An identity stands for a stored record. -/
theorem planItem_identity (schema : Schema) (index : Nat) (model target : Model)
    (relationship : Relationship) (path : String) (draft : PlanDraft) (id : Identity) :
    planItem schema index model target relationship path draft id.toJson =
      match Identity.ofJson target.identity.kind id.toJson with
      | .ok found => draft.linkTo index model target relationship path (some (.stored found))
      | .error fault => draft.report path (.value fault) := by
  rw [planItem.eq_2 _ _ _ _ _ _ _ _ (by cases id <;> exact fun _ h => by cases h),
    isNull_toJson, Bool.false_and, if_neg Bool.false_ne_true]
  unfold readIdentity
  cases Identity.ofJson target.identity.kind id.toJson <;> rfl

theorem planRelation_link (htarget : schema.model? relationship.target = some target)
    (draft : PlanDraft) (other : Identity) :
    planRelation schema 0 model relationship.name draft relationship
      (linkJson relationship other) =
      match Identity.ofJson target.identity.kind other.toJson with
      | .ok found =>
        draft.linkTo 0 model target relationship (Plan.linkPath relationship) (some (.stored found))
      | .error fault => draft.report (Plan.linkPath relationship) (.value fault) := by
  unfold planRelation linkJson Plan.linkPath
  rw [htarget]
  dsimp only
  split
  · exact planItem_identity _ _ _ _ _ _ _ _
  · exact planItem_identity _ _ _ _ _ _ _ _

theorem finish_link (model target : Model) (relationship : Relationship) (id other : Identity) :
    (linkTo { nodes := [⟨model, .update id, .empty, ""⟩] } 0 model target relationship
      (Plan.linkPath relationship) (some (.stored other))).finish =
        .ok (Plan.ofLink model target relationship id other) := by
  unfold linkTo Plan.ofLink Plan.linkBetween
  cases relationship.ownership <;> rfl

section

variable (hschema : schema.Sound) (hmodel : model ∈ schema.models)
  (hmem : relationship ∈ model.relationships.values)
  (htarget : schema.model? relationship.target = some target)

include hschema hmodel hmem

/-- The members of the input in one order or the other. -/
theorem linkInput_eq (id other : Identity) : ∃ members,
    linkInput model relationship id other = .obj members ∧
      (members = [(model.identity.name, id.toJson),
        (relationship.name, linkJson relationship other)] ∨
      members = [(relationship.name, linkJson relationship other),
        (model.identity.name, id.toJson)]) := by
  have hne : relationship.name ≠ model.identity.name := fun heq =>
    (hschema.model model hmodel).not_mem_fields hmem (heq ▸ List.mem_cons_self)
  refine ⟨_, rfl, ?_⟩
  change Json.insertMember _ _ [_] = _ ∨ Json.insertMember _ _ [_] = _
  unfold Json.insertMember
  split
  · exact .inr rfl
  · rename_i hsame
    exact absurd (Std.LawfulEqOrd.eq_of_compare hsame) hne
  · exact .inl rfl

theorem lookup_linkInput {members : List (String × Json)}
    (h : linkInput model relationship id other = .obj members) :
    members.lookup model.identity.name = some id.toJson ∧
      members.lookup InputEntry.labelKey = none := by
  have hsound := hschema.model model hmodel
  have hname : (model.identity.name == relationship.name) = false :=
    beq_false_of_ne fun heq => hsound.not_mem_fields hmem (heq ▸ List.mem_cons_self)
  have hidentity : (InputEntry.labelKey == model.identity.name) = false :=
    beq_false_of_ne (InputEntry.name_ne_labelKey hsound.identityName).symm
  have hlabel : (InputEntry.labelKey == relationship.name) = false :=
    beq_false_of_ne (InputEntry.name_ne_labelKey (hsound.unreserved_relationship hmem)).symm
  obtain ⟨found, hfound, horder⟩ := linkInput_eq hschema hmodel hmem id other
  rw [h] at hfound
  obtain rfl := Json.obj.inj hfound
  rcases horder with rfl | rfl <;>
    simp only [List.lookup_cons, List.lookup_nil, beq_self_eq_true, hname, hidentity, hlabel,
      and_self]

omit hschema hmodel hmem in
/-- The identity in an update names the record, and gives no value. -/
theorem read_identity (schema : Schema) (model : Model) (linkedBy : Option String) (json : Json) :
    InputEntry.read model (schema.input .update model) linkedBy model.identity.name json =
      .ignored := by
  unfold InputEntry.read
  exact if_pos (.inr ⟨rfl, rfl⟩)

include htarget

theorem read_link (other : Identity) :
    InputEntry.read model (schema.input .update model) none relationship.name
      (linkJson relationship other) = .relation relationship := by
  rw [InputEntry.read_relationship hschema hmodel (by decide) hmem htarget,
    isNull_linkJson, if_neg (by simp), Bool.false_and, if_neg Bool.false_ne_true]

theorem values_linkInput {members : List (String × Json)}
    (h : linkInput model relationship id other = .obj members) :
    InputEntry.values model (schema.input .update model) none members = .empty := by
  have hlink := read_link hschema hmodel hmem htarget other
  have hidentity := read_identity schema model none id.toJson
  obtain ⟨found, hfound, horder⟩ := linkInput_eq hschema hmodel hmem id other
  rw [h] at hfound
  obtain rfl := Json.obj.inj hfound
  unfold InputEntry.values
  rcases horder with rfl | rfl <;>
    simp only [List.filterMap_cons, List.filterMap_nil, hlink, hidentity] <;> rfl

theorem planMembers_linkInput {members : List (String × Json)}
    (h : linkInput model relationship id other = .obj members) (draft : PlanDraft) :
    planMembers schema 0 model (schema.input .update model) none "" draft members =
      planRelation schema 0 model relationship.name draft relationship
        (linkJson relationship other) := by
  have hlink : ∀ draft, planMember schema 0 model (schema.input .update model) none "" draft
      relationship.name (linkJson relationship other) =
        planRelation schema 0 model relationship.name draft relationship
          (linkJson relationship other) := by
    intro draft
    unfold planMember
    rw [read_link hschema hmodel hmem htarget]
    rfl
  have hidentity : ∀ draft, planMember schema 0 model (schema.input .update model) none "" draft
      model.identity.name id.toJson = draft := by
    intro draft
    unfold planMember
    rw [read_identity]
  obtain ⟨found, hfound, horder⟩ := linkInput_eq hschema hmodel hmem id other
  rw [h] at hfound
  obtain rfl := Json.obj.inj hfound
  rcases horder with rfl | rfl
  · rw [planMembers_cons, planMembers_cons, hidentity, hlink]
    rfl
  · rw [planMembers_cons, planMembers_cons, hidentity, hlink]
    rfl

/-- The input is planned if both identities can be read, and as one record and one link. -/
theorem ofInput_linkInput (id other : Identity) (plan : Plan) :
    Plan.ofInput schema model .update (linkInput model relationship id other) = .ok plan ↔
      ∃ found linked, Identity.ofJson model.identity.kind id.toJson = .ok found ∧
        Identity.ofJson target.identity.kind other.toJson = .ok linked ∧
        plan = Plan.ofLink model target relationship found linked := by
  have hrefused : ∀ {draft : PlanDraft} {path : String} {fault : InputFault},
      (draft.report path fault).finish ≠ .ok plan := fun h =>
    violations_report _ _ (finish_ok h).2.1
  obtain ⟨members, hmembers, -⟩ := linkInput_eq hschema hmodel hmem id other
  obtain ⟨hidentity, hlabel⟩ := lookup_linkInput hschema hmodel hmem hmembers
  unfold Plan.ofInput ofInput readAction
  rw [hmembers]
  dsimp only
  rw [if_pos rfl, hidentity]
  dsimp only
  cases hfound : Identity.ofJson model.identity.kind id.toJson with
  | error fault =>
      dsimp only
      refine iff_of_false hrefused ?_
      rintro ⟨_, _, h, -⟩
      cases h
  | ok found =>
      dsimp only
      rw [if_neg (by decide), planMembers_linkInput hschema hmodel hmem htarget hmembers,
        planRelation_link htarget]
      unfold openNode
      rw [values_linkInput hschema hmodel hmem htarget hmembers, hlabel]
      cases hlinked : Identity.ofJson target.identity.kind other.toJson with
      | error fault =>
          dsimp only
          refine iff_of_false hrefused ?_
          rintro ⟨_, _, -, h, -⟩
          cases h
      | ok linked =>
          have hplan := finish_link model target relationship found linked
          constructor
          · intro h
            exact ⟨found, linked, rfl, rfl, (Except.ok.inj (hplan.symm.trans h)).symm⟩
          · rintro ⟨_, _, ⟨⟩, ⟨⟩, rfl⟩
            exact hplan

end

end PlanDraft

end ModelSurface
