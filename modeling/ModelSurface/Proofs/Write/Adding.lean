import ModelSurface.Proofs.Write.Finishing
import ModelSurface.Proofs.Write.Objects

/-!
# What planning adds

Reading an object adds the records of its objects to a plan, and the links to all that they name.
-/

namespace ModelSurface

namespace PlanDraft

/-- A planned record is joined to another one by a link of a draft. -/
def Joins (draft : PlanDraft) : Joined := fun index model target relationship other =>
  ∃ link ∈ draft.links, link.Joins (.node index) model target relationship other

/-- A draft grows by the records of some objects. If nothing is wrong with the input, the objects
can be read, and their records are joined to all that they name. -/
structure Adds (schema : Schema) (before after : PlanDraft) (objects : List InputObject) :
    Prop where
  nodes : ∃ nodes, after.nodes = before.nodes ++ nodes ∧
    objects.Forall₂ InputObject.Plans nodes
  links : before.links ⊆ after.links
  labels : ∀ label index name, after.labels.get? label = some (index, name) →
    before.labels.get? label = some (index, name) ∨ ∃ place, ∃ object : InputObject,
      index = before.nodes.length + place ∧ objects[place]? = some object ∧
        object.label? = some label ∧ object.model.name = name
  clean : after.violations = [] → before.violations = []
  read : after.violations = [] → ∀ place (object : InputObject), objects[place]? = some object →
    object.Readable ∧ object.Joined schema after.Joins (before.nodes.length + place)

variable {schema : Schema} {before between after draft : PlanDraft} {xs ys : List InputObject}

theorem Joins.mono (hlinks : before.links ⊆ after.links) {index : Nat} {model target : Model}
    {relationship : Relationship} {other : Option DraftRef}
    (h : before.Joins index model target relationship other) :
    after.Joins index model target relationship other :=
  h.imp fun _ ⟨hlink, hjoins⟩ => ⟨hlinks hlink, hjoins⟩

namespace Adds

theorem length (h : Adds schema before after xs) :
    after.nodes.length = before.nodes.length + xs.length := by
  obtain ⟨nodes, hnodes, hplans⟩ := h.nodes
  rw [hnodes, List.length_append, hplans.length_eq]

/-- A draft that only gets further links or violations. -/
theorem of_nodes_eq (hnodes : after.nodes = before.nodes) (hlinks : before.links ⊆ after.links)
    (hlabels : after.labels = before.labels)
    (hclean : after.violations = [] → before.violations = []) : Adds schema before after [] where
  nodes := ⟨[], by rw [hnodes, List.append_nil], .nil⟩
  links := hlinks
  labels label index name h := .inl (hlabels ▸ h)
  clean := hclean
  read _ _ _ h := by cases h

theorem refl (draft : PlanDraft) : Adds schema draft draft [] :=
  of_nodes_eq rfl (List.Subset.refl _) rfl id

theorem trans (h : Adds schema before between xs) (h' : Adds schema between after ys) :
    Adds schema before after (xs ++ ys) where
  nodes := by
    obtain ⟨first, hfirst, hfirst_plans⟩ := h.nodes
    obtain ⟨last, hlast, hlast_plans⟩ := h'.nodes
    refine ⟨first ++ last, ?_, List.rel_append hfirst_plans hlast_plans⟩
    rw [hlast, hfirst, List.append_assoc]
  links := List.Subset.trans h.links h'.links
  labels label index name hlabel := by
    rcases h'.labels label index name hlabel with hearlier | ⟨place, object, rfl, hplace, hobject⟩
    · refine (h.labels label index name hearlier).imp_right ?_
      rintro ⟨place, object, rfl, hplace, hobject⟩
      refine ⟨place, object, rfl, ?_, hobject⟩
      rw [List.getElem?_append_left (List.getElem?_eq_some_iff.mp hplace).1, hplace]
    · refine .inr ⟨xs.length + place, object, ?_, ?_, hobject⟩
      · rw [h.length, Nat.add_assoc]
      · rw [List.getElem?_append_right (Nat.le_add_right _ _), Nat.add_sub_cancel_left, hplace]
  clean hnone := h.clean (h'.clean hnone)
  read hnone place object hobject := by
    by_cases hplace : place < xs.length
    · rw [List.getElem?_append_left hplace] at hobject
      obtain ⟨hreadable, hjoined⟩ := h.read (h'.clean hnone) place object hobject
      exact ⟨hreadable, hjoined.mono fun _ _ _ _ hjoins => hjoins.mono h'.links⟩
    · rw [List.getElem?_append_right (Nat.le_of_not_lt hplace)] at hobject
      obtain ⟨hreadable, hjoined⟩ := h'.read hnone _ object hobject
      refine ⟨hreadable, ?_⟩
      have hindex : between.nodes.length + (place - xs.length) = before.nodes.length + place := by
        rw [h.length]
        omega
      rwa [hindex] at hjoined

end Adds

theorem report_adds (draft : PlanDraft) (path : String) (fault : InputFault) :
    Adds schema draft (draft.report path fault) [] :=
  .of_nodes_eq rfl (List.Subset.refl _) rfl fun h => absurd h (violations_report _ _)

theorem linkTo_adds (schema : Schema) (draft : PlanDraft) (index : Nat) (model target : Model)
    (relationship : Relationship) (path : String) (other : Option DraftRef)
    (hother : other = none → relationship.isOwn = true) :
    Adds schema draft (draft.linkTo index model target relationship path other) [] ∧
      (draft.linkTo index model target relationship path other).Joins index model target
        relationship other := by
  have hadd : ∀ link, Adds schema draft (draft.addLink link) [] := fun link =>
    .of_nodes_eq rfl (List.subset_append_left _ _) rfl id
  have hlast : ∀ link, link ∈ (draft.addLink link).links := fun link =>
    List.mem_append_right _ (List.mem_singleton.mpr rfl)
  unfold linkTo Joins Link.Joins
  cases hownership : relationship.ownership with
  | own => exact ⟨hadd _, _, hlast _, rfl, rfl, rfl, rfl, rfl, rfl⟩
  | remote field =>
      cases other with
      | none =>
          have hown := Relationship.isOwn_iff.mp (hother rfl)
          rw [hownership] at hown
          cases hown
      | some ref => exact ⟨hadd _, _, hlast _, rfl, rfl, rfl, rfl, rfl, rfl⟩

theorem readReference_adds (draft : PlanDraft) (target : Model) (relationship : Relationship)
    (place : Nat) (path : String) (members : List (String × Json)) :
    Adds schema draft (draft.readReference target path members).1 [] ∧
      match (draft.readReference target path members).2 with
      | some other => ItemNames target relationship place (.obj members) (some other)
      | none => (draft.readReference target path members).1.violations ≠ [] := by
  unfold readReference
  split
  · exact ⟨report_adds _ _ _, violations_report _ _⟩
  · split
    · rename_i label hlabel
      exact ⟨.refl draft, .label hlabel⟩
    · exact ⟨report_adds _ _ _, violations_report _ _⟩

theorem readIdentity_adds (draft : PlanDraft) (target : Model) (relationship : Relationship)
    (place : Nat) (path : String) (json : Json) :
    Adds schema draft (draft.readIdentity target path json).1 [] ∧
      match (draft.readIdentity target path json).2 with
      | some other => ItemNames target relationship place json (some other)
      | none => (draft.readIdentity target path json).1.violations ≠ [] := by
  unfold readIdentity
  split
  · rename_i id hid
    exact ⟨.refl draft, .identity hid⟩
  · exact ⟨report_adds _ _ _, violations_report _ _⟩

theorem closeNode_adds (draft : PlanDraft) (index : Nat) (type : InputType)
    (linkedBy : Option String) (path : String) (members : List (String × Json)) :
    Adds schema draft (draft.closeNode index type linkedBy path members) [] := by
  unfold closeNode
  generalize type.fields.filter _ = fields
  induction fields generalizing draft with
  | nil => exact .refl draft
  | cons field fields ih =>
      rw [List.foldl_cons]
      have hfirst : Adds schema draft (require index path draft field) [] := by
        unfold require
        cases field.shape with
        | scalar kind list => exact report_adds _ _ _
        | relation relation => exact .of_nodes_eq rfl (List.Subset.refl _) rfl id
      exact hfirst.trans (ih _)

theorem addLabel_adds (draft : PlanDraft) (index : Nat) (model : Model) (action : NodeAction)
    (path : String) (json : Json) :
    let labelled := draft.addLabel index model action path json
    labelled.nodes = draft.nodes ∧ labelled.links = draft.links ∧
      (∀ label place name, labelled.labels.get? label = some (place, name) →
        draft.labels.get? label = some (place, name) ∨
          place = index ∧ json = .str label ∧ model.name = name) ∧
      (labelled.violations = [] → draft.violations = []) := by
  intro labelled
  have hreport : ∀ path fault, labelled = draft.report path fault →
      labelled.nodes = draft.nodes ∧ labelled.links = draft.links ∧
      (∀ label place name, labelled.labels.get? label = some (place, name) →
        draft.labels.get? label = some (place, name) ∨
          place = index ∧ json = .str label ∧ model.name = name) ∧
      (labelled.violations = [] → draft.violations = []) := by
    rintro path fault heq
    rw [heq]
    exact ⟨rfl, rfl, fun _ _ _ h => .inl h, fun h => absurd h (violations_report _ _)⟩
  cases json with
  | str label =>
      have hput : ∀ other place name, (draft.labels.put label (index, model.name)).get? other =
          some (place, name) → draft.labels.get? other = some (place, name) ∨
            place = index ∧ Json.str label = .str other ∧ model.name = name := by
        intro other place name hother
        rw [Keyed.get?_put] at hother
        split at hother
        · rename_i hsame
          obtain ⟨rfl, rfl⟩ := Prod.mk.inj (Option.some.inj hother)
          exact .inr ⟨rfl, congrArg Json.str hsame.symm, rfl⟩
        · exact .inl hother
      by_cases haction : action ≠ .create
      · exact hreport _ _ (if_pos haction)
      · have hlabelled : labelled = (if draft.labels.contains label then
            PlanDraft.report { draft with labels := draft.labels.put label (index, model.name) }
              (join path InputEntry.labelKey) (.labelTwice label)
            else { draft with labels := draft.labels.put label (index, model.name) }) :=
          if_neg haction
        rw [hlabelled]
        split
        · exact ⟨rfl, rfl, hput, fun h => absurd h (violations_report _ _)⟩
        · exact ⟨rfl, rfl, hput, id⟩
  | null | bool | num | arr | obj => exact hreport _ _ rfl

/-- The record that an object stands for is planned behind all others. -/
theorem openNode_adds (draft : PlanDraft) (object : InputObject) (path : String) :
    let opened := draft.openNode object.model object.type object.action object.linkedBy path
      object.members
    (∃ node, opened.nodes = draft.nodes ++ [node] ∧ object.Plans node) ∧
      opened.links = draft.links ∧
      (∀ label place name, opened.labels.get? label = some (place, name) →
        draft.labels.get? label = some (place, name) ∨
          place = draft.nodes.length ∧ object.label? = some label ∧ object.model.name = name) ∧
      (opened.violations = [] → draft.violations = []) := by
  intro opened
  have hopened : opened = draft.openNode object.model object.type object.action object.linkedBy
    path object.members := rfl
  unfold openNode at hopened
  extract_lets node index planned at hopened
  cases hlookup : object.members.lookup InputEntry.labelKey with
  | none =>
      rw [hlookup] at hopened
      rw [hopened]
      exact ⟨⟨node, rfl, rfl, rfl, rfl⟩, rfl, fun _ _ _ h => .inl h, id⟩
  | some json =>
      rw [hlookup] at hopened
      obtain ⟨hnodes, hlinks, hlabels, hclean⟩ :=
        addLabel_adds planned index object.model object.action path json
      rw [hopened]
      refine ⟨⟨node, hnodes, rfl, rfl, rfl⟩, hlinks, ?_, hclean⟩
      intro label place name hlabel
      refine (hlabels label place name hlabel).imp_right ?_
      rintro ⟨rfl, rfl, hname⟩
      refine ⟨rfl, ?_, hname⟩
      unfold InputObject.label?
      rw [hlookup]

/-- An object is read: its record is planned, its members are, and what is left is done. -/
theorem object_adds (object : InputObject) {path : String} {nested : List InputObject}
    {filled : PlanDraft}
    (hnested : Adds schema (draft.openNode object.model object.type object.action object.linkedBy
      path object.members) filled nested)
    (hread : filled.violations = [] → object.Readable ∧
      object.Joined schema filled.Joins draft.nodes.length)
    (hafter : Adds schema filled after []) : Adds schema draft after (object :: nested) := by
  obtain ⟨⟨node, hnode, hplans⟩, hlinks, hlabels, hclean⟩ := openNode_adds draft object path
  have hdone := hnested.trans hafter
  rw [List.append_nil] at hdone
  refine ⟨?_, ?_, ?_, fun h => hclean (hdone.clean h), ?_⟩
  · obtain ⟨nodes, hnodes, hall⟩ := hdone.nodes
    refine ⟨node :: nodes, ?_, .cons hplans hall⟩
    rw [hnodes, hnode, List.append_assoc, List.singleton_append]
  · rw [← hlinks]
    exact hdone.links
  · intro label place name hlabel
    rcases hdone.labels label place name hlabel with hopened | ⟨inner, found, rfl, hinner, hfound⟩
    · refine (hlabels label place name hopened).imp_right ?_
      rintro ⟨rfl, hobject⟩
      exact ⟨0, object, rfl, rfl, hobject⟩
    · refine .inr ⟨inner + 1, found, ?_, hinner, hfound⟩
      rw [hnode, List.length_append, List.length_singleton]
      omega
  · intro hnone place found hfound
    cases place with
    | zero =>
        obtain rfl : object = found := Option.some.inj hfound
        obtain ⟨hreadable, hjoined⟩ := hread (hafter.clean hnone)
        exact ⟨hreadable, hjoined.mono fun _ _ _ _ hjoins => hjoins.mono hafter.links⟩
    | succ place =>
        obtain ⟨hreadable, hjoined⟩ := hdone.read hnone place found hfound
        refine ⟨hreadable, ?_⟩
        rw [hnode, List.length_append, List.length_singleton, Nat.add_right_comm] at hjoined
        exact hjoined

/-- An item that names another record is linked to it. -/
theorem linkRead_adds {index : Nat} {model target : Model} {relationship : Relationship}
    {path : String} {json : Json} {place : Nat} {result : PlanDraft × Option DraftRef}
    (hafter : after = match result with
      | (read, some other) => read.linkTo index model target relationship path (some other)
      | (read, none) => read)
    (hread : Adds schema draft result.1 [] ∧ match result.2 with
      | some other => ItemNames target relationship place json (some other)
      | none => result.1.violations ≠ []) :
    Adds schema draft after [] ∧ (after.violations = [] → ∃ other,
      ItemNames target relationship place json other ∧
        after.Joins index model target relationship other) := by
  obtain ⟨read, other⟩ := result
  obtain ⟨hadds, hnames⟩ := hread
  cases other with
  | none =>
      rw [hafter]
      exact ⟨hadds, fun hnone => absurd hnone hnames⟩
  | some other =>
      obtain ⟨hlinked, hjoins⟩ := linkTo_adds schema read index model target relationship path
        (some other) fun h => by cases h
      rw [hafter]
      exact ⟨hadds.trans hlinked, fun _ => ⟨some other, hnames, hjoins⟩⟩

/-- An item that is no object. -/
theorem planOther_adds {index : Nat} {model target : Model} {relationship : Relationship}
    {path : String} {json : Json} (hjson : ∀ members, json ≠ .obj members) :
    Adds schema draft (planItem schema index model target relationship path draft json) [] ∧
      ((planItem schema index model target relationship path draft json).violations = [] →
        ∃ other, ItemNames target relationship draft.nodes.length json other ∧
          (planItem schema index model target relationship path draft json).Joins index model
            target relationship other) := by
  rw [planItem.eq_2 _ _ _ _ _ _ _ _ hjson]
  by_cases hnone : (json.isNull && relationship.isOwn) = true
  · obtain ⟨hnull, hown⟩ := Bool.and_eq_true_iff.mp hnone
    rw [if_pos hnone]
    by_cases hmany : relationship.isMany = true
    · rw [if_pos hmany]
      exact ⟨report_adds _ _ _, fun h => absurd h (violations_report _ _)⟩
    · rw [if_neg hmany]
      obtain ⟨hlinked, hjoins⟩ := linkTo_adds schema draft index model target relationship path none
        fun _ => hown
      exact ⟨hlinked, fun _ => ⟨none, .nothing hnull hown, hjoins⟩⟩
  · rw [if_neg hnone]
    exact linkRead_adds rfl
      (readIdentity_adds draft target relationship draft.nodes.length path json)

/-! ### Objects within objects -/

mutual

theorem planMembers_adds (index : Nat) (model : Model) (type : InputType)
    (linkedBy : Option String) (path : String) (draft : PlanDraft) :
    (members : List (String × Json)) →
    Adds schema draft (planMembers schema index model type linkedBy path draft members)
      (schema.objects model type linkedBy members) ∧
    ((planMembers schema index model type linkedBy path draft members).violations = [] →
      (∀ name json, (name, json) ∈ members → ∀ fault,
        InputEntry.read model type linkedBy name json ≠ .wrong fault) ∧
      MembersJoined schema
        (planMembers schema index model type linkedBy path draft members).Joins index
        draft.nodes.length model type linkedBy members)
  | [] => ⟨.refl draft, fun _ => ⟨fun _ _ h => absurd h List.not_mem_nil, fun before _ _ _ h =>
      absurd h.symm (List.append_ne_nil_of_right_ne_nil before (List.cons_ne_nil _ _))⟩⟩
  | (name, json) :: rest => by
    rw [planMembers_cons, Schema.objects_cons]
    obtain ⟨hfirst, hfirst_read⟩ :=
      planMember_adds index model type linkedBy path draft name json
    obtain ⟨hrest, hrest_read⟩ := planMembers_adds index model type linkedBy path
      (planMember schema index model type linkedBy path draft name json) rest
    refine ⟨hfirst.trans hrest, fun hnone => ?_⟩
    obtain ⟨hreadable, hjoined⟩ := hfirst_read (hrest.clean hnone)
    obtain ⟨hrest_readable, hrest_joined⟩ := hrest_read hnone
    refine ⟨?_, ?_⟩
    · intro other found hmem
      rcases List.mem_cons.mp hmem with heq | hbehind
      · obtain ⟨rfl, rfl⟩ := Prod.mk.inj heq
        exact hreadable
      · exact hrest_readable other found hbehind
    · refine .cons (fun relationship hread => (hjoined relationship hread).mono
        fun _ _ _ _ hjoins => hjoins.mono hrest.links) ?_
      rwa [hfirst.length] at hrest_joined
termination_by members => (sizeOf members, 0)

theorem planMember_adds (index : Nat) (model : Model) (type : InputType)
    (linkedBy : Option String) (path : String) (draft : PlanDraft) (name : String) (json : Json) :
    Adds schema draft (planMember schema index model type linkedBy path draft name json)
      (schema.memberObjects model type linkedBy name json) ∧
    ((planMember schema index model type linkedBy path draft name json).violations = [] →
      (∀ fault, InputEntry.read model type linkedBy name json ≠ .wrong fault) ∧
      ∀ relationship, InputEntry.read model type linkedBy name json = .relation relationship →
        RelationJoined schema
          (planMember schema index model type linkedBy path draft name json).Joins index
          draft.nodes.length model relationship json) := by
  unfold planMember Schema.memberObjects
  cases hread : InputEntry.read model type linkedBy name json with
  | ignored | scalar =>
      exact ⟨.refl draft, fun _ => ⟨fun _ h => (by cases h), fun _ h => (by cases h)⟩⟩
  | wrong fault => exact ⟨report_adds _ _ _, fun h => absurd h (violations_report _ _)⟩
  | relation relationship =>
      obtain ⟨hadds, hjoined⟩ := planRelation_adds index model relationship (join path name)
        draft json
      refine ⟨hadds, fun hnone => ⟨fun _ h => (by cases h), fun found hfound => ?_⟩⟩
      obtain rfl : relationship = found := by injection hfound
      exact hjoined hnone
termination_by (sizeOf json, 2)

theorem planRelation_adds (index : Nat) (model : Model) (relationship : Relationship)
    (path : String) (draft : PlanDraft) (json : Json) :
    Adds schema draft (planRelation schema index model path draft relationship json)
      (schema.relationObjects relationship json) ∧
    ((planRelation schema index model path draft relationship json).violations = [] →
      RelationJoined schema (planRelation schema index model path draft relationship json).Joins
        index draft.nodes.length model relationship json) := by
  unfold planRelation Schema.relationObjects RelationJoined
  cases htarget : schema.model? relationship.target with
  | none => exact ⟨.refl draft, fun _ _ h => by cases h⟩
  | some target =>
      dsimp only
      by_cases hmany : relationship.isMany = true
      · rw [if_pos hmany, if_pos hmany]
        cases json with
        | arr items =>
            obtain ⟨hadds, hjoined⟩ := planItems_adds index model target relationship path 0
              draft items
            refine ⟨hadds, fun hnone found hfound => ⟨items, ?_, ?_⟩⟩
            · unfold Relationship.items?
              rw [if_pos hmany]
            · rw [← Option.some.inj hfound]
              exact hjoined hnone
        | null | bool | num | str | obj =>
            exact ⟨report_adds _ _ _, fun h => absurd h (violations_report _ _)⟩
      · rw [if_neg hmany, if_neg hmany]
        obtain ⟨hadds, hjoined⟩ := planItem_adds index model target relationship path draft json
        refine ⟨hadds, fun hnone found hfound => ⟨[json], ?_, ?_⟩⟩
        · unfold Relationship.items?
          rw [if_neg hmany]
        · rw [← Option.some.inj hfound]
          obtain ⟨other, hnames, hjoins⟩ := hjoined hnone
          exact .cons hnames hjoins fun before _ _ h =>
            absurd h.symm (List.append_ne_nil_of_right_ne_nil before (List.cons_ne_nil _ _))
termination_by (sizeOf json, 1)

theorem planItems_adds (index : Nat) (model target : Model) (relationship : Relationship)
    (path : String) (position : Nat) (draft : PlanDraft) : (items : List Json) →
    Adds schema draft (planItems schema index model target relationship path position draft items)
      (schema.itemsObjects target relationship items) ∧
    ((planItems schema index model target relationship path position draft items).violations = [] →
      ItemsJoined schema
        (planItems schema index model target relationship path position draft items).Joins index
        draft.nodes.length model target relationship items)
  | [] => ⟨.refl draft, fun _ before _ _ h =>
      absurd h.symm (List.append_ne_nil_of_right_ne_nil before (List.cons_ne_nil _ _))⟩
  | item :: items => by
    obtain ⟨hfirst, hfirst_joined⟩ := planItem_adds index model target relationship
      s!"{path}[{position}]" draft item
    obtain ⟨hrest, hrest_joined⟩ := planItems_adds index model target relationship path
      (position + 1)
      (planItem schema index model target relationship s!"{path}[{position}]" draft item) items
    refine ⟨hfirst.trans hrest, fun hnone => ?_⟩
    obtain ⟨other, hnames, hjoins⟩ := hfirst_joined (hrest.clean hnone)
    refine .cons hnames (hjoins.mono hrest.links) ?_
    have hjoined := hrest_joined hnone
    rwa [hfirst.length] at hjoined
termination_by items => (sizeOf items, 0)

theorem planItem_adds (index : Nat) (model target : Model) (relationship : Relationship)
    (path : String) (draft : PlanDraft) (json : Json) :
    Adds schema draft (planItem schema index model target relationship path draft json)
      (schema.itemObjects target relationship json) ∧
    ((planItem schema index model target relationship path draft json).violations = [] →
      ∃ other, ItemNames target relationship draft.nodes.length json other ∧
        (planItem schema index model target relationship path draft json).Joins index model target
          relationship other) := by
  cases json with
  | obj members =>
      rw [planItem, Schema.itemObjects]
      by_cases hlabelled : (members.lookup InputEntry.referenceKey).isSome
      · rw [if_pos hlabelled, if_pos hlabelled]
        exact linkRead_adds rfl
          (readReference_adds draft target relationship draft.nodes.length path members)
      · rw [if_neg hlabelled, if_neg hlabelled]
        let object : InputObject :=
          ⟨target, schema.input .create target, .create, innerLink relationship, members⟩
        obtain ⟨hnested, hread⟩ := planMembers_adds draft.nodes.length target object.type
          object.linkedBy path
          (draft.openNode target object.type .create object.linkedBy path members) members
        obtain ⟨hlinked, hjoins⟩ := linkTo_adds schema ((planMembers schema
          draft.nodes.length target object.type object.linkedBy path
          (draft.openNode target object.type .create object.linkedBy path members)
          members).closeNode draft.nodes.length object.type object.linkedBy path members) index
          model target relationship path (some (.node draft.nodes.length))
          fun h => by cases h
        obtain ⟨⟨node, hnode, -⟩, -⟩ := openNode_adds draft object path
        refine ⟨object_adds object hnested ?_
          ((closeNode_adds _ _ _ _ _ _).trans hlinked), fun _ => ⟨_, .object ?_, hjoins⟩⟩
        · intro hnone
          obtain ⟨hreadable, hjoined⟩ := hread hnone
          refine ⟨hreadable, ?_⟩
          rw [show (draft.openNode target object.type .create object.linkedBy path
            members).nodes.length = draft.nodes.length + 1 from by
              rw [hnode, List.length_append, List.length_singleton]] at hjoined
          exact hjoined
        · rwa [Option.not_isSome_iff_eq_none] at hlabelled
  | _ => exact planOther_adds (by simp)
termination_by (sizeOf json, 0)

end

/-! ### The whole input -/

/-- What an item names, by the objects of the input: a labelled object is one that carries the
label. -/
inductive Finds (objects : List InputObject) : Option DraftRef → Option NodeRef → Prop
  | nothing : Finds objects none none
  | node (index : Nat) : Finds objects (some (.node index)) (some (.node index))
  | stored (id : Identity) : Finds objects (some (.stored id)) (some (.stored id))
  | labelled {label model : String} {index : Nat} {object : InputObject}
      (hobject : objects[index]? = some object) (hlabel : object.label? = some label)
      (hmodel : object.model.name = model) :
      Finds objects (some (.labelled label model)) (some (.node index))

theorem ofInput_adds {model : Model} {kind : InputKind} {input : Json}
    (hnone : (ofInput schema model kind input).violations = []) :
    Adds schema {} (ofInput schema model kind input) (schema.inputObjects model kind input) := by
  unfold ofInput at hnone ⊢
  unfold Schema.inputObjects
  cases input with
  | null | bool | num | str | arr => exact absurd hnone (violations_report _ _)
  | obj members =>
      dsimp only at hnone ⊢
      cases haction : readAction model kind members with
      | error fault =>
          rw [haction] at hnone
          exact absurd hnone (violations_report _ _)
      | ok action =>
          let object : InputObject := ⟨model, schema.input kind model, action, none, members⟩
          obtain ⟨hnested, hread⟩ := planMembers_adds 0 model object.type none ""
            (openNode {} model object.type action none "" members) members
          obtain ⟨⟨node, hnode, -⟩, -⟩ := openNode_adds {} object ""
          dsimp only
          refine object_adds object hnested ?_ ?_
          · intro hfilled
            obtain ⟨hreadable, hjoined⟩ := hread hfilled
            refine ⟨hreadable, ?_⟩
            rw [show (openNode {} model object.type action none "" members).nodes.length = 1 from by
              rw [hnode]; rfl] at hjoined
            exact hjoined
          · split
            · exact closeNode_adds _ _ _ _ _ _
            · exact .refl _

theorem resolve_finds {objects : List InputObject} (h : Adds schema {} draft objects)
    {ref : DraftRef} {found : NodeRef} (hresolve : resolve draft.labels ref = .ok found) :
    Finds objects (some ref) (some found) := by
  cases ref with
  | node index =>
      rw [← Except.ok.inj hresolve]
      exact .node index
  | stored id =>
      rw [← Except.ok.inj hresolve]
      exact .stored id
  | labelled label model =>
      unfold resolve at hresolve
      dsimp only at hresolve
      split at hresolve
      · cases hresolve
      · rename_i index name hlabel
        split at hresolve
        · rename_i hname
          rcases h.labels label index name hlabel with hempty | ⟨place, object, rfl, hobject⟩
          · cases hempty
          · rw [← Except.ok.inj hresolve]
            rw [List.length_nil, Nat.zero_add]
            exact .labelled hobject.1 hobject.2.1 (hobject.2.2.trans hname)
        · cases hresolve

theorem resolveValue_finds {objects : List InputObject} (h : Adds schema {} draft objects)
    {value : Option DraftRef} {found : Option NodeRef}
    (hresolve : resolveValue draft.labels value = .ok found) : Finds objects value found := by
  obtain ⟨rfl, rfl⟩ | ⟨ref, target, rfl, rfl, hfound⟩ := resolveValue_ok hresolve
  · exact .nothing
  · exact resolve_finds h hfound

/-- A link that is resolved joins the records that the link named. -/
theorem joins_of_resolved {objects : List InputObject} (h : Adds schema {} draft objects)
    {link : Link DraftRef} {resolved : Link NodeRef}
    (hresolve : resolveLink draft.labels link = .ok resolved) {index : Nat} {model target : Model}
    {relationship : Relationship} {other : Option DraftRef}
    (hjoins : link.Joins (.node index) model target relationship other) :
    ∃ found, Finds objects other found ∧
      resolved.Joins (.node index) model target relationship found := by
  obtain ⟨holder, value, hholder, hvalue, rfl⟩ := resolveLink_ok hresolve
  unfold Link.Joins at hjoins ⊢
  cases hownership : relationship.ownership with
  | own =>
      rw [hownership] at hjoins
      obtain ⟨heq, hmodel, hfield, rfl, htarget, hmany⟩ := hjoins
      rw [heq] at hholder
      exact ⟨value, resolveValue_finds h hvalue, (Except.ok.inj hholder).symm, hmodel, hfield, rfl,
        htarget, hmany⟩
  | remote field =>
      rw [hownership] at hjoins
      obtain ⟨rfl, hmodel, hfield, heq, htarget, hmany⟩ := hjoins
      rw [heq] at hvalue
      exact ⟨some holder, resolve_finds h hholder, rfl, hmodel, hfield, (Except.ok.inj hvalue).symm,
        htarget, hmany⟩

end PlanDraft

/-- A planned record is joined to another one by a link of a plan. -/
def Plan.Joins (plan : Plan) (objects : List InputObject) : Joined :=
  fun index model target relationship other => ∃ found, PlanDraft.Finds objects other found ∧
    ∃ link ∈ plan.links, link.Joins (.node index) model target relationship found

/-- A plan has a record for each of some objects, all of which can be read, and a link for each
record that one of them names. -/
structure Plan.Reads (plan : Plan) (schema : Schema) (objects : List InputObject) : Prop where
  nodes : objects.Forall₂ InputObject.Plans plan.nodes
  readable : ∀ object ∈ objects, object.Readable
  joined : ∀ index object, objects[index]? = some object →
    InputObject.Joined object schema (plan.Joins objects) index

namespace Plan.Reads

variable {plan : Plan} {schema : Schema} {objects : List InputObject} {index : Nat}

theorem length (h : plan.Reads schema objects) : plan.nodes.length = objects.length :=
  h.nodes.length_eq.symm

theorem node (h : plan.Reads schema objects) {object : InputObject}
    (hobject : objects[index]? = some object) :
    ∃ node, plan.nodes[index]? = some node ∧ object.Plans node := by
  obtain ⟨hindex, rfl⟩ := List.getElem?_eq_some_iff.mp hobject
  have hnode : index < plan.nodes.length := h.length ▸ hindex
  exact ⟨_, List.getElem?_eq_getElem hnode, h.nodes.get hindex hnode⟩

theorem object (h : plan.Reads schema objects) {node : PlanNode}
    (hnode : plan.nodes[index]? = some node) :
    ∃ object, objects[index]? = some object ∧ object.Plans node := by
  obtain ⟨hindex, rfl⟩ := List.getElem?_eq_some_iff.mp hnode
  have hobject : index < objects.length := h.length ▸ hindex
  exact ⟨_, List.getElem?_eq_getElem hobject, h.nodes.get hobject hindex⟩

end Plan.Reads

/-- An input that can be planned is read as a whole. -/
theorem Plan.ofInput_reads {schema : Schema} {model : Model} {kind : InputKind} {input : Json}
    {plan : Plan} (h : Plan.ofInput schema model kind input = .ok plan) :
    plan.Reads schema (schema.inputObjects model kind input) := by
  obtain ⟨rfl, hnone, hresolved, -⟩ := PlanDraft.finish_ok h
  have hadds := PlanDraft.ofInput_adds hnone
  refine ⟨?_, ?_, ?_⟩
  · obtain ⟨nodes, hnodes, hplans⟩ := hadds.nodes
    rw [hnodes]
    exact hplans
  · intro object hobject
    obtain ⟨index, hindex⟩ := List.mem_iff_getElem?.mp hobject
    exact (hadds.read hnone index object hindex).1
  · intro index object hobject
    have hjoined := (hadds.read hnone index object hobject).2
    rw [List.length_nil, Nat.zero_add] at hjoined
    refine hjoined.mono ?_
    rintro model target relationship other ⟨link, hlink, hjoins⟩
    obtain ⟨resolved, hresolve⟩ := hresolved link hlink
    obtain ⟨found, hfinds, hfound⟩ := PlanDraft.joins_of_resolved hadds hresolve hjoins
    exact ⟨found, hfinds, resolved, PlanDraft.mem_resolvedLinks.mpr ⟨link, hlink, hresolve⟩, hfound⟩

end ModelSurface
