import ModelSurface.Proofs.Engine.Sides
import ModelSurface.Proofs.Write.Accepting

/-!
# What is wrong with an input

A flaw is told by the entry that has it: what stands there, and the model and the names that lead
there. It does not depend on what is wrong beside it, around it or within it, and neither does its
report: all flaws are reported together, each under its path. The one exception is an update that
does not name its record, of which nothing else is told.
-/

namespace ModelSurface

/-! ### Flaws of single members -/

namespace InputObject

/-- What is wrong with a member by itself: it is no field of the input, the enclosing object sets
it, it is null and must not be, or its value cannot be read. -/
inductive Refuses (object : InputObject) (name : String) (json : Json) : InputFault → Prop
  | unknown (hfield : object.type.field? name = none)
      (hmodel : name ∉ object.model.fields.keys) : Refuses object name json .unknown
  | assigned (hfield : object.type.field? name = none)
      (hmodel : name ∈ object.model.fields.keys) : Refuses object name json .assigned
  | enclosing {field : InputField} (hfield : object.type.field? name = some field)
      (hlinked : object.linkedBy = some name) : Refuses object name json .enclosing
  | null {field : InputField} (hfield : object.type.field? name = some field)
      (hlinked : object.linkedBy ≠ some name) (hjson : json = .null)
      (hnull : field.acceptsNull = false) : Refuses object name json .null
  | value {field : InputField} {kind : Kind} {list : Bool} {fault : CoercionFault}
      (hfield : object.type.field? name = some field) (hlinked : object.linkedBy ≠ some name)
      (hshape : field.shape = .scalar kind list)
      (hvalue : Value.ofJson kind list json = .error fault) :
      Refuses object name json (.value fault)

/-- A member gives records under a relationship, which the enclosing object does not set; and it is
null only where that is accepted. -/
structure Opens (object : InputObject) (name : String) (json : Json)
    (relationship : Relationship) : Prop where
  field : ∃ field relation, object.type.field? name = some field ∧
    field.shape = .relation relation ∧ (json = .null → field.acceptsNull = true)
  linkedBy : object.linkedBy ≠ some name
  relationship : object.model.relationship? name = some relationship

/-- What is wrong with a label: it is no string, or it is one of an object that is not created. -/
inductive LabelFault (new : Prop) : Json → InputFault → Prop
  | text {label : Json} (h : ∀ text, label ≠ .str text) : LabelFault new label .labelText
  | place {text : String} (h : ¬ new) : LabelFault new (.str text) .labelPlace

end InputObject

/-- A value that an object of an input type must have, and leaves out. -/
structure InputType.Lacks (type : InputType) (members : List (String × Json)) (field : InputField) :
    Prop where
  mem : field ∈ type.fields
  required : field.required = true
  scalar : ∃ kind list, field.shape = .scalar kind list
  missing : members.lookup field.name = none

/-- What keeps an update from naming its record: the identity is left out, or cannot be read. -/
inductive Model.NamingFlaw (model : Model) : InputKind → Json → InputFault → Prop
  | missing {members : List (String × Json)}
      (hmissing : members.lookup model.identity.name = none) :
      NamingFlaw model .update (.obj members) .required
  | identity {members : List (String × Json)} {json : Json} {fault : CoercionFault}
      (hgiven : members.lookup model.identity.name = some json)
      (hid : Identity.ofJson model.identity.kind json = .error fault) :
      NamingFlaw model .update (.obj members) (.value fault)

/-! ### Flaws at any depth -/

namespace Schema

open PlanDraft (join)

mutual

/-- The flaws of an object that stands at a path: their places, and what is wrong there. -/
inductive ObjectFlaw (schema : Schema) : InputObject → String → String → InputFault → Prop
  | label {object : InputObject} {path : String} {label : Json} {fault : InputFault}
      (hlabel : object.members.lookup InputEntry.labelKey = some label)
      (h : InputObject.LabelFault (object.action = .create) label fault) :
      ObjectFlaw schema object path (join path InputEntry.labelKey) fault
  | missing {object : InputObject} {path : String} {field : InputField}
      (hnew : object.action = .create) (h : object.type.Lacks object.members field) :
      ObjectFlaw schema object path (join path field.name) .required
  | member {object : InputObject} {path name place : String} {json : Json} {fault : InputFault}
      (hmember : (name, json) ∈ object.members)
      (h : MemberFlaw schema object path name json place fault) :
      ObjectFlaw schema object path place fault

/-- The flaws in a member of an object. -/
inductive MemberFlaw (schema : Schema) :
    InputObject → String → String → Json → String → InputFault → Prop
  | refused {object : InputObject} {path name : String} {json : Json} {fault : InputFault}
      (hname : ¬ object.Apart name) (h : object.Refuses name json fault) :
      MemberFlaw schema object path name json (join path name) fault
  | inside {object : InputObject} {path name place : String} {json : Json} {fault : InputFault}
      {relationship : Relationship} {target : Model} (hname : ¬ object.Apart name)
      (hopens : object.Opens name json relationship)
      (htarget : schema.model? relationship.target = some target)
      (h : RelationFlaw schema target relationship (join path name) json place fault) :
      MemberFlaw schema object path name json place fault

/-- The flaws in what a relationship is given: a list of items, or one item. -/
inductive RelationFlaw (schema : Schema) :
    Model → Relationship → String → Json → String → InputFault → Prop
  | list {target : Model} {relationship : Relationship} {path : String} {json : Json}
      (hmany : relationship.isMany = true) (hjson : ∀ items, json ≠ .arr items) :
      RelationFlaw schema target relationship path json path .list
  | item {target : Model} {relationship : Relationship} {path place : String} {items : List Json}
      {item : Json} {position : ℕ} {fault : InputFault} (hmany : relationship.isMany = true)
      (hitem : items[position]? = some item)
      (h : ItemFlaw schema target relationship s!"{path}[{position}]" item place fault) :
      RelationFlaw schema target relationship path (.arr items) place fault
  | single {target : Model} {relationship : Relationship} {path place : String} {json : Json}
      {fault : InputFault} (hsingle : relationship.isMany = false)
      (h : ItemFlaw schema target relationship path json place fault) :
      RelationFlaw schema target relationship path json place fault

/-- The flaws in one item: null in a list, no identity, a malformed reference to a label, and the
flaws of an object to create. -/
inductive ItemFlaw (schema : Schema) :
    Model → Relationship → String → Json → String → InputFault → Prop
  | null {target : Model} {relationship : Relationship} {path : String}
      (hown : relationship.isOwn = true) (hmany : relationship.isMany = true) :
      ItemFlaw schema target relationship path .null path .nullItem
  | identity {target : Model} {relationship : Relationship} {path : String} {json : Json}
      {fault : CoercionFault} (hjson : ∀ members, json ≠ .obj members)
      (hgiven : json = .null → relationship.isOwn = false)
      (hid : Identity.ofJson target.identity.kind json = .error fault) :
      ItemFlaw schema target relationship path json path (.value fault)
  | reference {target : Model} {relationship : Relationship} {path : String}
      {members : List (String × Json)}
      (hlabelled : (members.lookup InputEntry.referenceKey).isSome = true)
      (hmembers : members.length ≠ 1) :
      ItemFlaw schema target relationship path (.obj members) path .referenceMembers
  | label {target : Model} {relationship : Relationship} {path : String} {json : Json}
      (hjson : ∀ label, json ≠ .str label) :
      ItemFlaw schema target relationship path (.obj [(InputEntry.referenceKey, json)])
        (join path InputEntry.referenceKey) .labelText
  | object {target : Model} {relationship : Relationship} {path place : String}
      {members : List (String × Json)} {fault : InputFault}
      (hnew : members.lookup InputEntry.referenceKey = none)
      (h : ObjectFlaw schema ⟨target, schema.input .create target, .create,
        PlanDraft.innerLink relationship, members⟩ path place fault) :
      ItemFlaw schema target relationship path (.obj members) place fault

end

/-- The flaws of a whole input. -/
inductive InputFlaw (schema : Schema) (model : Model) (kind : InputKind) :
    Json → String → InputFault → Prop
  | object {json : Json} (hjson : ∀ members, json ≠ .obj members) :
      InputFlaw schema model kind json "" .object
  | naming {json : Json} {fault : InputFault} (h : model.NamingFlaw kind json fault) :
      InputFlaw schema model kind json model.identity.name fault
  | inside {members : List (String × Json)} {action : NodeAction} {place : String}
      {fault : InputFault} (haction : action = .create ↔ kind = .create)
      (h : ObjectFlaw schema ⟨model, schema.input kind model, action, none, members⟩ "" place
        fault) : InputFlaw schema model kind (.obj members) place fault

end Schema

/-! ### Reading members -/

namespace InputObject

variable {object : InputObject} {name : String} {json : Json}

theorem read_of_refuses (hname : ¬ object.Apart name) {fault : InputFault}
    (h : object.Refuses name json fault) :
    InputEntry.read object.model object.type object.linkedBy name json = .wrong fault := by
  unfold Apart at hname
  unfold InputEntry.read
  rw [if_neg hname]
  cases h with
  | unknown hfield hmodel =>
      have hcontains : ¬ object.model.fields.contains name = true :=
        fun h => hmodel (Keyed.isSome_get?_iff.mp h)
      rw [hfield]
      dsimp only
      rw [if_neg hcontains]
  | assigned hfield hmodel =>
      have hcontains : object.model.fields.contains name = true := Keyed.isSome_get?_iff.mpr hmodel
      rw [hfield]
      dsimp only
      rw [if_pos hcontains]
  | enclosing hfield hlinked =>
      rw [hfield]
      dsimp only
      rw [if_pos hlinked]
  | null hfield hlinked hjson hnull =>
      rw [hfield, hjson]
      dsimp only
      rw [if_neg hlinked, hnull]
      rfl
  | value hfield hlinked hshape hvalue =>
      have hgiven : ¬ json.isNull = true := by
        intro hnull
        unfold Value.ofJson at hvalue
        rw [if_pos hnull] at hvalue
        cases hvalue
      rw [hfield]
      dsimp only
      rw [if_neg hlinked, if_neg (fun h => hgiven (Bool.and_eq_true_iff.mp h).1), hshape]
      dsimp only
      rw [hvalue]

theorem read_of_opens (hname : ¬ object.Apart name) {relationship : Relationship}
    (h : object.Opens name json relationship) :
    InputEntry.read object.model object.type object.linkedBy name json =
      .relation relationship := by
  obtain ⟨⟨field, relation, hfield, hshape, haccepts⟩, hlinked, hrelationship⟩ := h
  have hnull : ¬ (json.isNull && !field.acceptsNull) = true := by
    intro hboth
    obtain ⟨hjson, hrefuses⟩ := Bool.and_eq_true_iff.mp hboth
    cases json with
    | null =>
        rw [haccepts rfl] at hrefuses
        cases hrefuses
    | bool | num | str | arr | obj => cases hjson
  unfold Apart at hname
  unfold InputEntry.read
  rw [if_neg hname, hfield]
  dsimp only
  rw [if_neg hlinked, if_neg hnull, hshape]
  dsimp only
  rw [hrelationship]

end InputObject

namespace PlanDraft

/-! ### Drafts that report flaws -/

/-- Between two drafts no report is lost, and all given flaws are reported. -/
structure Reports (before after : PlanDraft) (flaw : String → InputFault → Prop) : Prop where
  kept : before.violations ⊆ after.violations
  told : ∀ place fault, flaw place fault → .ofPath place (.input fault) ∈ after.violations

namespace Reports

variable {before between after : PlanDraft} {flaw flaw' : String → InputFault → Prop}

theorem mono (h : Reports before after flaw)
    (hle : ∀ place fault, flaw' place fault → flaw place fault) : Reports before after flaw' :=
  ⟨h.kept, fun place fault hflaw => h.told place fault (hle place fault hflaw)⟩

theorem of_eq (h : after.violations = before.violations) :
    Reports before after fun _ _ => False :=
  ⟨h ▸ List.Subset.refl _, fun _ _ => False.elim⟩

theorem refl (draft : PlanDraft) : Reports draft draft fun _ _ => False := of_eq rfl

theorem report (draft : PlanDraft) (path : String) (fault : InputFault) :
    Reports draft (draft.report path fault) fun place found => place = path ∧ found = fault where
  kept := List.subset_append_left _ _
  told := by
    rintro _ _ ⟨rfl, rfl⟩
    exact List.mem_append_right _ List.mem_cons_self

theorem trans (h : Reports before between flaw) (h' : Reports between after flaw') :
    Reports before after fun place fault => flaw place fault ∨ flaw' place fault where
  kept := List.Subset.trans h.kept h'.kept
  told := by
    rintro place fault (hflaw | hflaw)
    · exact h'.kept (h.told place fault hflaw)
    · exact h'.told place fault hflaw

end Reports

variable {schema : Schema} {object : InputObject} {target : Model} {relationship : Relationship}

/-! ### Single steps -/

theorem linkTo_reports (draft : PlanDraft) (index : ℕ) (model target : Model)
    (relationship : Relationship) (path : String) (other : Option DraftRef) :
    Reports draft (draft.linkTo index model target relationship path other) fun _ _ => False := by
  unfold linkTo
  cases relationship.ownership with
  | own => exact .of_eq rfl
  | remote field =>
      cases other with
      | none => exact .refl draft
      | some ref => exact .of_eq rfl

theorem addLabel_reports (draft : PlanDraft) (index : ℕ) (model : Model) (action : NodeAction)
    (path : String) (label : Json) :
    Reports draft (draft.addLabel index model action path label) fun place fault =>
      place = join path InputEntry.labelKey ∧
        InputObject.LabelFault (action = .create) label fault := by
  unfold addLabel
  cases label with
  | str text =>
      dsimp only
      by_cases hold : action ≠ .create
      · rw [if_pos hold]
        refine (Reports.report draft _ _).mono ?_
        rintro place fault ⟨hplace, hfault⟩
        cases hfault with
        | text h => exact absurd rfl (h text)
        | place => exact ⟨hplace, rfl⟩
      · rw [if_neg hold]
        have hkept : ∀ after : PlanDraft, draft.violations ⊆ after.violations →
            Reports draft after fun place fault => place = join path InputEntry.labelKey ∧
              InputObject.LabelFault (action = .create) (.str text) fault := by
          refine fun after hkept => ⟨hkept, ?_⟩
          rintro place fault ⟨-, hfault⟩
          cases hfault with
          | text h => exact absurd rfl (h text)
          | place h => exact absurd h hold
        split
        · exact hkept _ (List.subset_append_left _ _)
        · exact hkept _ (List.Subset.refl _)
  | null | bool | num | arr | obj =>
      refine (Reports.report draft _ _).mono ?_
      rintro place fault ⟨hplace, ⟨-⟩⟩
      exact ⟨hplace, rfl⟩

theorem openNode_reports (draft : PlanDraft) (object : InputObject) {action : NodeAction}
    (haction : action = .create ↔ object.action = .create) (path : String) :
    Reports draft (draft.openNode object.model object.type action object.linkedBy path
      object.members) fun place fault => ∃ label,
        object.members.lookup InputEntry.labelKey = some label ∧
          place = join path InputEntry.labelKey ∧
            InputObject.LabelFault (object.action = .create) label fault := by
  rw [← propext haction]
  unfold openNode
  extract_lets node index opened
  have hopened : Reports draft opened fun _ _ => False := .of_eq rfl
  cases hlookup : object.members.lookup InputEntry.labelKey with
  | none =>
      refine hopened.mono ?_
      rintro place fault ⟨label, hlabel, -⟩
      cases hlabel
  | some label =>
      refine (hopened.trans (addLabel_reports opened index object.model action path label)).mono ?_
      rintro place fault ⟨found, hfound, hflaw⟩
      exact .inr (Option.some.inj hfound ▸ hflaw)

theorem require_reports (index : ℕ) (path : String) (draft : PlanDraft) (field : InputField) :
    Reports draft (require index path draft field) fun place fault =>
      place = join path field.name ∧ fault = .required ∧
        ∃ kind list, field.shape = .scalar kind list := by
  unfold require
  cases field.shape with
  | scalar kind list =>
      refine (Reports.report draft _ _).mono ?_
      rintro place fault ⟨hplace, hfault, -⟩
      exact ⟨hplace, hfault⟩
  | relation relation =>
      refine ⟨List.Subset.refl _, ?_⟩
      rintro place fault ⟨-, -, kind, list, hshape⟩
      cases hshape

theorem closeNode_reports (draft : PlanDraft) (index : ℕ) {type : InputType}
    {linkedBy : Option String} (path : String) {members : List (String × Json)}
    (hlinked : ∀ field, type.Lacks members field → linkedBy ≠ some field.name) :
    Reports draft (draft.closeNode index type linkedBy path members) fun place fault =>
      ∃ field, type.Lacks members field ∧ place = join path field.name ∧ fault = .required := by
  have hall : ∀ (fields : List InputField) (draft : PlanDraft),
      Reports draft (fields.foldl (require index path) draft) fun place fault =>
        ∃ field ∈ fields, place = join path field.name ∧ fault = .required ∧
          ∃ kind list, field.shape = .scalar kind list := by
    intro fields
    induction fields with
    | nil =>
        refine fun draft => (Reports.refl draft).mono ?_
        rintro place fault ⟨field, hfield, -⟩
        cases hfield
    | cons field fields ih =>
        intro draft
        refine ((require_reports index path draft field).trans (ih _)).mono ?_
        rintro place fault ⟨found, hfound, hflaw⟩
        rcases List.mem_cons.mp hfound with rfl | hbehind
        · exact .inl hflaw
        · exact .inr ⟨found, hbehind, hflaw⟩
  unfold closeNode
  refine (hall _ draft).mono ?_
  rintro place fault ⟨field, hlacks, hplace, hfault⟩
  refine ⟨field, List.mem_filter.mpr ⟨hlacks.mem, ?_⟩, hplace, hfault, hlacks.scalar⟩
  rw [hlacks.required, hlacks.missing, Option.isNone_none, decide_eq_true (hlinked field hlacks)]
  rfl

/-! ### Items -/

theorem readReference_reports (draft : PlanDraft) (target : Model) (path : String)
    {members : List (String × Json)}
    (hlabelled : (members.lookup InputEntry.referenceKey).isSome = true) :
    Reports draft (draft.readReference target path members).1 fun place fault =>
      schema.ItemFlaw target relationship path (.obj members) place fault := by
  unfold readReference
  by_cases hlength : members.length ≠ 1
  · rw [if_pos hlength]
    refine (Reports.report draft _ _).mono ?_
    rintro place fault h
    cases h with
    | identity hjson => exact absurd rfl (hjson members)
    | reference => exact ⟨rfl, rfl⟩
    | label => exact absurd rfl hlength
    | object hnew =>
        rw [hnew] at hlabelled
        cases hlabelled
  · rw [if_neg hlength]
    have hlabel : ∀ place fault,
        schema.ItemFlaw target relationship path (.obj members) place fault →
          (∀ label, members.lookup InputEntry.referenceKey ≠ some (.str label)) ∧
          place = join path InputEntry.referenceKey ∧ fault = .labelText := by
      rintro place fault h
      cases h with
      | identity hjson => exact absurd rfl (hjson members)
      | reference _ hmembers => exact absurd hmembers hlength
      | label hjson =>
          refine ⟨fun label hfound => ?_, rfl, rfl⟩
          rw [List.lookup_cons_self] at hfound
          exact hjson label (Option.some.inj hfound)
      | object hnew =>
          rw [hnew] at hlabelled
          cases hlabelled
    split
    · rename_i label hfound
      refine (Reports.refl draft).mono fun place fault h => ?_
      exact (hlabel place fault h).1 label hfound
    · exact (Reports.report draft _ _).mono fun place fault h => (hlabel place fault h).2

/-- What is no object is null, or should be an identity. -/
theorem planOther_reports (schema : Schema) (index : ℕ) (model target : Model)
    (relationship : Relationship) (path : String) (draft : PlanDraft) {json : Json}
    (hjson : ∀ members, json ≠ .obj members) :
    Reports draft (planItem schema index model target relationship path draft json)
      (schema.ItemFlaw target relationship path json) := by
  rw [planItem.eq_2 _ _ _ _ _ _ _ _ hjson]
  by_cases hnull : (json.isNull && relationship.isOwn) = true
  · obtain ⟨hjson_null, hown⟩ := Bool.and_eq_true_iff.mp hnull
    obtain rfl : json = .null := by
      cases json with
      | null => rfl
      | bool | num | str | arr | obj => cases hjson_null
    rw [if_pos hnull]
    by_cases hmany : relationship.isMany = true
    · rw [if_pos hmany]
      refine (Reports.report draft _ _).mono ?_
      rintro place fault h
      cases h with
      | null => exact ⟨rfl, rfl⟩
      | identity _ hgiven =>
          rw [hgiven rfl] at hown
          cases hown
    · rw [if_neg hmany]
      refine (linkTo_reports _ _ _ _ _ _ _).mono ?_
      rintro place fault h
      cases h with
      | null _ hmany' => exact hmany hmany'
      | identity _ hgiven =>
          rw [hgiven rfl] at hown
          cases hown
  · rw [if_neg hnull]
    have hidentity : ∀ place fault,
        schema.ItemFlaw target relationship path json place fault → place = path ∧
          ∃ found, Identity.ofJson target.identity.kind json = .error found ∧
            fault = .value found := by
      rintro place fault h
      cases h with
      | null hown => exact absurd (by rw [hown]; rfl) hnull
      | identity _ _ hid => exact ⟨rfl, _, hid, rfl⟩
      | reference | label | object => exact absurd rfl (hjson _)
    unfold readIdentity
    cases hid : Identity.ofJson target.identity.kind json with
    | ok id =>
        refine (linkTo_reports _ _ _ _ _ _ _).mono fun place fault h => ?_
        obtain ⟨-, found, hfound, -⟩ := hidentity place fault h
        rw [hid] at hfound
        cases hfound
    | error found =>
        refine (Reports.report draft _ _).mono fun place fault h => ?_
        obtain ⟨hplace, other, hother, hfault⟩ := hidentity place fault h
        obtain rfl := Except.error.inj (hid.symm.trans hother)
        exact ⟨hplace, hfault⟩

/-- An object is read: it is opened, its members are read, and at last what it leaves out. -/
theorem object_reports (object : InputObject) {draft filled after : PlanDraft}
    {action : NodeAction} {path : String}
    (haction : action = .create ↔ object.action = .create)
    (hmembers : Reports (draft.openNode object.model object.type action object.linkedBy path
      object.members) filled fun place fault => ∃ name json, (name, json) ∈ object.members ∧
        schema.MemberFlaw object path name json place fault)
    (hclose : Reports filled after fun place fault => object.action = .create ∧
      ∃ field, object.type.Lacks object.members field ∧ place = join path field.name ∧
        fault = .required) :
    Reports draft after (schema.ObjectFlaw object path) := by
  refine (((openNode_reports draft object haction path).trans hmembers).trans hclose).mono ?_
  rintro place fault h
  cases h with
  | label hlabel h => exact .inl (.inl ⟨_, hlabel, rfl, h⟩)
  | member hmember h => exact .inl (.inr ⟨_, _, hmember, h⟩)
  | missing hnew h => exact .inr ⟨hnew, _, h, rfl, rfl⟩

/-! ### Objects within objects -/

mutual

theorem planMembers_reports (hschema : schema.Sound) (object : InputObject)
    (hmodel : object.model ∈ schema.models) (index : ℕ) (path : String) (draft : PlanDraft) :
    (members : List (String × Json)) → Reports draft
      (planMembers schema index object.model object.type object.linkedBy path draft members)
      fun place fault => ∃ name json, (name, json) ∈ members ∧
        schema.MemberFlaw object path name json place fault
  | [] => (Reports.refl draft).mono fun _ _ ⟨_, _, hmem, _⟩ => List.not_mem_nil hmem
  | (name, json) :: rest => by
    rw [planMembers_cons]
    refine ((planMember_reports hschema object hmodel index path draft name json).trans
      (planMembers_reports hschema object hmodel index path _ rest)).mono ?_
    rintro place fault ⟨other, found, hmem, hflaw⟩
    rcases List.mem_cons.mp hmem with heq | hbehind
    · obtain ⟨rfl, rfl⟩ := Prod.mk.inj heq
      exact .inl hflaw
    · exact .inr ⟨other, found, hbehind, hflaw⟩
termination_by members => (sizeOf members, 0)

theorem planMember_reports (hschema : schema.Sound) (object : InputObject)
    (hmodel : object.model ∈ schema.models) (index : ℕ) (path : String) (draft : PlanDraft)
    (name : String) (json : Json) :
    Reports draft
      (planMember schema index object.model object.type object.linkedBy path draft name json)
      (schema.MemberFlaw object path name json) := by
  unfold planMember
  cases hread : InputEntry.read object.model object.type object.linkedBy name json with
  | ignored | scalar =>
      refine (Reports.refl draft).mono fun place fault h => ?_
      cases h with
      | refused hname h => cases hread.symm.trans (InputObject.read_of_refuses hname h)
      | inside hname hopens => cases hread.symm.trans (InputObject.read_of_opens hname hopens)
  | wrong found =>
      refine (Reports.report draft _ _).mono fun place fault h => ?_
      cases h with
      | refused hname h =>
          obtain ⟨rfl⟩ := hread.symm.trans (InputObject.read_of_refuses hname h)
          exact ⟨rfl, rfl⟩
      | inside hname hopens => cases hread.symm.trans (InputObject.read_of_opens hname hopens)
  | relation relationship =>
      have hrelation : ∀ place fault, schema.MemberFlaw object path name json place fault →
          ∃ target, schema.model? relationship.target = some target ∧
            schema.RelationFlaw target relationship (join path name) json place fault := by
        rintro place fault h
        cases h with
        | refused hname h => cases hread.symm.trans (InputObject.read_of_refuses hname h)
        | inside hname hopens htarget h =>
            obtain ⟨rfl⟩ := hread.symm.trans (InputObject.read_of_opens hname hopens)
            exact ⟨_, htarget, h⟩
      dsimp only
      cases htarget : schema.model? relationship.target with
      | none =>
          unfold planRelation
          rw [htarget]
          refine (Reports.refl draft).mono fun place fault h => ?_
          obtain ⟨target, hfound, -⟩ := hrelation place fault h
          rw [htarget] at hfound
          cases hfound
      | some target =>
          have hfound := (InputEntry.read_relation_field hread).1
          have hmem := ((hschema.model _ hmodel).relationship?_eq_some.mp hfound).1
          refine (planRelation_reports hschema hmodel hmem htarget index (join path name) draft
            json).mono fun place fault h => ?_
          obtain ⟨other, hother, hflaw⟩ := hrelation place fault h
          exact Option.some.inj (htarget.symm.trans hother) ▸ hflaw
termination_by (sizeOf json, 2)

theorem planRelation_reports (hschema : schema.Sound) {model : Model}
    (hmodel : model ∈ schema.models) {relationship : Relationship}
    (hmem : relationship ∈ model.relationships.values) {target : Model}
    (htarget : schema.model? relationship.target = some target) (index : ℕ) (path : String)
    (draft : PlanDraft) (json : Json) :
    Reports draft (planRelation schema index model path draft relationship json)
      (schema.RelationFlaw target relationship path json) := by
  unfold planRelation
  rw [htarget]
  dsimp only
  by_cases hmany : relationship.isMany = true
  · rw [if_pos hmany]
    have hsingle : ¬ relationship.isMany = false := by
      rw [hmany]
      exact Bool.noConfusion
    cases json with
    | arr items =>
        refine (planItems_reports hschema hmodel hmem htarget index path 0 draft items).mono ?_
        rintro place fault h
        cases h with
        | list _ hjson => exact absurd rfl (hjson items)
        | @item _ _ _ _ _ item position _ _ hitem h =>
            refine ⟨position, item, hitem, ?_⟩
            rwa [Nat.zero_add]
        | single h => exact absurd h hsingle
    | null | bool | num | str | obj =>
        refine (Reports.report draft _ _).mono ?_
        rintro place fault h
        cases h with
        | list => exact ⟨rfl, rfl⟩
        | single h => exact absurd h hsingle
  · rw [if_neg hmany]
    refine (planItem_reports hschema hmodel hmem htarget index path draft json).mono ?_
    rintro place fault h
    cases h with
    | list h => exact absurd h hmany
    | item h => exact absurd h hmany
    | single _ h => exact h
termination_by (sizeOf json, 1)

theorem planItems_reports (hschema : schema.Sound) {model : Model}
    (hmodel : model ∈ schema.models) {relationship : Relationship}
    (hmem : relationship ∈ model.relationships.values) {target : Model}
    (htarget : schema.model? relationship.target = some target) (index : ℕ) (path : String)
    (first : ℕ) (draft : PlanDraft) : (items : List Json) → Reports draft
      (planItems schema index model target relationship path first draft items)
      fun place fault => ∃ position item, items[position]? = some item ∧
        schema.ItemFlaw target relationship s!"{path}[{first + position}]" item place fault
  | [] => (Reports.refl draft).mono (by simp)
  | item :: items => by
    refine ((planItem_reports hschema hmodel hmem htarget index s!"{path}[{first}]" draft
      item).trans (planItems_reports hschema hmodel hmem htarget index path (first + 1) _
        items)).mono ?_
    rintro place fault ⟨position, found, hfound, hflaw⟩
    cases position with
    | zero =>
        obtain rfl := Option.some.inj hfound
        exact .inl hflaw
    | succ position =>
        rw [← Nat.add_assoc, Nat.add_right_comm] at hflaw
        exact .inr ⟨position, found, hfound, hflaw⟩
termination_by items => (sizeOf items, 0)

theorem planItem_reports (hschema : schema.Sound) {model : Model}
    (hmodel : model ∈ schema.models) {relationship : Relationship}
    (hmem : relationship ∈ model.relationships.values) {target : Model}
    (htarget : schema.model? relationship.target = some target) (index : ℕ) (path : String)
    (draft : PlanDraft) (json : Json) :
    Reports draft (planItem schema index model target relationship path draft json)
      (schema.ItemFlaw target relationship path json) := by
  cases json with
  | obj members =>
      rw [planItem]
      by_cases hlabelled : (members.lookup InputEntry.referenceKey).isSome
      · rw [if_pos hlabelled]
        have hreference : Reports draft (draft.readReference target path members).1
            (schema.ItemFlaw target relationship path (.obj members)) :=
          readReference_reports draft target path hlabelled
        split
        · rename_i read other hread
          rw [hread] at hreference
          exact (hreference.trans (linkTo_reports _ _ _ _ _ _ _)).mono fun _ _ h => .inl h
        · rename_i read hread
          rwa [hread] at hreference
      · rw [if_neg hlabelled]
        have hnew : members.lookup InputEntry.referenceKey = none := by
          rwa [Option.not_isSome_iff_eq_none] at hlabelled
        let inner : InputObject :=
          ⟨target, schema.input .create target, .create, innerLink relationship, members⟩
        have hinner : inner.model ∈ schema.models := (hschema.model?_eq_some.mp htarget).1
        have hlinked : ∀ field, inner.type.Lacks members field →
            inner.linkedBy ≠ some field.name := by
          intro field hlacks
          obtain ⟨kind, list, hshape⟩ := hlacks.scalar
          exact innerLink_ne_scalar hschema hmodel hmem htarget hlacks.mem hshape
        have hmembers := planMembers_reports hschema inner hinner draft.nodes.length path
          (draft.openNode target inner.type .create inner.linkedBy path members) members
        have hclose := closeNode_reports (planMembers schema draft.nodes.length target inner.type
          inner.linkedBy path (draft.openNode target inner.type .create inner.linkedBy path members)
          members) draft.nodes.length path hlinked
        have hobject := object_reports inner Iff.rfl hmembers
          (hclose.mono fun _ _ h => h.2)
        refine (hobject.trans (linkTo_reports _ index model target relationship path
          (some (.node draft.nodes.length)))).mono ?_
        rintro place fault h
        cases h with
        | identity hjson => exact absurd rfl (hjson members)
        | reference hsome => exact absurd hsome hlabelled
        | label =>
            rw [List.lookup_cons_self] at hnew
            cases hnew
        | object _ h => exact .inl h
  | null | bool | num | str | arr =>
      exact planOther_reports schema index model target relationship path draft (by simp)
termination_by (sizeOf json, 0)

end

/-! ### Whole inputs -/

theorem ofInput_reports_naming (schema : Schema) (model : Model) (kind : InputKind) (input : Json) :
    Reports {} (ofInput schema model kind input) fun place fault =>
      place = model.identity.name ∧ model.NamingFlaw kind input fault := by
  refine ⟨List.nil_subset _, ?_⟩
  rintro _ fault ⟨rfl, h⟩
  have hread : ∃ members, input = .obj members ∧ readAction model kind members = .error fault := by
    cases h with
    | missing hmissing =>
        refine ⟨_, rfl, ?_⟩
        rw [readAction, if_pos rfl, hmissing]
    | identity hgiven hid =>
        refine ⟨_, rfl, ?_⟩
        rw [readAction, if_pos rfl, hgiven]
        dsimp only
        rw [hid]
  obtain ⟨members, rfl, hread⟩ := hread
  unfold ofInput
  dsimp only
  rw [hread]
  exact (Reports.report {} _ fault).told _ _ ⟨rfl, rfl⟩

/-- All flaws of an input are reported, unless it is to update a record and does not name it. -/
theorem ofInput_reports (hschema : schema.Sound) {model : Model} (hmodel : model ∈ schema.models)
    {kind : InputKind} (hkind : kind ≠ .delete) {input : Json}
    (hnamed : kind = .update → ∀ members, input = .obj members → model.Identifies kind input) :
    Reports {} (ofInput schema model kind input) (schema.InputFlaw model kind input) := by
  refine ⟨List.nil_subset _, fun place fault h => ?_⟩
  cases h with
  | object hjson =>
      have hdraft : ofInput schema model kind input = PlanDraft.report {} "" .object := by
        cases input with
        | obj members => exact absurd rfl (hjson members)
        | null | bool | num | str | arr => rfl
      rw [hdraft]
      exact (Reports.report {} "" .object).told _ _ ⟨rfl, rfl⟩
  | naming h => exact (ofInput_reports_naming schema model kind input).told _ _ ⟨rfl, h⟩
  | @inside members other _ _ hother h =>
      have hidentified : model.Identifies kind (.obj members) := by
        by_cases hupdate : kind = .update
        · exact hnamed hupdate members rfl
        · exact ⟨members, rfl, fun h => absurd h hupdate⟩
      have hcreate : kind ≠ .update ↔ kind = .create := by
        cases kind <;> simp at hkind ⊢
      rcases readAction_cases model kind members with ⟨action, hread, -, haction⟩ | ⟨-, hnot⟩
      · unfold ofInput
        dsimp only
        rw [hread]
        dsimp only
        let object : InputObject := ⟨model, schema.input kind model, other, none, members⟩
        have hsame : action = .create ↔ object.action = .create :=
          (haction.trans hcreate).trans hother.symm
        have hmembers := planMembers_reports hschema object hmodel 0 ""
          (openNode {} model object.type action none "" members) members
        refine (object_reports object hsame hmembers ?_).told place fault h
        by_cases hnew : kind = .create
        · rw [if_pos hnew]
          refine (closeNode_reports _ 0 "" ?_).mono fun _ _ h => h.2
          exact fun _ _ => nofun
        · rw [if_neg hnew]
          exact (Reports.refl _).mono fun _ _ h => hnew (hother.mp h.1)
      · exact absurd hidentified hnot

theorem finish_of_mem {draft : PlanDraft} {violation : Violation}
    (h : violation ∈ draft.violations) :
    ∃ violations, draft.finish = .error violations ∧ violation ∈ violations := by
  unfold finish
  extract_lets resolved links unresolved unmet
  have hmem := List.mem_append_left (unmet.map fun requirement =>
    Violation.ofPath requirement.path (.input .required)) (List.mem_append_left unresolved h)
  split
  · rename_i hnone
    rw [hnone] at hmem
    cases hmem
  · exact ⟨_, rfl, hmem⟩

end PlanDraft

/-- A fault at a place of an input is among those that it is refused for. -/
def Plan.Told (schema : Schema) (model : Model) (kind : InputKind) (input : Json) (place : String)
    (fault : InputFault) : Prop :=
  ∃ violations, Plan.ofInput schema model kind input = .error violations ∧
    .ofPath place (.input fault) ∈ violations

theorem Plan.told_of_reports {schema : Schema} {model : Model} {kind : InputKind} {input : Json}
    {flaw : String → InputFault → Prop}
    (h : PlanDraft.Reports {} (PlanDraft.ofInput schema model kind input) flaw) {place : String}
    {fault : InputFault} (hflaw : flaw place fault) :
    Plan.Told schema model kind input place fault :=
  PlanDraft.finish_of_mem (h.told place fault hflaw)

/-- Every flaw of an input, at any depth, is told under its path, whatever else is wrong with the
input. So what is told of a changed input, and has not been told of the input, was no flaw of it.
An update has to name its record for this; of one that does not, this is told. -/
theorem Plan.flaws_reported {registry : Registry} {schema : Schema}
    (hregistry : registry.schema = .ok schema) {model : Model} (hmodel : model ∈ schema.models)
    {kind : InputKind} (hkind : kind ≠ .delete) (input : Json) :
    (∀ fault, model.NamingFlaw kind input fault →
      Plan.Told schema model kind input model.identity.name fault) ∧
    ((kind = .update → ∀ members, input = .obj members → model.Identifies kind input) →
      (∀ place fault, schema.InputFlaw model kind input place fault →
        Plan.Told schema model kind input place fault) ∧
      ∀ changed place fault, Plan.Told schema model kind changed place fault →
        ¬ Plan.Told schema model kind input place fault →
          ¬ schema.InputFlaw model kind input place fault) := by
  have hschema := Registry.sound_schema hregistry
  refine ⟨fun fault h => ?_, fun hnamed => ?_⟩
  · exact Plan.told_of_reports (PlanDraft.ofInput_reports_naming schema model kind input) ⟨rfl, h⟩
  · have htold : ∀ place fault, schema.InputFlaw model kind input place fault →
        Plan.Told schema model kind input place fault := fun place fault h =>
      Plan.told_of_reports (PlanDraft.ofInput_reports hschema hmodel hkind hnamed) h
    exact ⟨htold, fun _ place fault _ huntold hflaw => huntold (htold place fault hflaw)⟩

/-! ### Nodes with flaws -/

namespace Engine

theorem model?_nodeModel : chainSchema.model? "Node" = some nodeModel :=
  eq_some_getD (by decide +kernel)

theorem identity_nodeModel : nodeModel.identity.name = "id" ∧
    nodeModel.identity.kind = .integer := by
  decide +kernel

/-- An update that begins with an identity names its node. -/
theorem identifies_nodeModel (members : List (String × Json)) :
    nodeModel.Identifies .update (.obj (("id", .num (.int 1)) :: members)) := by
  obtain ⟨hname, hkind⟩ := identity_nodeModel
  refine ⟨_, rfl, fun _ => ⟨.num (.int 1), .int 1, ?_, ?_⟩⟩
  · rw [hname]
    rfl
  · rw [hkind]
    rfl

theorem not_apart {object : InputObject} (hmodel : object.model = nodeModel) {name : String}
    (hlabel : name ≠ InputEntry.labelKey) (hidentity : name ≠ "id") : ¬ object.Apart name := by
  rintro (heq | ⟨-, heq⟩)
  · exact hlabel heq
  · rw [hmodel, identity_nodeModel.1] at heq
    exact hidentity heq

/-- A member that is no field of nodes is a flaw of the node that has it. -/
theorem objectFlaw_nope {object : InputObject} (hmodel : object.model = nodeModel)
    {kind : InputKind} (hkind : kind ≠ .delete)
    (htype : object.type = chainSchema.input kind nodeModel)
    (hmember : ("nope", .null) ∈ object.members) (path : String) :
    chainSchema.ObjectFlaw object path (PlanDraft.join path "nope") .unknown := by
  have hfield : (chainSchema.input kind nodeModel).field? "nope" = none := by
    cases kind with
    | create => decide +kernel
    | update => decide +kernel
    | delete => exact absurd rfl hkind
  have hunknown : "nope" ∉ nodeModel.fields.keys := by decide +kernel
  exact .member hmember (.refused (not_apart hmodel (by decide) (by decide))
    (.unknown (htype ▸ hfield) (hmodel ▸ hunknown)))

theorem opens_next {action : NodeAction} {members : List (String × Json)} {json : Json} :
    InputObject.Opens ⟨nodeModel, chainSchema.input .update nodeModel, action, none, members⟩ "next"
      json nextSide ∧ chainSchema.model? nextSide.target = some nodeModel ∧
        nextSide.isMany = false := by
  have hname : nextSide.name = "next" ∧ nextSide.target = "Node" ∧ nextSide.isMany = false ∧
      (nextSide.isForeignKey && nextSide.nullable) = true := by
    decide +kernel
  obtain ⟨hname, htarget, hsingle, hnull⟩ := hname
  have hmodel : chainSchema.model? nextSide.target = some nodeModel := htarget ▸ model?_nodeModel
  have hupdate : InputKind.update ≠ .delete := by decide
  have hfield := field?_relationship (Registry.sound_schema schema_chainRegistry)
    sides_chainSchema.holder_mem hupdate sides_chainSchema.held hmodel
  rw [hname] at hfield
  exact ⟨⟨⟨_, _, hfield, rfl, fun _ => hnull⟩, nofun, relationship?_next⟩, hmodel, hsingle⟩

end Engine

open Engine in
/-- A flaw within another object is told along with a flaw beside that object. -/
theorem Plan.flaws_reported_node :
    let input : Json :=
      .obj [("id", .num (.int 1)), ("next", .obj [("nope", .null)]), ("nope", .null)]
    nodeModel.Identifies .update input ∧
      Plan.Told chainSchema nodeModel .update input "nope" .unknown ∧
      Plan.Told chainSchema nodeModel .update input "next.nope" .unknown := by
  intro input
  have hnamed : nodeModel.Identifies .update input := identifies_nodeModel _
  have hupdate : InputKind.update ≠ .delete := by decide
  have htold := ((Plan.flaws_reported schema_chainRegistry sides_chainSchema.holder_mem hupdate
    input).2 fun _ _ _ => hnamed).1
  have haction : NodeAction.update (.int 1) = .create ↔ InputKind.update = .create :=
    iff_of_false nofun nofun
  have hbeside : chainSchema.InputFlaw nodeModel .update input "nope" .unknown :=
    .inside haction (objectFlaw_nope rfl hupdate rfl (by simp) "")
  have hmember : ("next", Json.obj [("nope", .null)]) ∈ [("id", Json.num (.int 1)),
      ("next", .obj [("nope", .null)]), ("nope", .null)] := by
    exact List.mem_cons_of_mem _ List.mem_cons_self
  obtain ⟨hopens, htarget, hsingle⟩ := opens_next
  have hwithin : chainSchema.InputFlaw nodeModel .update input "next.nope" .unknown :=
    .inside haction (.member hmember (.inside (not_apart rfl (by decide) (by decide)) hopens
      htarget (.single hsingle (.object rfl
        (objectFlaw_nope rfl (by decide) rfl List.mem_cons_self "next")))))
  exact ⟨hnamed, htold _ _ hbeside, htold _ _ hwithin⟩

open Engine in
/-- Of an update that does not name its record nothing else is told. -/
theorem Plan.flaw_of_anonymous_untold :
    let input : Json := .obj [("nope", .null)]
    let named : Json := .obj [("id", .num (.int 1)), ("nope", .null)]
    chainSchema.InputFlaw nodeModel .update input "nope" .unknown ∧
      ¬ Plan.Told chainSchema nodeModel .update input "nope" .unknown ∧
      Plan.Told chainSchema nodeModel .update named "nope" .unknown := by
  intro input named
  have hupdate : InputKind.update ≠ .delete := by decide
  have haction : NodeAction.update (.int 1) = .create ↔ InputKind.update = .create :=
    iff_of_false nofun nofun
  have hflaw : chainSchema.InputFlaw nodeModel .update input "nope" .unknown :=
    .inside haction (objectFlaw_nope rfl hupdate rfl List.mem_cons_self "")
  have hnamed_flaw : chainSchema.InputFlaw nodeModel .update named "nope" .unknown :=
    .inside haction (objectFlaw_nope rfl hupdate rfl (by simp) "")
  have hfields : (match Plan.ofInput chainSchema nodeModel .update input with
      | .ok _ => false
      | .error violations => violations.all fun violation => violation.field == some "id") =
      true := by
    decide +kernel
  refine ⟨hflaw, ?_, Plan.told_of_reports (PlanDraft.ofInput_reports
    (Registry.sound_schema schema_chainRegistry) sides_chainSchema.holder_mem hupdate
      fun _ _ _ => identifies_nodeModel _) hnamed_flaw⟩
  rintro ⟨violations, hplan, hmem⟩
  rw [hplan] at hfields
  have hfield := List.all_eq_true.mp hfields _ hmem
  exact absurd hfield (by decide)

end ModelSurface
