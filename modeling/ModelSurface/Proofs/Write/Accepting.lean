import ModelSurface.Proofs.Write.Conforming

/-!
# What is wrong with an input

Nothing is wrong with what has been read of an input exactly as long as its objects are well formed
and their labels are new. References to labels and the references that must not be null are looked
at later, when all of the input has been read.
-/

namespace ModelSurface

namespace PlanDraft

/-- Labels that differ from each other and from those that are known. -/
def Fresh (known labels : List String) : Prop := labels.Nodup ∧ known.Disjoint labels

theorem fresh_nil (known : List String) : Fresh known [] :=
  ⟨.nil, List.disjoint_nil_right known⟩

theorem fresh_append {known labels others : List String} :
    Fresh known (labels ++ others) ↔ Fresh known labels ∧ Fresh (known ++ labels) others := by
  unfold Fresh
  rw [List.nodup_append', List.disjoint_append_right, List.disjoint_append_left]
  tauto

/-- Some objects of an input have been read. A draft that was clean still is exactly if they are
fine and have new labels, and then it knows these labels. -/
structure Accepts (before after : PlanDraft) (objects : List InputObject) (fine : Prop) :
    Prop where
  clean_iff : after.violations = [] ↔ before.violations = [] ∧ fine ∧
    Fresh before.labels.keys (objects.filterMap InputObject.label?)
  labels : after.violations = [] →
    after.labels.keys = before.labels.keys ++ objects.filterMap InputObject.label?

namespace Accepts

variable {before between after draft : PlanDraft} {xs ys : List InputObject} {fine fine' : Prop}

theorem congr (h : Accepts before after xs fine) (hfine : fine ↔ fine') :
    Accepts before after xs fine' :=
  ⟨by rw [h.clean_iff, hfine], h.labels⟩

/-- Nothing is reported and no label is added. -/
theorem of_eq (hviolations : after.violations = before.violations)
    (hlabels : after.labels = before.labels) : Accepts before after [] True where
  clean_iff := by
    rw [hviolations, List.filterMap_nil]
    simp only [fresh_nil, and_true]
  labels _ := by rw [hlabels, List.filterMap_nil, List.append_nil]

theorem refl (draft : PlanDraft) : Accepts draft draft [] True := of_eq rfl rfl

theorem of_wrong (h : after.violations ≠ []) (hwrong : ¬ fine) : Accepts before after xs fine where
  clean_iff := iff_of_false h fun hall => hwrong hall.2.1
  labels hclean := absurd hclean h

theorem report (draft : PlanDraft) (path : String) (fault : InputFault) (hwrong : ¬ fine) :
    Accepts draft (draft.report path fault) xs fine :=
  of_wrong (violations_report _ _) hwrong

theorem trans (h : Accepts before between xs fine) (h' : Accepts between after ys fine') :
    Accepts before after (xs ++ ys) (fine ∧ fine') where
  clean_iff := by
    rw [h'.clean_iff, h.clean_iff, List.filterMap_append, fresh_append]
    constructor
    · rintro ⟨⟨hbefore, hfine, hfresh⟩, hfine', hfresh'⟩
      rw [h.labels (h.clean_iff.mpr ⟨hbefore, hfine, hfresh⟩)] at hfresh'
      exact ⟨hbefore, ⟨hfine, hfine'⟩, hfresh, hfresh'⟩
    · rintro ⟨hbefore, ⟨hfine, hfine'⟩, hfresh, hfresh'⟩
      refine ⟨⟨hbefore, hfine, hfresh⟩, hfine', ?_⟩
      rwa [h.labels (h.clean_iff.mpr ⟨hbefore, hfine, hfresh⟩)]
  labels hclean := by
    rw [h'.labels hclean, h.labels (h'.clean_iff.mp hclean).1, List.filterMap_append,
      List.append_assoc]

end Accepts

variable {schema : Schema} {draft : PlanDraft} {object : InputObject} {target : Model}
  {relationship : Relationship}

/-! ### Single steps -/

theorem linkTo_accepts (draft : PlanDraft) (index : ℕ) (model target : Model)
    (relationship : Relationship) (path : String) (other : Option DraftRef) :
    Accepts draft (draft.linkTo index model target relationship path other) [] True := by
  unfold linkTo
  cases relationship.ownership with
  | own => exact .of_eq rfl rfl
  | remote field =>
      cases other with
      | none => exact .refl draft
      | some ref => exact .of_eq rfl rfl

/-- A reference to a label is read, or reported. -/
theorem readReference_cases (draft : PlanDraft) (target : Model) (path : String)
    (members : List (String × Json)) :
    (∃ label, members = [(InputEntry.referenceKey, .str label)] ∧
      draft.readReference target path members = (draft, some (.labelled label target.name))) ∨
    ((∀ label, members ≠ [(InputEntry.referenceKey, .str label)]) ∧ ∃ place fault,
      draft.readReference target path members = (draft.report place fault, none)) := by
  unfold readReference
  by_cases hlength : members.length ≠ 1
  · rw [if_pos hlength]
    refine .inr ⟨?_, _, _, rfl⟩
    rintro label rfl
    exact hlength rfl
  · rw [if_neg hlength]
    obtain ⟨⟨name, json⟩, rfl⟩ := List.length_eq_one_iff.mp (not_not.mp hlength)
    split
    · rename_i label hlabel
      obtain ⟨rfl, rfl⟩ : name = InputEntry.referenceKey ∧ json = .str label := by
        rw [List.lookup_cons] at hlabel
        split at hlabel
        · rename_i hname
          exact ⟨(beq_iff_eq.mp hname).symm, Option.some.inj hlabel⟩
        · cases hlabel
      exact .inl ⟨label, rfl, rfl⟩
    · rename_i hlabel
      refine .inr ⟨fun label heq => hlabel label ?_, _, _, rfl⟩
      rw [heq, List.lookup_cons_self]

/-- An identity is read, or reported. -/
theorem readIdentity_cases (draft : PlanDraft) (target : Model) (path : String) (json : Json) :
    (∃ id, Identity.ofJson target.identity.kind json = .ok id ∧
      draft.readIdentity target path json = (draft, some (.stored id))) ∨
    ((∀ id, Identity.ofJson target.identity.kind json ≠ .ok id) ∧ ∃ fault,
      draft.readIdentity target path json = (draft.report path fault, none)) := by
  unfold readIdentity
  cases hread : Identity.ofJson target.identity.kind json with
  | ok id => exact .inl ⟨id, rfl, rfl⟩
  | error fault => exact .inr ⟨fun id => nofun, _, rfl⟩

theorem addLabel_accepts (draft : PlanDraft) (index : ℕ) (path : String) {json : Json}
    (hjson : object.members.lookup InputEntry.labelKey = some json) :
    Accepts draft (draft.addLabel index object.model object.action path json) [object]
      (object.action = .create ∧ ∃ label, json = .str label) := by
  unfold addLabel
  cases json with
  | str label =>
      dsimp only
      by_cases haction : object.action = .create
      · rw [if_neg (not_not.mpr haction)]
        have hlabel : [object].filterMap InputObject.label? = [label] := by
          unfold InputObject.label?
          simp [hjson]
        have hfine : object.action = .create ∧ ∃ other, Json.str label = .str other :=
          ⟨haction, label, rfl⟩
        by_cases hknown : label ∈ draft.labels.keys
        · have hcontains : draft.labels.contains label = true := Keyed.isSome_get?_iff.mpr hknown
          rw [if_pos hcontains]
          have htwice : ∀ draft : PlanDraft, (draft.report (join path InputEntry.labelKey)
              (.labelTwice label)).violations ≠ [] := fun draft => violations_report _ _
          refine ⟨iff_of_false (htwice _) ?_, fun h => absurd h (htwice _)⟩
          rintro ⟨-, -, -, hdisjoint⟩
          rw [hlabel] at hdisjoint
          exact hdisjoint hknown List.mem_cons_self
        · have hnew : ¬ draft.labels.contains label = true :=
            fun h => hknown (Keyed.isSome_get?_iff.mp h)
          rw [if_neg hnew]
          refine ⟨?_, fun _ => ?_⟩
          · rw [hlabel]
            refine (and_iff_left ⟨hfine, List.nodup_singleton label, ?_⟩).symm
            exact List.disjoint_singleton.mpr hknown
          · rw [hlabel]
            exact Keyed.keys_put_of_new _ hknown
      · rw [if_pos haction]
        exact .report _ _ _ fun h => haction h.1
  | null | bool | num | arr | obj =>
      refine .report _ _ _ ?_
      rintro ⟨-, label, h⟩
      cases h

theorem openNode_accepts (draft : PlanDraft) (object : InputObject) (path : String) :
    Accepts draft (draft.openNode object.model object.type object.action object.linkedBy path
      object.members) [object] (∀ json, object.members.lookup InputEntry.labelKey = some json →
        object.action = .create ∧ ∃ label, json = .str label) := by
  unfold openNode
  extract_lets node index opened
  have hopened : Accepts draft opened [] True := .of_eq rfl rfl
  cases hlookup : object.members.lookup InputEntry.labelKey with
  | none =>
      have hlabel : [object].filterMap InputObject.label? = [] := by
        unfold InputObject.label?
        simp [hlookup]
      refine ⟨?_, fun hclean => ?_⟩
      · rw [hopened.clean_iff, hlabel]
        simp
      · rw [hopened.labels hclean, hlabel, List.filterMap_nil, List.append_nil, List.append_nil]
  | some json =>
      refine (hopened.trans (addLabel_accepts opened index path hlookup)).congr ?_
      rw [true_and]
      exact ⟨fun h found hfound => Option.some.inj hfound ▸ h, fun h => h json rfl⟩

theorem require_accepts (index : ℕ) (path : String) (draft : PlanDraft) (field : InputField) :
    Accepts draft (require index path draft field) []
      (∀ kind list, field.shape ≠ .scalar kind list) := by
  unfold require
  cases field.shape with
  | scalar kind list => exact .report _ _ _ fun h => h kind list rfl
  | relation relation =>
      have hsame : Accepts draft { draft with requirements := draft.requirements ++
          [⟨index, field.name, join path field.name⟩] } [] True := .of_eq rfl rfl
      exact hsame.congr (iff_of_true trivial fun kind list => nofun)

theorem closeNode_accepts (draft : PlanDraft) (index : ℕ) (type : InputType)
    (linkedBy : Option String) (path : String) (members : List (String × Json)) :
    Accepts draft (draft.closeNode index type linkedBy path members) []
      (∀ field ∈ type.fields, field.required = true → linkedBy ≠ some field.name →
        ∀ kind list, field.shape = .scalar kind list → (members.lookup field.name).isSome) := by
  have hall : ∀ (fields : List InputField) (draft : PlanDraft),
      Accepts draft (fields.foldl (require index path) draft) []
        (∀ field ∈ fields, ∀ kind list, field.shape ≠ .scalar kind list) := by
    intro fields
    induction fields with
    | nil => exact fun draft => (Accepts.refl draft).congr (by simp)
    | cons field fields ih =>
        intro draft
        rw [List.foldl_cons]
        refine ((require_accepts index path draft field).trans (ih _)).congr ?_
        rw [List.forall_mem_cons]
  unfold closeNode
  refine (hall _ draft).congr (forall_congr' fun field => ?_)
  rw [List.mem_filter, Bool.and_eq_true, Bool.and_eq_true, decide_eq_true_iff,
    Option.isNone_iff_eq_none]
  constructor
  · intro h hfield hrequired hlinked kind list hshape
    by_contra hmissing
    rw [Option.not_isSome_iff_eq_none] at hmissing
    exact h ⟨hfield, ⟨hrequired, hmissing⟩, hlinked⟩ kind list hshape
  · rintro h ⟨hfield, ⟨hrequired, hmissing⟩, hlinked⟩ kind list hshape
    have hthere := h hfield hrequired hlinked kind list hshape
    rw [hmissing] at hthere
    cases hthere

/-! ### Objects -/

/-- The relationship that an object inherits from the one around it is no value of it. -/
theorem innerLink_ne_scalar (hschema : schema.Sound) {model : Model}
    (hmodel : model ∈ schema.models) (hmem : relationship ∈ model.relationships.values)
    (htarget : schema.model? relationship.target = some target) {field : InputField}
    (hfield : field ∈ (schema.input .create target).fields) {kind : Kind} {list : Bool}
    (hshape : field.shape = .scalar kind list) : innerLink relationship ≠ some field.name := by
  intro hlink
  rcases mem_input_fields hfield with ⟨plain, hplain, hscalar⟩ | ⟨_, _, _, _, rfl⟩
  · obtain ⟨hname, -, -, hidentity, -⟩ := ofField?_eq_some hscalar
    have hsound := hschema.model _ (hschema.model?_eq_some.mp htarget).1
    refine not_plain_of_innerLink hschema hmodel hmem htarget field.name hlink ?_
    rcases List.mem_cons.mp hplain with rfl | hordinary
    · exact absurd rfl (hidentity hsound.identity.identity)
    · exact hsound.plain.mem_keys.mpr ⟨plain, hordinary, hname.symm⟩
  · cases hshape

theorem required_iff (hschema : schema.Sound) (hmodel : object.model ∈ schema.models)
    (hmem : relationship ∈ object.model.relationships.values)
    (htarget : schema.model? relationship.target = some target)
    {members : List (String × Json)} :
    (∀ field ∈ (schema.input .create target).fields, field.required = true →
      innerLink relationship ≠ some field.name → ∀ kind list, field.shape = .scalar kind list →
        (members.lookup field.name).isSome) ↔
    ∀ field ∈ (schema.input .create target).fields, field.required = true →
      ∀ kind list, field.shape = .scalar kind list → (members.lookup field.name).isSome := by
  refine forall_congr' fun field => forall_congr' fun hfield => forall_congr' fun _ => ?_
  refine ⟨fun h kind list hshape => h ?_ kind list hshape, fun h _ => h⟩
  exact innerLink_ne_scalar hschema hmodel hmem htarget hfield hshape

/-- An object is read: it is opened, its members are read, and at last what it leaves out. -/
theorem object_accepts {nested : List InputObject} {filled after : PlanDraft} {path : String}
    (hmembers : Accepts (draft.openNode object.model object.type object.action object.linkedBy path
      object.members) filled nested ((∀ name json, (name, json) ∈ object.members →
        ¬ object.Apart name → object.Allows schema name json) ∧
          ∀ inner ∈ nested, inner.WellFormed schema))
    (hclose : Accepts filled after [] (object.action = .create → ∀ field ∈ object.type.fields,
      field.required = true → ∀ kind list, field.shape = .scalar kind list →
        (object.members.lookup field.name).isSome)) :
    Accepts draft after (object :: nested)
      (∀ found ∈ object :: nested, found.WellFormed schema) := by
  have hall := ((openNode_accepts draft object path).trans hmembers).trans hclose
  rw [List.append_nil] at hall
  refine hall.congr ?_
  rw [List.forall_mem_cons]
  constructor
  · rintro ⟨⟨hlabel, hallowed, hnested⟩, hrequired⟩
    exact ⟨⟨hallowed, hlabel, hrequired⟩, hnested⟩
  · rintro ⟨hobject, hnested⟩
    exact ⟨⟨hobject.label, hobject.members, hnested⟩, hobject.required⟩

theorem not_takes_null (hmany : relationship.isForeignKey = false) :
    ¬ relationship.Takes target .null := by
  intro h
  cases h with
  | nothing h =>
      rw [hmany] at h
      cases h
  | identity h => cases h

/-- No kind of identity reads an object. -/
theorem not_identity_obj (kind : Kind) (members : List (String × Json)) (id : Identity) :
    Identity.ofJson kind (.obj members) ≠ .ok id := by
  cases kind <;> exact nofun

theorem takes_obj_iff {members : List (String × Json)} :
    relationship.Takes target (.obj members) ↔
      members.lookup InputEntry.referenceKey = none ∨
        ∃ label, members = [(InputEntry.referenceKey, .str label)] := by
  constructor
  · generalize hjson : Json.obj members = json
    intro h
    cases h with
    | nothing => cases hjson
    | identity h => exact absurd (hjson ▸ h) (not_identity_obj _ _ _)
    | labelled label => exact .inr ⟨label, Json.obj.inj hjson⟩
    | object h => exact .inl (Json.obj.inj hjson ▸ h)
  · rintro (h | ⟨label, rfl⟩)
    · exact .object h
    · exact .labelled label

/-- What is no object is null, or should be an identity. -/
theorem planOther_accepts (schema : Schema) (index : ℕ) (model target : Model)
    (relationship : Relationship) (path : String) (draft : PlanDraft) {json : Json}
    (hjson : ∀ members, json ≠ .obj members) :
    Accepts draft (planItem schema index model target relationship path draft json) []
      (relationship.Takes target json) := by
  rw [planItem.eq_2 _ _ _ _ _ _ _ _ hjson]
  by_cases hnull : (json.isNull && relationship.isOwn) = true
  · obtain ⟨hjson_null, hown⟩ := Bool.and_eq_true_iff.mp hnull
    obtain rfl : json = .null := by
      cases json with
      | null => rfl
      | bool | num | str | arr | obj => cases hjson_null
    rw [if_pos hnull]
    by_cases hmany : relationship.isMany = true
    · rw [if_pos hmany]
      refine .report _ _ _ (not_takes_null ?_)
      unfold Relationship.isForeignKey
      rw [hmany, Bool.not_true, Bool.and_false]
    · rw [if_neg hmany]
      refine (linkTo_accepts _ _ _ _ _ _ _).congr (iff_of_true trivial (.nothing ?_))
      unfold Relationship.isForeignKey
      rw [hown, Bool.eq_false_iff.mpr hmany]
      rfl
  · rw [if_neg hnull]
    rcases readIdentity_cases draft target path json with ⟨id, hid, hread⟩ | ⟨hnone, fault, hread⟩
    · rw [hread]
      exact (linkTo_accepts _ _ _ _ _ _ _).congr (iff_of_true trivial (.identity hid))
    · rw [hread]
      refine .report _ _ _ fun h => ?_
      cases h with
      | nothing h =>
          have hown := (Bool.and_eq_true_iff.mp h).1
          rw [hown] at hnull
          exact hnull rfl
      | identity h => exact hnone _ h
      | labelled | object => exact hjson _ rfl

/-! ### Objects within objects -/

mutual

theorem planMembers_accepts (hschema : schema.Sound) {object : InputObject}
    (hmodel : object.model ∈ schema.models) {kind : InputKind}
    (htype : object.type = schema.input kind object.model) (index : ℕ) (path : String)
    (draft : PlanDraft) : (members : List (String × Json)) →
    Accepts draft
      (planMembers schema index object.model object.type object.linkedBy path draft members)
      (schema.objects object.model object.type object.linkedBy members)
      ((∀ name json, (name, json) ∈ members → ¬ object.Apart name →
        object.Allows schema name json) ∧
        ∀ inner ∈ schema.objects object.model object.type object.linkedBy members,
          inner.WellFormed schema)
  | [] => (Accepts.refl draft).congr (by simp [Schema.objects])
  | (name, json) :: rest => by
    rw [planMembers_cons, Schema.objects_cons]
    refine ((planMember_accepts hschema hmodel htype index path draft name json).trans
      (planMembers_accepts hschema hmodel htype index path _ rest)).congr ?_
    rw [List.forall_mem_append]
    constructor
    · rintro ⟨⟨hfirst, hfirst_inner⟩, hrest, hrest_inner⟩
      refine ⟨?_, hfirst_inner, hrest_inner⟩
      intro other found hmem
      rcases List.mem_cons.mp hmem with heq | hbehind
      · obtain ⟨rfl, rfl⟩ := Prod.mk.inj heq
        exact hfirst
      · exact hrest other found hbehind
    · rintro ⟨hall, hfirst_inner, hrest_inner⟩
      exact ⟨⟨hall name json List.mem_cons_self, hfirst_inner⟩,
        fun other found hmem => hall other found (List.mem_cons_of_mem _ hmem), hrest_inner⟩
termination_by members => (sizeOf members, 0)

theorem planMember_accepts (hschema : schema.Sound) {object : InputObject}
    (hmodel : object.model ∈ schema.models) {kind : InputKind}
    (htype : object.type = schema.input kind object.model) (index : ℕ) (path : String)
    (draft : PlanDraft) (name : String) (json : Json) :
    Accepts draft
      (planMember schema index object.model object.type object.linkedBy path draft name json)
      (schema.memberObjects object.model object.type object.linkedBy name json)
      ((¬ object.Apart name → object.Allows schema name json) ∧
        ∀ inner ∈ schema.memberObjects object.model object.type object.linkedBy name json,
          inner.WellFormed schema) := by
  have hreads := InputObject.readsAs hschema hmodel htype name json
  unfold planMember Schema.memberObjects
  cases hread : InputEntry.read object.model object.type object.linkedBy name json with
  | ignored =>
      rw [hread] at hreads
      cases hreads with
      | apart hapart =>
          exact (Accepts.refl draft).congr
            (iff_of_true trivial ⟨fun h => absurd hapart h, fun _ h => absurd h List.not_mem_nil⟩)
  | wrong fault =>
      rw [hread] at hreads
      cases hreads with
      | wrong _ hfield hwrong => exact .report _ _ _ fun h => hwrong (h.1 hfield)
  | scalar value =>
      rw [hread] at hreads
      cases hreads with
      | scalar _ hfield hallowed =>
          exact (Accepts.refl draft).congr
            (iff_of_true trivial ⟨fun _ => hallowed, fun _ h => absurd h List.not_mem_nil⟩)
  | relation relationship =>
      rw [hread] at hreads
      cases hreads with
      | relation _ hfield hallowed =>
          obtain ⟨hmem, -, -⟩ := InputEntry.null_of_read (hschema.model _ hmodel) (htype ▸ hread)
          refine (planRelation_accepts hschema hmodel hmem index (join path name) draft
            json).congr ?_
          rw [← hallowed, imp_iff_right hfield]
termination_by (sizeOf json, 2)

theorem planRelation_accepts (hschema : schema.Sound) {object : InputObject}
    (hmodel : object.model ∈ schema.models) {relationship : Relationship}
    (hmem : relationship ∈ object.model.relationships.values) (index : ℕ) (path : String)
    (draft : PlanDraft) (json : Json) :
    Accepts draft (planRelation schema index object.model path draft relationship json)
      (schema.relationObjects relationship json)
      (relationship.TakesAll schema json ∧
        ∀ inner ∈ schema.relationObjects relationship json, inner.WellFormed schema) := by
  obtain ⟨target, htarget⟩ : ∃ target, schema.model? relationship.target = some target := by
    cases hownership : relationship.ownership with
    | own =>
        exact (hschema.own _ hmodel _ hmem (Relationship.isOwn_iff.mpr hownership)).2.2
    | remote field =>
        obtain ⟨target, -, htarget, -⟩ := hschema.remote _ hmodel _ hmem field hownership
        exact ⟨target, htarget⟩
  have htakes : relationship.TakesAll schema json ↔ ∃ items,
      relationship.items? json = some items ∧ ∀ item ∈ items, relationship.Takes target item := by
    constructor
    · rintro ⟨found, items, hfound, hitems⟩
      obtain rfl := Option.some.inj (htarget.symm.trans hfound)
      exact ⟨items, hitems⟩
    · rintro ⟨items, hitems⟩
      exact ⟨target, items, htarget, hitems⟩
  rw [htakes]
  unfold planRelation Schema.relationObjects Relationship.items?
  rw [htarget]
  dsimp only
  by_cases hmany : relationship.isMany = true
  · rw [if_pos hmany, if_pos hmany, if_pos hmany]
    cases json with
    | arr items =>
        refine (planItems_accepts hschema hmodel hmem htarget index path 0 draft items).congr
          (and_congr_left fun _ => ?_)
        constructor
        · exact fun h => ⟨items, rfl, h⟩
        · rintro ⟨found, hfound, h⟩
          exact Option.some.inj hfound ▸ h
    | null | bool | num | str | obj =>
        refine .report _ _ _ ?_
        rintro ⟨⟨items, hnone, -⟩, -⟩
        cases hnone
  · rw [if_neg hmany, if_neg hmany, if_neg hmany]
    refine (planItem_accepts hschema hmodel hmem htarget index path draft json).congr
      (and_congr_left fun _ => ?_)
    constructor
    · exact fun h => ⟨[json], rfl, List.forall_mem_singleton.mpr h⟩
    · rintro ⟨found, hfound, h⟩
      obtain rfl := Option.some.inj hfound
      exact List.forall_mem_singleton.mp h
termination_by (sizeOf json, 1)

theorem planItems_accepts (hschema : schema.Sound) {object : InputObject}
    (hmodel : object.model ∈ schema.models) {relationship : Relationship}
    (hmem : relationship ∈ object.model.relationships.values) {target : Model}
    (htarget : schema.model? relationship.target = some target) (index : ℕ) (path : String)
    (position : ℕ) (draft : PlanDraft) : (items : List Json) →
    Accepts draft
      (planItems schema index object.model target relationship path position draft items)
      (schema.itemsObjects target relationship items)
      ((∀ item ∈ items, relationship.Takes target item) ∧
        ∀ inner ∈ schema.itemsObjects target relationship items, inner.WellFormed schema)
  | [] => (Accepts.refl draft).congr (by simp [Schema.itemsObjects])
  | item :: items => by
    refine ((planItem_accepts hschema hmodel hmem htarget index s!"{path}[{position}]" draft
      item).trans (planItems_accepts hschema hmodel hmem htarget index path (position + 1) _
        items)).congr ?_
    rw [Schema.itemsObjects, List.forall_mem_append, List.forall_mem_cons]
    tauto
termination_by items => (sizeOf items, 0)

theorem planItem_accepts (hschema : schema.Sound) {object : InputObject}
    (hmodel : object.model ∈ schema.models) {relationship : Relationship}
    (hmem : relationship ∈ object.model.relationships.values) {target : Model}
    (htarget : schema.model? relationship.target = some target) (index : ℕ) (path : String)
    (draft : PlanDraft) (json : Json) :
    Accepts draft (planItem schema index object.model target relationship path draft json)
      (schema.itemObjects target relationship json)
      (relationship.Takes target json ∧
        ∀ inner ∈ schema.itemObjects target relationship json, inner.WellFormed schema) := by
  cases json with
  | obj members =>
      rw [planItem, Schema.itemObjects]
      by_cases hlabelled : (members.lookup InputEntry.referenceKey).isSome
      · rw [if_pos hlabelled, if_pos hlabelled]
        rcases readReference_cases draft target path members with
          ⟨label, rfl, hread⟩ | ⟨hnone, place, fault, hread⟩
        · rw [hread]
          refine (linkTo_accepts _ _ _ _ _ _ _).congr (iff_of_true trivial ⟨.labelled label, ?_⟩)
          exact fun _ h => absurd h List.not_mem_nil
        · rw [hread]
          refine .report _ _ _ fun h => ?_
          rcases takes_obj_iff.mp h.1 with hnew | ⟨label, hlabel⟩
          · rw [hnew] at hlabelled
            cases hlabelled
          · exact hnone label hlabel
      · rw [if_neg hlabelled, if_neg hlabelled]
        let inner : InputObject :=
          ⟨target, schema.input .create target, .create, innerLink relationship, members⟩
        have hinner : inner.model ∈ schema.models := (hschema.model?_eq_some.mp htarget).1
        have hmembers := planMembers_accepts hschema hinner rfl
          draft.nodes.length path
          (draft.openNode target inner.type .create inner.linkedBy path members) members
        have hclosed := closeNode_accepts (planMembers schema draft.nodes.length target inner.type
          inner.linkedBy path (draft.openNode target inner.type .create inner.linkedBy path members)
          members) draft.nodes.length inner.type inner.linkedBy path members
        have hlinked := hclosed.trans (linkTo_accepts _ index object.model target relationship path
          (some (.node draft.nodes.length)))
        refine (object_accepts hmembers (hlinked.congr ?_)).congr ?_
        · rw [and_true, imp_iff_right rfl]
          exact required_iff hschema hmodel hmem htarget
        · refine (and_iff_right (.object ?_)).symm
          rwa [Option.not_isSome_iff_eq_none] at hlabelled
  | null | bool | num | str | arr =>
      refine (planOther_accepts schema index object.model target relationship path draft
        (by simp)).congr ?_
      rw [Schema.itemObjects]
      · exact (and_iff_left fun _ h => absurd h List.not_mem_nil).symm
      · exact nofun
termination_by (sizeOf json, 0)

end

/-! ### The whole input -/

theorem readAction_cases (model : Model) (kind : InputKind) (members : List (String × Json)) :
    (∃ action, readAction model kind members = .ok action ∧ model.Identifies kind (.obj members) ∧
      (action = .create ↔ kind ≠ .update)) ∨
    (∃ fault, readAction model kind members = .error fault) ∧
      ¬ model.Identifies kind (.obj members) := by
  unfold readAction
  by_cases hkind : kind = .update
  · rw [if_pos hkind]
    have hnot : (∀ json id, members.lookup model.identity.name = some json →
        Identity.ofJson model.identity.kind json ≠ .ok id) →
          ¬ model.Identifies kind (.obj members) := by
      rintro hall ⟨found, hfound, hupdates⟩
      obtain ⟨json, id, hjson, hid⟩ := hupdates hkind
      exact hall json id (Json.obj.inj hfound ▸ hjson) hid
    cases hlookup : members.lookup model.identity.name with
    | none =>
        refine .inr ⟨⟨_, rfl⟩, hnot fun json id hjson => ?_⟩
        rw [hlookup] at hjson
        cases hjson
    | some json =>
        dsimp only
        cases hid : Identity.ofJson model.identity.kind json with
        | ok id =>
            refine .inl ⟨_, rfl, ⟨members, rfl, fun _ => ⟨json, id, hlookup, hid⟩⟩, ?_⟩
            exact iff_of_false (fun h => by cases h) (not_not.mpr hkind)
        | error fault =>
            refine .inr ⟨⟨_, rfl⟩, hnot fun other id hother => ?_⟩
            rw [hlookup] at hother
            rw [← Option.some.inj hother, hid]
            exact nofun
  · rw [if_neg hkind]
    exact .inl ⟨.create, rfl, ⟨members, rfl, fun h => absurd h hkind⟩, iff_of_true rfl hkind⟩

/-- Nothing is wrong with an input as far as its objects go. -/
theorem ofInput_accepts (hschema : schema.Sound) {model : Model} (hmodel : model ∈ schema.models)
    {kind : InputKind} (hkind : kind ≠ .delete) (input : Json) :
    Accepts {} (ofInput schema model kind input) (schema.inputObjects model kind input)
      (model.Identifies kind input ∧
        ∀ object ∈ schema.inputObjects model kind input, object.WellFormed schema) := by
  unfold ofInput Schema.inputObjects
  cases input with
  | null | bool | num | str | arr =>
      refine .report _ _ _ ?_
      rintro ⟨⟨members, hmembers, -⟩, -⟩
      cases hmembers
  | obj members =>
      dsimp only
      rcases readAction_cases model kind members with
        ⟨action, haction, hidentified, hcreate⟩ | ⟨⟨fault, hfault⟩, hnot⟩
      · rw [haction]
        dsimp only
        let object : InputObject := ⟨model, schema.input kind model, action, none, members⟩
        have hmembers := planMembers_accepts hschema hmodel (show object.type = _ from rfl) 0 ""
          (openNode {} model object.type action none "" members) members
        refine (object_accepts hmembers ?_).congr (and_iff_right hidentified).symm
        by_cases hnew : kind = .create
        · rw [if_pos hnew]
          have haction_create : object.action = .create := hcreate.mpr (by rw [hnew]; decide)
          refine (closeNode_accepts _ 0 object.type none "" members).congr ?_
          rw [imp_iff_right haction_create]
          exact forall_congr' fun field => forall_congr' fun _ => forall_congr' fun _ =>
            imp_iff_right fun h => by cases h
        · rw [if_neg hnew]
          have hupdate : kind = .update := by
            cases kind with
            | create => exact absurd rfl hnew
            | update => rfl
            | delete => exact absurd rfl hkind
          exact (Accepts.refl _).congr (iff_of_true trivial fun h => absurd hupdate (hcreate.mp h))
      · rw [hfault]
        exact .report _ _ _ fun h => hnot h.1

end PlanDraft

end ModelSurface
