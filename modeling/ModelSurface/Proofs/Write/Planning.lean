import ModelSurface.Proofs.Write.Drafts

/-!
# Planning

Reading an input only ever adds to the draft of its plan, and what it adds is sound, however deep
its objects are nested.
-/

namespace ModelSurface

namespace PlanDraft

variable {schema : Schema} {draft filled after : PlanDraft} {model : Model}

/-- A record is planned behind all others, and completed while the plan grows on. -/
theorem opened_extends {opened : PlanDraft} {node : PlanNode} (hopened : Grows schema draft opened)
    (hnodes : opened.nodes = draft.nodes ++ [node]) (hafter : Extends schema opened after)
    (hnode : after.Complete draft.nodes.length node) : Extends schema draft after := by
  have hlength : opened.nodes.length = draft.nodes.length + 1 := by
    rw [hnodes, List.length_append]
    rfl
  refine ⟨hopened.trans hafter.toGrows, ?_⟩
  intro index found hindex hfound
  rcases Nat.eq_or_lt_of_le hindex with rfl | hbehind
  · have hlast := List.prefix_iff_getElem?.mp hafter.nodes draft.nodes.length (by omega)
    rw [hfound, List.getElem_of_eq hnodes, List.getElem_concat_length rfl] at hlast
    rw [Option.some.inj hlast]
    exact hnode
  · exact hafter.complete index found (by omega) hfound

/-- The record that an object stands for is planned as soon as the object is opened. -/
theorem planned_openNode (draft : PlanDraft) (hschema : schema.Sound)
    (hmodel : model ∈ schema.models) {kind : InputKind} (hkind : kind ≠ .delete)
    (action : NodeAction) (linkedBy : Option String) (path : String)
    (members : List (String × Json)) :
    Planned (draft.openNode model (schema.input kind model) action linkedBy path members).nodes
      draft.nodes.length model.name := by
  obtain ⟨-, node, hnodes, hnode_model, -⟩ :=
    openNode_grows draft hschema hmodel hkind action linkedBy path members
  rw [hnodes]
  exact ⟨node, List.getElem?_concat_length, congrArg Model.name hnode_model⟩

/-- An object to create is read: it is planned, its members are, what it leaves out is asked for,
and at last it is linked to the object around it. -/
theorem object_extends (hschema : schema.Sound) (hmodel : model ∈ schema.models)
    {linkedBy : Option String} {path : String} {members : List (String × Json)}
    (hfilled : Extends schema
      (draft.openNode model (schema.input .create model) .create linkedBy path members) filled)
    (hgiven : ∀ relationship ∈ model.relationships.values, relationship.isForeignKey = true →
      relationship.nullable = false → relationship.name ∈ members.map (·.1) →
        filled.Given draft.nodes.length relationship.name)
    (hread : ∀ name json, (name, json) ∈ members → ∀ fault,
      InputEntry.read model (schema.input .create model) linkedBy name json = .wrong fault →
        filled.violations ≠ [])
    (hplain : ∀ name, linkedBy = some name → name ∉ model.plain.keys)
    (hafter : Extends schema (filled.closeNode draft.nodes.length (schema.input .create model)
      linkedBy path members) after)
    (hlinked : ∀ name, linkedBy = some name → after.Given draft.nodes.length name) :
    Extends schema draft after := by
  have hkind : InputKind.create ≠ .delete := by decide
  obtain ⟨hopened, node, hnodes, hnode_model, -, hnode_values⟩ :=
    openNode_grows draft hschema hmodel hkind .create linkedBy path members
  obtain ⟨hclosed, hrequired, hasked⟩ := closeNode_extends hschema hmodel draft.nodes.length
    linkedBy path members filled
  have hmissing : ∀ name, name ∉ members.map (·.1) → (members.lookup name).isNone := by
    intro name hnot
    rw [Option.isNone_iff_eq_none, ← Option.not_isSome_iff_eq_none]
    intro hsome
    exact hnot (Keyed.isSome_get?_iff.mp (show (Keyed.get? ⟨members⟩ _).isSome from hsome))
  apply opened_extends hopened hnodes (hfilled.trans (hclosed.trans hafter))
  refine ⟨fun _ => ?_, fun _ => ?_⟩
  · intro relationship hmem hheld hnull
    rw [hnode_model] at hmem
    by_cases hlink : linkedBy = some relationship.name
    · exact hlinked _ hlink
    · by_cases hthere : relationship.name ∈ members.map (·.1)
      · exact (hgiven relationship hmem hheld hnull hthere).mono (hclosed.trans hafter).toGrows
      · exact (hrequired relationship hmem hheld hnull (hmissing _ hthere) hlink).mono
          hafter.toGrows
  · intro plain hmem hcomputed hoptional
    rw [hnode_model] at hmem
    rw [hnode_values]
    have hsound := hschema.model model hmodel
    by_cases hthere : plain.name ∈ members.map (·.1)
    · obtain ⟨⟨name, json⟩, hmember, hname⟩ := List.mem_map.mp hthere
      dsimp only at hname
      subst hname
      rcases InputEntry.read_plain schema linkedBy json (show InputKind.create ≠ .delete by decide)
        hsound hmem hcomputed with ⟨value, hvalue⟩ | ⟨fault, hwrong⟩
      · exact .inr (InputEntry.mem_keys_values hmember hvalue)
      · exact .inl ((hclosed.trans hafter).violations_ne_nil (hread _ json hmember fault hwrong))
    · have hlink : linkedBy ≠ some plain.name := fun hsome =>
        hplain _ hsome (hsound.plain.mem_keys.mpr ⟨plain, hmem, rfl⟩)
      exact .inl (hafter.violations_ne_nil
        (hasked plain hmem hcomputed hoptional (hmissing _ hthere) hlink))

/-- A record that was read, or the input that is refused because it could not be read. -/
theorem linkRead_extends (hschema : schema.Sound) {target : Model} (hmodel : model ∈ schema.models)
    {relationship : Relationship} (hmem : relationship ∈ model.relationships.values)
    (htarget : schema.model? relationship.target = some target) {index : Nat} (path : String)
    (hplanned : Planned draft.nodes index model.name) {read : PlanDraft × Option DraftRef}
    (hafter : after = match read with
      | (draft, some other) => draft.linkTo index model target relationship path (some other)
      | (draft, none) => draft)
    (hread : Extends schema draft read.1 ∧
      match read.2 with
      | some ref => read.1 = draft ∧ ref.LeadsTo draft.nodes target.name
      | none => read.1.violations ≠ []) :
    Extends schema draft after ∧
      (relationship.isOwn = true → after.Given index relationship.name) := by
  obtain ⟨between, found⟩ := read
  obtain ⟨hextends, hfound⟩ := hread
  subst hafter
  cases found with
  | none => exact ⟨hextends, fun _ => .inl hfound⟩
  | some ref =>
      obtain ⟨heq, hleads⟩ := hfound
      dsimp only at heq
      subst heq
      refine ⟨linkTo_extends hschema hmodel hmem htarget hplanned path (some ref) ?_ ?_,
        (given_linkTo index path ref).1⟩
      · intro other hother
        obtain rfl := Option.some.inj hother
        exact hleads
      · intro hnone
        cases hnone

/-- What is no object stands for a stored record, or for none. -/
theorem planOther_extends (hschema : schema.Sound) {target : Model} (hmodel : model ∈ schema.models)
    {relationship : Relationship} (hmem : relationship ∈ model.relationships.values)
    (htarget : schema.model? relationship.target = some target) {index : Nat} (path : String)
    (hplanned : Planned draft.nodes index model.name) {json : Json}
    (hjson : ∀ members, json ≠ .obj members)
    (hnull : json.isNull = true → relationship.isMany = false → relationship.isOwn = true →
      relationship.nullable = true) :
    Extends schema draft (planItem schema index model target relationship path draft json) ∧
      (relationship.isOwn = true → json.isNull = false →
        (planItem schema index model target relationship path draft json).Given index
          relationship.name) := by
  rw [planItem.eq_2 _ _ _ _ _ _ _ _ hjson]
  by_cases hnone : (json.isNull && relationship.isOwn) = true
  · obtain ⟨hjson_null, hown⟩ := Bool.and_eq_true_iff.mp hnone
    rw [if_pos hnone]
    refine ⟨?_, ?_⟩
    · by_cases hmany : relationship.isMany = true
      · rw [if_pos hmany]
        exact report_extends _ _
      · rw [if_neg hmany]
        have hsingle : relationship.isMany = false := Bool.eq_false_iff.mpr hmany
        apply linkTo_extends hschema hmodel hmem htarget hplanned path none
        · intro ref href
          cases href
        · intro _ _
          exact ⟨hsingle, hnull hjson_null hsingle hown⟩
    · intro _ hnot
      rw [hjson_null] at hnot
      cases hnot
  · rw [if_neg hnone]
    obtain ⟨hextends, hgiven⟩ := linkRead_extends hschema hmodel hmem htarget path hplanned
      rfl (readIdentity_extends target path json rfl)
    exact ⟨hextends, fun hown _ => hgiven hown⟩

/-- The relationship that an object inherits from the one around it is no plain field. -/
theorem not_plain_of_innerLink (hschema : schema.Sound) {target : Model}
    (hmodel : model ∈ schema.models) {relationship : Relationship}
    (hmem : relationship ∈ model.relationships.values)
    (htarget : schema.model? relationship.target = some target) (name : String)
    (hname : innerLink relationship = some name) : name ∉ target.plain.keys := by
  unfold innerLink at hname
  split at hname
  · cases hname
  · rename_i field hownership
    obtain rfl := Option.some.inj hname
    obtain ⟨held, hheld, hheld_name, -⟩ :=
      hschema.held_of_remote hmodel hmem htarget hownership
    have hsound := hschema.model target (hschema.model?_eq_some.mp htarget).1
    intro hplain
    exact (hsound.plain_apart hplain).2 held hheld hheld_name

/-! ### Objects within objects -/

/-- Plans what a relationship of a planned record is given. -/
def planRelation (schema : Schema) (index : Nat) (model : Model) (path : String)
    (draft : PlanDraft) (relationship : Relationship) (json : Json) : PlanDraft :=
  match schema.model? relationship.target with
  | none => draft
  | some target =>
    if relationship.isMany then
      match json with
      | .arr items => planItems schema index model target relationship path 0 draft items
      | _ => draft.report path .list
    else planItem schema index model target relationship path draft json

/-- Plans what one member of an object stands for. -/
def planMember (schema : Schema) (index : Nat) (model : Model) (type : InputType)
    (linkedBy : Option String) (path : String) (draft : PlanDraft) (name : String) (json : Json) :
    PlanDraft :=
  match InputEntry.read model type linkedBy name json with
  | .ignored | .scalar _ => draft
  | .wrong fault => draft.report (join path name) fault
  | .relation relationship =>
    planRelation schema index model (join path name) draft relationship json

theorem planMembers_cons {index : Nat} {type : InputType} {linkedBy : Option String} {path : String}
    (name : String) (json : Json) (rest : List (String × Json)) :
    planMembers schema index model type linkedBy path draft ((name, json) :: rest) =
      planMembers schema index model type linkedBy path
        (planMember schema index model type linkedBy path draft name json) rest := by
  cases json <;> rfl

mutual

/-- The object for a planned record adds complete records to a plan, and gives what it names. -/
theorem planMembers_extends (hschema : schema.Sound) {model : Model}
    (hmodel : model ∈ schema.models) {kind : InputKind} (hkind : kind ≠ .delete) {index : Nat}
    (linkedBy : Option String) (path : String) {draft : PlanDraft}
    (hplanned : Planned draft.nodes index model.name) :
    (members : List (String × Json)) → Extends schema draft
      (planMembers schema index model (schema.input kind model) linkedBy path draft members) ∧
    (∀ relationship ∈ model.relationships.values, relationship.isForeignKey = true →
      relationship.nullable = false → relationship.name ∈ members.map (·.1) →
        (planMembers schema index model (schema.input kind model) linkedBy path draft
          members).Given index relationship.name) ∧
    ∀ name json, (name, json) ∈ members → ∀ fault,
      InputEntry.read model (schema.input kind model) linkedBy name json = .wrong fault →
        (planMembers schema index model (schema.input kind model) linkedBy path draft
          members).violations ≠ []
  | [] => ⟨.refl draft, fun _ _ _ _ h => absurd h List.not_mem_nil,
      fun _ _ h => absurd h List.not_mem_nil⟩
  | (name, json) :: rest => by
    rw [planMembers_cons]
    obtain ⟨hfirst, hgiven, hwrong⟩ :=
      planMember_extends hschema hmodel hkind linkedBy path hplanned name json
    obtain ⟨hrest, hothers, hwrong_rest⟩ := planMembers_extends hschema hmodel hkind linkedBy path
      (hplanned.mono hfirst.nodes) rest
    refine ⟨hfirst.trans hrest, ?_, ?_⟩
    · intro relationship hmem hheld hnull hname
      rcases List.mem_cons.mp hname with heq | hbehind
      · exact (hgiven relationship hmem hheld hnull heq).mono hrest.toGrows
      · exact hothers relationship hmem hheld hnull hbehind
    · intro other found hmem fault hread
      rcases List.mem_cons.mp hmem with heq | hbehind
      · obtain ⟨rfl, rfl⟩ := Prod.mk.inj heq
        exact hrest.violations_ne_nil (hwrong fault hread)
      · exact hwrong_rest other found hbehind fault hread
termination_by members => (sizeOf members, 0)

theorem planMember_extends (hschema : schema.Sound) {model : Model} (hmodel : model ∈ schema.models)
    {kind : InputKind} (hkind : kind ≠ .delete) {index : Nat} (linkedBy : Option String)
    (path : String) {draft : PlanDraft} (hplanned : Planned draft.nodes index model.name)
    (name : String) (json : Json) : Extends schema draft
      (planMember schema index model (schema.input kind model) linkedBy path draft name json) ∧
    (∀ relationship ∈ model.relationships.values, relationship.isForeignKey = true →
      relationship.nullable = false → relationship.name = name →
        (planMember schema index model (schema.input kind model) linkedBy path draft name
          json).Given index relationship.name) ∧
    ∀ fault, InputEntry.read model (schema.input kind model) linkedBy name json = .wrong fault →
      (planMember schema index model (schema.input kind model) linkedBy path draft name
        json).violations ≠ [] := by
  have hown : ∀ relationship ∈ model.relationships.values, relationship.isForeignKey = true →
      relationship.name = name →
      InputEntry.read model (schema.input kind model) linkedBy name json = .relation relationship ∨
        ∃ fault, InputEntry.read model (schema.input kind model) linkedBy name json =
          .wrong fault := by
    intro relationship hmem hheld hname
    subst hname
    exact InputEntry.read_own hschema hmodel hkind hmem (Bool.and_eq_true_iff.mp hheld).1
  unfold planMember
  cases hread : InputEntry.read model (schema.input kind model) linkedBy name json with
  | ignored | scalar =>
      refine ⟨.refl draft, ?_, fun _ h => by cases h⟩
      intro relationship hmem hheld hnull hname
      rcases hown relationship hmem hheld hname with hrelation | ⟨fault, hwrong⟩
      · rw [hread] at hrelation
        cases hrelation
      · rw [hread] at hwrong
        cases hwrong
  | wrong fault =>
      exact ⟨report_extends _ _, fun _ _ _ _ _ => .inl (violations_report _ _),
        fun _ _ => violations_report _ _⟩
  | relation found =>
      obtain ⟨hfound, -, hnull_found⟩ :=
        InputEntry.null_of_read (hschema.model model hmodel) hread
      obtain ⟨hextends, hgiven⟩ := planRelation_extends hschema hmodel hfound (join path name)
        hplanned json fun hjson => (hnull_found hjson).2
      refine ⟨hextends, ?_, fun _ h => by cases h⟩
      intro relationship hmem hheld hnull hname
      rcases hown relationship hmem hheld hname with hrelation | ⟨fault, hwrong⟩
      · rw [hread] at hrelation
        obtain rfl : found = relationship := by injection hrelation
        exact hgiven hheld hnull
      · rw [hread] at hwrong
        cases hwrong
termination_by (sizeOf json, 2)

theorem planRelation_extends (hschema : schema.Sound) {model : Model}
    (hmodel : model ∈ schema.models) {relationship : Relationship}
    (hmem : relationship ∈ model.relationships.values) {index : Nat} (path : String)
    {draft : PlanDraft} (hplanned : Planned draft.nodes index model.name) (json : Json)
    (hnull : json.isNull = true → relationship.nullable = true) :
    Extends schema draft (planRelation schema index model path draft relationship json) ∧
      (relationship.isForeignKey = true → relationship.nullable = false →
        (planRelation schema index model path draft relationship json).Given index
          relationship.name) := by
  unfold planRelation
  cases htarget : schema.model? relationship.target with
  | none =>
      refine ⟨.refl draft, ?_⟩
      intro hheld _
      obtain ⟨-, -, target, hfound⟩ :=
        hschema.own model hmodel relationship hmem (Bool.and_eq_true_iff.mp hheld).1
      rw [htarget] at hfound
      cases hfound
  | some target =>
      dsimp only
      by_cases hmany : relationship.isMany = true
      · rw [if_pos hmany]
        refine ⟨?_, ?_⟩
        · split
          · rename_i items
            exact planItems_extends hschema hmodel hmem htarget hmany path 0 hplanned items
          · exact report_extends _ _
        · intro hheld _
          have hsingle := (Bool.and_eq_true_iff.mp hheld).2
          rw [hmany] at hsingle
          cases hsingle
      · rw [if_neg hmany]
        obtain ⟨hitem, hgiven⟩ := planItem_extends hschema hmodel hmem htarget path hplanned json
          fun hjson _ _ => hnull hjson
        refine ⟨hitem, ?_⟩
        intro hheld hrequired
        apply hgiven (Bool.and_eq_true_iff.mp hheld).1
        apply Bool.eq_false_iff.mpr
        intro hjson
        rw [hnull hjson] at hrequired
        cases hrequired
termination_by (sizeOf json, 1)

theorem planItems_extends (hschema : schema.Sound) {model target : Model}
    (hmodel : model ∈ schema.models) {relationship : Relationship}
    (hmem : relationship ∈ model.relationships.values)
    (htarget : schema.model? relationship.target = some target)
    (hmany : relationship.isMany = true) {index : Nat} (path : String) (position : Nat)
    {draft : PlanDraft} (hplanned : Planned draft.nodes index model.name) :
    (items : List Json) → Extends schema draft
      (planItems schema index model target relationship path position draft items)
  | [] => .refl draft
  | item :: items => by
    have hitem := (planItem_extends hschema hmodel hmem htarget s!"{path}[{position}]" hplanned item
      fun _ hsingle => by rw [hmany] at hsingle; cases hsingle).1
    exact hitem.trans (planItems_extends hschema hmodel hmem htarget hmany path (position + 1)
      (hplanned.mono hitem.nodes) items)
termination_by items => (sizeOf items, 0)

theorem planItem_extends (hschema : schema.Sound) {model target : Model}
    (hmodel : model ∈ schema.models) {relationship : Relationship}
    (hmem : relationship ∈ model.relationships.values)
    (htarget : schema.model? relationship.target = some target) {index : Nat} (path : String)
    {draft : PlanDraft} (hplanned : Planned draft.nodes index model.name) (json : Json)
    (hnull : json.isNull = true → relationship.isMany = false →
      relationship.isOwn = true → relationship.nullable = true) :
    Extends schema draft (planItem schema index model target relationship path draft json) ∧
      (relationship.isOwn = true → json.isNull = false →
        (planItem schema index model target relationship path draft json).Given index
          relationship.name) := by
  cases json with
  | obj members =>
      rw [planItem]
      by_cases hlabelled : (members.lookup InputEntry.referenceKey).isSome
      · rw [if_pos hlabelled]
        obtain ⟨hextends, hgiven⟩ := linkRead_extends hschema hmodel hmem htarget path hplanned
          rfl (readReference_extends target path members rfl)
        exact ⟨hextends, fun hown _ => hgiven hown⟩
      · rw [if_neg hlabelled]
        obtain ⟨htarget_mem, -⟩ := hschema.model?_eq_some.mp htarget
        have hkind : InputKind.create ≠ .delete := by decide
        obtain ⟨hopened, -⟩ := openNode_grows draft hschema htarget_mem hkind .create
          (innerLink relationship) path members
        have hinner := planned_openNode draft hschema htarget_mem hkind .create
          (innerLink relationship) path members
        obtain ⟨hfilled, hgiven, hread⟩ := planMembers_extends hschema htarget_mem hkind
          (innerLink relationship) path hinner members
        obtain ⟨hclosed, -⟩ := closeNode_extends hschema htarget_mem draft.nodes.length
          (innerLink relationship) path members (planMembers schema draft.nodes.length target
            (schema.input .create target) (innerLink relationship) path _ members)
        have hgrown := (hopened.trans hfilled.toGrows).trans hclosed.toGrows
        have hlinked := linkTo_extends hschema hmodel hmem htarget (hplanned.mono hgrown.nodes) path
          (some (.node draft.nodes.length))
          (fun ref href => by
            obtain rfl := Option.some.inj href
            exact hinner.mono (hfilled.trans hclosed).nodes)
          fun hnone => by cases hnone
        refine ⟨object_extends hschema htarget_mem hfilled hgiven hread
          (not_plain_of_innerLink hschema hmodel hmem htarget) hlinked ?_, ?_⟩
        · intro name hname
          exact (given_linkTo index path _).2 _ name rfl hname
        · intro hown _
          exact (given_linkTo index path _).1 hown
  | _ => exact planOther_extends hschema hmodel hmem htarget path hplanned (by simp) hnull
termination_by (sizeOf json, 0)

end

/-! ### The whole input -/

theorem ofInput_extends (hschema : schema.Sound) (hmodel : model ∈ schema.models)
    {kind : InputKind} (hkind : kind ≠ .delete) (input : Json) :
    Extends schema {} (ofInput schema model kind input) := by
  unfold ofInput
  cases input with
  | obj members =>
      dsimp only
      cases haction : readAction model kind members with
      | error fault => exact report_extends _ _
      | ok action =>
          dsimp only
          obtain ⟨hopened, node, hnodes, -, hnode_action, -⟩ :=
            openNode_grows {} hschema hmodel hkind action none "" members
          have hplanned := planned_openNode {} hschema hmodel hkind action none "" members
          obtain ⟨hfilled, hgiven, hread⟩ :=
            planMembers_extends hschema hmodel hkind none "" hplanned members
          by_cases hcreate : kind = .create
          · rw [if_pos hcreate]
            subst hcreate
            obtain rfl : .create = action := Except.ok.inj haction
            exact object_extends hschema hmodel hfilled hgiven hread (fun _ h => by cases h)
              (.refl _) fun _ h => by cases h
          · rw [if_neg hcreate]
            have hold : node.action ≠ .create := by
              intro hnew
              rw [hnode_action] at hnew
              unfold readAction at haction
              cases kind with
              | create => exact absurd rfl hcreate
              | delete => exact absurd rfl hkind
              | update =>
                  rw [if_pos rfl] at haction
                  split at haction
                  · cases haction
                  · split at haction
                    · rw [← Except.ok.inj haction] at hnew
                      cases hnew
                    · cases haction
            exact opened_extends hopened hnodes hfilled
              ⟨fun hnew => absurd hnew hold, fun hnew => absurd hnew hold⟩
  | _ => exact report_extends _ _

/-- The record that an input is about is planned first, unless the input is wrong. -/
theorem planned_ofInput (hschema : schema.Sound) (hmodel : model ∈ schema.models)
    {kind : InputKind} (hkind : kind ≠ .delete) (input : Json) :
    (ofInput schema model kind input).violations ≠ [] ∨
      Planned (ofInput schema model kind input).nodes 0 model.name := by
  unfold ofInput
  cases input with
  | obj members =>
      dsimp only
      cases readAction model kind members with
      | error fault => exact .inl (violations_report _ _)
      | ok action =>
          right
          dsimp only
          have hopened := planned_openNode {} hschema hmodel hkind action none "" members
          obtain ⟨hfilled, -⟩ := planMembers_extends hschema hmodel hkind none "" hopened members
          have hplanned := hopened.mono hfilled.nodes
          by_cases hcreate : kind = .create
          · subst hcreate
            exact hplanned.mono (closeNode_extends hschema hmodel _ _ _ _ _).1.nodes
          · rw [if_neg hcreate]
            exact hplanned
  | _ => exact .inl (violations_report _ _)

end PlanDraft

end ModelSurface
