import ModelSurface.Proofs.Write.Inputs

/-!
# Plans in the making

While an input is read, a plan only grows. Its records and links are sound at each moment, and a
record is complete as soon as the object for it has been read: each value that it must have and each
reference that it has to hold is given, asked for, or the input is refused anyway.
-/

namespace ModelSurface

/-- Whether the record at an index is planned as one of the model with the name. -/
def Planned (nodes : List PlanNode) (index : Nat) (model : String) : Prop :=
  ∃ node, nodes[index]? = some node ∧ node.model.name = model

theorem Planned.mono {nodes nodes' : List PlanNode} (h : nodes <+: nodes') {index : Nat}
    {model : String} (hplanned : Planned nodes index model) : Planned nodes' index model := by
  obtain ⟨node, hnode, hmodel⟩ := hplanned
  obtain ⟨hindex, rfl⟩ := List.getElem?_eq_some_iff.mp hnode
  exact ⟨_, List.prefix_iff_getElem?.mp h index hindex, hmodel⟩

/-- Whether a reference can lead to a record of a model. -/
def DraftRef.LeadsTo (nodes : List PlanNode) (model : String) : DraftRef → Prop
  | .node index => Planned nodes index model
  | .stored _ => True
  | .labelled _ name => name = model

theorem DraftRef.LeadsTo.mono {nodes nodes' : List PlanNode} (h : nodes <+: nodes')
    {model : String} {ref : DraftRef} (href : ref.LeadsTo nodes model) :
    ref.LeadsTo nodes' model := by
  cases ref with
  | node index => exact Planned.mono h href
  | stored id => trivial
  | labelled label name => exact href

/-- A planned record gives values to plain fields only, and only such as may stand there. -/
structure PlanNode.Sound (schema : Schema) (node : PlanNode) : Prop where
  model : node.model ∈ schema.models
  values : ∀ name value, (name, value) ∈ node.values.entries →
    ∃ plain ∈ node.model.plain.values, plain.name = name ∧ plain.computed = none ∧
      plain.Admits value

/-- A link sets a relationship that its holder holds. `leadsTo` tells which references can lead to
a record of a model. -/
structure Link.Sound {ρ : Type} (schema : Schema) (leadsTo : String → ρ → Prop) (link : Link ρ) :
    Prop where
  model : link.holderModel ∈ schema.models
  holder : leadsTo link.holderModel.name link.holder
  value : ∀ other, link.value = some other → leadsTo link.valueModel.name other
  held : ∃ relationship ∈ link.holderModel.relationships.values,
    relationship.name = link.field ∧ relationship.isOwn ∧
      relationship.target = link.valueModel.name ∧ relationship.isMany = link.many ∧
      (link.value = none → relationship.isMany = false ∧ relationship.nullable = true)

theorem Link.Sound.mono {ρ : Type} {schema : Schema} {leadsTo leadsTo' : String → ρ → Prop}
    {link : Link ρ} (h : link.Sound schema leadsTo)
    (hmono : ∀ model ref, leadsTo model ref → leadsTo' model ref) :
    link.Sound schema leadsTo' where
  model := h.model
  holder := hmono _ _ h.holder
  value other hother := hmono _ _ (h.value other hother)
  held := h.held

namespace PlanDraft

structure Sound (schema : Schema) (draft : PlanDraft) : Prop where
  nodes : ∀ node ∈ draft.nodes, node.Sound schema
  links : ∀ link ∈ draft.links, link.Sound schema (DraftRef.LeadsTo draft.nodes)
  labels : ∀ label index name, draft.labels.get? label = some (index, name) →
    Planned draft.nodes index name
  violations : ∀ violation ∈ draft.violations, violation.kind = .validation

theorem sound_empty {schema : Schema} : Sound schema {} where
  nodes _ h := absurd h List.not_mem_nil
  links _ h := absurd h List.not_mem_nil
  labels _ _ _ h := by cases h
  violations _ h := absurd h List.not_mem_nil

/-- Whether a planned record gets a reference, or the input is refused if it does not. -/
def Given (draft : PlanDraft) (index : Nat) (field : String) : Prop :=
  draft.violations ≠ [] ∨
    (∃ requirement ∈ draft.requirements,
      requirement.node = index ∧ requirement.relation = field) ∨
    ∃ link ∈ draft.links, link.holder = .node index ∧ link.field = field ∧ link.value.isSome

/-- A record to create gets all the references that it has to hold, and all the values that it must
have. -/
structure Complete (draft : PlanDraft) (index : Nat) (node : PlanNode) : Prop where
  references : node.action = .create → ∀ relationship ∈ node.model.relationships.values,
    relationship.isForeignKey = true → relationship.nullable = false →
      draft.Given index relationship.name
  values : node.action = .create → ∀ plain ∈ node.model.plain.values, plain.computed = none →
    plain.isOptional = false → draft.violations ≠ [] ∨ plain.name ∈ node.values.keys

/-! ### Growth -/

structure Grows (schema : Schema) (before after : PlanDraft) : Prop where
  nodes : before.nodes <+: after.nodes
  links : before.links <+: after.links
  requirements : before.requirements <+: after.requirements
  violations : before.violations <+: after.violations
  sound : before.Sound schema → after.Sound schema

/-- Growth by records that are complete. -/
structure Extends (schema : Schema) (before after : PlanDraft) : Prop
    extends Grows schema before after where
  complete : ∀ index node, before.nodes.length ≤ index → after.nodes[index]? = some node →
    after.Complete index node

variable {schema : Schema} {before between after draft : PlanDraft}

theorem Grows.refl (draft : PlanDraft) : Grows schema draft draft :=
  ⟨List.prefix_rfl, List.prefix_rfl, List.prefix_rfl, List.prefix_rfl, id⟩

theorem Grows.trans (h : Grows schema before between) (h' : Grows schema between after) :
    Grows schema before after where
  nodes := h.nodes.trans h'.nodes
  links := h.links.trans h'.links
  requirements := h.requirements.trans h'.requirements
  violations := h.violations.trans h'.violations
  sound hsound := h'.sound (h.sound hsound)

/-- What is wrong with an input stays wrong. -/
theorem Grows.violations_ne_nil (h : Grows schema before after) (hwrong : before.violations ≠ []) :
    after.violations ≠ [] := by
  intro hnone
  apply hwrong
  have hpart := h.violations
  rw [hnone] at hpart
  exact List.prefix_nil.mp hpart

theorem Given.mono (h : Grows schema before after) {index : Nat} {field : String}
    (hgiven : before.Given index field) : after.Given index field := by
  rcases hgiven with hviolations | ⟨requirement, hmem, hrequirement⟩ | ⟨link, hmem, hlink⟩
  · exact .inl (h.violations_ne_nil hviolations)
  · exact .inr (.inl ⟨requirement, h.requirements.subset hmem, hrequirement⟩)
  · exact .inr (.inr ⟨link, h.links.subset hmem, hlink⟩)

theorem Complete.mono (h : Grows schema before after) {index : Nat} {node : PlanNode}
    (hcomplete : before.Complete index node) : after.Complete index node where
  references hcreate relationship hmem hheld hnull :=
    (hcomplete.references hcreate relationship hmem hheld hnull).mono h
  values hcreate plain hmem hcomputed hrequired :=
    (hcomplete.values hcreate plain hmem hcomputed hrequired).imp h.violations_ne_nil id

/-- Growth that adds no record. -/
theorem Grows.extends (h : Grows schema before after) (hnodes : after.nodes = before.nodes) :
    Extends schema before after := by
  refine ⟨h, ?_⟩
  intro index node hindex hnode
  rw [hnodes, List.getElem?_eq_none hindex] at hnode
  cases hnode

theorem Extends.refl (draft : PlanDraft) : Extends schema draft draft :=
  (Grows.refl draft).extends rfl

theorem Extends.trans (h : Extends schema before between) (h' : Extends schema between after) :
    Extends schema before after := by
  refine ⟨h.toGrows.trans h'.toGrows, ?_⟩
  intro index node hindex hnode
  by_cases hold : index < between.nodes.length
  · have hbetween : between.nodes[index]? = some node := by
      rw [List.getElem?_eq_getElem hold, ← hnode]
      exact (List.prefix_iff_getElem?.mp h'.nodes index hold).symm
    exact (h.complete index node hindex hbetween).mono h'.toGrows
  · exact h'.complete index node (Nat.le_of_not_lt hold) hnode

/-! ### Single steps -/

theorem report_extends (path : String) (fault : InputFault) :
    Extends schema draft (draft.report path fault) := by
  apply Grows.extends
  · refine ⟨List.prefix_rfl, List.prefix_rfl, List.prefix_rfl, List.prefix_append _ _, ?_⟩
    intro hsound
    refine ⟨hsound.nodes, hsound.links, hsound.labels, ?_⟩
    intro violation hmem
    rcases List.mem_append.mp hmem with hold | hnew
    · exact hsound.violations violation hold
    · rw [List.mem_singleton.mp hnew]
      rfl
  · rfl

theorem violations_report (path : String) (fault : InputFault) :
    (draft.report path fault).violations ≠ [] :=
  List.append_ne_nil_of_right_ne_nil _ (List.cons_ne_nil _ _)

theorem addLink_extends {link : Link DraftRef}
    (hlink : link.Sound schema (DraftRef.LeadsTo draft.nodes)) :
    Extends schema draft (draft.addLink link) := by
  apply Grows.extends
  · refine ⟨List.prefix_rfl, List.prefix_append _ _, List.prefix_rfl, List.prefix_rfl, ?_⟩
    intro hsound
    refine ⟨hsound.nodes, ?_, hsound.labels, hsound.violations⟩
    intro other hother
    rcases List.mem_append.mp hother with hold | hnew
    · exact hsound.links other hold
    · rw [List.mem_singleton.mp hnew]
      exact hlink
  · rfl

theorem addLabel_grows (schema : Schema) {index : Nat} {model : Model} (action : NodeAction)
    (path : String) (label : Json) (hplanned : Planned draft.nodes index model.name) :
    Grows schema draft (draft.addLabel index model action path label) ∧
      (draft.addLabel index model action path label).nodes = draft.nodes := by
  unfold addLabel
  cases label with
  | str label =>
      dsimp only
      by_cases haction : action ≠ .create
      · rw [if_pos haction]
        exact ⟨(report_extends _ _).toGrows, rfl⟩
      · rw [if_neg haction]
        have hput : Grows schema draft
            { draft with labels := draft.labels.put label (index, model.name) } := by
          refine ⟨List.prefix_rfl, List.prefix_rfl, List.prefix_rfl, List.prefix_rfl, ?_⟩
          intro hsound
          refine ⟨hsound.nodes, hsound.links, ?_, hsound.violations⟩
          intro other place name hother
          rw [Keyed.get?_put] at hother
          by_cases hsame : other = label
          · rw [if_pos hsame] at hother
            obtain ⟨rfl, rfl⟩ := Prod.mk.inj (Option.some.inj hother)
            exact hplanned
          · rw [if_neg hsame] at hother
            exact hsound.labels other place name hother
        split
        · exact ⟨hput.trans (report_extends _ _).toGrows, rfl⟩
        · exact ⟨hput, rfl⟩
  | _ => exact ⟨(report_extends _ _).toGrows, rfl⟩

/-- A record is planned behind all others. -/
theorem openNode_grows (draft : PlanDraft) {model : Model} (hschema : schema.Sound)
    (hmodel : model ∈ schema.models) {kind : InputKind} (hkind : kind ≠ .delete)
    (action : NodeAction) (linkedBy : Option String) (path : String)
    (members : List (String × Json)) :
    Grows schema draft
        (draft.openNode model (schema.input kind model) action linkedBy path members) ∧
      ∃ node, (draft.openNode model (schema.input kind model) action linkedBy path members).nodes =
        draft.nodes ++ [node] ∧ node.model = model ∧ node.action = action ∧
          node.values = InputEntry.values model (schema.input kind model) linkedBy members := by
  unfold openNode
  extract_lets node index opened
  have hnode : node.Sound schema := by
    refine ⟨hmodel, ?_⟩
    intro name value hvalue
    obtain ⟨json, -, hread⟩ := InputEntry.mem_entries_values hvalue
    exact InputEntry.admits_of_read (hschema.model model hmodel) hkind hread
  have hopened : Grows schema draft opened := by
    have hnodes : draft.nodes <+: opened.nodes := List.prefix_append _ _
    refine ⟨hnodes, List.prefix_rfl, List.prefix_rfl, List.prefix_rfl, ?_⟩
    intro hsound
    refine ⟨?_, ?_, ?_, hsound.violations⟩
    · intro other hother
      rcases List.mem_append.mp hother with hold | hnew
      · exact hsound.nodes other hold
      · rw [List.mem_singleton.mp hnew]
        exact hnode
    · intro link hlink
      exact (hsound.links link hlink).mono fun _ _ href => href.mono hnodes
    · intro label place name hlabel
      exact (hsound.labels label place name hlabel).mono hnodes
  split
  · rename_i label _
    have hplanned : Planned opened.nodes index model.name :=
      ⟨node, List.getElem?_concat_length, rfl⟩
    obtain ⟨hgrows, hnodes⟩ := addLabel_grows schema action path label hplanned
    exact ⟨hopened.trans hgrows, node, hnodes, rfl, rfl, rfl⟩
  · exact ⟨hopened, node, rfl, rfl, rfl, rfl⟩

theorem require_extends (index : Nat) (path : String) (draft : PlanDraft) (field : InputField) :
    Extends schema draft (require index path draft field) := by
  unfold require
  cases field.shape with
  | scalar kind list => exact report_extends _ _
  | relation relation =>
      apply Grows.extends
      · exact ⟨List.prefix_rfl, List.prefix_rfl, List.prefix_append _ _, List.prefix_rfl,
          fun hsound => ⟨hsound.nodes, hsound.links, hsound.labels, hsound.violations⟩⟩
      · rfl

/-- What is asked for is given; a value that is asked for is wrong with the input at once. -/
theorem given_require (index : Nat) (path : String) (draft : PlanDraft) (field : InputField) :
    (require index path draft field).Given index field.name ∧
      ∀ kind list, field.shape = .scalar kind list →
        (require index path draft field).violations ≠ [] := by
  unfold require
  cases field.shape with
  | scalar kind list =>
      exact ⟨.inl (violations_report _ _), fun _ _ _ => violations_report _ _⟩
  | relation relation =>
      refine ⟨.inr (.inl ?_), fun _ _ h => by cases h⟩
      exact ⟨⟨index, field.name, join path field.name⟩,
        List.mem_append_right _ (List.mem_singleton.mpr rfl), rfl, rfl⟩

theorem requireAll_extends (schema : Schema) (index : Nat) (path : String)
    (fields : List InputField) (draft : PlanDraft) :
    Extends schema draft (fields.foldl (require index path) draft) ∧
      ∀ field ∈ fields, (fields.foldl (require index path) draft).Given index field.name ∧
        ∀ kind list, field.shape = .scalar kind list →
          (fields.foldl (require index path) draft).violations ≠ [] := by
  induction fields generalizing draft with
  | nil => exact ⟨.refl draft, fun _ h => absurd h List.not_mem_nil⟩
  | cons first fields ih =>
      obtain ⟨hrest, hgiven⟩ := ih (require index path draft first)
      obtain ⟨hfirst, hwrong⟩ := given_require index path draft first
      rw [List.foldl_cons]
      refine ⟨(require_extends index path draft first).trans hrest, List.forall_mem_cons.mpr ?_⟩
      exact ⟨⟨hfirst.mono hrest.toGrows,
        fun kind list h => hrest.violations_ne_nil (hwrong kind list h)⟩, hgiven⟩

/-- Each reference that a record to create has to hold is asked for, unless its object gives it or
the object around it does, and so is each value that it must have. -/
theorem closeNode_extends {model : Model} (hschema : schema.Sound) (hmodel : model ∈ schema.models)
    (index : Nat) (linkedBy : Option String) (path : String) (members : List (String × Json))
    (draft : PlanDraft) :
    Extends schema draft
        (draft.closeNode index (schema.input .create model) linkedBy path members) ∧
      (∀ relationship ∈ model.relationships.values, relationship.isForeignKey = true →
        relationship.nullable = false → (members.lookup relationship.name).isNone →
        linkedBy ≠ some relationship.name →
        (draft.closeNode index (schema.input .create model) linkedBy path members).Given index
          relationship.name) ∧
      ∀ plain ∈ model.plain.values, plain.computed = none → plain.isOptional = false →
        (members.lookup plain.name).isNone → linkedBy ≠ some plain.name →
        (draft.closeNode index (schema.input .create model) linkedBy path members).violations ≠
          [] := by
  unfold closeNode
  obtain ⟨hextends, hgiven⟩ := requireAll_extends schema index path
    ((schema.input .create model).fields.filter fun field =>
      field.required && (members.lookup field.name).isNone && linkedBy ≠ some field.name) draft
  have hasked : ∀ field ∈ (schema.input .create model).fields, field.required = true →
      (members.lookup field.name).isNone → linkedBy ≠ some field.name →
      field ∈ (schema.input .create model).fields.filter fun field =>
        field.required && (members.lookup field.name).isNone && linkedBy ≠ some field.name := by
    intro field hfield hrequired hmissing hlinked
    apply List.mem_filter.mpr
    refine ⟨hfield, ?_⟩
    rw [hrequired, Bool.true_and, Bool.and_eq_true, decide_eq_true_eq]
    exact ⟨hmissing, hlinked⟩
  refine ⟨hextends, ?_, ?_⟩
  · intro relationship hmem hheld hnull hmissing hlinked
    obtain ⟨hown, hsingle⟩ := Bool.and_eq_true_iff.mp hheld
    obtain ⟨-, -, target, htarget⟩ := hschema.own model hmodel relationship hmem hown
    have hfield := field?_relationship hschema hmodel (show InputKind.create ≠ .delete by decide)
      hmem htarget
    have hrequired : (InputField.ofRelationship .create relationship
        target.identity.kind).required = true := by
      change (true && relationship.isForeignKey && !relationship.nullable) = true
      rw [hheld, hnull]
      rfl
    exact (hgiven _ (hasked _ (field?_mem hfield).1 hrequired hmissing hlinked)).1
  · intro plain hmem hcomputed hoptional hmissing hlinked
    obtain ⟨field, hfound, hfield, hshape, hrequired⟩ :=
      field?_plain schema (show InputKind.create ≠ .delete by decide) (hschema.model model hmodel)
        hmem hcomputed
    have hname := (field?_mem hfound).2
    rw [hoptional] at hrequired
    rw [← hname] at hmissing hlinked
    exact (hgiven field (hasked field hfield hrequired hmissing hlinked)).2 _ _ hshape

/-! ### References to other records -/

theorem readReference_extends (target : Model) (path : String) (members : List (String × Json))
    {result : PlanDraft × Option DraftRef}
    (h : draft.readReference target path members = result) : Extends schema draft result.1 ∧
      match result.2 with
      | some ref => result.1 = draft ∧ ref.LeadsTo draft.nodes target.name
      | none => result.1.violations ≠ [] := by
  subst h
  unfold readReference
  split
  · exact ⟨report_extends _ _, violations_report _ _⟩
  · split
    · exact ⟨.refl draft, rfl, rfl⟩
    · exact ⟨report_extends _ _, violations_report _ _⟩

theorem readIdentity_extends (target : Model) (path : String) (json : Json)
    {result : PlanDraft × Option DraftRef}
    (h : draft.readIdentity target path json = result) : Extends schema draft result.1 ∧
      match result.2 with
      | some ref => result.1 = draft ∧ ref.LeadsTo draft.nodes target.name
      | none => result.1.violations ≠ [] := by
  subst h
  unfold readIdentity
  split
  · exact ⟨.refl draft, rfl, trivial⟩
  · exact ⟨report_extends _ _, violations_report _ _⟩

/-- A planned record is linked to another one by one of its relationships, whichever of both holds
the reference. -/
theorem linkTo_extends {model target : Model} (hschema : schema.Sound)
    (hmodel : model ∈ schema.models) {relationship : Relationship}
    (hmem : relationship ∈ model.relationships.values)
    (htarget : schema.model? relationship.target = some target) {index : Nat}
    (hplanned : Planned draft.nodes index model.name) (path : String) (other : Option DraftRef)
    (hother : ∀ ref, other = some ref → ref.LeadsTo draft.nodes target.name)
    (hnull : other = none → relationship.isOwn = true →
      relationship.isMany = false ∧ relationship.nullable = true) :
    Extends schema draft (draft.linkTo index model target relationship path other) := by
  obtain ⟨htarget_mem, htarget_name⟩ := hschema.model?_eq_some.mp htarget
  unfold linkTo
  cases hownership : relationship.ownership with
  | own =>
      have hown := Relationship.isOwn_iff.mpr hownership
      apply addLink_extends
      refine ⟨hmodel, hplanned, hother, relationship, hmem, rfl, hown, htarget_name.symm, rfl, ?_⟩
      intro hnone
      exact hnull hnone hown
  | remote field =>
      cases other with
      | none => exact .refl draft
      | some ref =>
          obtain ⟨held, hheld, hname, hown, hheld_target, hmany⟩ :=
            hschema.held_of_remote hmodel hmem htarget hownership
          apply addLink_extends
          refine ⟨htarget_mem, hother ref rfl, ?_, held, hheld, hname, hown, hheld_target, hmany, ?_⟩
          · intro ref' href
            obtain rfl := Option.some.inj href
            exact hplanned
          · intro hnone
            cases hnone

theorem given_linkTo {model target : Model} {relationship : Relationship} (index : Nat)
    (path : String) (ref : DraftRef) :
    (relationship.isOwn = true →
      (draft.linkTo index model target relationship path (some ref)).Given index
        relationship.name) ∧
    ∀ inner field, ref = .node inner → innerLink relationship = some field →
      (draft.linkTo index model target relationship path (some ref)).Given inner field := by
  unfold linkTo innerLink Relationship.isOwn
  cases hownership : relationship.ownership with
  | own =>
      refine ⟨fun _ => ?_, fun _ _ _ h => (Option.some_ne_none _ h.symm).elim⟩
      right
      right
      exact ⟨_, List.mem_append_right _ (List.mem_singleton.mpr rfl), rfl, rfl, rfl⟩
  | remote field =>
      refine ⟨fun h => absurd h Bool.false_ne_true, ?_⟩
      intro inner name href hname
      rw [href, ← Option.some.inj hname]
      right
      right
      exact ⟨_, List.mem_append_right _ (List.mem_singleton.mpr rfl), rfl, rfl, rfl⟩

end PlanDraft

end ModelSurface
