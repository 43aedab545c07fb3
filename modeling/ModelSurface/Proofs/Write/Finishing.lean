import ModelSurface.Proofs.Write.Planning

/-!
# Finished plans

Every input that can be planned leads to a sound plan. An input that cannot be planned is refused
for what is wrong with the input.
-/

namespace ModelSurface

/-- Whether a reference of a plan can lead to a record of a model. -/
def NodeRef.LeadsTo (nodes : List PlanNode) (model : String) : NodeRef → Prop
  | .node index => Planned nodes index model
  | .stored _ => True

structure Plan.Sound (schema : Schema) (plan : Plan) : Prop where
  nodes : ∀ node ∈ plan.nodes, node.Sound schema
  links : ∀ link ∈ plan.links, link.Sound schema (NodeRef.LeadsTo plan.nodes)
  complete : ∀ index node, plan.nodes[index]? = some node → node.action = .create →
    ∀ relationship ∈ node.model.relationships.values, relationship.isForeignKey = true →
      relationship.nullable = false → ∃ link ∈ plan.links,
        link.holder = .node index ∧ link.field = relationship.name ∧ link.value.isSome
  filled : ∀ node ∈ plan.nodes, node.action = .create → ∀ plain ∈ node.model.plain.values,
    plain.computed = none → plain.isOptional = false → plain.name ∈ node.values.keys

namespace PlanDraft

variable {schema : Schema} {draft : PlanDraft}

theorem resolve_ok (hsound : draft.Sound schema) {model : String} {ref : DraftRef}
    (hleads : ref.LeadsTo draft.nodes model) {found : NodeRef}
    (h : resolve draft.labels ref = .ok found) : found.LeadsTo draft.nodes model := by
  cases ref with
  | node index =>
      rw [← Except.ok.inj h]
      exact hleads
  | stored id =>
      rw [← Except.ok.inj h]
      trivial
  | labelled label name =>
      unfold resolve at h
      dsimp only at h
      split at h
      · cases h
      · rename_i index other hlabel
        split at h
        · rename_i hsame
          rw [← Except.ok.inj h, ← show name = model from hleads, ← hsame]
          exact hsound.labels label index other hlabel
        · cases h

theorem resolveLink_ok {link : Link DraftRef} {resolved : Link NodeRef}
    (h : resolveLink draft.labels link = .ok resolved) :
    ∃ holder value, resolve draft.labels link.holder = .ok holder ∧
      resolveValue draft.labels link.value = .ok value ∧
      resolved = { link with holder := holder, value := value } := by
  unfold resolveLink at h
  dsimp only at h
  split at h
  · rename_i holder value hholder hvalue
    exact ⟨holder, value, hholder, hvalue, (Except.ok.inj h).symm⟩
  · cases h
  · cases h
  · cases h

theorem resolveValue_ok {value : Option DraftRef} {resolved : Option NodeRef}
    (h : resolveValue draft.labels value = .ok resolved) :
    (value = none ∧ resolved = none) ∨ ∃ ref found, value = some ref ∧ resolved = some found ∧
      resolve draft.labels ref = .ok found := by
  cases value with
  | none => exact .inl ⟨rfl, (Except.ok.inj h).symm⟩
  | some ref =>
      right
      change (resolve draft.labels ref).map some = .ok resolved at h
      cases hfound : resolve draft.labels ref with
      | error fault =>
          rw [hfound] at h
          cases h
      | ok found =>
          rw [hfound] at h
          exact ⟨ref, found, rfl, (Except.ok.inj h).symm, hfound⟩

theorem sound_resolveLink (hsound : draft.Sound schema) {link : Link DraftRef}
    (hlink : link ∈ draft.links) {resolved : Link NodeRef}
    (h : resolveLink draft.labels link = .ok resolved) :
    resolved.Sound schema (NodeRef.LeadsTo draft.nodes) := by
  obtain ⟨holder, value, hholder, hvalue, rfl⟩ := resolveLink_ok h
  have hdraft := hsound.links link hlink
  refine ⟨hdraft.model, resolve_ok hsound hdraft.holder hholder, ?_, ?_⟩
  · intro other hother
    dsimp only at hother
    subst hother
    obtain ⟨-, hnone⟩ | ⟨ref, found, href, hfound, hresolve⟩ := resolveValue_ok hvalue
    · cases hnone
    · obtain rfl := Option.some.inj hfound
      exact resolve_ok hsound (hdraft.value ref href) hresolve
  · obtain ⟨relationship, hmem, hname, hown, htarget, hmany, hnull⟩ := hdraft.held
    refine ⟨relationship, hmem, hname, hown, htarget, hmany, ?_⟩
    intro hnone
    dsimp only at hnone
    obtain ⟨hvalue_none, -⟩ | ⟨ref, found, -, hfound, -⟩ := resolveValue_ok hvalue
    · exact hnull hvalue_none
    · rw [hfound] at hnone
      cases hnone

/-- The links of a plan that come of the links of a draft. -/
def resolvedLinks (draft : PlanDraft) : List (Link NodeRef) :=
  (draft.links.map (resolveLink draft.labels)).filterMap fun
    | .ok link => some link
    | .error _ => none

theorem mem_resolvedLinks {resolved : Link NodeRef} : resolved ∈ draft.resolvedLinks ↔
    ∃ link ∈ draft.links, resolveLink draft.labels link = .ok resolved := by
  unfold resolvedLinks
  rw [List.filterMap_map, List.mem_filterMap]
  refine exists_congr fun link => and_congr_right fun _ => ?_
  dsimp only [Function.comp_apply]
  cases resolveLink draft.labels link with
  | ok found => simp
  | error violations => simp

/-- A plan is finished once nothing is wrong with the input, nothing is left unresolved, and all
that was asked for is given. -/
theorem finish_ok {plan : Plan} (h : draft.finish = .ok plan) :
    plan = ⟨draft.nodes, draft.resolvedLinks⟩ ∧ draft.violations = [] ∧
      (∀ link ∈ draft.links, ∃ resolved, resolveLink draft.labels link = .ok resolved) ∧
      ∀ requirement ∈ draft.requirements, ∃ link ∈ draft.resolvedLinks,
        meets requirement link = true := by
  unfold finish at h
  extract_lets resolved links unresolved unmet at h
  split at h
  · rename_i hnone
    obtain ⟨hfirst, hunmet⟩ := List.append_eq_nil_iff.mp hnone
    obtain ⟨hviolations, hunresolved⟩ := List.append_eq_nil_iff.mp hfirst
    refine ⟨(Except.ok.inj h).symm, hviolations, ?_, ?_⟩
    · intro link hlink
      have hresult := List.flatMap_eq_nil_iff.mp hunresolved _ (List.mem_map.mpr ⟨link, hlink, rfl⟩)
      cases hfound : resolveLink draft.labels link with
      | ok found => exact ⟨found, rfl⟩
      | error violations =>
          rw [hfound] at hresult
          dsimp only at hresult
          subst hresult
          unfold resolveLink at hfound
          dsimp only at hfound
          split at hfound <;> cases hfound
    · intro requirement hrequirement
      by_contra hnot
      have hmem : requirement ∈ unmet := by
        refine List.mem_filter.mpr ⟨hrequirement, ?_⟩
        rw [Bool.not_eq_true']
        apply List.any_eq_false.mpr
        intro link hlink hmeets
        exact hnot ⟨link, hlink, hmeets⟩
      rw [List.map_eq_nil_iff.mp hunmet] at hmem
      cases hmem
  · cases h

theorem finish_sound (hextends : Extends schema {} draft) {plan : Plan}
    (h : draft.finish = .ok plan) : plan.Sound schema := by
  obtain ⟨rfl, hviolations, hresolved, hmet⟩ := finish_ok h
  have hsound := hextends.sound sound_empty
  refine ⟨hsound.nodes, ?_, ?_, ?_⟩
  · intro resolved hmem
    obtain ⟨link, hlink, hresolve⟩ := mem_resolvedLinks.mp hmem
    exact sound_resolveLink hsound hlink hresolve
  · intro index node hnode hcreate relationship hmem hheld hnull
    rcases (hextends.complete index node (Nat.zero_le _) hnode).references hcreate relationship hmem
      hheld hnull with hwrong | ⟨requirement, hrequirement, hnode_eq, hrelation⟩ |
        ⟨link, hlink, hholder, hfield, hvalue⟩
    · exact absurd hviolations hwrong
    · obtain ⟨link, hlink, hmeets⟩ := hmet requirement hrequirement
      unfold meets at hmeets
      simp only [Bool.and_eq_true, beq_iff_eq] at hmeets
      rw [hnode_eq, hrelation] at hmeets
      exact ⟨link, hlink, hmeets.1.1, hmeets.1.2, hmeets.2⟩
    · obtain ⟨resolved, hresolve⟩ := hresolved link hlink
      refine ⟨resolved, mem_resolvedLinks.mpr ⟨link, hlink, hresolve⟩, ?_⟩
      obtain ⟨holder, value, hfound, hfound_value, rfl⟩ := resolveLink_ok hresolve
      rw [hholder] at hfound
      refine ⟨(Except.ok.inj hfound).symm, hfield, ?_⟩
      obtain ⟨hvalue_none, -⟩ | ⟨_, _, -, hsome, -⟩ := resolveValue_ok hfound_value
      · rw [hvalue_none] at hvalue
        cases hvalue
      · exact Option.isSome_of_eq_some hsome
  · intro node hnode hcreate plain hmem hcomputed hoptional
    obtain ⟨index, hindex⟩ := List.mem_iff_getElem?.mp hnode
    have hvalues := (hextends.complete index node (Nat.zero_le _) hindex).values hcreate plain hmem
      hcomputed hoptional
    exact hvalues.resolve_left fun hwrong => hwrong hviolations

theorem resolveLink_error {link : Link DraftRef} {violations : List Violation}
    (h : resolveLink draft.labels link = .error violations) :
    ∀ violation ∈ violations, violation.kind = .validation := by
  unfold resolveLink at h
  dsimp only at h
  split at h <;> cases h <;> simp [Violation.ofPath, Violation.kind, Cause.kind]

theorem finish_error (hsound : draft.Sound schema) {violations : List Violation}
    (h : draft.finish = .error violations) :
    ∀ violation ∈ violations, violation.kind = .validation := by
  unfold finish at h
  extract_lets resolved links unresolved unmet at h
  split at h
  · cases h
  · rw [← Except.error.inj h]
    intro violation hmem
    rcases List.mem_append.mp hmem with hearlier | hmissing
    · rcases List.mem_append.mp hearlier with hread | hresolve
      · exact hsound.violations violation hread
      · obtain ⟨result, hresult, hviolation⟩ := List.mem_flatMap.mp hresolve
        obtain ⟨link, -, hlink⟩ := List.mem_map.mp hresult
        cases result with
        | ok link => cases hviolation
        | error violations => exact resolveLink_error hlink violation hviolation
    · obtain ⟨requirement, -, rfl⟩ := List.mem_map.mp hmissing
      rfl

end PlanDraft

/-- Every plan that comes of an input is sound. -/
theorem Plan.ofInput_sound {schema : Schema} (hschema : schema.Sound) {model : Model}
    (hmodel : model ∈ schema.models) {kind : InputKind} (hkind : kind ≠ .delete) {input : Json}
    {plan : Plan} (h : Plan.ofInput schema model kind input = .ok plan) : plan.Sound schema :=
  PlanDraft.finish_sound (PlanDraft.ofInput_extends hschema hmodel hkind input) h

/-- Every plan that comes of an input has a record. -/
theorem Plan.ofInput_planned {schema : Schema} (hschema : schema.Sound) {model : Model}
    (hmodel : model ∈ schema.models) {kind : InputKind} (hkind : kind ≠ .delete) {input : Json}
    {plan : Plan} (h : Plan.ofInput schema model kind input = .ok plan) :
    Planned plan.nodes 0 model.name := by
  obtain ⟨rfl, hviolations, -⟩ := PlanDraft.finish_ok h
  exact (PlanDraft.planned_ofInput hschema hmodel hkind input).resolve_left
    fun hwrong => hwrong hviolations

/-- What is wrong with an input that cannot be planned is the input. -/
theorem Plan.ofInput_error {schema : Schema} (hschema : schema.Sound) {model : Model}
    (hmodel : model ∈ schema.models) {kind : InputKind} (hkind : kind ≠ .delete) {input : Json}
    {violations : List Violation} (h : Plan.ofInput schema model kind input = .error violations) :
    ∀ violation ∈ violations, violation.kind = .validation :=
  PlanDraft.finish_error
    ((PlanDraft.ofInput_extends hschema hmodel hkind input).sound PlanDraft.sound_empty) h

end ModelSurface
