import ModelSurface.Proofs.Deletion.Outcome
import ModelSurface.Proofs.Linked

/-!
# Deletions of linked records

What is left after a deletion is linked as it was before: every reference to a record that is gone
has been cleared, or its holder is gone too.
-/

namespace ModelSurface

namespace Identity

theorem refersTo_self (id : Identity) : id.toValue.refersTo (some id.toValue) = true := by
  cases id <;> simp [toValue, Value.refersTo, Value.same]

theorem refersTo_of_mem {id : Identity} {ids : List Identity} (h : id ∈ ids) :
    id.toValue.refersTo (some (.list (ids.map toValue))) = true := by
  apply List.any_eq_true.mpr
  exact ⟨id.toValue, List.mem_map.mpr ⟨id, h, rfl⟩, same_toValue.mpr rfl⟩

theorem isGone_toValue {gone : List RowKey} {model : String} (id : Identity) :
    id.toValue.isGone gone model = true ↔ ⟨model, id⟩ ∈ gone := by
  rw [Value.isGone_iff]
  constructor
  · rintro ⟨other, heq, hmem⟩
    have hsame : some id = some other := by
      rw [← ofValue?_toValue id, heq, ofValue?_toValue]
    rw [Option.some.inj hsame]
    exact hmem
  · intro hmem
    exact ⟨id, rfl, hmem⟩

theorem holdsGone_toValue {gone : List RowKey} {model : String} (id : Identity) :
    id.toValue.holdsGone gone model = true ↔ ⟨model, id⟩ ∈ gone := by
  rw [← isGone_toValue]
  cases id <;> rfl

end Identity

theorem Relationship.remaining_null (relationship : Relationship) (gone : List RowKey) :
    relationship.remaining gone .null = .null := by
  apply relationship.remaining_of_not_holdsGone
  rfl

namespace Deletion

variable {schema : Schema} {before after : Tables} {root : RowKey} {gone : List RowKey}
  {model : Model} {relationship : Relationship}

/-- Sets of links are all that links are taken out of, and only what may be null is cleared. -/
theorem effectOf_cases (hcardinality : relationship.cardinality ≠ .oneToMany) :
    (effectOf relationship = .unlink ∧ relationship.isMany = true) ∨
    (effectOf relationship = .clear ∧ relationship.isMany = false ∧
      relationship.nullable = true) ∨
    effectOf relationship = .cascade ∨ effectOf relationship = .restrict := by
  unfold effectOf Relationship.isMany
  cases hkind : relationship.cardinality with
  | oneToMany => exact absurd hkind hcardinality
  | manyToMany =>
      cases relationship.onDelete <;> simp [Cardinality.isMany]
  | oneToOne | manyToOne =>
      cases relationship.onDelete <;>
        by_cases hnull : relationship.nullable = true <;> simp [hnull, Cardinality.isMany]

namespace Outcome

theorem isSome_of_not_gone (h : Outcome schema before root gone after) {key : RowKey}
    (hkey : key ∉ gone) (hstored : (before.get? key.model key.id).isSome) :
    (after.get? key.model key.id).isSome := by
  have hrel := h.kept key hkey
  generalize before.get? key.model key.id = old at hrel hstored
  generalize after.get? key.model key.id = new at hrel ⊢
  cases hrel with
  | none => cases hstored
  | some _ => rfl

/-- What is stored after a deletion was stored before it. -/
theorem of_after (h : Outcome schema before root gone after) (key : RowKey) {new : Record}
    (hnew : after.get? key.model key.id = some new) :
    key ∉ gone ∧ ∃ old, before.get? key.model key.id = some old ∧
      Record.Cleared schema key.model gone old new := by
  have hkey : key ∉ gone := by
    intro hgone
    rw [(h.removed key hgone).2] at hnew
    cases hnew
  refine ⟨hkey, ?_⟩
  have hrel := h.kept key hkey
  rw [hnew] at hrel
  cases hold : before.get? key.model key.id with
  | none =>
      rw [hold] at hrel
      cases hrel
  | some old =>
      rw [hold] at hrel
      cases hrel with
      | some hcleared => exact ⟨old, rfl, hcleared⟩

/-- A record that stays refers to no record that is gone by a reference that cascades or
restricts. -/
theorem not_gone_of_kept (h : Outcome schema before root gone after)
    (hmodel : model ∈ schema.models) (hmem : relationship ∈ model.relationships.values)
    (hown : relationship.isOwn) (heffect : effectOf relationship = .cascade ∨
      effectOf relationship = .restrict) {holder : Identity} {record : Record}
    (hrecord : before.get? model.name holder = some record) (hholder : ⟨model.name, holder⟩ ∉ gone)
    {id : Identity} (hrefers : id.toValue.refersTo (record.get? relationship.name) = true) :
    ⟨relationship.target, id⟩ ∉ gone := by
  intro hgone
  rcases heffect with hcascade | hrestrict
  · obtain ⟨hsingle, hpolicy⟩ := effectOf_eq_cascade.mp hcascade
    apply hholder
    apply (h.doomed ⟨model.name, holder⟩).mpr
    exact .cascade ((h.doomed _).mp hgone) hmodel hmem hown rfl hsingle hpolicy hrecord hrefers
  · have hnot := h.unrestricted ⟨relationship.target, id⟩ hgone model relationship
      (mem_holders.mpr ⟨hmodel, hmem, hown, rfl⟩) hrestrict holder hholder record hrecord
    rw [hrefers] at hnot
    cases hnot

/-- A set of links that stays keeps the links to what is left. -/
theorem holdsIn_many (h : Outcome schema before root gone after)
    (hcardinality : relationship.cardinality ≠ .oneToMany) (hmany : relationship.isMany = true)
    {ids : List Identity} (hkept : effectOf relationship = .cascade ∨
      effectOf relationship = .restrict → ∀ id ∈ ids, ⟨relationship.target, id⟩ ∉ gone)
    (hids : ∀ id ∈ ids, (before.get? relationship.target id).isSome) :
    relationship.HoldsIn after
      (some (relationship.remaining gone (.list (ids.map Identity.toValue)))) := by
  rcases effectOf_cases hcardinality with ⟨hunlink, -⟩ | ⟨-, hsingle, -⟩ | heffect
  · rw [relationship.remaining_of_unlink hunlink, List.filter_map]
    apply Relationship.HoldsIn.many hmany
    intro id hid
    obtain ⟨hmem, hnot⟩ := List.mem_filter.mp hid
    have hstays : ⟨relationship.target, id⟩ ∉ gone := by
      intro hgone
      rw [Function.comp_apply, (Identity.isGone_toValue id).mpr hgone] at hnot
      cases hnot
    exact h.isSome_of_not_gone hstays (hids id hmem)
  · rw [hmany] at hsingle
    cases hsingle
  · rw [relationship.remaining_of_kept heffect]
    apply Relationship.HoldsIn.many hmany
    intro id hid
    exact h.isSome_of_not_gone (hkept heffect id hid) (hids id hid)

/-- A single reference that stays leads to what is left, or is cleared. -/
theorem holdsIn_single (h : Outcome schema before root gone after)
    (hcardinality : relationship.cardinality ≠ .oneToMany) (hsingle : relationship.isMany = false)
    {id : Identity} (hkept : effectOf relationship = .cascade ∨
      effectOf relationship = .restrict → ⟨relationship.target, id⟩ ∉ gone)
    (hid : (before.get? relationship.target id).isSome) :
    relationship.HoldsIn after (some (relationship.remaining gone id.toValue)) := by
  rcases effectOf_cases hcardinality with ⟨-, hmany⟩ | ⟨hclear, -, hnull⟩ | heffect
  · rw [hmany] at hsingle
    cases hsingle
  · rw [relationship.remaining_of_clear hclear]
    by_cases hgone : id.toValue.holdsGone gone relationship.target = true
    · rw [if_pos hgone]
      exact .null hsingle hnull
    · rw [if_neg hgone]
      rw [Identity.holdsGone_toValue] at hgone
      exact .single hsingle (h.isSome_of_not_gone hgone hid)
  · rw [relationship.remaining_of_kept heffect]
    exact .single hsingle (h.isSome_of_not_gone (hkept heffect) hid)

theorem holdsIn (h : Outcome schema before root gone after) (hschema : schema.Sound)
    (hmodel : model ∈ schema.models) (hmem : relationship ∈ model.relationships.values)
    (hown : relationship.isOwn) {holder : Identity} {record : Record}
    (hrecord : before.get? model.name holder = some record) (hholder : ⟨model.name, holder⟩ ∉ gone)
    (hholds : relationship.HoldsIn before (record.get? relationship.name)) :
    relationship.HoldsIn after
      ((record.get? relationship.name).map (relationship.remaining gone)) := by
  obtain ⟨-, hcardinality, -⟩ := hschema.own model hmodel relationship hmem hown
  have hkept : effectOf relationship = .cascade ∨ effectOf relationship = .restrict →
      ∀ id : Identity, id.toValue.refersTo (record.get? relationship.name) = true →
        ⟨relationship.target, id⟩ ∉ gone := fun heffect id hrefers =>
    h.not_gone_of_kept hmodel hmem hown heffect hrecord hholder hrefers
  rcases hholds.cases with ⟨hmany, ids, hvalue, hids⟩ | ⟨hsingle, hvalue, hnull⟩ |
    ⟨hsingle, id, hvalue, hid⟩
  · rw [hvalue] at hkept ⊢
    apply h.holdsIn_many hcardinality hmany ?_ hids
    intro heffect id hmem_ids
    exact hkept heffect id (Identity.refersTo_of_mem hmem_ids)
  · rw [hvalue, Option.map_some, Relationship.remaining_null]
    exact .null hsingle hnull
  · rw [hvalue] at hkept ⊢
    apply h.holdsIn_single hcardinality hsingle ?_ hid
    intro heffect
    exact hkept heffect id id.refersTo_self

/-- Deletions keep tables intact. -/
theorem intact (h : Outcome schema before root gone after) (hschema : schema.Sound)
    (hbefore : before.Intact schema) : after.Intact schema := by
  have hregular := hschema.regular
  refine ⟨?_, ?_⟩
  · intro model hmodel id new hnew
    obtain ⟨-, old, hold, hcleared⟩ := h.of_after ⟨model.name, id⟩ hnew
    rw [← hbefore.identified model hmodel id old hold]
    unfold Record.identity?
    rw [hcleared.get?, hregular.remaining_identity hmodel, Option.map_id]
    rfl
  · intro model hmodel id new hnew relationship hmem hown
    obtain ⟨hid, old, hold, hcleared⟩ := h.of_after ⟨model.name, id⟩ hnew
    have hremaining : schema.remaining gone model.name relationship.name =
        relationship.remaining gone :=
      funext (Schema.remaining_of_reference (hregular.reference?_own hmodel hmem hown))
    rw [hcleared.get?, hremaining]
    exact h.holdsIn hschema hmodel hmem hown hold hid
      (hbefore.linked model hmodel id old hold relationship hmem hown)

end Outcome

end Deletion

end ModelSurface
