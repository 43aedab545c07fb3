import ModelSurface.Proofs.Deletion.Refusing

/-!
# Deletions under schemas that are alike

Schemas may give the same models and the same relationships in different orders. A deletion goes
through relationships one after another, but what it removes and what it leaves are told by which of
them there are. Only whether it is refused may depend on their order, namely where a record that is
in the way goes itself: it is then a matter of which of the two comes first.
-/

namespace ModelSurface

namespace Relationship

/-- A relationship as it is declared, whatever its other side is called. -/
def declared (relationship : Relationship) : Relationship :=
  { relationship with inverse := none, help := none }

/-- What can be read off the declaration is the same where the declarations are. -/
theorem eq_of_declared {α : Type} {relationship relationship' : Relationship}
    (read : Relationship → α) (hread : ∀ r : Relationship, read r.declared = read r)
    (h : relationship'.declared = relationship.declared) :
    read relationship' = read relationship :=
  calc read relationship'
      = read relationship'.declared := (hread relationship').symm
    _ = read relationship.declared := congrArg read h
    _ = read relationship := hread relationship

end Relationship

namespace Schema

/-- For each model of a schema another one has a model of the same name and with the same identity,
which holds the same relationships and perhaps more. -/
def Covers (schema schema' : Schema) : Prop :=
  ∀ model ∈ schema.models, ∃ other ∈ schema'.models, other.name = model.name ∧
    other.identity.name = model.identity.name ∧ other.identity.kind = model.identity.kind ∧
    ∀ relationship ∈ model.relationships.values, relationship.isOwn →
      ∃ reference ∈ other.relationships.values, reference.declared = relationship.declared

instance (schema schema' : Schema) : Decidable (schema.Covers schema') :=
  inferInstanceAs (Decidable (∀ model ∈ schema.models, ∃ other ∈ schema'.models, _))

/-- Schemas with the same models and relationships, in whatever order they are given. -/
structure Alike (schema schema' : Schema) : Prop where
  covers : schema.Covers schema'
  covered : schema'.Covers schema

variable {schema schema' : Schema}

theorem Alike.symm (h : schema.Alike schema') : schema'.Alike schema := ⟨h.covered, h.covers⟩

namespace Covers

theorem holders (h : schema.Covers schema') {name : String} {holder : Model}
    {relationship : Relationship}
    (hholder : (holder, relationship) ∈ Deletion.holders schema name) :
    ∃ holder' relationship', (holder', relationship') ∈ Deletion.holders schema' name ∧
      holder'.name = holder.name ∧ relationship'.name = relationship.name ∧
      Deletion.effectOf relationship' = Deletion.effectOf relationship := by
  obtain ⟨hmodel, hmem, hown, htarget⟩ := Deletion.mem_holders.mp hholder
  obtain ⟨holder', hmodel', hname, -, -, hreferences⟩ := h holder hmodel
  obtain ⟨relationship', hmem', hdeclared⟩ := hreferences relationship hmem hown
  have hown' := Relationship.eq_of_declared (·.isOwn) (fun _ => rfl) hdeclared
  have htarget' := Relationship.eq_of_declared (·.target) (fun _ => rfl) hdeclared
  exact ⟨holder', relationship',
    Deletion.mem_holders.mpr ⟨hmodel', hmem', hown'.trans hown, htarget'.trans htarget⟩, hname,
    Relationship.eq_of_declared (·.name) (fun _ => rfl) hdeclared,
    Relationship.eq_of_declared Deletion.effectOf (fun _ => rfl) hdeclared⟩

theorem reference? (h : schema.Covers schema') (hregular : schema.Regular)
    (hregular' : schema'.Regular) {name field : String} {relationship : Relationship}
    (hreference : schema.reference? name field = some relationship) :
    ∃ relationship', schema'.reference? name field = some relationship' ∧
      relationship'.declared = relationship.declared := by
  obtain ⟨model, hmodel, hname, hmem, hfield, hown⟩ := hregular.reference?_eq_some.mp hreference
  obtain ⟨model', hmodel', hname', -, -, hreferences⟩ := h model hmodel
  obtain ⟨relationship', hmem', hdeclared⟩ := hreferences relationship hmem hown
  have hown' := Relationship.eq_of_declared (·.isOwn) (fun _ => rfl) hdeclared
  have hfield' := Relationship.eq_of_declared (·.name) (fun _ => rfl) hdeclared
  exact ⟨relationship', hregular'.reference?_eq_some.mpr ⟨model', hmodel', hname'.trans hname,
    hmem', hfield'.trans hfield, hown'.trans hown⟩, hdeclared⟩

theorem identified (h : schema.Covers schema') {tables : Tables}
    (hidentified : tables.Identified schema') : tables.Identified schema := by
  intro model hmodel id record hrecord
  obtain ⟨model', hmodel', hname, hidentity, -⟩ := h model hmodel
  rw [← hname] at hrecord
  rw [← hidentity]
  exact hidentified model' hmodel' id record hrecord

end Covers

/-- References to records that are gone are cleared alike. -/
theorem Alike.remaining (h : schema.Alike schema') (hregular : schema.Regular)
    (hregular' : schema'.Regular) (gone : List RowKey) (name field : String) :
    schema'.remaining gone name field = schema.remaining gone name field := by
  funext value
  cases hreference : schema.reference? name field with
  | some relationship =>
      obtain ⟨relationship', hreference', hdeclared⟩ :=
        h.covers.reference? hregular hregular' hreference
      rw [remaining_of_reference hreference, remaining_of_reference hreference']
      exact Relationship.eq_of_declared (·.remaining gone value) (fun _ => rfl) hdeclared
  | none =>
      have hnone : schema'.reference? name field = none := by
        by_contra hsome
        obtain ⟨relationship', hreference'⟩ := Option.ne_none_iff_exists'.mp hsome
        obtain ⟨relationship, hfound, -⟩ := h.covered.reference? hregular' hregular hreference'
        rw [hreference] at hfound
        cases hfound
      unfold Schema.remaining
      rw [hreference, hnone]

end Schema

namespace Tables

/-- The fields of each stored record have distinct names. -/
def Distinct (tables : Tables) : Prop :=
  ∀ row ∈ tables.rows, row.2.keys.Nodup

instance (tables : Tables) : Decidable tables.Distinct :=
  inferInstanceAs (Decidable (∀ row ∈ tables.rows, row.2.keys.Nodup))

theorem identified_of_rows {schema : Schema} {tables : Tables}
    (h : ∀ model ∈ schema.models, ∀ row ∈ tables.rows, row.1.model = model.name →
      Record.identity? row.2 model.identity.name = some row.1.id) : tables.Identified schema :=
  fun model hmodel id record hrecord =>
    h model hmodel (⟨model.name, id⟩, record) (mem_rows.mpr hrecord) rfl

end Tables

namespace Deletion

variable {schema schema' : Schema} {before after after' : Tables} {root key other : RowKey}
  {gone gone' : List RowKey}

theorem Doomed.of_covers (hcovers : schema.Covers schema') (h : Doomed schema before root key) :
    Doomed schema' before root key := by
  induction h with
  | root => exact .root
  | @cascade key holder relationship id record _ hmodel hmem hown htarget hsingle hcascade hstored
      hrefers ih =>
      obtain ⟨holder', relationship', hholder', hname, hfield, heffect⟩ :=
        hcovers.holders (mem_holders.mpr ⟨hmodel, hmem, hown, htarget⟩)
      obtain ⟨hmodel', hmem', hown', htarget'⟩ := mem_holders.mp hholder'
      obtain ⟨hsingle', hcascade'⟩ := effectOf_eq_cascade.mp
        (heffect.trans (effectOf_eq_cascade.mpr ⟨hsingle, hcascade⟩))
      rw [← hname] at hstored ⊢
      rw [← hfield] at hrefers
      exact .cascade ih hmodel' hmem' hown' htarget' hsingle' hcascade' hstored hrefers

theorem doomed_iff (halike : schema.Alike schema') :
    Doomed schema' before root key ↔ Doomed schema before root key :=
  ⟨.of_covers halike.covered, .of_covers halike.covers⟩

theorem Restricts.of_covers (hcovers : schema.Covers schema')
    (h : Restricts schema before key other) : Restricts schema' before key other := by
  cases h with
  | @holder holder relationship id record hholder heffect hother hrecord hrefers =>
      obtain ⟨holder', relationship', hholder', hname, hfield, heffect'⟩ := hcovers.holders hholder
      rw [← hname] at hother hrecord ⊢
      rw [← hfield] at hrefers
      exact .holder hholder' (heffect'.trans heffect) hother hrecord hrefers

/-- Records that take along whatever depends on one of them are all that may be doomed. -/
theorem Doomed.mem_of_closed (hroot : root ∈ gone)
    (hclosed : ∀ key ∈ gone, ∀ holding ∈ holders schema key.model,
      effectOf holding.2 = .cascade → ∀ row ∈ before.rows, row.1.model = holding.1.name →
        key.id.toValue.refersTo (row.2.get? holding.2.name) → row.1 ∈ gone)
    (h : Doomed schema before root key) : key ∈ gone := by
  induction h with
  | root => exact hroot
  | @cascade key holder relationship id record _ hmodel hmem hown htarget hsingle hcascade hstored
      hrefers ih =>
      exact hclosed key ih (holder, relationship)
        (mem_holders.mpr ⟨hmodel, hmem, hown, htarget⟩)
        (effectOf_eq_cascade.mpr ⟨hsingle, hcascade⟩) (⟨holder.name, id⟩, record)
        (Tables.mem_rows.mpr hstored) rfl hrefers

/-! ### Deletions that are carried out -/

/-- What is left of a record is told by which references there are. -/
theorem Cleared.eq_of_alike (halike : schema.Alike schema') (hregular : schema.Regular)
    (hregular' : schema'.Regular) (hgone : ∀ key, key ∈ gone' ↔ key ∈ gone) {name : String}
    {old new new' : Record} (hdistinct : old.keys.Nodup)
    (h : Record.Cleared schema name gone old new)
    (h' : Record.Cleared schema' name gone' old new') : new' = new := by
  refine Keyed.ext_get? (h.keys ▸ hdistinct) (h'.keys.trans h.keys.symm) fun field => ?_
  have hcongr : schema.remaining gone' name field = schema.remaining gone name field := by
    funext value
    unfold Schema.remaining
    split
    · exact Relationship.remaining_congr _ hgone
    · rfl
  rw [h.get?, h'.get?, halike.remaining hregular hregular', hcongr]

/-- Two deletions of one record that are carried out leave the same tables. -/
theorem Outcome.eq_of_alike (halike : schema.Alike schema') (hregular : schema.Regular)
    (hregular' : schema'.Regular) (hdistinct : before.Distinct)
    (h : Outcome schema before root gone after) (h' : Outcome schema' before root gone' after') :
    after' = after := by
  have hgone : ∀ key, key ∈ gone' ↔ key ∈ gone := fun key =>
    (h'.doomed key).trans ((doomed_iff halike).trans (h.doomed key).symm)
  refine Tables.SameRecords.eq ?_ (h'.sequences.trans h.sequences.symm)
  intro name id
  by_cases hkey : ⟨name, id⟩ ∈ gone
  · exact (h'.removed _ ((hgone _).mpr hkey)).2.trans (h.removed _ hkey).2.symm
  · have hkept := h.kept _ hkey
    have hkept' := h'.kept _ fun hmem => hkey ((hgone _).mp hmem)
    dsimp only at hkept hkept'
    generalize hold : before.get? name id = old at hkept hkept'
    generalize after.get? name id = new at hkept ⊢
    generalize after'.get? name id = new' at hkept' ⊢
    cases hkept with
    | none =>
        cases hkept'
        rfl
    | @some old _ hcleared =>
        cases hkept' with
        | some hcleared' =>
            have hrow : ((⟨name, id⟩ : RowKey), old) ∈ before.rows := Tables.mem_rows.mpr hold
            exact congrArg some (Cleared.eq_of_alike halike hregular hregular' hgone
              (hdistinct _ hrow) hcleared hcleared')

/-- A record that keeps a doomed one from going is doomed, if the deletion is carried out. -/
theorem Outcome.doomed_of_restricts (h : Outcome schema before root gone after)
    (hdoomed : Doomed schema before root key) (hrestricts : Restricts schema before key other) :
    Doomed schema before root other := by
  cases hrestricts with
  | @holder holder relationship id record hholder heffect _ hrecord hrefers =>
      by_contra hspared
      have hnot := h.unrestricted key ((h.doomed key).mpr hdoomed) holder relationship hholder
        heffect id (fun hgone => hspared ((h.doomed _).mp hgone)) record hrecord
      rw [hrefers] at hnot
      cases hnot

/-! ### Deletions that are refused -/

/-- There are records in the way of a deletion, and all of them would go along. -/
structure Entangled (schema : Schema) (tables : Tables) (root : RowKey) : Prop where
  restricted : ∃ key other, Doomed schema tables root key ∧ Restricts schema tables key other
  doomed : ∀ key other, Doomed schema tables root key → Restricts schema tables key other →
    Doomed schema tables root other

theorem Entangled.of_covers (halike : schema.Alike schema')
    (h : Entangled schema before root) : Entangled schema' before root where
  restricted := by
    obtain ⟨key, other, hdoomed, hrestricts⟩ := h.restricted
    exact ⟨key, other, .of_covers halike.covers hdoomed, .of_covers halike.covers hrestricts⟩
  doomed key other hdoomed hrestricts := .of_covers halike.covers
    (h.doomed key other (.of_covers halike.covered hdoomed)
      (.of_covers halike.covered hrestricts))

/-- What is carried out under one schema and refused under another is entangled. -/
theorem Refused.entangled {failure : Failure} (halike : schema.Alike schema')
    (h : Refused schema before root failure) (houtcome : Outcome schema' before root gone after) :
    Entangled schema before root where
  restricted := h.restricts
  doomed _ _ hdoomed hrestricts := .of_covers halike.covered
    (houtcome.doomed_of_restricts (.of_covers halike.covers hdoomed)
      (.of_covers halike.covers hrestricts))

/-! ### Deletions of stored records -/

/-- When nothing from outside makes it fail, the deletion of a stored record is carried out or
refused. -/
theorem delete_cases (hregular : schema.Regular) {start : Work} (hcalm : start.Calm)
    (hidentified : start.tables.Identified schema) {model : String} {id : Identity}
    {record : Record} (hstored : start.tables.get? model id = some record) :
    (∃ stop gone, delete schema model id start = .ok record stop ∧
      Outcome schema start.tables ⟨model, id⟩ gone stop.tables) ∨
    ∃ failure stop, delete schema model id start = .error failure stop ∧
      Refused schema start.tables ⟨model, id⟩ failure := by
  cases hrun : delete schema model id start with
  | ok found stop =>
      obtain ⟨hfound, gone, houtcome⟩ := (delete_ends hregular model id hidentified).ok hrun
      rw [hstored] at hfound
      rw [Option.some.inj hfound]
      exact .inl ⟨stop, gone, rfl, houtcome⟩
  | error failure stop =>
      rcases (delete_decided hregular model id hidentified).error hcalm hrun with
        ⟨habsent, -⟩ | hrefused
      · rw [hstored] at habsent
        cases habsent
      · exact .inr ⟨failure, stop, rfl, hrefused⟩

end Deletion

end ModelSurface
