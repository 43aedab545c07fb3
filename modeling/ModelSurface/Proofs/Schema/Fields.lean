import ModelSurface.Model.Parts
import ModelSurface.Proofs.Named
import ModelSurface.Proofs.Results
import ModelSurface.Proofs.Scalar.Reading

/-!
# The fields of a model

One field is the identity. It is assigned when a record is created, and none of the other fields has
its name. What a field assigns by itself, by default or by a generator, may stand in it.
-/

namespace ModelSurface

namespace Field

/-- A field that is set apart from the others as the identity. -/
structure IsIdentity (field : Field) : Prop where
  identity : field.identity = true
  computed : ∃ generator, field.computed = some ⟨.create, generator⟩
  kind : field.kind.isIdentity = true
  required : field.nullable = false

/-- A value that may stand in a field. -/
structure Admits (field : Field) (value : Value) : Prop where
  fits : value.fits field.kind field.list = true
  null : value.isNull = true → field.nullable = true

/-- A field whose default may stand in it, and whose generator gives values of its kind. -/
structure Typed (field : Field) : Prop where
  default : ∀ value, field.default = some value → field.Admits value
  computed : ∀ computed, field.computed = some computed →
    field.list = false ∧ computed.generator.produces field.kind = true

theorem defaultValue_ok {definition : FieldDef} {default : Option Value}
    (h : defaultValue definition = .ok default) {value : Value} (hvalue : default = some value) :
    value.fits definition.kind definition.list = true ∧
      (value.isNull = true → definition.nullable = true) := by
  unfold defaultValue at h
  split at h
  · rw [← Except.ok.inj h] at hvalue
    cases hvalue
  · split at h
    · cases h
    · rename_i read hread
      split at h
      · cases h
      · rename_i hnull
        rw [← Except.ok.inj h] at hvalue
        obtain rfl := Option.some.inj hvalue
        refine ⟨(Value.fits_ofJson hread).1, ?_⟩
        intro hisNull
        simpa [hisNull] using hnull

theorem computedFault?_eq_none {definition : FieldDef} (h : computedFault? definition = none)
    {computed : Computed} (hcomputed : definition.computed = some computed) :
    definition.list = false ∧ computed.generator.produces definition.kind = true := by
  unfold computedFault? at h
  rw [hcomputed] at h
  dsimp only at h
  split at h
  · cases h
  · rename_i hlist
    split at h
    · rename_i hproduces
      exact ⟨Bool.eq_false_iff.mpr hlist, hproduces⟩
    · cases h

theorem ofPlain_ok {model : String} {definition : FieldDef} {field : Field}
    (h : ofPlain model definition = .ok field) :
    field.name = definition.name ∧ field.identity = false ∧ field.Typed := by
  unfold ofPlain at h
  dsimp only at h
  split at h
  · cases h
  · rename_i hcomputed
    split at h
    · cases h
    · rename_i default hdefault
      rw [← Except.ok.inj h]
      refine ⟨rfl, rfl, ?_, fun computed => computedFault?_eq_none hcomputed⟩
      intro value hvalue
      obtain ⟨hfits, hnull⟩ := defaultValue_ok hdefault hvalue
      exact ⟨hfits, hnull⟩

theorem ofPlain_mapM_ok {model : String} {definitions : List FieldDef} {fields : List Field}
    (h : definitions.mapM (ofPlain model) = .ok fields) {field : Field} (hfield : field ∈ fields) :
    field.identity = false ∧ field.Typed ∧ field.name ∈ definitions.map FieldDef.name := by
  obtain ⟨definition, hmem, hok⟩ := mem_of_mapM_ok h hfield
  obtain ⟨hname, hordinary, htyped⟩ := ofPlain_ok hok
  exact ⟨hordinary, htyped, List.mem_map.mpr ⟨definition, hmem, hname.symm⟩⟩

theorem identityGenerator?_produces {definition : FieldDef} {generator : Generator}
    (h : identityGenerator? definition = some generator)
    (hkind : definition.kind.isIdentity = true) : generator.produces definition.kind = true := by
  unfold identityGenerator? at h
  split at h
  · split at h
    · rename_i hproduces
      rw [← Option.some.inj h]
      exact hproduces.2
    · cases h
  · rw [← Option.some.inj h]
    cases hcase : definition.kind <;> rw [hcase] at hkind <;> first | decide | cases hkind

theorem ofIdentity_ok {model : String} {definition : FieldDef} {field : Field}
    (h : ofIdentity model definition = .ok field) :
    field.name = definition.name ∧ field.IsIdentity ∧ field.Typed := by
  unfold ofIdentity at h
  dsimp only at h
  split at h
  · cases h
  · rename_i hkind
    rw [Bool.not_eq_true', Bool.not_eq_false] at hkind
    split at h
    · cases h
    · split at h
      · cases h
      · rename_i generator hgenerator
        rw [← Except.ok.inj h]
        refine ⟨rfl, ⟨rfl, ⟨generator, rfl⟩, hkind, rfl⟩, ⟨?_, ?_⟩⟩
        · intro value hdefault
          cases hdefault
        · intro computed hcomputed
          rw [← Option.some.inj hcomputed]
          exact ⟨rfl, identityGenerator?_produces hgenerator hkind⟩

theorem implicit_isIdentity : implicit.IsIdentity := ⟨rfl, ⟨.sequence, rfl⟩, rfl, rfl⟩

theorem implicit_typed : implicit.Typed where
  default _ h := by cases h
  computed computed h := by
    rw [← Option.some.inj h]
    exact ⟨rfl, rfl⟩

/-- Where one definition declares the identity, all others are ordinary and have other names. -/
theorem ordinary_of_split {model : String} {front behind : List FieldDef} {first : FieldDef}
    {before after : List Field} {found : Field}
    (hdistinct : ((front ++ first :: behind).map FieldDef.name).Nodup)
    (hbefore : front.mapM (ofPlain model) = .ok before)
    (hafter : behind.mapM (ofPlain model) = .ok after) (hname : found.name = first.name)
    {field : Field} (hfield : field ∈ before ++ after) :
    field.identity = false ∧ field.name ≠ found.name ∧ field.Typed ∧
      field.name ∈ (front ++ first :: behind).map FieldDef.name := by
  rw [List.map_append, List.map_cons] at hdistinct ⊢
  obtain ⟨-, hrest, hapart⟩ := List.nodup_append.mp hdistinct
  obtain ⟨hfirst, -⟩ := List.nodup_cons.mp hrest
  rw [hname]
  rcases List.mem_append.mp hfield with hmem | hmem
  · obtain ⟨hordinary, htyped, hfield_name⟩ := ofPlain_mapM_ok hbefore hmem
    exact ⟨hordinary, hapart _ hfield_name _ List.mem_cons_self, htyped,
      List.mem_append_left _ hfield_name⟩
  · obtain ⟨hordinary, htyped, hfield_name⟩ := ofPlain_mapM_ok hafter hmem
    refine ⟨hordinary, ?_, htyped, List.mem_append_right _ (List.mem_cons_of_mem _ hfield_name)⟩
    intro heq
    rw [heq] at hfield_name
    exact hfirst hfield_name

/-- The identity is the implicit one, or one definition declares it. -/
theorem ofDefs_eq_ok {model : String} {definitions : List FieldDef} {identity : Field}
    {plain : List Field} (h : ofDefs model definitions = .ok (identity, plain)) :
    (identity = implicit ∧ implicitName ∉ definitions.map FieldDef.name ∧
      definitions.mapM (ofPlain model) = .ok plain) ∨
    ∃ front first behind before after, definitions = front ++ first :: behind ∧
      front.mapM (ofPlain model) = .ok before ∧ ofIdentity model first = .ok identity ∧
      behind.mapM (ofPlain model) = .ok after ∧ plain = before ++ after := by
  unfold ofDefs at h
  split at h
  · split at h
    · cases h
    · rename_i hnone
      obtain ⟨fields, hfields, h⟩ := except_bind_eq_ok.mp h
      obtain ⟨rfl, rfl⟩ := Prod.mk.inj (Except.ok.inj h)
      refine .inl ⟨rfl, fun hmem => hnone ?_, hfields⟩
      obtain ⟨definition, hdefinition, hname⟩ := List.mem_map.mp hmem
      exact List.any_eq_true.mpr ⟨definition, hdefinition, beq_iff_eq.mpr hname⟩
  · rename_i first behind hdrop
    split at h
    · cases h
    · obtain ⟨before, hbefore, h⟩ := except_bind_eq_ok.mp h
      obtain ⟨found, hfound, h⟩ := except_bind_eq_ok.mp h
      obtain ⟨after, hafter, h⟩ := except_bind_eq_ok.mp h
      obtain ⟨rfl, rfl⟩ := Prod.mk.inj (Except.ok.inj h)
      refine .inr ⟨_, first, behind, before, after, ?_, hbefore, hfound, hafter, rfl⟩
      rw [← hdrop, List.takeWhile_append_dropWhile]

/-- What becomes of the definitions of fields whose names are distinct. -/
theorem ofDefs_ok {model : String} {definitions : List FieldDef} {identity : Field}
    {plain : List Field} (h : ofDefs model definitions = .ok (identity, plain))
    (hdistinct : (definitions.map FieldDef.name).Nodup) :
    identity.IsIdentity ∧ identity.Typed ∧
      (identity.name = implicitName ∨ identity.name ∈ definitions.map FieldDef.name) ∧
      ∀ field ∈ plain, field.identity = false ∧ field.name ≠ identity.name ∧ field.Typed ∧
        field.name ∈ definitions.map FieldDef.name := by
  rcases ofDefs_eq_ok h with ⟨rfl, hfree, hplain⟩ |
    ⟨front, first, behind, before, after, rfl, hbefore, hidentity, hafter, rfl⟩
  · refine ⟨implicit_isIdentity, implicit_typed, .inl rfl, fun field hfield => ?_⟩
    obtain ⟨hordinary, htyped, hname⟩ := ofPlain_mapM_ok hplain hfield
    refine ⟨hordinary, fun heq => hfree ?_, htyped, hname⟩
    rw [show implicitName = field.name from heq.symm]
    exact hname
  · obtain ⟨hname, hfound, htyped⟩ := ofIdentity_ok hidentity
    refine ⟨hfound, htyped, .inr ?_, fun field hfield =>
      ordinary_of_split hdistinct hbefore hafter hname hfield⟩
    rw [hname, List.map_append]
    exact List.mem_append_right _ List.mem_cons_self

end Field

end ModelSurface
