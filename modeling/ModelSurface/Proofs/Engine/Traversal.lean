import Mathlib.Data.List.Nodup
import ModelSurface.Proofs.Engine.Exclusivity
import ModelSurface.Proofs.Engine.Sides
import ModelSurface.Proofs.Schema.Pairing

/-!
# Following relationships

The side that holds a relationship follows the identities that a record holds, the other side looks
through all records that may hold its own. Both see the same links: one record leads to another one
exactly when that one leads back.
-/

namespace ModelSurface

/-! ### Inverses -/

/-- The sides of a registry's schema are pairs, each side the inverse of the other. -/
theorem Registry.balanced_schema {registry : Registry} {schema : Schema}
    (h : registry.schema = .ok schema) : Introspection.Balanced schema.descriptors := by
  obtain ⟨found, hfound, rfl⟩ := exists_introspection h
  obtain ⟨hnames, issues, rfl, -, hclashes⟩ := introspect_eq_ok hfound
  obtain ⟨done, hpairs, -⟩ :=
    Introspection.pairs_ofDrafts registry.sound_drafts (nodup_drafts hnames) hclashes
  exact hpairs.matched

namespace Schema

variable {schema : Schema} {near far holder target : Model} {relationship inverse : Relationship}

theorem Sound.get?_descriptors (hsound : schema.Sound) (hnear : near ∈ schema.models) :
    schema.descriptors.get? near.name = some near :=
  (Option.filter_eq_some_iff.mp (hsound.model?_eq_some.mpr ⟨hnear, rfl⟩)).1

theorem Sound.side?_eq_some (hsound : schema.Sound) (hnear : near ∈ schema.models)
    (hmem : relationship ∈ near.relationships.values) :
    Introspection.side? schema.descriptors near.name relationship.name = some relationship := by
  unfold Introspection.side?
  rw [hsound.get?_descriptors hnear, Option.bind_some]
  exact (hsound.model near hnear).relationship?_eq_some.mpr ⟨hmem, rfl⟩

/-- A relationship and its inverse are the two sides of what one of the two models holds. -/
theorem sides_of_inverse (hbalanced : Introspection.Balanced schema.descriptors)
    (hsound : schema.Sound) (hnear : near ∈ schema.models) (hfar : far ∈ schema.models)
    (hmem : relationship ∈ near.relationships.values) (hmem' : inverse ∈ far.relationships.values)
    (htarget : relationship.target = far.name)
    (hinverse : relationship.inverse = some inverse.name) :
    schema.Sides near far relationship inverse ∨ schema.Sides far near inverse relationship := by
  obtain ⟨name, other, hname, hother, -, hback, -, howner⟩ := hbalanced _ _ _
    (hsound.side?_eq_some hnear hmem) (.inr (hinverse ▸ Option.some_ne_none _))
  obtain rfl := Option.some.inj (hinverse.symm.trans hname)
  rw [htarget, hsound.side?_eq_some hfar hmem'] at hother
  obtain rfl := Option.some.inj hother
  rcases howner with ⟨-, hremote⟩ | ⟨hremote, -⟩
  · exact .inl ⟨hnear, hfar, hmem, hmem', hremote, hback⟩
  · exact .inr ⟨hfar, hnear, hmem', hmem, hremote, htarget⟩

theorem Sides.cardinality (h : schema.Sides holder target relationship inverse)
    (hsound : schema.Sound) : relationship.cardinality = inverse.cardinality.flip := by
  obtain ⟨found, held, hfound, hheld, -, -, hflip⟩ :=
    hsound.remote target h.target_mem inverse h.seen relationship.name h.ownership
  rw [h.back, hsound.model?_eq_some.mpr ⟨h.holder_mem, rfl⟩] at hfound
  obtain rfl := Option.some.inj hfound
  have hsame := (hsound.model holder h.holder_mem).relationship?_eq_some.mpr ⟨h.held, rfl⟩
  rw [hheld] at hsame
  rw [← Option.some.inj hsame, hflip]

/-- Where the other side is single, no two records hold the same reference. -/
theorem Sides.oneToOne (h : schema.Sides holder target relationship inverse)
    (hsound : schema.Sound) (hsingle : inverse.isMany = false) :
    relationship.cardinality = .oneToOne := by
  have hflip := h.cardinality hsound
  obtain ⟨-, hown, -, -⟩ := h.fit hsound
  obtain ⟨-, hheld, -⟩ := hsound.own holder h.holder_mem relationship h.held
    (Relationship.isOwn_iff.mpr hown)
  unfold Relationship.isMany at hsingle
  cases hkind : inverse.cardinality <;> rw [hkind] at hflip hsingle
  · exact hflip
  · exact absurd hflip hheld
  · cases hsingle
  · cases hsingle

end Schema

/-! ### Identities that are held -/

theorem Identity.toValue_injective : Function.Injective Identity.toValue := by
  intro id other hsame
  have hread := congrArg ofValue? hsame
  rw [ofValue?_toValue, ofValue?_toValue] at hread
  exact Option.some.inj hread

theorem Identity.refersTo_toValue {id found : Identity} :
    id.toValue.refersTo (some found.toValue) = true ↔ found = id := by
  rw [← toValue_injective.eq_iff, ← toValue_same]
  cases found <;> rfl

namespace Tables

variable {record : Record} {field : String}

theorem heldIdentities_of_links {ids : List Identity}
    (h : record.get? field = some (.list (ids.map Identity.toValue))) :
    heldIdentities record field = ids := by
  have hread : ids.filterMap (Identity.ofValue? ∘ Identity.toValue) = ids.filterMap some :=
    List.filterMap_congr fun id _ => Identity.ofValue?_toValue id
  unfold heldIdentities
  rw [h]
  dsimp only
  rw [List.filterMap_map, hread, List.filterMap_some]

theorem heldIdentities_of_null (h : record.get? field = some .null) :
    heldIdentities record field = [] := by
  unfold heldIdentities
  rw [h]
  rfl

theorem heldIdentities_of_single {id : Identity} (h : record.get? field = some id.toValue) :
    heldIdentities record field = [id] := by
  unfold heldIdentities
  rw [h]
  cases id <;> rfl

end Tables

/-- What a record holds under a relationship is read as the identities of the records that it refers
to. -/
theorem Relationship.HoldsIn.identities {relationship : Relationship} {tables : Tables}
    {record : Record} (h : relationship.HoldsIn tables (record.get? relationship.name)) :
    let ids := Tables.heldIdentities record relationship.name
    (∀ id, id ∈ ids ↔ id.toValue.refersTo (record.get? relationship.name) = true) ∧
      (relationship.isMany = true →
        record.get? relationship.name = some (.list (ids.map Identity.toValue))) ∧
      (relationship.isMany = false → ids.length ≤ 1 ∧
        ∀ id ∈ ids, record.get? relationship.name = some id.toValue) := by
  rcases h.cases with ⟨hmany, ids, hvalue, -⟩ | ⟨hsingle, hvalue, -⟩ | ⟨hsingle, found, hvalue, -⟩
  · rw [Tables.heldIdentities_of_links hvalue, hvalue, hmany]
    refine ⟨fun id => ⟨Identity.refersTo_of_mem, fun hrefers => ?_⟩, fun _ => rfl, nofun⟩
    obtain ⟨item, hitem, hsame⟩ := List.any_eq_true.mp hrefers
    obtain ⟨other, hother, rfl⟩ := List.mem_map.mp hitem
    rwa [← Identity.toValue_injective (Identity.same_toValue.mp hsame)]
  · rw [Tables.heldIdentities_of_null hvalue, hvalue, hsingle]
    refine ⟨fun id => ⟨nofun, fun hrefers => ?_⟩, nofun, fun _ => ⟨Nat.zero_le 1, nofun⟩⟩
    rw [Relationship.refersTo_null] at hrefers
    cases hrefers
  · rw [Tables.heldIdentities_of_single hvalue, hvalue, hsingle]
    refine ⟨fun id => ?_, nofun, fun _ => ⟨le_rfl, fun id hmem => ?_⟩⟩
    · rw [List.mem_singleton, Identity.refersTo_toValue, eq_comm]
    · rw [List.mem_singleton.mp hmem]

/-! ### Following relationships -/

namespace Tables

variable {schema : Schema} {tables : Tables} {model : Model} {relationship : Relationship}
  {record : Record}

section Sound

variable (hsound : schema.Sound) (hmodel : model ∈ schema.models)
  (hmem : relationship ∈ model.relationships.values)

include hsound hmodel hmem

theorem related_own (hown : relationship.ownership = .own) :
    tables.related schema model.name record relationship.name =
      (heldIdentities record relationship.name).filterMap (tables.get? relationship.target) := by
  unfold related
  rw [hsound.get?_descriptors hmodel]
  dsimp only
  rw [(hsound.model model hmodel).relationship?_eq_some.mpr ⟨hmem, rfl⟩]
  dsimp only
  rw [hown]

theorem related_remote {field : String} (hremote : relationship.ownership = .remote field)
    {id : Identity} (hid : Record.identity? record model.identity.name = some id) :
    tables.related schema model.name record relationship.name =
      (tables.scan relationship.target).filter fun other =>
        id.toValue.refersTo (other.get? field) := by
  unfold related
  rw [hsound.get?_descriptors hmodel]
  dsimp only
  rw [(hsound.model model hmodel).relationship?_eq_some.mpr ⟨hmem, rfl⟩]
  dsimp only
  rw [hremote, hid]

theorem resolve_eq : Query.resolve schema tables model.name record relationship.name =
    .ok (tables.related schema model.name record relationship.name) := by
  unfold Query.resolve
  rw [Engine.findModel_of_model? (hsound.model?_eq_some.mpr ⟨hmodel, rfl⟩)]
  dsimp only [bind, Except.bind]
  rw [(hsound.model model hmodel).relationship?_eq_some.mpr ⟨hmem, rfl⟩]

end Sound

/-- A table holds no record twice. -/
theorem Identified.nodup_scan (h : tables.Identified schema) (hmodel : model ∈ schema.models) :
    (tables.scan model.name).Nodup := by
  refine List.Nodup.map_on ?_ (tables.nodup_rows.filter _)
  rintro ⟨⟨name, id⟩, record⟩ hrow ⟨⟨name', id'⟩, record'⟩ hrow' rfl
  obtain ⟨hstored, hname⟩ := List.mem_filter.mp hrow
  obtain ⟨hstored', hname'⟩ := List.mem_filter.mp hrow'
  obtain rfl := beq_iff_eq.mp hname
  obtain rfl := beq_iff_eq.mp hname'
  have hid := h model hmodel id record (mem_rows.mp hstored)
  rw [h model hmodel id' record (mem_rows.mp hstored')] at hid
  rw [Option.some.inj hid]

theorem length_le_one {α : Type} {items : List α} (hnodup : items.Nodup)
    (h : ∀ first ∈ items, ∀ second ∈ items, first = second) : items.length ≤ 1 := by
  match items, hnodup, h with
  | [], _, _ => exact Nat.zero_le 1
  | [_], _, _ => exact le_rfl
  | first :: second :: _, hnodup, h =>
      have heq := h first List.mem_cons_self second (List.mem_cons_of_mem _ List.mem_cons_self)
      exact absurd (heq ▸ List.mem_cons_self) (List.nodup_cons.mp hnodup).1

section Sides

variable {holder target : Model} {inverse : Relationship} (hsound : schema.Sound)
  (htables : tables.WellLinked schema)
  (hsides : schema.Sides holder target relationship inverse)
  {id other : Identity} {linked : Record}
  (hrecord : tables.get? holder.name id = some record)
  (hlinked : tables.get? target.name other = some linked)

include hsound htables hsides

section Holder

include hrecord

theorem holdsIn_of_sides : relationship.HoldsIn tables (record.get? relationship.name) := by
  obtain ⟨-, hown, -, -⟩ := hsides.fit hsound
  exact htables.intact.linked holder hsides.holder_mem id record hrecord relationship hsides.held
    (Relationship.isOwn_iff.mpr hown)

/-- A one-to-one reference is held by one record alone. -/
theorem eq_of_refersTo (hone : relationship.cardinality = .oneToOne) {id' : Identity}
    {record' : Record} (hrecord' : tables.get? holder.name id' = some record')
    (hrefers : other.toValue.refersTo (record.get? relationship.name) = true)
    (hrefers' : other.toValue.refersTo (record'.get? relationship.name) = true) :
    record = record' := by
  have hmany : relationship.isMany = false := by
    rw [Relationship.isMany, hone]
    rfl
  have hvalue : ∀ {id record}, tables.get? holder.name id = some record →
      other.toValue.refersTo (record.get? relationship.name) = true →
      record.get? relationship.name = some other.toValue := by
    intro id record hrecord hrefers
    obtain ⟨hids, -, hheld⟩ := (holdsIn_of_sides hsound htables hsides hrecord).identities
    exact (hheld hmany).2 other ((hids other).mpr hrefers)
  obtain ⟨-, hown, -, -⟩ := hsides.fit hsound
  have hexclusive := htables.exclusive holder hsides.holder_mem id record hrecord relationship
    hsides.held (Relationship.isOwn_iff.mpr hown)
  obtain rfl := hexclusive.single hone id' record' hrecord' other.toValue (by cases other <;> rfl)
    (hvalue hrecord hrefers) (hvalue hrecord' hrefers')
  exact Option.some.inj (hrecord.symm.trans hrecord')

/-- What the holder follows: no record twice, and one at most if it holds a single reference. -/
theorem related_own_simple :
    (tables.related schema holder.name record relationship.name).Nodup ∧
      (relationship.isMany = false →
        (tables.related schema holder.name record relationship.name).length ≤ 1) := by
  obtain ⟨-, hown, htarget, -⟩ := hsides.fit hsound
  obtain ⟨-, hmany, hsingle⟩ := (holdsIn_of_sides hsound htables hsides hrecord).identities
  have hisOwn := Relationship.isOwn_iff.mpr hown
  rw [related_own hsound hsides.holder_mem hsides.held hown]
  have hlength := List.length_filterMap_le (tables.get? relationship.target)
    (heldIdentities record relationship.name)
  refine ⟨List.Nodup.filterMap ?_ ?_, fun h => hlength.trans (hsingle h).1⟩
  · -- records with different identities are different
    intro id id' found hfound hfound'
    rw [Option.mem_def, ← (hsound.model?_eq_some.mp htarget).2] at hfound hfound'
    have hid := htables.intact.identified target hsides.target_mem id found hfound
    rw [htables.intact.identified target hsides.target_mem id' found hfound'] at hid
    exact (Option.some.inj hid).symm
  · by_cases h : relationship.isMany = true
    · obtain ⟨-, hcardinality, -⟩ :=
        hsound.own holder hsides.holder_mem relationship hsides.held hisOwn
      have hmany_to_many : relationship.cardinality = .manyToMany := by
        unfold Relationship.isMany at h
        cases hkind : relationship.cardinality <;> simp_all [Cardinality.isMany]
      obtain ⟨items, hitems, hnodup⟩ := (htables.exclusive holder hsides.holder_mem id record
        hrecord relationship hsides.held hisOwn).many hmany_to_many
      rw [hmany h] at hitems
      rw [← Value.list.inj (Option.some.inj hitems)] at hnodup
      exact hnodup.of_map _
    · have hle := (hsingle (Bool.eq_false_iff.mpr h)).1
      rcases hheld : heldIdentities record relationship.name with _ | ⟨found, _ | ⟨next, rest⟩⟩
      · exact .nil
      · exact List.nodup_singleton found
      · rw [hheld, List.length_cons, List.length_cons] at hle
        omega

end Holder

include hlinked

/-- What the other side finds: no record twice, and one at most if the reference is held by one
record alone. -/
theorem related_remote_simple :
    (tables.related schema target.name linked inverse.name).Nodup ∧
      (inverse.isMany = false →
        (tables.related schema target.name linked inverse.name).length ≤ 1) := by
  have hidentity := htables.intact.identified target hsides.target_mem other linked hlinked
  rw [related_remote hsound hsides.target_mem hsides.seen hsides.ownership hidentity, hsides.back]
  have hnodup := (htables.intact.identified.nodup_scan hsides.holder_mem).filter fun found =>
    other.toValue.refersTo (found.get? relationship.name)
  refine ⟨hnodup, fun hsingle => length_le_one hnodup fun first hfirst second hsecond => ?_⟩
  obtain ⟨hscan, hrefers⟩ := List.mem_filter.mp hfirst
  obtain ⟨hscan', hrefers'⟩ := List.mem_filter.mp hsecond
  obtain ⟨id, hid⟩ := mem_scan.mp hscan
  obtain ⟨id', hid'⟩ := mem_scan.mp hscan'
  exact eq_of_refersTo hsound htables hsides hid (hsides.oneToOne hsound hsingle) hid' hrefers
    hrefers'

include hrecord

/-- One record leads to another one exactly when that one leads back. -/
theorem mem_related_iff_mem_related :
    linked ∈ tables.related schema holder.name record relationship.name ↔
      record ∈ tables.related schema target.name linked inverse.name := by
  obtain ⟨-, hown, htarget, -⟩ := hsides.fit hsound
  have hname := (hsound.model?_eq_some.mp htarget).2
  have hidentified := htables.intact.identified
  have hidentity := hidentified target hsides.target_mem other linked hlinked
  obtain ⟨hids, -, -⟩ := (holdsIn_of_sides hsound htables hsides hrecord).identities
  rw [related_own hsound hsides.holder_mem hsides.held hown,
    related_remote hsound hsides.target_mem hsides.seen hsides.ownership hidentity, hsides.back,
    List.mem_filterMap, List.mem_filter, and_iff_right (mem_scan.mpr ⟨id, hrecord⟩), ← hids]
  constructor
  · rintro ⟨found, hheld, hfound⟩
    rw [← hname] at hfound
    have hsame := hidentified target hsides.target_mem found linked hfound
    rw [hidentity] at hsame
    rwa [Option.some.inj hsame]
  · exact fun hheld => ⟨other, hheld, hname ▸ hlinked⟩

end Sides

end Tables

/-! ### Stores -/

namespace Engine

variable {engine : Engine}

/-- Relationships are followed alike from both sides, in every store that calls lead to: a record
leads to another one along a relationship exactly when that one leads back along the inverse. Either
way no record is met twice, and a relationship that is single leads to one record at most. -/
theorem traversal_symmetric {registry : Registry} {store : Store}
    (hschema : registry.schema = .ok engine.schema) (hhandlers : engine.handlers = [])
    (hstore : engine.Reachable store) {near far : Model} (hnear : near ∈ engine.schema.models)
    (hfar : far ∈ engine.schema.models) {relationship inverse : Relationship}
    (hmem : relationship ∈ near.relationships.values) (hmem' : inverse ∈ far.relationships.values)
    (htarget : relationship.target = far.name) (hinverse : relationship.inverse = some inverse.name)
    {id other : Identity} {record found : Record}
    (hrecord : store.tables.get? near.name id = some record)
    (hfound : store.tables.get? far.name other = some found) :
    ∃ there back,
      Query.resolve engine.schema store.tables near.name record relationship.name = .ok there ∧
      Query.resolve engine.schema store.tables far.name found inverse.name = .ok back ∧
      (found ∈ there ↔ record ∈ back) ∧
      there.Nodup ∧ (relationship.isMany = false → there.length ≤ 1) ∧
      back.Nodup ∧ (inverse.isMany = false → back.length ≤ 1) := by
  have hsound := Registry.sound_schema hschema
  have htables := hstore.tables_hold (keepsInputs_wellLinked hsound)
    (keepsMethods_of_no_handlers hhandlers) Tables.wellLinked_empty
  refine ⟨_, _, Tables.resolve_eq hsound hnear hmem, Tables.resolve_eq hsound hfar hmem', ?_⟩
  rcases Schema.sides_of_inverse (Registry.balanced_schema hschema) hsound hnear hfar hmem hmem'
    htarget hinverse with hsides | hsides
  · obtain ⟨hthere, hthere_one⟩ := Tables.related_own_simple hsound htables hsides hrecord
    obtain ⟨hback, hback_one⟩ := Tables.related_remote_simple hsound htables hsides hfound
    exact ⟨Tables.mem_related_iff_mem_related hsound htables hsides hrecord hfound, hthere,
      hthere_one, hback, hback_one⟩
  · obtain ⟨hthere, hthere_one⟩ := Tables.related_remote_simple hsound htables hsides hrecord
    obtain ⟨hback, hback_one⟩ := Tables.related_own_simple hsound htables hsides hfound
    exact ⟨(Tables.mem_related_iff_mem_related hsound htables hsides hfound hrecord).symm, hthere,
      hthere_one, hback, hback_one⟩

/-! ### Persons and their partners -/

def personModel : Model := (circleSchema.model? "Person").getD default

def partnerSide : Relationship := (personModel.relationship? "partner").getD default

def partnerOfSide : Relationship := (personModel.relationship? "partner_of").getD default

def circleStore : Store := (circleEngine.call {} {} (.create "Person" circleInput)).1

theorem tables_circleStore : circleStore.tables =
    (Store.transact {} {} (do pure (Record.toJson (← circlePlan.apply circleEngine.sources
      [1, 0])))).1.tables :=
  congrArg (·.1.tables) create_circleInput

/-- The person that is created with a partner leads to it, and is led to from it. -/
theorem traversal_symmetric_circle :
    ∃ person partner there back,
      circleStore.tables.get? personModel.name (.int 2) = some person ∧
      circleStore.tables.get? personModel.name (.int 1) = some partner ∧
      Query.resolve circleSchema circleStore.tables personModel.name person partnerSide.name =
        .ok there ∧
      Query.resolve circleSchema circleStore.tables personModel.name partner partnerOfSide.name =
        .ok back ∧
      (partner ∈ there ↔ person ∈ back) ∧ there.length = 1 ∧ back.length = 1 := by
  obtain ⟨hperson, hpartner, hpartner_of, htarget, hinverse, hstored⟩ :
      (circleSchema.model? "Person").isSome = true ∧
        (personModel.relationship? "partner").isSome = true ∧
        (personModel.relationship? "partner_of").isSome = true ∧
        partnerSide.target = personModel.name ∧ partnerSide.inverse = some partnerOfSide.name ∧
        (circleStore.tables.get? personModel.name (.int 2)).any (fun person =>
          (circleStore.tables.get? personModel.name (.int 1)).any fun partner =>
            (Query.resolve circleSchema circleStore.tables personModel.name person
              partnerSide.name).value?.any (·.length == 1) &&
            (Query.resolve circleSchema circleStore.tables personModel.name partner
              partnerOfSide.name).value?.any (·.length == 1)) = true := by
    rw [tables_circleStore]
    decide +kernel
  have hsound := Registry.sound_schema schema_circleRegistry
  have hmodel : personModel ∈ circleSchema.models :=
    (hsound.model?_eq_some.mp (eq_some_getD hperson)).1
  have hmodel_sound := hsound.model personModel hmodel
  have hpartner_mem : partnerSide ∈ personModel.relationships.values :=
    (hmodel_sound.relationship?_eq_some.mp (eq_some_getD hpartner)).1
  have hpartner_of_mem : partnerOfSide ∈ personModel.relationships.values :=
    (hmodel_sound.relationship?_eq_some.mp (eq_some_getD hpartner_of)).1
  obtain ⟨person, hperson_stored, hrest⟩ := (Option.any_eq_true _ _).mp hstored
  obtain ⟨partner, hpartner_stored, hlengths⟩ := (Option.any_eq_true _ _).mp hrest
  obtain ⟨hthere_one, hback_one⟩ := Bool.and_eq_true_iff.mp hlengths
  have hreachable : circleEngine.Reachable circleStore := .call {} _ (.empty [] 0)
  obtain ⟨there, back, hthere, hback, hboth, -⟩ := traversal_symmetric schema_circleRegistry rfl
    hreachable hmodel hmodel hpartner_mem hpartner_of_mem htarget hinverse hperson_stored
    hpartner_stored
  change Query.resolve circleSchema _ _ _ _ = _ at hthere hback
  rw [hthere] at hthere_one
  rw [hback] at hback_one
  exact ⟨person, partner, there, back, hperson_stored, hpartner_stored, hthere, hback, hboth,
    beq_iff_eq.mp hthere_one, beq_iff_eq.mp hback_one⟩

end Engine

end ModelSurface
