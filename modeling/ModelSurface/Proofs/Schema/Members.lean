import ModelSurface.Model.Inheritance
import ModelSurface.Proofs.Named
import ModelSurface.Proofs.Schema.Spelling

/-!
# Members and their names

However members are inherited and declared, the members of a model are kept under their own names,
and no name belongs to a field and to a relation.
-/

namespace ModelSurface

namespace Naming

theorem firstRepeatedFrom_eq_none_iff {seen names : List String} :
    firstRepeatedFrom seen names = none ↔ names.Nodup ∧ ∀ name ∈ names, name ∉ seen := by
  induction names generalizing seen with
  | nil => simp [firstRepeatedFrom]
  | cons name names ih =>
      unfold firstRepeatedFrom
      by_cases hseen : name ∈ seen
      · simp [hseen]
      · rw [if_neg (by simpa using hseen), ih]
        simp only [List.nodup_cons, List.mem_cons, not_or, forall_eq_or_imp]
        grind

theorem firstRepeated_eq_none_iff {names : List String} :
    firstRepeated names = none ↔ names.Nodup := by
  unfold firstRepeated
  rw [firstRepeatedFrom_eq_none_iff]
  simp

end Naming

namespace Members

structure Sound (members : Members) : Prop where
  fields : members.fields.NamedBy FieldDef.name
  relations : members.relations.NamedBy RelationDef.name
  apart : ∀ name ∈ members.relations.keys, name ∉ members.fields.keys
  valid : ∀ name, name ∈ members.fields.keys ∨ name ∈ members.relations.keys →
    Naming.isValid name
  templates : ∀ relation ∈ members.relations.values, relation.Unreserved

theorem sound_empty : Sound {} where
  fields := .empty
  relations := .empty
  apart _ h := absurd h List.not_mem_nil
  valid _ h := h.elim (absurd · List.not_mem_nil) (absurd · List.not_mem_nil)
  templates _ h := absurd h List.not_mem_nil

theorem not_mem_of_not_has {members : Members} {name : String} (h : ¬ members.has name) :
    name ∉ members.fields.keys ∧ name ∉ members.relations.keys := by
  have hboth := not_or.mp (mt Bool.or_eq_true_iff.mpr h)
  exact ⟨fun hmem => hboth.1 (Keyed.isSome_get?_iff.mpr hmem),
    fun hmem => hboth.2 (Keyed.isSome_get?_iff.mpr hmem)⟩

/-! ### Inheriting -/

theorem Sound.inheritField {members : Members} (h : members.Sound) {entry : String × FieldDef}
    (hentry : entry.2.name = entry.1) (hvalid : Naming.isValid entry.1) :
    (members.inheritField entry).Sound := by
  unfold Members.inheritField
  split
  · exact h
  · rename_i hfree
    refine ⟨h.fields.put hentry, h.relations, ?_, ?_, h.templates⟩
    · intro name hrelation hfield
      rcases Keyed.mem_keys_put.mp hfield with heq | hold
      · exact (not_mem_of_not_has hfree).2 (heq ▸ hrelation)
      · exact h.apart name hrelation hold
    · rintro name (hfield | hrelation)
      · rcases Keyed.mem_keys_put.mp hfield with heq | hold
        · exact heq ▸ hvalid
        · exact h.valid name (.inl hold)
      · exact h.valid name (.inr hrelation)

theorem Sound.inheritRelation {members : Members} (h : members.Sound)
    {entry : String × RelationDef} (hentry : entry.2.name = entry.1)
    (hvalid : Naming.isValid entry.1) (htemplate : entry.2.Unreserved) :
    (members.inheritRelation entry).Sound := by
  unfold Members.inheritRelation
  split
  · exact h
  · rename_i hfree
    refine ⟨h.fields, h.relations.put hentry, ?_, ?_, ?_⟩
    · intro name hrelation hfield
      rcases Keyed.mem_keys_put.mp hrelation with heq | hold
      · exact (not_mem_of_not_has hfree).1 (heq ▸ hfield)
      · exact h.apart name hold hfield
    · rintro name (hfield | hrelation)
      · exact h.valid name (.inl hfield)
      · rcases Keyed.mem_keys_put.mp hrelation with heq | hold
        · exact heq ▸ hvalid
        · exact h.valid name (.inr hold)
    · intro relation hrelation
      rcases Keyed.mem_values_put hrelation with rfl | hold
      · exact htemplate
      · exact h.templates relation hold

theorem Sound.inheritMethod {members : Members} (h : members.Sound)
    (entry : String × MethodDef) : (members.inheritMethod entry).Sound := by
  unfold Members.inheritMethod
  split
  · exact h
  · exact ⟨h.fields, h.relations, h.apart, h.valid, h.templates⟩

theorem Sound.inherit {members base : Members} (h : members.Sound) (hbase : base.Sound) :
    (members.inherit base).Sound := by
  have hfields : (base.fields.entries.foldl Members.inheritField members).Sound :=
    List.foldlRecOn _ _ h fun _ hsound entry hentry =>
      hsound.inheritField (hbase.fields.named entry hentry)
        (hbase.valid entry.1 (.inl (List.mem_map.mpr ⟨entry, hentry, rfl⟩)))
  have hrelations := List.foldlRecOn base.relations.entries Members.inheritRelation hfields
    fun _ hsound entry hentry => Sound.inheritRelation hsound
      (hbase.relations.named entry hentry)
      (hbase.valid entry.1 (.inr (List.mem_map.mpr ⟨entry, hentry, rfl⟩)))
      (hbase.templates entry.2 (List.mem_map.mpr ⟨entry, hentry, rfl⟩))
  exact List.foldlRecOn base.methods.entries Members.inheritMethod hrelations
    fun _ hsound entry _ => Sound.inheritMethod hsound entry

/-! ### Declaring -/

theorem Sound.declareField {members : Members} (h : members.Sound) (field : FieldDef)
    (hvalid : Naming.isValid field.name) : (members.declareField field).Sound where
  fields := h.fields.put rfl
  relations := h.relations.erase field.name
  apart name hrelation hfield := by
    change name ∈ (members.relations.erase field.name).keys at hrelation
    rw [Keyed.keys_erase] at hrelation
    obtain ⟨hold, hne⟩ := List.mem_filter.mp hrelation
    rcases Keyed.mem_keys_put.mp hfield with heq | hkept
    · exact of_decide_eq_true hne heq
    · exact h.apart name hold hkept
  valid name hname := by
    rcases hname with hfield | hrelation
    · rcases Keyed.mem_keys_put.mp hfield with heq | hkept
      · exact heq ▸ hvalid
      · exact h.valid name (.inl hkept)
    · change name ∈ (members.relations.erase field.name).keys at hrelation
      rw [Keyed.keys_erase] at hrelation
      exact h.valid name (.inr (List.mem_filter.mp hrelation).1)
  templates relation hmem := h.templates relation (Keyed.mem_values_erase hmem)

theorem Sound.declareRelation {members : Members} (h : members.Sound) (relation : RelationDef)
    (hvalid : Naming.isValid relation.name) (htemplate : relation.Unreserved) :
    (members.declareRelation relation).Sound where
  fields := h.fields.erase relation.name
  relations := h.relations.put rfl
  apart name hrelation hfield := by
    change name ∈ (members.fields.erase relation.name).keys at hfield
    rw [Keyed.keys_erase] at hfield
    obtain ⟨hold, hne⟩ := List.mem_filter.mp hfield
    rcases Keyed.mem_keys_put.mp hrelation with heq | hkept
    · exact of_decide_eq_true hne heq
    · exact h.apart name hkept hold
  valid name hname := by
    rcases hname with hfield | hrelation
    · change name ∈ (members.fields.erase relation.name).keys at hfield
      rw [Keyed.keys_erase] at hfield
      exact h.valid name (.inl (List.mem_filter.mp hfield).1)
    · rcases Keyed.mem_keys_put.mp hrelation with heq | hkept
      · exact heq ▸ hvalid
      · exact h.valid name (.inr hkept)
  templates other hmem := by
    rcases Keyed.mem_values_put hmem with rfl | hkept
    · exact htemplate
    · exact h.templates other hkept

theorem Sound.declareMethod {members : Members} (h : members.Sound) (method : MethodDef) :
    (members.declareMethod method).Sound := ⟨h.fields, h.relations, h.apart, h.valid, h.templates⟩

/-- What makes the names valid that a model gives to itself and to its members. -/
structure ValidNames (model : ModelDef) : Prop where
  name : Naming.isValid model.name
  fields : ∀ field ∈ model.fields, Naming.isValid field.name
  relations : ∀ relation ∈ model.relations, Naming.isValid relation.name
  templates : ∀ relation ∈ model.relations, relation.Unreserved

theorem Sound.declare {members : Members} (h : members.Sound) {model : ModelDef}
    (hvalid : ValidNames model) : (members.declare model).Sound := by
  have hfields := List.foldlRecOn model.fields Members.declareField h
    fun _ hsound field hfield => Sound.declareField hsound field (hvalid.fields field hfield)
  have hrelations := List.foldlRecOn model.relations Members.declareRelation hfields
    fun _ hsound relation hrelation =>
      Sound.declareRelation hsound relation (hvalid.relations relation hrelation)
        (hvalid.templates relation hrelation)
  exact List.foldlRecOn model.methods Members.declareMethod hrelations
    fun _ hsound method _ => Sound.declareMethod hsound method

/-! ### All models -/

/-- All members that are settled so far are sound. -/
def Settled.Sound (settled : Settled) : Prop :=
  ∀ name members, settled.get? name = some (.ok members) → Members.Sound members

variable {known : List ModelDef} {settled : Settled} {model : ModelDef}

theorem valid_of_ownIssue? (h : model.ownIssue? = none) : ValidNames model := by
  unfold ModelDef.ownIssue? at h
  split at h
  · cases h
  · rename_i hvalid
    have hgiven : ∀ name ∈ model.givenNames, Naming.isValid name := by
      intro name hname
      simpa using List.find?_eq_none.mp hvalid name hname
    simp only [ModelDef.givenNames, List.mem_append, List.mem_map, List.mem_filterMap] at hgiven
    refine ⟨?_, ?_, ?_, ?_⟩
    · exact hgiven _ (.inl (.inl (.inl (.inl (List.mem_singleton.mpr rfl)))))
    · exact fun field hfield => hgiven _ (.inl (.inl (.inr ⟨field, hfield, rfl⟩)))
    · exact fun relation hrelation => hgiven _ (.inl (.inr ⟨relation, hrelation, rfl⟩))
    · intro relation hrelation template htemplate
      have hexpanded : Naming.isValid (RelationDef.expand template model.name) := by
        refine hgiven _ (.inr ⟨relation, hrelation, ?_⟩)
        rw [htemplate]
        rfl
      exact RelationDef.unreserved_template hexpanded

theorem sound_of_ofBases (hsettled : Settled.Sound settled) (hvalid : ValidNames model)
    {bases : List String}
    {inherited members : Members} (hinherited : inherited.Sound)
    (h : Standing.ofBases known settled model bases inherited = .settled (.ok members)) :
    members.Sound := by
  induction bases generalizing inherited with
  | nil =>
      injection h with h
      rw [← Except.ok.inj h]
      exact hinherited.declare hvalid
  | cons base bases ih =>
      unfold Standing.ofBases at h
      split at h
      · rename_i found hfound
        exact ih (hinherited.inherit (hsettled base found hfound)) h
      · cases h
      · split at h <;> cases h

theorem sound_of_ofModel (hsettled : Settled.Sound settled) {members : Members}
    (h : Standing.ofModel known settled model = .settled (.ok members)) :
    ValidNames model ∧ members.Sound := by
  unfold Standing.ofModel at h
  split at h
  · cases h
  · rename_i hissue
    have hvalid := valid_of_ownIssue? hissue
    exact ⟨hvalid, sound_of_ofBases hsettled hvalid sound_empty h⟩

theorem sound_settleNext {state : Settled × List ModelDef} (h : Settled.Sound state.1)
    (model : ModelDef) : Settled.Sound (settleNext known state model).1 := by
  unfold settleNext
  split
  · rename_i standing hstanding
    intro name members hfound
    rw [Keyed.get?_put] at hfound
    split at hfound
    · rw [Option.some.inj hfound] at hstanding
      exact (sound_of_ofModel h hstanding).2
    · exact h name members hfound
  · exact h

theorem sound_settle (known : List ModelDef) (settled : Settled) (waiting : List ModelDef)
    (h : Settled.Sound settled) : Settled.Sound (settle known settled waiting) := by
  fun_induction settle known settled waiting with
  | case1 settled waiting state _ ih =>
      exact ih (List.foldlRecOn waiting (settleNext known)
        (motive := fun state : Settled × List ModelDef => Settled.Sound state.1) h
        fun _ hstate model _ => sound_settleNext hstate model)
  | case2 settled waiting state _ => exact h

/-- Every model that can be built gives valid names, and its members are sound. -/
theorem sound_of_ofModels {models : List ModelDef} {model : ModelDef} {members : Members}
    (h : (model, .ok members) ∈ ofModels models) : ValidNames model ∧ members.Sound := by
  obtain ⟨found, -, heq⟩ := List.mem_map.mp h
  have hmodel : found = model := congrArg Prod.fst heq
  have hempty : Settled.Sound .empty := fun _ _ hfound => by cases hfound
  have hsettled := sound_settle models .empty models hempty
  have hmembers := congrArg Prod.snd heq
  change ofSettled models _ found = .ok members at hmembers
  unfold ofSettled at hmembers
  split at hmembers
  · rename_i standing hstanding
    rw [hmembers, hmodel] at hstanding
    exact sound_of_ofModel hsettled hstanding
  · cases hmembers

end Members

end ModelSurface
