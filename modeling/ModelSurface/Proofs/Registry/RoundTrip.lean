import ModelSurface.Proofs.Json.Recovered
import ModelSurface.Proofs.Registry.Accepted
import ModelSurface.Registry.Writer

/-!
# Registries that are written and read back

A registry that a document can hold is read back from its text as it was. Of each definition all
fields are written but those that are absent, which reading leaves at their default, and all words
are written as they are read.
-/

namespace ModelSurface

open Json

variable {n : ℕ}

/-! ### Words -/

theorem Kind.ofName?_name (kind : Kind) : ofName? kind.name = some kind := by
  cases kind <;> decide

theorem Kind.recovers (kind : Kind) (n : ℕ) : Recovers n Kind.decode (.str kind.name) kind :=
  .plain kind.ofName?_name n

theorem Moment.recovers (moment : Moment) (n : ℕ) :
    Recovers n Moment.decode (.str moment.name) moment :=
  .plain (by cases moment <;> decide) n

theorem Generator.recovers (generator : Generator) (n : ℕ) :
    Recovers n Generator.decode (.str generator.name) generator :=
  .plain (by cases generator <;> decide) n

theorem RelationKind.recovers (kind : RelationKind) (n : ℕ) :
    Recovers n RelationKind.decode (.str kind.name) kind :=
  .plain (by cases kind <;> decide) n

theorem DeletePolicy.recovers (policy : DeletePolicy) (n : ℕ) :
    Recovers n DeletePolicy.decode (.str policy.name) policy :=
  .plain (by cases policy <;> decide) n

theorem Returns.recovers (returns : Returns) (n : ℕ) :
    Recovers (n + 1) Returns.decode returns.toJson returns := by
  cases returns with
  | nothing => exact ⟨⟨rfl, Nat.zero_le _⟩, by decide⟩
  | structured => exact ⟨⟨rfl, Nat.zero_le _⟩, by decide⟩
  | scalar kind =>
      refine ⟨fits_object (List.forall_mem_singleton.mpr (kind.recovers n).fits), ?_⟩
      cases kind <;> decide

/-! ### Structures -/

def Options.slots (o : Options) : List (Slot Options) :=
  [⟨"relation_filter_depth", some (.ofNat o.relationFilterDepth),
      fun p => { p with relationFilterDepth := o.relationFilterDepth }⟩,
    ⟨"default_page_size", some (.ofNat o.defaultPageSize),
      fun p => { p with defaultPageSize := o.defaultPageSize }⟩,
    ⟨"max_page_size", some (.ofNat o.maxPageSize),
      fun p => { p with maxPageSize := o.maxPageSize }⟩]

theorem Options.recovers {o : Options} (h : o.Writable) (n : ℕ) :
    Recovers (n + 1) shape.decode o.toJson o := by
  have hslots : o.slots.Forall₂ (Slot.ReadBy n) shape.fields := by
    refine .cons ?_ (.cons ?_ (.cons ?_ .nil))
    · exact .of_set rfl (fun _ _ => rfl) (fun _ => rfl)
        (Recovers.natural n h.relationFilterDepth).written (.inl rfl)
    · exact .of_set rfl (fun _ _ => rfl) (fun _ => rfl)
        (Recovers.natural n h.defaultPageSize).written (.inl rfl)
    · exact .of_set rfl (fun _ _ => rfl) (fun _ => rfl)
        (Recovers.natural n h.maxPageSize).written (.inl rfl)
  exact Shape.recovers (by decide) hslots (by simp [slots, Slot.Apart]) rfl

def Computed.slots (c : Computed) : List (Slot Computed) :=
  [⟨"on", some (.str c.moment.name), fun p => { p with moment := c.moment }⟩,
    ⟨"value", some (.str c.generator.name), fun p => { p with generator := c.generator }⟩]

theorem Computed.recovers (c : Computed) (n : ℕ) :
    Recovers (n + 1) shape.decode c.toJson c := by
  have hslots : c.slots.Forall₂ (Slot.ReadBy n) shape.fields := by
    refine .cons ?_ (.cons ?_ .nil)
    · exact .of_set rfl (fun _ _ => rfl) (fun _ => rfl) (c.moment.recovers n).written (.inl rfl)
    · exact .of_set rfl (fun _ _ => rfl) (fun _ => rfl) (c.generator.recovers n).written
        (.inr rfl)
  exact Shape.recovers (by decide) hslots (by simp [slots, Slot.Apart]) rfl

def FieldDef.slots (f : FieldDef) : List (Slot FieldDef) :=
  [⟨"name", some (.str f.name), fun p => { p with name := f.name }⟩,
    ⟨"kind", some (.str f.kind.name), fun p => { p with kind := f.kind }⟩,
    ⟨"nullable", some (.bool f.nullable), fun p => { p with nullable := f.nullable }⟩,
    ⟨"default", f.default, fun p => { p with default := f.default }⟩,
    ⟨"computed", f.computed.map Computed.toJson, fun p => { p with computed := f.computed }⟩,
    ⟨"identity", some (.bool f.identity), fun p => { p with identity := f.identity }⟩,
    ⟨"list", some (.bool f.list), fun p => { p with list := f.list }⟩,
    ⟨"help", f.help.map .str, fun p => { p with help := f.help }⟩]

theorem FieldDef.recovers {f : FieldDef} (h : f.Writable (n + 1)) :
    Recovers (n + 2) shape.decode f.toJson f := by
  have hdefault : ∀ json ∈ f.default, Recovers (n + 1) Document.jsonOrNull json f.default := by
    intro json hjson
    have hnull : json ≠ .null := fun hnull => h.default_ne_null (hnull ▸ hjson)
    exact Option.mem_def.mp hjson ▸ Recovers.jsonOrNull (h.default_fits json hjson) hnull
  have hcomputed : ∀ json ∈ f.computed.map Computed.toJson,
      Recovers (n + 1) (Document.nullable Computed.shape.decode) json f.computed :=
    Recovers.written_map (fun c _ => c.recovers n) fun _ h => by cases h
  have hslots : f.slots.Forall₂ (Slot.ReadBy (n + 1)) shape.fields := by
    refine .cons ?_ (.cons ?_ (.cons ?_ (.cons ?_ (.cons ?_ (.cons ?_ (.cons ?_
      (.cons ?_ .nil)))))))
    · exact .of_set rfl (fun _ _ => rfl) (fun _ => rfl) (Recovers.string _ f.name).written
        (.inr rfl)
    · exact .of_set rfl (fun _ _ => rfl) (fun _ => rfl) (f.kind.recovers _).written (.inr rfl)
    · exact .of_set rfl (fun _ _ => rfl) (fun _ => rfl) (Recovers.boolean _ f.nullable).written
        (.inl rfl)
    · exact .of_set rfl (fun _ _ => rfl) (fun _ => rfl) hdefault (.inl rfl)
    · exact .of_set rfl (fun _ _ => rfl) (fun _ => rfl) hcomputed (.inl rfl)
    · exact .of_set rfl (fun _ _ => rfl) (fun _ => rfl) (Recovers.boolean _ f.identity).written
        (.inl rfl)
    · exact .of_set rfl (fun _ _ => rfl) (fun _ => rfl) (Recovers.boolean _ f.list).written (.inl rfl)
    · exact .of_set rfl (fun _ _ => rfl) (fun _ => rfl) (.string? f.help _) (.inl rfl)
  have hwritten : f.toJson = .object (Slot.members f.slots) ∧
      Slot.putAll f.slots shape.default = f := by
    obtain ⟨name, kind, nullable, default, computed, identity, list, help⟩ := f
    cases default <;> cases computed <;> cases help <;> exact ⟨rfl, rfl⟩
  rw [hwritten.1]
  exact Shape.recovers (by decide) hslots (by simp [slots, Slot.Apart]) hwritten.2

def RelationDef.slots (r : RelationDef) : List (Slot RelationDef) :=
  [⟨"name", some (.str r.name), fun p => { p with name := r.name }⟩,
    ⟨"target", some (.str r.target), fun p => { p with target := r.target }⟩,
    ⟨"kind", some (.str r.kind.name), fun p => { p with kind := r.kind }⟩,
    ⟨"nullable", some (.bool r.nullable), fun p => { p with nullable := r.nullable }⟩,
    ⟨"on_delete", some (.str r.onDelete.name), fun p => { p with onDelete := r.onDelete }⟩,
    ⟨"related_name", r.relatedName.map .str, fun p => { p with relatedName := r.relatedName }⟩,
    ⟨"help", r.help.map .str, fun p => { p with help := r.help }⟩]

theorem RelationDef.recovers (r : RelationDef) (n : ℕ) :
    Recovers (n + 1) shape.decode r.toJson r := by
  have hslots : r.slots.Forall₂ (Slot.ReadBy n) shape.fields := by
    refine .cons ?_ (.cons ?_ (.cons ?_ (.cons ?_ (.cons ?_ (.cons ?_ (.cons ?_ .nil))))))
    · exact .of_set rfl (fun _ _ => rfl) (fun _ => rfl) (Recovers.string n r.name).written
        (.inr rfl)
    · exact .of_set rfl (fun _ _ => rfl) (fun _ => rfl) (Recovers.string n r.target).written
        (.inr rfl)
    · exact .of_set rfl (fun _ _ => rfl) (fun _ => rfl) (r.kind.recovers n).written (.inr rfl)
    · exact .of_set rfl (fun _ _ => rfl) (fun _ => rfl) (Recovers.boolean n r.nullable).written
        (.inl rfl)
    · exact .of_set rfl (fun _ _ => rfl) (fun _ => rfl) (r.onDelete.recovers n).written (.inl rfl)
    · exact .of_set rfl (fun _ _ => rfl) (fun _ => rfl) (.string? r.relatedName _) (.inl rfl)
    · exact .of_set rfl (fun _ _ => rfl) (fun _ => rfl) (.string? r.help _) (.inl rfl)
  have hwritten : r.toJson = .object (Slot.members r.slots) ∧
      Slot.putAll r.slots shape.default = r := by
    obtain ⟨name, target, kind, nullable, onDelete, relatedName, help⟩ := r
    cases relatedName <;> cases help <;> exact ⟨rfl, rfl⟩
  rw [hwritten.1]
  exact Shape.recovers (by decide) hslots (by simp [slots, Slot.Apart]) hwritten.2

def ParamDef.slots (p : ParamDef) : List (Slot ParamDef) :=
  [⟨"name", some (.str p.name), fun q => { q with name := p.name }⟩,
    ⟨"kind", p.kind.map fun kind => .str kind.name, fun q => { q with kind := p.kind }⟩,
    ⟨"list", some (.bool p.list), fun q => { q with list := p.list }⟩,
    ⟨"required", some (.bool p.required), fun q => { q with required := p.required }⟩,
    ⟨"variadic", some (.bool p.variadic), fun q => { q with variadic := p.variadic }⟩]

theorem ParamDef.recovers (p : ParamDef) (n : ℕ) : Recovers (n + 1) shape.decode p.toJson p := by
  have hkind : ∀ json ∈ p.kind.map fun kind => Json.str kind.name,
      Recovers n (Document.nullable Kind.decode) json p.kind :=
    Recovers.written_map (fun kind _ => kind.recovers n) fun _ h => by cases h
  have hslots : p.slots.Forall₂ (Slot.ReadBy n) shape.fields := by
    refine .cons ?_ (.cons ?_ (.cons ?_ (.cons ?_ (.cons ?_ .nil))))
    · exact .of_set rfl (fun _ _ => rfl) (fun _ => rfl) (Recovers.string n p.name).written
        (.inr rfl)
    · exact .of_set rfl (fun _ _ => rfl) (fun _ => rfl) hkind (.inl rfl)
    · exact .of_set rfl (fun _ _ => rfl) (fun _ => rfl) (Recovers.boolean n p.list).written (.inl rfl)
    · exact .of_set rfl (fun _ _ => rfl) (fun _ => rfl) (Recovers.boolean n p.required).written
        (.inl rfl)
    · exact .of_set rfl (fun _ _ => rfl) (fun _ => rfl) (Recovers.boolean n p.variadic).written
        (.inl rfl)
  have hwritten : p.toJson = .object (Slot.members p.slots) ∧
      Slot.putAll p.slots shape.default = p := by
    obtain ⟨name, kind, list, required, variadic⟩ := p
    cases kind <;> exact ⟨rfl, rfl⟩
  rw [hwritten.1]
  exact Shape.recovers (by decide) hslots (by simp [slots, Slot.Apart]) hwritten.2

def MethodDef.slots (m : MethodDef) : List (Slot MethodDef) :=
  [⟨"name", some (.str m.name), fun p => { p with name := m.name }⟩,
    ⟨"exposed", some (.bool m.exposed), fun p => { p with exposed := m.exposed }⟩,
    ⟨"operation", m.operation.map .str, fun p => { p with operation := m.operation }⟩,
    ⟨"params", some (.arr (m.params.map ParamDef.toJson)), fun p => { p with params := m.params }⟩,
    ⟨"returns", some m.returns.toJson, fun p => { p with returns := m.returns }⟩,
    ⟨"help", m.help.map .str, fun p => { p with help := m.help }⟩]

theorem MethodDef.recovers (m : MethodDef) (n : ℕ) :
    Recovers (n + 3) shape.decode m.toJson m := by
  have hparams : Recovers (n + 2) _ _ m.params := .list fun p _ => p.recovers n
  have hslots : m.slots.Forall₂ (Slot.ReadBy (n + 2)) shape.fields := by
    refine .cons ?_ (.cons ?_ (.cons ?_ (.cons ?_ (.cons ?_ (.cons ?_ .nil)))))
    · exact .of_set rfl (fun _ _ => rfl) (fun _ => rfl) (Recovers.string _ m.name).written
        (.inr rfl)
    · exact .of_set rfl (fun _ _ => rfl) (fun _ => rfl) (Recovers.boolean _ m.exposed).written (.inl rfl)
    · exact .of_set rfl (fun _ _ => rfl) (fun _ => rfl) (.string? m.operation _) (.inl rfl)
    · exact .of_set rfl (fun _ _ => rfl) (fun _ => rfl) hparams.written (.inl rfl)
    · exact .of_set rfl (fun _ _ => rfl) (fun _ => rfl) (m.returns.recovers _).written (.inl rfl)
    · exact .of_set rfl (fun _ _ => rfl) (fun _ => rfl) (.string? m.help _) (.inl rfl)
  have hwritten : m.toJson = .object (Slot.members m.slots) ∧
      Slot.putAll m.slots shape.default = m := by
    obtain ⟨name, exposed, operation, params, returns, help⟩ := m
    cases operation <;> cases help <;> exact ⟨rfl, rfl⟩
  rw [hwritten.1]
  exact Shape.recovers (by decide) hslots (by simp [slots, Slot.Apart]) hwritten.2

def ModelDef.slots (m : ModelDef) : List (Slot ModelDef) :=
  [⟨"name", some (.str m.name), fun p => { p with name := m.name }⟩,
    ⟨"abstract", some (.bool m.isAbstract), fun p => { p with isAbstract := m.isAbstract }⟩,
    ⟨"bases", some (.strings m.bases), fun p => { p with bases := m.bases }⟩,
    ⟨"plural", m.plural.map .str, fun p => { p with plural := m.plural }⟩,
    ⟨"fields", some (.arr (m.fields.map FieldDef.toJson)), fun p => { p with fields := m.fields }⟩,
    ⟨"relations", some (.arr (m.relations.map RelationDef.toJson)),
      fun p => { p with relations := m.relations }⟩,
    ⟨"methods", some (.arr (m.methods.map MethodDef.toJson)),
      fun p => { p with methods := m.methods }⟩,
    ⟨"help", m.help.map .str, fun p => { p with help := m.help }⟩]

theorem ModelDef.recovers {m : ModelDef} (h : m.Writable (n + 2)) :
    Recovers (n + 5) shape.decode m.toJson m := by
  have hbases : Recovers (n + 4) _ _ m.bases := .list fun s _ => .string (n + 3) s
  have hfields : Recovers (n + 4) _ _ m.fields := .list fun f hf => FieldDef.recovers (h f hf)
  have hrelations : Recovers (n + 4) _ _ m.relations := .list fun r _ => r.recovers (n + 2)
  have hmethods : Recovers (n + 4) _ _ m.methods := .list fun d _ => d.recovers n
  have hslots : m.slots.Forall₂ (Slot.ReadBy (n + 4)) shape.fields := by
    refine .cons ?_ (.cons ?_ (.cons ?_ (.cons ?_ (.cons ?_ (.cons ?_ (.cons ?_
      (.cons ?_ .nil)))))))
    · exact .of_set rfl (fun _ _ => rfl) (fun _ => rfl) (Recovers.string _ m.name).written
        (.inr rfl)
    · exact .of_set rfl (fun _ _ => rfl) (fun _ => rfl) (Recovers.boolean _ m.isAbstract).written
        (.inl rfl)
    · exact .of_set rfl (fun _ _ => rfl) (fun _ => rfl) hbases.written (.inl rfl)
    · exact .of_set rfl (fun _ _ => rfl) (fun _ => rfl) (.string? m.plural _) (.inl rfl)
    · exact .of_set rfl (fun _ _ => rfl) (fun _ => rfl) hfields.written (.inl rfl)
    · exact .of_set rfl (fun _ _ => rfl) (fun _ => rfl) hrelations.written (.inl rfl)
    · exact .of_set rfl (fun _ _ => rfl) (fun _ => rfl) hmethods.written (.inl rfl)
    · exact .of_set rfl (fun _ _ => rfl) (fun _ => rfl) (.string? m.help _) (.inl rfl)
  have hwritten : m.toJson = .object (Slot.members m.slots) ∧
      Slot.putAll m.slots shape.default = m := by
    obtain ⟨name, isAbstract, bases, plural, fields, relations, methods, help⟩ := m
    cases plural <;> cases help <;> exact ⟨rfl, rfl⟩
  rw [hwritten.1]
  exact Shape.recovers (by decide) hslots (by simp [slots, Slot.Apart]) hwritten.2

def Registry.slots (r : Registry) : List (Slot Registry) :=
  [⟨"options", some r.options.toJson, fun p => { p with options := r.options }⟩,
    ⟨"models", some (.arr (r.models.map ModelDef.toJson)), fun p => { p with models := r.models }⟩]

theorem Registry.recovers {r : Registry} (h : r.Writable) :
    Recovers depthLimit shape.decode r.toJson r := by
  have hmodels : Recovers 126 _ _ r.models :=
    .list fun m hm => ModelDef.recovers (h.models m hm)
  have hslots : r.slots.Forall₂ (Slot.ReadBy 126) shape.fields := by
    refine .cons ?_ (.cons ?_ .nil)
    · exact .of_set rfl (fun _ _ => rfl) (fun _ => rfl) (Options.recovers h.options 125).written
        (.inl rfl)
    · exact .of_set rfl (fun _ _ => rfl) (fun _ => rfl) hmodels.written (.inl rfl)
  exact Shape.recovers (by decide) hslots (by simp [slots, Slot.Apart]) rfl

/-! ### Texts -/

end ModelSurface
