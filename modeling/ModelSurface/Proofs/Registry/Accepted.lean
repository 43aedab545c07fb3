import ModelSurface.Proofs.Json.Accepted
import ModelSurface.Registry.Reader

/-!
# Registries that are read

However a registry is spelled, its page sizes are machine numbers, and no default in it is an
explicit null or nested more deeply than the limit allows behind the five brackets around it.
-/

namespace ModelSurface

open Json

/-- Numbers that a machine word holds. -/
structure Options.Writable (options : Options) : Prop where
  relationFilterDepth : options.relationFilterDepth < 2 ^ 64
  defaultPageSize : options.defaultPageSize < 2 ^ 64
  maxPageSize : options.maxPageSize < 2 ^ 64

/-- A default is no explicit null, and not nested too deeply. -/
structure FieldDef.Writable (depth : ℕ) (field : FieldDef) : Prop where
  default_ne_null : field.default ≠ some .null
  default_fits : ∀ json ∈ field.default, json.Fits depth

def ModelDef.Writable (depth : ℕ) (model : ModelDef) : Prop :=
  ∀ field ∈ model.fields, field.Writable depth

/-- The room for a default: its field, the fields, the model, the models and the registry stand
around it. -/
def Registry.defaultDepth : ℕ := depthLimit - 5

/-- A registry that a document can hold. -/
structure Registry.Writable (registry : Registry) : Prop where
  options : registry.options.Writable
  models : ∀ model ∈ registry.models, model.Writable defaultDepth

/-! ### Words -/

theorem Kind.reads (n : ℕ) : Reads n Kind.decode fun _ => True := Choice.reads_plain _ _ n

theorem Returns.reads (n : ℕ) : Reads n Returns.decode fun _ => True := by
  refine Choice.reads (fun _ _ _ => trivial) (fun name read hread n => ?_) n
  dsimp only at hread
  split at hread
  · cases hread
  · split at hread
    · cases hread
    · split at hread
      · obtain rfl := Sum.inr.inj (Option.some.inj hread)
        exact (Kind.reads n).map fun _ _ => trivial
      · cases hread

/-! ### Structures -/

theorem Options.reads (n : ℕ) : Reads (n + 1) shape.decode Writable := by
  refine Shape.reads ⟨by decide, by decide, by decide⟩ ?_
  simp only [shape, List.forall_mem_cons]
  refine ⟨fun o ho => ?_, fun o ho => ?_, fun o ho => ?_, List.forall_mem_nil _⟩
  · exact (Reads.natural n).set fun k hk => ⟨hk, ho.2, ho.3⟩
  · exact (Reads.natural n).set fun k hk => ⟨ho.1, hk, ho.3⟩
  · exact (Reads.natural n).set fun k hk => ⟨ho.1, ho.2, hk⟩

theorem Computed.reads (n : ℕ) : Reads (n + 1) shape.decode fun _ => True := by
  refine Shape.reads trivial ?_
  simp only [shape, List.forall_mem_cons]
  refine ⟨fun c _ => ?_, fun c _ => ?_, List.forall_mem_nil _⟩
  · exact (Choice.reads_plain _ _ n).set fun _ _ => trivial
  · exact (Choice.reads_plain _ _ n).set fun _ _ => trivial

theorem FieldDef.reads (n : ℕ) : Reads (n + 1) shape.decode (Writable n) := by
  have hcomputed : Reads n Computed.shape.decode fun _ => True :=
    (Computed.reads n).mono (Nat.le_succ n)
  refine Shape.reads ⟨nofun, nofun⟩ ?_
  simp only [shape, List.forall_mem_cons]
  refine ⟨fun f hf => ?_, fun f hf => ?_, fun f hf => ?_, fun f hf => ?_, fun f hf => ?_,
    fun f hf => ?_, fun f hf => ?_, fun f hf => ?_, List.forall_mem_nil _⟩
  · exact (Reads.string n).set fun _ _ => ⟨hf.1, hf.2⟩
  · exact (Kind.reads n).set fun _ _ => ⟨hf.1, hf.2⟩
  · exact (Reads.boolean n).set fun _ _ => ⟨hf.1, hf.2⟩
  · exact (Reads.jsonOrNull n).set fun _ hdefault => ⟨hdefault.1, hdefault.2⟩
  · exact hcomputed.nullable.set fun _ _ => ⟨hf.1, hf.2⟩
  · exact (Reads.boolean n).set fun _ _ => ⟨hf.1, hf.2⟩
  · exact (Reads.boolean n).set fun _ _ => ⟨hf.1, hf.2⟩
  · exact (Reads.string n).nullable.set fun _ _ => ⟨hf.1, hf.2⟩

theorem RelationDef.reads (n : ℕ) : Reads (n + 1) shape.decode fun _ => True := by
  refine Shape.reads trivial ?_
  simp only [shape, List.forall_mem_cons]
  refine ⟨fun r _ => ?_, fun r _ => ?_, fun r _ => ?_, fun r _ => ?_, fun r _ => ?_,
    fun r _ => ?_, fun r _ => ?_, List.forall_mem_nil _⟩
  · exact (Reads.string n).set fun _ _ => trivial
  · exact (Reads.string n).set fun _ _ => trivial
  · exact (Choice.reads_plain _ _ n).set fun _ _ => trivial
  · exact (Reads.boolean n).set fun _ _ => trivial
  · exact (Choice.reads_plain _ _ n).set fun _ _ => trivial
  · exact (Reads.string n).nullable.set fun _ _ => trivial
  · exact (Reads.string n).nullable.set fun _ _ => trivial

theorem ParamDef.reads (n : ℕ) : Reads (n + 1) shape.decode fun _ => True := by
  refine Shape.reads trivial ?_
  simp only [shape, List.forall_mem_cons]
  refine ⟨fun p _ => ?_, fun p _ => ?_, fun p _ => ?_, fun p _ => ?_, fun p _ => ?_,
    List.forall_mem_nil _⟩
  · exact (Reads.string n).set fun _ _ => trivial
  · exact (Kind.reads n).nullable.set fun _ _ => trivial
  · exact (Reads.boolean n).set fun _ _ => trivial
  · exact (Reads.boolean n).set fun _ _ => trivial
  · exact (Reads.boolean n).set fun _ _ => trivial

theorem MethodDef.reads (n : ℕ) : Reads (n + 1) shape.decode fun _ => True := by
  have hparams : Reads n _ _ := (ParamDef.reads n).list.mono (Nat.le_add_right n 2)
  refine Shape.reads trivial ?_
  simp only [shape, List.forall_mem_cons]
  refine ⟨fun m _ => ?_, fun m _ => ?_, fun m _ => ?_, fun m _ => ?_, fun m _ => ?_,
    fun m _ => ?_, List.forall_mem_nil _⟩
  · exact (Reads.string n).set fun _ _ => trivial
  · exact (Reads.boolean n).set fun _ _ => trivial
  · exact (Reads.string n).nullable.set fun _ _ => trivial
  · exact hparams.set fun _ _ => trivial
  · exact (Returns.reads n).set fun _ _ => trivial
  · exact (Reads.string n).nullable.set fun _ _ => trivial

theorem ModelDef.reads (n : ℕ) : Reads (n + 3) shape.decode (Writable n) := by
  have hbases : Reads (n + 2) _ _ := (Reads.string (n + 1)).list
  have hfields : Reads (n + 2) _ _ := (FieldDef.reads n).list
  have hrelations : Reads (n + 2) _ _ := (RelationDef.reads n).list
  have hmethods : Reads (n + 2) _ _ := (MethodDef.reads n).list
  refine Shape.reads (List.forall_mem_nil _) ?_
  simp only [shape, List.forall_mem_cons]
  refine ⟨fun m hm => ?_, fun m hm => ?_, fun m hm => ?_, fun m hm => ?_, fun m hm => ?_,
    fun m hm => ?_, fun m hm => ?_, fun m hm => ?_, List.forall_mem_nil _⟩
  · exact (Reads.string _).set fun _ _ => hm
  · exact (Reads.boolean _).set fun _ _ => hm
  · exact hbases.set fun _ _ => hm
  · exact (Reads.string _).nullable.set fun _ _ => hm
  · exact hfields.set fun _ hall => hall
  · exact hrelations.set fun _ _ => hm
  · exact hmethods.set fun _ _ => hm
  · exact (Reads.string _).nullable.set fun _ _ => hm

theorem Registry.reads : Reads depthLimit shape.decode Writable := by
  have hoptions : Reads 126 _ _ := (Options.reads 126).mono (Nat.le_succ 126)
  have hmodels : Reads 126 _ _ := (ModelDef.reads defaultDepth).list
  refine Shape.reads ⟨⟨by decide, by decide, by decide⟩, List.forall_mem_nil _⟩ ?_
  simp only [shape, List.forall_mem_cons]
  refine ⟨fun r hr => ?_, fun r hr => ?_, List.forall_mem_nil _⟩
  · exact hoptions.set fun _ ho => ⟨ho, hr.models⟩
  · exact hmodels.set fun _ hall => ⟨hr.options, hall⟩

/-! ### Texts -/

theorem Registry.ofText_eq_ok {text : String} {registry : Registry} :
    ofText text = .ok registry ↔ shape.decode (Document.ofText text).1 = .ok registry ∧
      (Document.ofText text).2 = false := by
  change (shape.decode (Document.ofText text).1 >>= fun value =>
    if (Document.ofText text).2 then .error (.form .malformed) else .ok value) = _ ↔ _
  rw [except_bind_eq_ok]
  cases (Document.ofText text).2 <;> simp

/-- A text from which a registry is read is a whole document, and the registry can be written. -/
theorem Registry.writable_of_ofText {text : String} {registry : Registry}
    (h : ofText text = .ok registry) : (Document.ofText text).1.Whole ∧ registry.Writable :=
  reads _ _ (Document.fits_ofText text) (ofText_eq_ok.mp h).1

end ModelSurface
