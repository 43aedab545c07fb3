import ModelSurface.Model.Members

/-!
The members of models over all models they inherit from. A model is settled once its bases are, up
to the first one that fails. The models are gone through until none is settled any more; those that
still wait for a base are on a cycle of bases or lead to one.
-/

namespace ModelSurface

namespace Members

/-- The members of a model with regard to the models that are settled so far. -/
inductive Standing where
  | settled (members : Except Issue Members)
  | waiting (base : String)
deriving Inhabited

/-- The settled models by their names, each with its members or with what is wrong. -/
abbrev Settled := Keyed (Except Issue Members)

namespace Standing

/-- Adds the members of the bases, in order, to those inherited so far, and then what the model
declares. A base that fails is as good as an unknown one. -/
def ofBases (known : List ModelDef) (settled : Settled) (model : ModelDef) :
    List String → Members → Standing
  | [], inherited => .settled (.ok (inherited.declare model))
  | base :: bases, inherited =>
    match settled.get? base with
    | some (.ok members) => ofBases known settled model bases (inherited.inherit members)
    | some (.error _) => .settled (.error (.unknownBase model.name base))
    | none =>
      if known.any fun m => m.name == base then .waiting base
      else .settled (.error (.unknownBase model.name base))

def ofModel (known : List ModelDef) (settled : Settled) (model : ModelDef) : Standing :=
  match model.ownIssue? with
  | some issue => .settled (.error issue)
  | none => ofBases known settled model model.bases {}

end Standing

/-- Settles a model if that is possible, or puts it before those that wait. -/
def settleNext (known : List ModelDef) (state : Settled × List ModelDef) (model : ModelDef) :
    Settled × List ModelDef :=
  match Standing.ofModel known state.1 model with
  | .settled members => (state.1.put model.name members, state.2)
  | .waiting _ => (state.1, model :: state.2)

/-- Goes through models once; those that still wait come out in the opposite order. -/
def settleEach (known : List ModelDef) (settled : Settled) (models : List ModelDef) :
    Settled × List ModelDef :=
  models.foldl (settleNext known) (settled, [])

def settle (known : List ModelDef) (settled : Settled) (waiting : List ModelDef) : Settled :=
  let state := settleEach known settled waiting
  if state.2.length < waiting.length then settle known state.1 state.2 else settled
termination_by waiting.length

def ofSettled (known : List ModelDef) (settled : Settled) (model : ModelDef) :
    Except Issue Members :=
  match Standing.ofModel known settled model with
  | .settled members => members
  | .waiting base => .error (.inheritanceCycle model.name base)

def ofModels (known : List ModelDef) : List (ModelDef × Except Issue Members) :=
  let settled := settle known .empty known
  known.map fun model => (model, ofSettled known settled model)

end Members

end ModelSurface
