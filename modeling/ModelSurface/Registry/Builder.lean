import ModelSurface.Registry.Definition

/-!
Definitions put together in code, one part at a time.
-/

namespace ModelSurface

namespace FieldDef

/-- A single value that must not be null. -/
def new (name : String) (kind : Kind) : FieldDef := { name := name, kind := kind }

def orNull (field : FieldDef) : FieldDef := { field with nullable := true }

def withDefault (field : FieldDef) (value : Json) : FieldDef := { field with default := some value }

def computedBy (field : FieldDef) (moment : Moment) (generator : Generator) : FieldDef :=
  { field with computed := some { moment := moment, generator := generator } }

def asIdentity (field : FieldDef) : FieldDef := { field with identity := true }

def asList (field : FieldDef) : FieldDef := { field with list := true }

def withHelp (field : FieldDef) (help : String) : FieldDef := { field with help := some help }

end FieldDef

namespace RelationDef

/-- A relation that must not be null and whose target is not deleted under it. -/
def new (name : String) (kind : RelationKind) (target : String) : RelationDef :=
  { name := name, target := target, kind := kind }

def orNull (relation : RelationDef) : RelationDef := { relation with nullable := true }

def withPolicy (relation : RelationDef) (policy : DeletePolicy) : RelationDef :=
  { relation with onDelete := policy }

def withRelatedName (relation : RelationDef) (name : String) : RelationDef :=
  { relation with relatedName := some name }

end RelationDef

namespace ParamDef

def new (name : String) (kind : Kind) : ParamDef := { name := name, kind := some kind }

def orAbsent (param : ParamDef) : ParamDef := { param with required := false }

end ParamDef

namespace MethodDef

/-- An exposed method without parameters that gives nothing back. -/
def new (name : String) : MethodDef := { name := name, exposed := true }

def withParam (method : MethodDef) (param : ParamDef) : MethodDef :=
  { method with params := method.params ++ [param] }

def giving (method : MethodDef) (returns : Returns) : MethodDef :=
  { method with returns := returns }

end MethodDef

namespace ModelDef

def new (name : String) : ModelDef := { name := name }

def asAbstract (model : ModelDef) : ModelDef := { model with isAbstract := true }

def withBase (model : ModelDef) (base : String) : ModelDef :=
  { model with bases := model.bases ++ [base] }

def withField (model : ModelDef) (field : FieldDef) : ModelDef :=
  { model with fields := model.fields ++ [field] }

def withRelation (model : ModelDef) (relation : RelationDef) : ModelDef :=
  { model with relations := model.relations ++ [relation] }

def withMethod (model : ModelDef) (method : MethodDef) : ModelDef :=
  { model with methods := model.methods ++ [method] }

end ModelDef

end ModelSurface
