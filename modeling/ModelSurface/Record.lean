import ModelSurface.Keyed
import ModelSurface.Scalar.Identity

/-!
Records: the values of fields by name, in the order in which the fields were first set.
-/

namespace ModelSurface

abbrev Record := Keyed Value

namespace Record

def identity? (record : Record) (field : String) : Option Identity :=
  (record.get? field).bind Identity.ofValue?

def toJson (record : Record) : Json :=
  Json.object (record.entries.map fun field => (field.1, field.2.toJson))

end Record

end ModelSurface
