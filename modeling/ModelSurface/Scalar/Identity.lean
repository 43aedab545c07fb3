import ModelSurface.Scalar.Coercion

/-!
Identities of stored records.
-/

namespace ModelSurface

inductive Identity where
  | int (value : Int)
  | uuid (value : Uuid)
deriving DecidableEq, Repr

namespace Identity

/-- Integers come before universally unique identifiers. -/
def compare : Identity → Identity → Ordering
  | .int a, .int b => Ord.compare a b
  | .int _, .uuid _ => .lt
  | .uuid _, .int _ => .gt
  | .uuid a, .uuid b => a.compare b

instance : Std.TransCmp compare where
  eq_swap {a b} := by
    match a, b with
    | .int a, .int b => exact (Std.OrientedOrd.eq_swap : Ord.compare a b = _)
    | .int _, .uuid _ => rfl
    | .uuid _, .int _ => rfl
    | .uuid a, .uuid b => exact (Std.OrientedCmp.eq_swap : a.compare b = _)
  isLE_trans {a b c} hab hbc := by
    match a, b, c with
    | .int a, .int b, .int c =>
      exact Std.TransOrd.isLE_trans (hab : (Ord.compare a b).isLE) hbc
    | .int _, _, .uuid _ => rfl
    | .uuid a, .uuid b, .uuid c =>
      change (a.compare c).isLE
      exact Std.TransCmp.isLE_trans (hab : (a.compare b).isLE) hbc
    | .int _, .uuid _, .int _ => simp [compare] at hbc
    | .uuid _, .int _, _ => simp [compare] at hab
    | .uuid _, .uuid _, .int _ => simp [compare] at hbc

instance : Std.LawfulEqCmp compare where
  eq_of_compare {a b} h := by
    match a, b with
    | .int a, .int b =>
      exact congrArg int (Std.LawfulEqOrd.eq_of_compare (h : Ord.compare a b = .eq))
    | .uuid a, .uuid b =>
      change a.compare b = .eq at h
      rw [Std.LawfulEqCmp.eq_of_compare h]
    | .int _, .uuid _ => simp [compare] at h
    | .uuid _, .int _ => simp [compare] at h

def toValue : Identity → Value
  | .int i => .int i
  | .uuid u => .uuid u

def ofValue? : Value → Option Identity
  | .int i => some (.int i)
  | .uuid u => some (.uuid u)
  | _ => none

@[simp] theorem ofValue?_toValue (id : Identity) : ofValue? id.toValue = some id := by
  cases id <;> rfl

theorem toValue_of_ofValue? {value : Value} {id : Identity} (h : ofValue? value = some id) :
    value = id.toValue := by
  cases value <;> simp [ofValue?] at h <;> subst h <;> rfl

def text : Identity → String
  | .int i => toString i
  | .uuid u => u.text

def toJson (id : Identity) : Json := id.toValue.toJson

def ofJson (kind : Kind) (json : Json) : Except CoercionFault Identity :=
  if json.isNull then .error .nullIdentity
  else
    match Value.ofJson kind false json with
    | .error fault => .error fault
    | .ok value =>
      match ofValue? value with
      | some id => .ok id
      | none => .error (.notIdentity kind)

end Identity

end ModelSurface
