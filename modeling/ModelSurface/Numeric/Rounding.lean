/-!
Quotients of natural numbers rounded to a natural number, under the two rules for an exact half.
-/

namespace ModelSurface

/-- `num / den` to the nearest natural number; an exact half goes to the even neighbour. -/
def roundHalfEven (num den : Nat) : Nat :=
  let quotient := num / den
  match compare (2 * (num % den)) den with
  | .lt => quotient
  | .gt => quotient + 1
  | .eq => if quotient % 2 = 0 then quotient else quotient + 1

/-- `num / den` to the nearest natural number; an exact half goes up. -/
def roundHalfUp (num den : Nat) : Nat :=
  if 2 * (num % den) < den then num / den else num / den + 1

end ModelSurface
