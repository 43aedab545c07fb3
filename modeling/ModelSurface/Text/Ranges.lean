/-!
Sets of characters and case mappings given as tables of code point ranges, and white space, as the
Unicode property of that name has it.
-/

namespace ModelSurface.Text

/-- Closed ranges of the white space characters, ascending and apart. -/
def blankRanges : List (Nat × Nat) :=
  [(0x09, 0x0D), (0x20, 0x20), (0x85, 0x85), (0xA0, 0xA0), (0x1680, 0x1680), (0x2000, 0x200A),
    (0x2028, 0x2029), (0x202F, 0x202F), (0x205F, 0x205F), (0x3000, 0x3000)]

def isBlank (c : Char) : Bool :=
  blankRanges.any fun range => range.1 ≤ c.toNat && c.toNat ≤ range.2

theorem isBlank_of_isWhitespace (c : Char) (h : c.isWhitespace = true) : isBlank c = true := by
  simp [Char.isWhitespace] at h
  rcases h with ((h | h) | h) | h <;> subst h <;> decide

def dropBlanks (text : List Char) : List Char := text.dropWhile isBlank

/-- Whether a code point lies in one of the closed ranges, which are ascending. -/
def inRanges (n : Nat) : List (Nat × Nat) → Bool
  | [] => false
  | (first, last) :: rest => if n < first then false else n ≤ last || inRanges n rest

/-- Whether a code point is one of every `step`-th from `first` to `last`, for some entry. -/
def inStrides (n : Nat) : List (Nat × Nat × Nat) → Bool
  | [] => false
  | (first, last, step) :: rest =>
    if n < first then false
    else (n ≤ last && (n - first) % step == 0) || inStrides n rest

def offset? (n : Nat) : List (Nat × Nat × Nat × Int) → Option Int
  | [] => none
  | (first, last, step, offset) :: rest =>
    if n < first then none
    else if n ≤ last && (n - first) % step == 0 then some offset
    else offset? n rest

end ModelSurface.Text
