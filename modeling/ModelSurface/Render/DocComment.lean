import ModelSurface.Text.Quoted

/-!
Documentation in the generated bindings: a line comment where the text allows it, else a block
comment, else an attribute that holds the text as a literal.
-/

namespace ModelSurface.DocComment

def trimEnd (text : List Char) : List Char := (text.reverse.dropWhile (· == ' ')).reverse

/-- The lines of a text; there is always a last one. -/
def linesOf : List Char → List (List Char)
  | [] => [[]]
  | c :: rest =>
    match linesOf rest with
    | [] => [[]]
    | line :: lines => if c = '\n' then [] :: line :: lines else (c :: line) :: lines

/-- Trims the end of every line but the last. -/
def trimInterior : List (List Char) → List (List Char)
  | [] => []
  | [line] => [line]
  | line :: lines => trimEnd line :: trimInterior lines

/-- Whether the comment marks within a text are balanced, when `depth` of them are open. -/
def isBalanced (depth : Nat) : List Char → Bool
  | '/' :: '*' :: rest => isBalanced (depth + 1) rest
  | '*' :: '/' :: rest =>
    match depth with
    | 0 => false
    | depth + 1 => isBalanced depth rest
  | _ :: rest => isBalanced depth rest
  | [] => depth == 0

def fitsLine (text : List Char) : Bool := !text.contains '\n' && text.head? != some '/'

def fitsBlock (text : List Char) : Bool :=
  isBalanced 0 text && text.getLast? != some '/' &&
    text.head? != some '*' && text.head? != some '/'

/-- The characters of a literal. A zero in front of an octal digit is written so that the digit is
not taken for a part of it. -/
def literalChars : List Char → List Char
  | [] => []
  | c :: rest =>
    let isOctal := rest.head?.any fun next => '0' ≤ next && next ≤ '7'
    (if c = '\x00' ∧ isOctal then ['\\', 'x', '0', '0'] else Text.quotedChar c) ++
      literalChars rest

def literal (text : List Char) : String := String.ofList ('"' :: literalChars text ++ ['"'])

def text (doc : String) : String :=
  let chars := doc.toList
  if fitsLine chars then "///" ++ String.ofList (trimEnd chars)
  else if fitsBlock chars then
    "/**" ++ String.ofList (['\n'].intercalate (trimInterior (linesOf chars))) ++ "*/"
  else s!"#[doc = {literal chars}]"

end ModelSurface.DocComment
