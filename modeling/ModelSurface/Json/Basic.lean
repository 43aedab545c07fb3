import ModelSurface.Numeric.Shortest

/-!
JSON values. Integers and floating point numbers stay apart, and the members of an object are kept
in ascending order of their names, each name once. The text of a value is compact: no blanks,
members in the order of their names, only quotes, backslashes and control characters escaped.
-/

namespace ModelSurface

/-- A JSON number: an integer of at most 64 bits, or a floating point number. -/
inductive Number where
  | int (value : Int)
  | float (value : Binary64)
deriving DecidableEq, Repr

inductive Json where
  | null
  | bool (value : Bool)
  | num (value : Number)
  | str (value : String)
  | arr (items : List Json)
  | obj (members : List (String × Json))
deriving Repr

instance : Inhabited Json := ⟨.null⟩

namespace Number

def same : Number → Number → Bool
  | .int a, .int b => a == b
  | .float a, .float b => a.same b
  | _, _ => false

def int64? : Number → Option Int
  | .int i => if -9223372036854775808 ≤ i ∧ i ≤ 9223372036854775807 then some i else none
  | .float _ => none

def nat64? : Number → Option Nat
  | .int i => if 0 ≤ i ∧ i ≤ 18446744073709551615 then some i.toNat else none
  | .float _ => none

def toBinary64 : Number → Binary64
  | .int i => .ofInt i
  | .float x => x

def text : Number → String
  | .int i => toString i
  | .float x => x.text

end Number

namespace Json

/-- Puts a member in its place; a present one of the same name is replaced. -/
def insertMember (name : String) (value : Json) :
    List (String × Json) → List (String × Json)
  | [] => [(name, value)]
  | (other, old) :: rest =>
    match compare name other with
    | .lt => (name, value) :: (other, old) :: rest
    | .eq => (name, value) :: rest
    | .gt => (other, old) :: insertMember name value rest

/-- The object with the given members; of two with one name the later one stays. -/
def object (members : List (String × Json)) : Json :=
  .obj (members.foldl (fun sorted member => insertMember member.1 member.2 sorted) [])

def ofInt (i : Int) : Json := .num (.int i)

def ofNat (n : Nat) : Json := .num (.int n)

def strings (items : List String) : Json := .arr (items.map .str)

def isNull : Json → Bool
  | .null => true
  | _ => false

def bool? : Json → Option Bool
  | .bool b => some b
  | _ => none

def str? : Json → Option String
  | .str s => some s
  | _ => none

def arr? : Json → Option (List Json)
  | .arr items => some items
  | _ => none

def obj? : Json → Option (List (String × Json))
  | .obj members => some members
  | _ => none

def int64? : Json → Option Int
  | .num n => n.int64?
  | _ => none

def nat64? : Json → Option Nat
  | .num n => n.nat64?
  | _ => none

def binary64? : Json → Option Binary64
  | .num n => some n.toBinary64
  | _ => none

def get? (json : Json) (name : String) : Option Json :=
  json.obj?.bind fun members => members.lookup name

def getD (json : Json) (name : String) : Json := (json.get? name).getD .null

def typeName : Json → String
  | .null => "null"
  | .bool _ => "boolean"
  | .num _ => "number"
  | .str _ => "string"
  | .arr _ => "list"
  | .obj _ => "object"

mutual

/-- Equality of documents: numbers by value, integers apart from floating point numbers. -/
def same : Json → Json → Bool
  | .null, .null => true
  | .bool a, .bool b => a == b
  | .num a, .num b => a.same b
  | .str a, .str b => a == b
  | .arr a, .arr b => sameItems a b
  | .obj a, .obj b => sameMembers a b
  | _, _ => false

def sameItems : List Json → List Json → Bool
  | [], [] => true
  | a :: as, b :: bs => a.same b && sameItems as bs
  | _, _ => false

def sameMembers : List (String × Json) → List (String × Json) → Bool
  | [], [] => true
  | (name, a) :: as, (other, b) :: bs => name == other && a.same b && sameMembers as bs
  | _, _ => false

end

end Json

end ModelSurface

/-! ### Text -/

namespace ModelSurface.Json

def hexDigit (n : Nat) : Char :=
  if n < 10 then Char.ofNat (48 + n) else Char.ofNat (87 + n)

def escapeChar (c : Char) : List Char :=
  match c with
  | '"' => ['\\', '"']
  | '\\' => ['\\', '\\']
  | '\n' => ['\\', 'n']
  | '\r' => ['\\', 'r']
  | '\t' => ['\\', 't']
  | '\x08' => ['\\', 'b']
  | '\x0c' => ['\\', 'f']
  | c =>
    if c.toNat < 0x20 then
      ['\\', 'u', '0', '0', hexDigit (c.toNat / 16), hexDigit (c.toNat % 16)]
    else [c]

def quoteChars (s : String) : List Char :=
  '"' :: s.toList.flatMap escapeChar ++ ['"']

mutual

def chars : Json → List Char
  | .null => "null".toList
  | .bool true => "true".toList
  | .bool false => "false".toList
  | .num n => n.text.toList
  | .str s => quoteChars s
  | .arr [] => ['[', ']']
  | .arr (item :: items) => '[' :: item.chars ++ itemsChars items
  | .obj [] => ['\x7b', '\x7d']
  | .obj ((name, value) :: members) =>
    '\x7b' :: quoteChars name ++ ':' :: value.chars ++ membersChars members

/-- The items after the first, and the closing bracket. -/
def itemsChars : List Json → List Char
  | [] => [']']
  | item :: items => ',' :: item.chars ++ itemsChars items

/-- The members after the first, and the closing brace. -/
def membersChars : List (String × Json) → List Char
  | [] => ['\x7d']
  | (name, value) :: members =>
    ',' :: quoteChars name ++ ':' :: value.chars ++ membersChars members

end

def text (json : Json) : String := String.ofList json.chars

end ModelSurface.Json
