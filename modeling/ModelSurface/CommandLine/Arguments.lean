import ModelSurface.Text.Basic

/-!
The arguments of the command: options with and without values, in a long and some also in a short
form, between the names of the documents.
-/

namespace ModelSurface.CommandLine

inductive Setting where
  | backend
  | output
  | relationDepth
  | defaultPageSize
  | maxPageSize
deriving DecidableEq, Repr, Inhabited

namespace Setting

def all : List Setting := [.backend, .output, .relationDepth, .defaultPageSize, .maxPageSize]

def long : Setting → String
  | .backend => "backend"
  | .output => "output"
  | .relationDepth => "relation-depth"
  | .defaultPageSize => "default-page-size"
  | .maxPageSize => "max-page-size"

def short? : Setting → Option Char
  | .backend => some 'b'
  | .output => some 'o'
  | _ => none

end Setting

inductive Flag where
  | verbose
  | help
deriving DecidableEq, Repr, Inhabited

namespace Flag

def all : List Flag := [.verbose, .help]

def long : Flag → String
  | .verbose => "verbose"
  | .help => "help"

def short : Flag → Char
  | .verbose => 'v'
  | .help => 'h'

end Flag

structure Arguments where
  inputs : List String := []
  backend : Option String := none
  output : Option String := none
  relationDepth : Option Nat := none
  defaultPageSize : Option Nat := none
  maxPageSize : Option Nat := none
  verbosity : Nat := 0
deriving DecidableEq, Repr, Inhabited

inductive UsageFault where
  | unknownOption (text : String)
  | missingValue (setting : Setting)
  | repeated (setting : Setting)
  | invalidValue (setting : Setting) (value : String)
  | unexpectedValue (flag : Flag)
  | emptyInput
  | noInput
deriving DecidableEq, Repr

namespace UsageFault

def message : UsageFault → String
  | .unknownOption text => s!"unexpected argument '{text}' found"
  | .missingValue setting => s!"a value is required for '--{setting.long}' but none was supplied"
  | .repeated setting => s!"the argument '--{setting.long}' cannot be used multiple times"
  | .invalidValue setting value => s!"invalid value '{value}' for '--{setting.long}'"
  | .unexpectedValue flag => s!"unexpected value for '--{flag.long}' found; no more were expected"
  | .emptyInput => "a value is required for '<INPUT>...' but none was supplied"
  | .noInput => "the following required arguments were not provided: <INPUT>..."

end UsageFault

/-- A number of at most 64 bits; a plus sign may stand in front. -/
def size? (text : String) : Option Nat :=
  let digits :=
    match text.toList with
    | '+' :: rest => rest
    | chars => chars
  if digits.isEmpty || !digits.all Char.isDigit then none
  else
    let value := Text.digitsValue digits
    if value < Nat.pow 2 64 then some value else none

namespace Arguments

def once {α : Type} (setting : Setting) (before : Option α) (value : Except UsageFault α) :
    Except UsageFault (Option α) :=
  match before with
  | some _ => .error (.repeated setting)
  | none => value.map some

def sizeOf (setting : Setting) (text : String) : Except UsageFault Nat :=
  match size? text with
  | some size => .ok size
  | none => .error (.invalidValue setting text)

def set (arguments : Arguments) (setting : Setting) (text : String) :
    Except UsageFault Arguments :=
  match setting with
  | .backend => do
    let backend ← once setting arguments.backend (.ok text)
    .ok { arguments with backend := backend }
  | .output => do
    let output ← once setting arguments.output <|
      if text.isEmpty then .error (.invalidValue setting text) else .ok text
    .ok { arguments with output := output }
  | .relationDepth => do
    let size ← once setting arguments.relationDepth (sizeOf setting text)
    .ok { arguments with relationDepth := size }
  | .defaultPageSize => do
    let size ← once setting arguments.defaultPageSize (sizeOf setting text)
    .ok { arguments with defaultPageSize := size }
  | .maxPageSize => do
    let size ← once setting arguments.maxPageSize (sizeOf setting text)
    .ok { arguments with maxPageSize := size }

def addInput (arguments : Arguments) (text : String) : Except UsageFault Arguments :=
  if text.isEmpty then .error .emptyInput
  else .ok { arguments with inputs := arguments.inputs ++ [text] }

def addInputs (arguments : Arguments) : List String → Except UsageFault Arguments
  | [] => .ok arguments
  | text :: texts => do addInputs (← arguments.addInput text) texts

end Arguments

inductive Word where
  | plain (text : String)
  | separator
  | long (name : String) (value : Option String)
  | short (letters : List Char)
deriving DecidableEq, Repr

namespace Word

/-- A long option with the value behind the first equals sign, if there is one. -/
def ofLong (chars : List Char) : Word :=
  .long (String.ofList (chars.takeWhile (· ≠ '=')))
    (match chars.dropWhile (· ≠ '=') with
    | [] => none
    | _ :: value => some (String.ofList value))

def ofText (text : String) : Word :=
  match text.toList with
  | ['-', '-'] => .separator
  | '-' :: '-' :: chars => ofLong chars
  | '-' :: c :: rest => .short (c :: rest)
  | _ => .plain text

end Word

/-- How far a command line was read: to a request for help, or to arguments and an option that
still lacks its value. -/
inductive Progress where
  | help
  | more (arguments : Arguments) (pending : Option Setting)
deriving DecidableEq, Repr

namespace Progress

def flag (arguments : Arguments) : Flag → Progress
  | .verbose => .more { arguments with verbosity := arguments.verbosity + 1 } none
  | .help => .help

def ofLong (arguments : Arguments) (name : String) (value : Option String) :
    Except UsageFault Progress :=
  match Setting.all.find? fun setting => setting.long == name, value with
  | some setting, some text => do .ok (.more (← arguments.set setting text) none)
  | some setting, none => .ok (.more arguments (some setting))
  | none, value =>
    match Flag.all.find? fun flag => flag.long == name, value with
    | some known, none => .ok (flag arguments known)
    | some known, some _ => .error (.unexpectedValue known)
    | none, _ => .error (.unknownOption s!"--{name}")

/-- Reads short options; what follows the letter of one with a value is that value. -/
def ofShort (arguments : Arguments) : List Char → Except UsageFault Progress
  | [] => .ok (.more arguments none)
  | c :: rest =>
    match Setting.all.find? fun setting => setting.short? == some c with
    | some setting =>
      match rest with
      | [] => .ok (.more arguments (some setting))
      | '=' :: value => do .ok (.more (← arguments.set setting (String.ofList value)) none)
      | value => do .ok (.more (← arguments.set setting (String.ofList value)) none)
    | none =>
      match Flag.all.find? fun flag => flag.short == c with
      | some .verbose => ofShort { arguments with verbosity := arguments.verbosity + 1 } rest
      | some .help => .ok .help
      | none => .error (.unknownOption s!"-{c}")

end Progress

inductive Request where
  | help
  | generate (arguments : Arguments)
deriving DecidableEq, Repr

namespace Request

def ofArguments (arguments : Arguments) : Except UsageFault Request :=
  if arguments.inputs.isEmpty then .error .noInput else .ok (.generate arguments)

def readAfter (arguments : Arguments) (pending : Option Setting) :
    List String → Except UsageFault Request
  | [] =>
    match pending with
    | some setting => .error (.missingValue setting)
    | none => ofArguments arguments
  | text :: texts =>
    match pending, Word.ofText text with
    | some setting, .plain text => do readAfter (← arguments.set setting text) none texts
    | some setting, _ => .error (.missingValue setting)
    | none, .plain text => do readAfter (← arguments.addInput text) none texts
    | none, .separator => do ofArguments (← arguments.addInputs texts)
    | none, .long name value => do
      match ← Progress.ofLong arguments name value with
      | .help => .ok .help
      | .more arguments pending => readAfter arguments pending texts
    | none, .short letters => do
      match ← Progress.ofShort arguments letters with
      | .help => .ok .help
      | .more arguments pending => readAfter arguments pending texts

def read (words : List String) : Except UsageFault Request := readAfter {} none words

end Request

end ModelSurface.CommandLine
