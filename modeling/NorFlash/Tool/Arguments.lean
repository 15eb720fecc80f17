import NorFlash.Text.Hex

/-!
The command line: parameters by their long and short names, and the request they spell. Names
after a request belong to it; verbosity and the settings file may stand before or after.
-/
namespace NorFlash.Tool

/-- Why the arguments do not make up a request. -/
inductive UsageError where
  | help
  | version
  /-- There was nothing to go by, so help is shown. -/
  | nothingGiven
  | missingRequest
  | unknownRequest
  | unknownArgument
  | missingParameter
  /-- A value is missing or empty where it must not be. -/
  | emptyValue
  | malformedValue
  /-- A value was attached to a parameter that takes none. -/
  | excessValue
  | repeatedParameter
  deriving DecidableEq, Repr

inductive Parameter where
  | verbose
  | config
  | help
  | version
  | image
  | chip
  | offset
  | length
  | output
  | input
  | vendor
  deriving DecidableEq, Repr

namespace Parameter

def long : Parameter → String
  | verbose => "verbose"
  | config => "config"
  | help => "help"
  | version => "version"
  | image => "image"
  | chip => "chip"
  | offset => "offset"
  | length => "length"
  | output => "output"
  | input => "input"
  | vendor => "vendor"

def short? : Parameter → Option Char
  | verbose => some 'v'
  | help => some 'h'
  | version => some 'V'
  | image => some 'i'
  | chip => some 'c'
  | output => some 'o'
  | _ => none

def takesValue : Parameter → Bool
  | verbose | help | version => false
  | _ => true

end Parameter

/-- A 32-bit number, in hexadecimal behind `0x` and else in decimal. -/
def number? (text : String) : Option UInt32 :=
  let (base, digits) := match text.toList with
    | '0' :: 'x' :: rest | '0' :: 'X' :: rest => (16, rest)
    | all => (10, all)
  let digits := match digits with
    | '+' :: rest => rest
    | all => all
  if digits.isEmpty then
    none
  else do
    let values ← digits.mapM fun c => (Text.Hex.value? c).filter (· < base)
    let n := values.foldl (base * · + ·) 0
    if n < UInt32.size then some (.ofNat n) else none

/-- Paths are not empty and numbers are well formed. -/
def Parameter.check (parameter : Parameter) (value : String) : Except UsageError Unit :=
  match parameter with
  | config | image | output | input => if value.isEmpty then .error .emptyValue else .ok ()
  | offset | length => if (number? value).isNone then .error .malformedValue else .ok ()
  | _ => .ok ()

inductive Verb where
  | probe
  | read
  | erase
  | write
  | fip
  | listChips
  deriving DecidableEq, Repr

namespace Verb

def name : Verb → String
  | probe => "probe"
  | read => "read"
  | erase => "erase"
  | write => "write"
  | fip => "fip"
  | listChips => "list-chips"

def all : List Verb :=
  [probe, read, erase, write, fip, listChips]

def ofName? (name : String) : Option Verb :=
  all.find? (·.name = name)

def required : Verb → List Parameter
  | probe | fip => [.image]
  | read => [.image, .offset, .length, .output]
  | erase => [.image, .offset, .length]
  | write => [.image, .offset, .input]
  | listChips => []

def optional : Verb → List Parameter
  | listChips => [.vendor]
  | _ => [.chip]

/-- The parameters that may follow a verb. -/
def parameters (verb : Verb) : List Parameter :=
  verb.required ++ verb.optional ++ [.verbose, .config, .help]

end Verb

/-- The parameters that may stand before the verb. -/
def leadingParameters : List Parameter :=
  [.verbose, .config, .help, .version]

/-- The parameters read so far, before or after the verb. The last one is checked only when the
next is met or the arguments end. -/
structure Reading where
  values : List (Parameter × String) := []
  verbosity : Nat := 0
  /-- The last parameter, if it takes a value, with its value if that has come. -/
  last : Option (Parameter × Option String) := none
  /-- Two dashes were met, after which nothing is a parameter. -/
  closed : Bool := false

namespace Reading

def value? (parameter : Parameter) (reading : Reading) : Option String :=
  reading.values.lookup parameter

def add (parameter : Parameter) (value : String) (reading : Reading) : Except UsageError Reading :=
  if (reading.value? parameter).isSome then
    .error .repeatedParameter
  else do
    parameter.check value
    return { reading with values := (parameter, value) :: reading.values }

/-- Checks and keeps the last parameter. -/
def settle (reading : Reading) : Except UsageError Reading :=
  match reading.last with
  | none => .ok reading
  | some (_, none) => .error .emptyValue
  | some (parameter, some value) => add parameter value { reading with last := none }

/-- Takes a parameter with the value attached to it, or expects the value next. -/
def take (parameter : Parameter) (attached : Option String) (reading : Reading) :
    Except UsageError Reading := do
  let reading ← reading.settle
  match attached with
  | some value => reading.add parameter value
  | none => return { reading with last := some (parameter, none) }

/-- Takes a parameter without value. Verbosity stops at 255. -/
def raise (parameter : Parameter) (reading : Reading) : Except UsageError Reading := do
  let reading ← reading.settle
  match parameter with
  | .help => throw .help
  | .version => throw .version
  | _ => return { reading with verbosity := min 255 (reading.verbosity + 1) }

/-- The next argument is the value of the last parameter, unless it looks like a parameter. -/
def expectsValue (reading : Reading) : Bool :=
  match reading.last with
  | some (_, none) => true
  | _ => false

/-- A name behind two dashes, with a value attached by an equals sign. -/
def takeLong (known : List Parameter) (text : List Char) (reading : Reading) :
    Except UsageError Reading :=
  let name := text.takeWhile (· ≠ '=')
  let attached := match text.dropWhile (· ≠ '=') with
    | [] => none
    | _ :: value => some (String.ofList value)
  match known.find? (·.long = String.ofList name) with
  | none => .error .unknownArgument
  | some parameter =>
    if parameter.takesValue then reading.take parameter attached
    else if attached.isSome then .error .excessValue
    else reading.raise parameter

/-- Letters behind one dash. What follows a letter that takes a value is its value, also behind an
equals sign. -/
def takeShort (known : List Parameter) : List Char → Reading → Except UsageError Reading
  | [], reading => .ok reading
  | letter :: rest, reading =>
    match known.find? (·.short? = some letter) with
    | none => .error .unknownArgument
    | some parameter =>
      if parameter.takesValue then
        match rest with
        | [] => reading.take parameter none
        | '=' :: value => reading.take parameter (some (.ofList value))
        | value => reading.take parameter (some (.ofList value))
      else do
        takeShort known rest (← reading.raise parameter)

/-- The error for an argument that belongs nowhere: where verbs may stand, it is a wrong one. -/
def stray (verbs : List String) : UsageError :=
  if verbs.isEmpty then .unknownArgument else .unknownRequest

/--
Reads arguments up to the end, or up to one of the verbs. Answers with the verb and what follows
it.
-/
def run (known : List Parameter) (verbs : List String) : List String → Reading →
    Except UsageError (Reading × Option (String × List String))
  | [], reading => .ok (reading, none)
  | argument :: rest, reading =>
    if reading.closed then
      .error (if verbs.contains argument then .unknownArgument else stray verbs)
    else if !reading.expectsValue && verbs.contains argument then
      .ok (reading, some (argument, rest))
    else
      match argument.toList, reading.last with
      | ['-', '-'], _ => run known verbs rest { reading with closed := true }
      | '-' :: '-' :: text, _ => do run known verbs rest (← reading.takeLong known text)
      | '-' :: letter :: letters, _ => do
        run known verbs rest (← reading.takeShort known (letter :: letters))
      | _, some (parameter, none) =>
        run known verbs rest { reading with last := some (parameter, some argument) }
      | _, _ => .error (stray verbs)

end Reading

/-- The image file that backs the emulated part, and the part. -/
structure Target where
  image : String
  chip : String
  deriving DecidableEq, Repr

inductive Request where
  | probe (target : Target)
  | read (target : Target) (offset length : UInt32) (output : String)
  | erase (target : Target) (offset length : UInt32)
  | write (target : Target) (offset : UInt32) (input : String)
  | fip (target : Target)
  | listChips (vendor : Option String)
  deriving DecidableEq, Repr

structure Invocation where
  verbosity : Nat
  config : Option String
  request : Request
  deriving DecidableEq, Repr

def defaultChip : String := "mx25l12805"

/-- The request of a verb whose parameters have all been given. -/
def Request.ofReading? (verb : Verb) (reading : Reading) : Option Request := do
  if verb = .listChips then
    return .listChips (reading.value? .vendor)
  let target : Target :=
    ⟨← reading.value? .image, (reading.value? .chip).getD defaultChip⟩
  let number (parameter : Parameter) : Option UInt32 := do
    number? (← reading.value? parameter)
  match verb with
  | .probe => return .probe target
  | .read =>
    return .read target (← number .offset) (← number .length) (← reading.value? .output)
  | .erase => return .erase target (← number .offset) (← number .length)
  | .write => return .write target (← number .offset) (← reading.value? .input)
  | .fip => return .fip target
  | .listChips => return .listChips (reading.value? .vendor)

namespace Invocation

/-- The words that may follow the leading parameters. -/
def verbs : List String :=
  "help" :: Verb.all.map Verb.name

/-- Help on at most one verb. -/
def helpOn : List String → UsageError
  | [] => .help
  | [name] => if verbs.contains name then .help else .unknownRequest
  | _ => .unknownRequest

/-- The request that the arguments spell. What is wrong behind the verb is told before what is
wrong with the last parameter in front of it. -/
def parse (arguments : List String) : Except UsageError Invocation := do
  let (leading, rest) ← Reading.run leadingParameters verbs arguments {}
  match rest with
  | none =>
    let leading ← leading.settle
    throw (if leading.values = [] ∧ leading.verbosity = 0 then .nothingGiven else .missingRequest)
  | some (name, rest) =>
    match Verb.ofName? name with
    | none => throw (helpOn rest)
    | some verb =>
      let (reading, _) ← Reading.run verb.parameters [] rest {}
      let reading ← reading.settle
      match Request.ofReading? verb reading with
      | none => throw .missingParameter
      | some request =>
        let leading ← leading.settle
        let verbosity := if reading.verbosity = 0 then leading.verbosity else reading.verbosity
        let config := reading.value? .config <|> leading.value? .config
        return { verbosity, config, request }

end Invocation

end NorFlash.Tool
