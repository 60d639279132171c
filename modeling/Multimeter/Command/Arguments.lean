import Multimeter.Path
import Multimeter.Protocol.Variant

/-!
# Arguments of the command

* `Command.Request`: what the command can be asked to do.
* `Command.readItems`: options and operands in the order given. A value may be attached to its
  option or follow it; short switches may share one dash; two dashes end the options.
* `Command.Request.ofArguments?`: the request that arguments make, if they make one.
-/

namespace Multimeter.Command

inductive Destination where
  | standardOutput
  | file (path : Path)
deriving DecidableEq, Repr

structure DecodeOptions where
  /-- A path, or a wildcard pattern that a single file matches. -/
  input : Path
  variant : Variant
  destination : Destination
  pretty : Bool := false
  quiet : Bool := false
  /-- Whether rejected frames make the command fail. -/
  strict : Bool := false
  listRejections : Bool := false
  maskParity : Bool := false
deriving DecidableEq, Repr

inductive Request where
  | listProtocols
  | decode (options : DecodeOptions)
deriving DecidableEq, Repr

/-! ## Options -/

inductive Switch where
  | verbose
  | protocol
  | report
  | stdout
  | pretty
  | compact
  | quiet
  | strict
  | listRejections
  | maskParity
deriving DecidableEq, Repr

namespace Switch

def all : List Switch :=
  [verbose, protocol, report, stdout, pretty, compact, quiet, strict, listRejections, maskParity]

def longName : Switch → String
  | verbose => "verbose"
  | protocol => "protocol"
  | report => "report"
  | stdout => "stdout"
  | pretty => "pretty"
  | compact => "compact"
  | quiet => "quiet"
  | strict => "strict"
  | listRejections => "list-rejections"
  | maskParity => "mask-parity"

def letter? : Switch → Option Char
  | verbose => some 'v'
  | protocol => some 'p'
  | report => some 'o'
  | _ => none

def takesValue : Switch → Bool
  | protocol | report => true
  | _ => false

end Switch

/-- An option, with its value if it takes one, or an operand. -/
inductive Item where
  | option (switch : Switch) (value : Option String)
  | operand (text : String)
deriving DecidableEq, Repr

/-- Whether an argument holds options: it begins with a dash and goes on. -/
def isOption (argument : String) : Bool :=
  match argument.toList with
  | '-' :: _ :: _ => true
  | _ => false

/-- Reads the letters behind one dash. The second part is an option whose value is in the next
argument. A value in the same argument may follow an equals sign. -/
def readLetters : List Char → Option (List Item × Option Switch)
  | [] => some ([], none)
  | c :: rest => do
    let switch ← Switch.all.find? (·.letter? == some c)
    if switch.takesValue then
      if rest = [] then return ([], some switch)
      let value := if rest.head? = some '=' then rest.drop 1 else rest
      return ([.option switch (some (String.ofList value))], none)
    else
      let (items, pending) ← readLetters rest
      return (.option switch none :: items, pending)

/-- Reads the name behind two dashes, with a value behind an equals sign. -/
def readName (text : List Char) : Option (List Item × Option Switch) := do
  let name := text.takeWhile (· ≠ '=')
  let switch ← Switch.all.find? (·.longName.toList == name)
  let value :=
    match text.dropWhile (· ≠ '=') with
    | [] => none
    | _ :: value => some (String.ofList value)
  if switch.takesValue then
    match value with
    | some _ => return ([.option switch value], none)
    | none => return ([], some switch)
  else if value = none then return ([.option switch none], none)
  else none

def readOption (argument : String) : Option (List Item × Option Switch) :=
  match argument.toList with
  | '-' :: '-' :: name => readName name
  | '-' :: letters => readLetters letters
  | _ => none

/-- Reads all arguments. A value in an argument of its own may not look like an option. -/
def readItems : List String → Option (List Item)
  | [] => some []
  | argument :: rest =>
    if argument = "--" then some (rest.map .operand)
    else if isOption argument then
      match readOption argument with
      | none => none
      | some (items, none) => (readItems rest).map (items ++ ·)
      | some (items, some switch) =>
        match rest with
        | [] => none
        | value :: rest =>
          if isOption value then none
          else (readItems rest).map (items ++ .option switch (some value) :: ·)
    else (readItems rest).map (.operand argument :: ·)

/-! ## Requests -/

/-- Whether an item is the option that every part of the command takes. -/
def Item.isVerbose (item : Item) : Bool := item = .option .verbose none

/-- The arguments from the first one on that holds no options; options before it can only ask for
more messages. -/
def skipVerbose : List String → Option (List String)
  | [] => some []
  | argument :: rest =>
    if isOption argument then
      match readOption argument with
      | some (items, none) => if items.all Item.isVerbose then skipVerbose rest else none
      | _ => none
    else some (argument :: rest)

def valuesOf (items : List Item) (switch : Switch) : List String :=
  items.filterMap fun
    | .option s value => if s = switch then value else none
    | .operand _ => none

def countOf (items : List Item) (switch : Switch) : Nat :=
  items.countP fun
    | .option s _ => s = switch
    | .operand _ => false

def operandsOf (items : List Item) : List String :=
  items.filterMap fun
    | .option .. => none
    | .operand text => some text

/-- The destination that items name: a file or standard output, and not both. -/
def destinationOf? (items : List Item) : Option Destination :=
  match valuesOf items .report, countOf items .stdout with
  | [], 1 => some .standardOutput
  | [path], 0 => if path = "" then none else some (.file ⟨path⟩)
  | _, _ => none

/-- The options of a decoding that items name. Every option may be given once, but the one for more
messages as often as wanted; there is one operand. -/
def DecodeOptions.ofItems? (items : List Item) : Option DecodeOptions := do
  let given (switch : Switch) : Bool := 0 < countOf items switch
  if Switch.all.any (fun s => s ≠ .verbose && 1 < countOf items s) then none
  if given .pretty && given .compact then none
  match operandsOf items, valuesOf items .protocol with
  | [input], [name] =>
    if input = "" then none
    return {
      input := ⟨input⟩
      variant := ← (Variant.ofName name).toOption
      destination := ← destinationOf? items
      pretty := given .pretty
      quiet := given .quiet
      strict := given .strict
      listRejections := given .listRejections
      maskParity := given .maskParity }
  | _, _ => none

/-- The names of the part of the command that decodes. -/
def decodeNames : List String := ["decode", "analyze", "analyse"]

def Request.ofArguments? (arguments : List String) : Option Request := do
  match ← skipVerbose arguments with
  | "protocols" :: rest =>
    if (← readItems rest).all Item.isVerbose then return .listProtocols else none
  | "capture" :: rest =>
    match ← skipVerbose rest with
    | name :: rest =>
      if decodeNames.contains name then
        return .decode (← DecodeOptions.ofItems? (← readItems rest))
      else none
    | [] => none
  | _ => none

end Multimeter.Command
