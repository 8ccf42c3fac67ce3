import GolombSet.Command.Basic
import GolombSet.Command.Help

set_option autoImplicit false

namespace GolombSet.Command

inductive Subcommand where
  | build
  | query
deriving DecidableEq

inductive Setting where
  | key
  | blockHash
  | parameter
deriving DecidableEq

inductive Flag where
  | setting (setting : Setting)
  | wire
  | help
deriving DecidableEq

structure Given where
  key : Option String
  blockHash : Option String
  parameter : Option UInt8
  wire : Bool
  operands : List String
deriving DecidableEq

inductive Progress where
  | given (given : Given)
  | awaiting (setting : Setting) (given : Given)
  | help
  | refused
deriving DecidableEq

inductive Invocation where
  | run (request : Request)
  | help (topic : Topic)
  | refused
deriving DecidableEq

def digits? (text : List Char) : Option Nat :=
  if text.isEmpty || !text.all Char.isDigit then none
  else some (text.foldl (fun value c => 10 * value + (c.toNat - '0'.toNat)) 0)

/-- Decimal digits, with or without a sign. -/
def byte? (text : String) : Option UInt8 :=
  let number : Option Nat :=
    match text.toList with
    | '+' :: rest => digits? rest
    | '-' :: rest => (digits? rest).filter (· = 0)
    | rest => digits? rest
  (number.filter (· < 256)).map UInt8.ofNat

def isDashed (argument : String) : Bool :=
  -- A lone dash is an operand or a value like any other text.
  argument.startsWith "-" && argument ≠ "-"

namespace Given

def nothing : Given where
  key := none
  blockHash := none
  parameter := none
  wire := false
  operands := []

def set? (given : Given) (setting : Setting) (value : String) : Option Given :=
  match setting with
  | .key => if given.key.isSome then none else some { given with key := some value }
  | .blockHash =>
    if given.blockHash.isSome then none else some { given with blockHash := some value }
  | .parameter =>
    if given.parameter.isSome then none
    else (byte? value).map fun p => { given with parameter := some p }

def setWire? (given : Given) : Option Given :=
  if given.wire then none else some { given with wire := true }

end Given

def Progress.ofOption : Option Given → Progress
  | some value => .given value
  | none => .refused

namespace Subcommand

def longFlag? : Subcommand → String → Option Flag
  | _, "key" => some (.setting .key)
  | build, "block-hash" => some (.setting .blockHash)
  | _, "wire" => some .wire
  | _, "help" => some .help
  | _, _ => none

def shortFlag? : Subcommand → Char → Option Flag
  | _, 'k' => some (.setting .key)
  | build, 'b' => some (.setting .blockHash)
  | _, 'p' => some (.setting .parameter)
  | _, 'w' => some .wire
  | _, 'h' => some .help
  | _, _ => none

/-- File names are not empty. -/
def addOperand? (subcommand : Subcommand) (given : Given) (operand : String) : Option Given :=
  let fits :=
    match subcommand with
    | build => given.operands.length < 2 && operand ≠ ""
    | query => given.operands.length ≠ 0 || operand ≠ ""
  if fits then some { given with operands := given.operands ++ [operand] } else none

def addOperands (subcommand : Subcommand) (given : Given) : List String → Progress
  | [] => .given given
  | operand :: rest =>
    match subcommand.addOperand? given operand with
    | some given => subcommand.addOperands given rest
    | none => .refused

def readLong (subcommand : Subcommand) (given : Given) (text : List Char) : Progress :=
  let name := String.ofList (text.takeWhile (· ≠ '='))
  match subcommand.longFlag? name, text.dropWhile (· ≠ '=') with
  | none, _ => .refused
  | some (.setting setting), [] => .awaiting setting given
  | some (.setting setting), _ :: value => .ofOption (given.set? setting (String.ofList value))
  | some .wire, [] => .ofOption given.setWire?
  | some .wire, _ => .refused
  | some .help, [] => .help
  | some .help, _ => .refused

/-- After one dash there are flags, the last of which may have a value. -/
def readShort (subcommand : Subcommand) (given : Given) : List Char → Progress
  | [] => .given given
  | c :: rest =>
    match subcommand.shortFlag? c with
    | none => .refused
    | some .help => .help
    | some .wire =>
      match given.setWire? with
      | some given => subcommand.readShort given rest
      | none => .refused
    | some (.setting setting) =>
      match rest with
      | [] => .awaiting setting given
      | '=' :: value => .ofOption (given.set? setting (String.ofList value))
      | value => .ofOption (given.set? setting (String.ofList value))

def readFlags (subcommand : Subcommand) (given : Given) (argument : String) : Progress :=
  match argument.toList with
  | '-' :: '-' :: text => subcommand.readLong given text
  | _ :: text => subcommand.readShort given text
  | [] => .given given

def readAll (subcommand : Subcommand) (given : Given) : List String → Progress
  | [] => .given given
  | argument :: rest =>
    if argument = "--" then subcommand.addOperands given rest
    else if isDashed argument then
      match subcommand.readFlags given argument with
      | .help => .help
      | .refused => .refused
      | .given given => subcommand.readAll given rest
      | .awaiting setting given =>
        match rest with
        | [] => .refused
        | value :: rest =>
          if isDashed value then .refused
          else
            match given.set? setting value with
            | some given => subcommand.readAll given rest
            | none => .refused
    else
      match subcommand.addOperand? given argument with
      | some given => subcommand.readAll given rest
      | none => .refused

def request? (subcommand : Subcommand) (given : Given) : Option Request :=
  match subcommand, given.operands with
  | _, [] => none
  | build, items :: output =>
    let source : Option KeySource :=
      match given.key, given.blockHash with
      | some _, some _ => none
      | some key, none => some (.text key)
      | none, some digest => some (.blockHash digest)
      | none, none => some .random
    source.map fun source => .build {
      items := items
      output := output.head?
      key := source
      p := given.parameter.getD Parameter.standard.value
      wire := given.wire }
  | query, filter :: items =>
    match given.key, given.wire, given.parameter with
    | none, _, _ => none
    | some _, true, none => none
    | some key, wire, parameter => some (.query {
        filter := filter
        key := key
        items := items
        wire := if wire then parameter else none })

def topic : Subcommand → Topic
  | build => .build
  | query => .query

def read (subcommand : Subcommand) (arguments : List String) : Invocation :=
  match subcommand.readAll .nothing arguments with
  | .help => .help subcommand.topic
  | .given given =>
    match subcommand.request? given with
    | some request => .run request
    | none => .refused
  | _ => .refused

end Subcommand

def Invocation.read : List String → Invocation
  | "build" :: rest => Subcommand.build.read rest
  | "query" :: rest => Subcommand.query.read rest
  | ["help"] => .help .commands
  | ["help", "build"] => .help .build
  | ["help", "query"] => .help .query
  | ["help", "help"] => .help .help
  | "--help" :: _ => .help .commands
  | argument :: _ => if argument.startsWith "-h" then .help .commands else .refused
  | [] => .refused

end GolombSet.Command
