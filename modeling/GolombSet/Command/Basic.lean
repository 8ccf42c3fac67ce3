import GolombSet.Decimal
import GolombSet.Digest
import GolombSet.Files
import GolombSet.Filter.Basic
import GolombSet.Key
import GolombSet.Terminal

set_option autoImplicit false

namespace GolombSet.Command

inductive KeySource where
  | text (key : String)
  | blockHash (digest : String)
  | random
deriving DecidableEq

structure Build where
  items : String
  output : Option String
  key : KeySource
  p : UInt8
  wire : Bool
deriving DecidableEq

structure Query where
  filter : String
  key : String
  items : List String
  wire : Option UInt8
deriving DecidableEq

inductive Request where
  | build (command : Build)
  | query (command : Query)
deriving DecidableEq

inductive Failure where
  | key (reason : KeyError)
  | blockHash (reason : DigestError)
  | filter (reason : FilterError)
  | file (reason : FileError)
  -- In the words of whoever reads and writes the private form.
  | loading (message : String)
  | storing (message : String)
deriving DecidableEq

def Failure.message : Failure → String
  | key reason => reason.message
  | blockHash reason => reason.message
  | filter reason => reason.message
  | file reason => reason.message
  | loading message => message
  | storing message => message

inductive Notice where
  | key (key : Key)
  | entries (distinct total : Nat) (p : UInt8)
  | size (bytes entries : Nat)
  | hash (digest : Digest)
  | stored (name : String)
  | loaded (entries : Nat) (p : UInt8) (memory : Nat)
deriving DecidableEq

def Notice.message : Notice → String
  | .key value =>
    let text := value.text
    s!"Key: {text}"
  | .entries distinct total p => s!"Entries: {distinct} distinct out of {total}, p = {p}"
  | .size bytes count =>
    let ratio := Decimal.quotient (8 * bytes) (max count 1)
    s!"Size: {bytes} bytes ({ratio} bits/entry)"
  | .hash digest =>
    let text := digest.text
    s!"Hash: {text}"
  | .stored name => s!"Filter stored in {name}"
  | .loaded count p memory =>
    s!"Loaded filter with {count} entries, p = {p}, {memory} bytes in memory"

/-- A return right before the newline goes with it. -/
def firstLine : List Char → List Char
  | [] => []
  | '\n' :: _ => []
  | '\r' :: '\n' :: _ => []
  | c :: rest => c :: firstLine rest

/-- Further lines of a text are set off. -/
def logged (text : List Char) : List Char :=
  Terminal.plain (text.flatMap (fun c => if c = '\n' then "\n    ".toList else [c]) ++ ['\n'])

/-- Only the first line of a notice: a name that it ends with may have more. -/
def Notice.line (notice : Notice) : String :=
  String.ofList (firstLine (logged notice.message.toList))

structure Outcome where
  printed : List String
  notices : List Notice
  failure : Option Failure
deriving DecidableEq

def Outcome.failed (failure : Failure) : Outcome where
  printed := []
  notices := []
  failure := some failure

def Outcome.output (outcome : Outcome) : String :=
  String.join (outcome.printed.map (· ++ "\n"))

def Outcome.status (outcome : Outcome) : UInt32 :=
  if outcome.failure.isSome then 1 else 0

def Outcome.failureLine (outcome : Outcome) : Option String :=
  outcome.failure.map fun failure => String.ofList (firstLine failure.message.toList)

end GolombSet.Command
