import GolombSet.Builder.Build
import GolombSet.Command.Libraries
import GolombSet.Command.Plan
import GolombSet.Filter.Header
import GolombSet.Filter.Query

set_option autoImplicit false

namespace GolombSet.Command

def Build.builder (command : Build) (fresh : Key) : Except Failure Builder :=
  match command.key with
  | .text key =>
    match Key.parse key with
    | .ok key => .ok (Builder.withKeyAndParameter key command.p)
    | .error reason => .error (.key reason)
  | .blockHash digest =>
    match Digest.parse digest with
    | .ok digest => .ok (Builder.withKeyAndParameter (Key.ofDigest digest) command.p)
    | .error reason => .error (.blockHash reason)
  | .random => .ok (Builder.withKeyAndParameter fresh command.p)

/-- The key and the parameter are checked before any file is looked at. -/
def Build.prepare (command : Build) (fresh : Key) : Except Failure (Key × Builder) := do
  let builder ← command.builder fresh
  match builder.resolveKey fresh with
  | (.error reason, _) => .error (.filter reason)
  | (.ok key, builder) => .ok (key, builder)

structure Report where
  filter : Filter
  notices : List Notice
deriving DecidableEq

def Build.report (command : Build) (key : Key) (builder : Builder)
    (items : Except FileError (List Bytes)) : Except Failure Report := do
  let builder := builder.addAll (← items.mapError .file)
  let built ← (builder.build key).1.mapError .filter
  let filter := built.filter
  return {
    filter := filter
    notices := [
      .key key,
      .entries filter.count.toNat builder.length command.p,
      .size filter.data.length filter.count.toNat,
      .hash filter.hash] }

section

variable (libraries : Libraries)

def Libraries.items (name : String) (file : Except FileError Bytes) :
    Except FileError (List Bytes) := do
  Lines.collect (← libraries.openItems name file)

def Build.encode (command : Build) (filter : Filter) : Bytes :=
  if command.wire then filter.toCounted else libraries.store filter.raw

def Build.refusal (command : Build) (reason : FileError) : Failure :=
  if command.wire then .file reason else .storing (libraries.refusal reason)

def Build.store (command : Build) (report : Report) : Plan :=
  match command.output with
  | none => .done ⟨[], report.notices, none⟩
  | some name =>
    .write name (command.encode libraries report.filter) fun written =>
      match written with
      | .ok () => .done ⟨[], report.notices ++ [.stored name], none⟩
      | .error reason => .done ⟨[], report.notices, some (command.refusal libraries reason)⟩

def Build.plan (command : Build) (fresh : Key) : Plan :=
  match command.prepare fresh with
  | .error failure => .done (.failed failure)
  | .ok (key, builder) =>
    .read command.items fun file =>
      match command.report key builder (libraries.items command.items file) with
      | .error failure => .done (.failed failure)
      | .ok report => command.store libraries report

def Query.load (command : Query) (file : Except FileError Bytes) : Except Failure RawFilter :=
  match command.wire with
  | none => (libraries.load file).mapError .loading
  | some p =>
    match file with
    | .error reason => .error (.file reason)
    | .ok bytes => ((Filter.ofCounted p bytes).map Filter.raw).mapError .filter

end

def itemBytes (item : String) : Bytes :=
  item.toUTF8.data.toList

def answerLine (label : String) (answer : Bool) : String :=
  label ++ "\t" ++ toString answer

def answer (filter : RawFilter) (key : Key) (all : List String) :
    List String → List String × Option Failure
  | [] =>
    match filter.containsAny key (all.map itemBytes) with
    | .ok found => ([answerLine "any" found], none)
    | .error reason => ([], some (.filter reason))
  | item :: items =>
    match filter.contains key (itemBytes item) with
    | .ok found =>
      let (printed, failure) := answer filter key all items
      (answerLine item found :: printed, failure)
    | .error reason => ([], some (.filter reason))

def Libraries.notice (libraries : Libraries) (filter : RawFilter) : Notice :=
  .loaded filter.count.toNat filter.p (libraries.memory filter)

def Query.plan (libraries : Libraries) (command : Query) : Plan :=
  match Key.parse command.key with
  | .error reason => .done (.failed (.key reason))
  | .ok key =>
    .read command.filter fun file =>
      match command.load libraries file with
      | .error failure => .done (.failed failure)
      | .ok filter =>
        let (printed, failure) := answer filter key command.items command.items
        .done ⟨printed, [libraries.notice filter], failure⟩

def Request.plan (libraries : Libraries) (fresh : Key) : Request → Plan
  | .build command => command.plan libraries fresh
  | .query command => command.plan libraries

def Request.run (request : Request) (libraries : Libraries) (fresh : Key) (tree : FileTree) :
    Outcome × FileTree :=
  (request.plan libraries fresh).run tree

end GolombSet.Command
