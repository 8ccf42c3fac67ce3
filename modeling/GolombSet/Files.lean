import GolombSet.Bytes

set_option autoImplicit false

namespace GolombSet

inductive FileError where
  | notFound
  | notDirectory
  | isDirectory
  | nameTooLong
  | zeroByte
  | other (message : String)
deriving DecidableEq

def FileError.message : FileError → String
  | .notFound => "No such file or directory (os error 2)"
  | .notDirectory => "Not a directory (os error 20)"
  | .isDirectory => "Is a directory (os error 21)"
  | .nameTooLong => "File name too long (os error 36)"
  | .zeroByte => "file name contained an unexpected NUL byte"
  | .other message => message

abbrev Location := List String

namespace FileName

def maxBytes : Nat := 4095

def maxPartBytes : Nat := 255

def split : List Char → List (List Char)
  | [] => [[]]
  | c :: rest =>
    match c, split rest with
    | '/', parts => [] :: parts
    | c, part :: parts => (c :: part) :: parts
    | c, [] => [[c]]

def parts (name : String) : Except FileError (List String) :=
  if '\x00' ∈ name.toList then .error .zeroByte
  else if name.isEmpty then .error .notFound
  else if maxBytes < name.utf8ByteSize then .error .nameTooLong
  else .ok ((split name.toList).map String.ofList)

def isRooted (name : String) : Bool :=
  name.toList.head? = some '/'

/-- What stands after the last dot of the last part, if anything stands before that dot. -/
def extension? (name : String) : Option String :=
  let steps := (split name.toList).filter fun part => part ≠ [] ∧ part ≠ ['.']
  match steps.getLast? with
  | none | some ['.', '.'] => none
  | some part =>
    match part.reverse.dropWhile (· ≠ '.') with
    | _ :: _ :: _ => some (String.ofList (part.reverse.takeWhile (· ≠ '.')).reverse)
    | _ => none

/-- A name that ends with slashes leads no further than to the directory above. -/
def targetParts (parts : List String) : List String :=
  let named := (parts.reverse.dropWhile (· = "")).reverse
  if named = parts then parts else named.dropLast ++ ["."]

end FileName

structure FileTree where
  working : Location
  files : List (Location × Bytes)
deriving DecidableEq

namespace FileTree

def file? (tree : FileTree) (location : Location) : Option Bytes :=
  tree.files.lookup location

def isDirectory (tree : FileTree) (location : Location) : Bool :=
  -- A directory is there if the working directory is in it or is it, or a file is below it.
  location.isPrefixOf tree.working || tree.files.any fun file =>
    location.isPrefixOf file.1 && decide (location.length < file.1.length)

/-- Two dots do not go above the root. What a step leads to is not looked at before the next one. -/
def enter (tree : FileTree) (location : Location) (part : String) : Except FileError Location :=
  if !tree.isDirectory location then
    .error (if (tree.file? location).isSome then .notDirectory else .notFound)
  else if part = "" ∨ part = "." then .ok location
  else if part = ".." then .ok location.dropLast
  else if FileName.maxPartBytes < part.utf8ByteSize then .error .nameTooLong
  else .ok (location ++ [part])

def walk (tree : FileTree) (name : String) (parts : List String) : Except FileError Location :=
  parts.foldlM tree.enter (if FileName.isRooted name then [] else tree.working)

def read (tree : FileTree) (name : String) : Except FileError Bytes := do
  let location ← tree.walk name (← FileName.parts name)
  if tree.isDirectory location then .error .isDirectory
  else
    match tree.file? location with
    | some bytes => .ok bytes
    | none => .error .notFound

def write (tree : FileTree) (name : String) (bytes : Bytes) : Except FileError FileTree := do
  let location ← tree.walk name (FileName.targetParts (← FileName.parts name))
  if tree.isDirectory location then .error .isDirectory
  else .ok { tree with files := (location, bytes) :: tree.files.filter (·.1 ≠ location) }

end FileTree

end GolombSet
