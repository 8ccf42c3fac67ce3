set_option autoImplicit false

namespace GolombSet.Terminal

inductive State where
  | text
  | escape
  -- Ends with its first character from `0` on.
  | designation
  -- Ends with its first character from `@` on.
  | control
  -- A device string before its parameters, in them, and after them.
  | device
  | deviceParameters
  | deviceDesignation
  -- A string up to its terminator, and one up to a bell.
  | string
  | title
deriving DecidableEq

def isBlank (c : Char) : Bool :=
  c ∈ ['\t', '\n', '\x0c', '\r']

def isGraphic (c : Char) : Bool :=
  0x20 ≤ c.toNat && c.toNat ≠ 0x7f

def hasTerminator (c : Char) : Bool :=
  -- The terminator of one byte ends a string even as a part of a longer character.
  0x9c ∈ String.utf8EncodeChar c

namespace State

/-- Escape breaks off whatever it stands in, and so do the two characters that cancel. -/
def next (state : State) (c : Char) : State :=
  if c = '\x1b' then escape
  else if c = '\x18' ∨ c = '\x1a' then text
  else
    match state with
    | text => text
    | escape =>
      if c = '[' then control
      else if c = ']' then title
      else if c = 'P' then device
      else if c ∈ ['X', '^', '_'] then string
      else if ' ' ≤ c ∧ c ≤ '/' then designation
      else if '0' ≤ c ∧ c ≤ '~' then text
      else escape
    | designation => if '0' ≤ c ∧ c ≤ '~' then text else designation
    | control => if '@' ≤ c ∧ c ≤ '~' then text else control
    | device =>
      if '@' ≤ c ∧ c ≤ '~' then string
      else if '0' ≤ c ∧ c ≤ '?' then deviceParameters
      else if ' ' ≤ c ∧ c ≤ '/' then deviceDesignation
      else device
    | deviceParameters =>
      if '<' ≤ c ∧ c ≤ '~' then string
      else if ' ' ≤ c ∧ c ≤ '/' then deviceDesignation
      else deviceParameters
    | deviceDesignation => if '0' ≤ c ∧ c ≤ '~' then string else deviceDesignation
    | string => if hasTerminator c then text else string
    | title => if c = '\x07' then text else title

def shows (state : State) (c : Char) : Bool :=
  match state with
  | text => isGraphic c || isBlank c
  | escape | designation | control => isBlank c
  | device | deviceParameters | deviceDesignation | string | title => false

end State

/-- A blank inside a sequence suspends it: what follows is left like text, up to a control
character, with which the sequence goes on, or a character outside ASCII, which ends it. -/
def plainFrom (state : State) (suspended : Bool) : List Char → List Char
  | [] => []
  | c :: rest =>
    if (if suspended then State.text else state).shows c then
      c :: plainFrom (if c.toNat < 0x80 then state else .text) true rest
    else plainFrom (state.next c) false rest

def plain (text : List Char) : List Char :=
  plainFrom .text false text

end GolombSet.Terminal
