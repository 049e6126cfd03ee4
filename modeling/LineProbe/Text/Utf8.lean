import LineProbe.Text.Quoted

/-!
# UTF-8

Decoding one byte at a time.
-/

namespace LineProbe

abbrev Byte := UInt8

namespace Utf8

structure Partial where
  read : Nat
  missing : Nat
  low : Nat
  high : Nat
  bits : Nat
deriving DecidableEq, Repr

inductive State where
  | between
  | inside (part : Partial)
deriving DecidableEq, Repr

inductive First where
  | char (c : Char)
  | opens (part : Partial)
  | invalid
deriving DecidableEq, Repr

def first (byte : Byte) : First :=
  let b := byte.toNat
  if b < 0x80 then .char (Char.ofNat b)
  else if b < 0xc2 then .invalid
  else if b < 0xe0 then .opens ⟨1, 1, 0x80, 0xbf, b - 0xc0⟩
  else if b < 0xf0 then
    .opens ⟨1, 2, if b = 0xe0 then 0xa0 else 0x80, if b = 0xed then 0x9f else 0xbf, b - 0xe0⟩
  else if b < 0xf5 then
    .opens ⟨1, 3, if b = 0xf0 then 0x90 else 0x80, if b = 0xf4 then 0x8f else 0xbf, b - 0xf0⟩
  else .invalid

def Partial.accepts (part : Partial) (byte : Byte) : Bool :=
  part.low ≤ byte.toNat && byte.toNat ≤ part.high

def Partial.push (part : Partial) (byte : Byte) : Partial :=
  ⟨part.read + 1, part.missing - 1, 0x80, 0xbf, part.bits * 64 + (byte.toNat - 0x80)⟩

def replacement : Char := '�'

/-! ## Replacing what is malformed -/

def stepBetween (byte : Byte) : Text × State :=
  match first byte with
  | .char c => ([c], .between)
  | .opens part => ([], .inside part)
  | .invalid => ([replacement], .between)

def step : State → Byte → Text × State
  | .between, byte => stepBetween byte
  | .inside part, byte =>
    if part.accepts byte then
      let part := part.push byte
      if part.missing = 0 then ([Char.ofNat part.bits], .between) else ([], .inside part)
    else
      let (text, state) := stepBetween byte
      (replacement :: text, state)

def decode : State → List Byte → Text × State
  | state, [] => ([], state)
  | state, byte :: bytes =>
    let (text, state) := step state byte
    let (later, state) := decode state bytes
    (text ++ later, state)

def finish : State → Text
  | .between => []
  | .inside _ => [replacement]

def decodeAll (bytes : List Byte) : Text :=
  let (text, state) := decode .between bytes
  text ++ finish state

theorem decode_append (state : State) (first last : List Byte) :
    decode state (first ++ last) =
      ((decode state first).1 ++ (decode (decode state first).2 last).1,
        (decode (decode state first).2 last).2) := by
  induction first generalizing state with
  | nil => simp [decode]
  | cons byte bytes ih => simp [decode, ih]

/-! ## Refusing what is malformed -/

inductive Fault where
  | invalidStart
  | invalidContinuation
  | endOfData
deriving DecidableEq, Repr

structure Error where
  position : Nat
  bytes : List Byte
  fault : Fault
deriving DecidableEq, Repr

def Fault.text : Fault → Text
  | .invalidStart => "invalid start byte"
  | .invalidContinuation => "invalid continuation byte"
  | .endOfData => "unexpected end of data"

def Error.message (error : Error) : Text :=
  let place : Text :=
    match error.bytes with
    | [byte] => "byte 0x" ++ Text.hex 2 byte.toNat ++ " in position " ++ Text.ofNat error.position
    | bytes => "bytes in position " ++ Text.ofNat error.position ++ "-" ++
        Text.ofNat (error.position + bytes.length - 1)
  "'utf-8' codec can't decode " ++ place ++ ": " ++ error.fault.text

def decodeStrict (position : Nat) (read : List Byte) : State → List Byte → Except Error Text
  | .between, [] => .ok []
  | .inside _, [] => .error ⟨position - read.length, read, .endOfData⟩
  | .between, byte :: bytes =>
    match first byte with
    | .char c => do
      let later ← decodeStrict (position + 1) [] .between bytes
      return c :: later
    | .opens part => decodeStrict (position + 1) [byte] (.inside part) bytes
    | .invalid => .error ⟨position, [byte], .invalidStart⟩
  | .inside part, byte :: bytes =>
    if part.accepts byte then
      let part := part.push byte
      if part.missing = 0 then do
        let later ← decodeStrict (position + 1) [] .between bytes
        return Char.ofNat part.bits :: later
      else decodeStrict (position + 1) (read ++ [byte]) (.inside part) bytes
    else .error ⟨position - read.length, read, .invalidContinuation⟩

def decode? (bytes : List Byte) : Except Error Text :=
  decodeStrict 0 [] .between bytes

def encode (text : Text) : List Byte :=
  (String.ofList text).toUTF8.toList

end Utf8

end LineProbe
