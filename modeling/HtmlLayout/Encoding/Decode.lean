import HtmlLayout.Encoding.Label

/-!
# Bytes as text

Decoding never fails: what is not well formed becomes a replacement character. In UTF-8 the longest
part that could still have become a character is replaced as a whole; in UTF-16 a surrogate without
its partner is. A sequence that the end of the input leaves incomplete is dropped.
-/

namespace HtmlLayout.Encoding

def replacement : Char := '\ufffd'

/-! ### UTF-8 -/

/-- A sequence of UTF-8 that has been started: how many bytes are missing, the bits so far, and the bounds of the next byte. -/
structure Sequence where
  missing : Nat
  bits : Nat
  low : Nat := 0x80
  high : Nat := 0xBF
  deriving DecidableEq, Repr, Inhabited

/-- What a byte starts: a character of its own, a sequence, or nothing. -/
inductive Start where
  | char (c : Char)
  | sequence (s : Sequence)
  | invalid
  deriving Inhabited

/-- What a byte starts in UTF-8. -/
def startOf (byte : UInt8) : Start :=
  let b := byte.toNat
  if b < 0x80 then .char (Char.ofNat b)
  else if b < 0xC2 then .invalid
  else if b < 0xE0 then .sequence { missing := 1, bits := b % 0x20 }
  else if b == 0xE0 then .sequence { missing := 2, bits := 0, low := 0xA0 }
  else if b == 0xED then .sequence { missing := 2, bits := 0xD, high := 0x9F }
  else if b < 0xF0 then .sequence { missing := 2, bits := b % 0x10 }
  else if b == 0xF0 then .sequence { missing := 3, bits := 0, low := 0x90 }
  else if b < 0xF4 then .sequence { missing := 3, bits := b % 8 }
  else if b == 0xF4 then .sequence { missing := 3, bits := 4, high := 0x8F }
  else .invalid

/-- Decodes UTF-8, in the midst of a sequence or not. -/
def decodeUtf8From : Option Sequence → List UInt8 → List Char
  | _, [] => []
  | pending, byte :: rest =>
      let fresh : Start → List Char
        | .char c => c :: decodeUtf8From none rest
        | .sequence s => decodeUtf8From (some s) rest
        | .invalid => replacement :: decodeUtf8From none rest
      match pending with
      | none => fresh (startOf byte)
      | some s =>
          let b := byte.toNat
          if s.low ≤ b && b ≤ s.high then
            let bits := s.bits * 0x40 + b % 0x40
            if s.missing ≤ 1 then Char.ofNat bits :: decodeUtf8From none rest
            else decodeUtf8From (some { missing := s.missing - 1, bits }) rest
          else replacement :: fresh (startOf byte)

def decodeUtf8 (bytes : List UInt8) : List Char := decodeUtf8From none bytes

/-! ### UTF-16 -/

/-- The units of two bytes; a last byte without a partner is dropped. -/
def unitsOf (littleEndian : Bool) : List UInt8 → List Nat
  | a :: b :: rest =>
      (if littleEndian then b.toNat * 0x100 + a.toNat else a.toNat * 0x100 + b.toNat) :: unitsOf littleEndian rest
  | _ => []

/-- Whether a unit is the first of a pair. -/
def isHigh (unit : Nat) : Bool := 0xD800 ≤ unit && unit < 0xDC00

def isLow (unit : Nat) : Bool := 0xDC00 ≤ unit && unit < 0xE000

/-- Decodes units, given the first of a pair if one is pending. -/
def decodeUnits : Option Nat → List Nat → List Char
  | _, [] => []
  | some high, unit :: rest =>
      if isLow unit then
        Char.ofNat (0x10000 + (high - 0xD800) * 0x400 + (unit - 0xDC00)) :: decodeUnits none rest
      else if isHigh unit then replacement :: decodeUnits (some unit) rest
      else replacement :: Char.ofNat unit :: decodeUnits none rest
  | none, unit :: rest =>
      if isHigh unit then decodeUnits (some unit) rest
      else if isLow unit then replacement :: decodeUnits none rest
      else Char.ofNat unit :: decodeUnits none rest

/-! ### One byte for each character -/

/-- The characters of the upper control range, zero where there is none. -/
def windowsUpper : List Nat :=
  [0x20AC, 0, 0x201A, 0x0192, 0x201E, 0x2026, 0x2020, 0x2021, 0x02C6, 0x2030, 0x0160, 0x2039, 0x0152, 0, 0x017D, 0,
    0, 0x2018, 0x2019, 0x201C, 0x201D, 0x2022, 0x2013, 0x2014, 0x02DC, 0x2122, 0x0161, 0x203A, 0x0153, 0, 0x017E, 0x0178]

def windowsChar (byte : UInt8) : Char :=
  let b := byte.toNat
  if 0x80 ≤ b && b < 0xA0 then
    match windowsUpper[b - 0x80]? with
    | some 0 => replacement
    | some n => Char.ofNat n
    | none => replacement
  else Char.ofNat b

def decode (encoding : Encoding) (bytes : List UInt8) : List Char :=
  match encoding with
  | utf8 => decodeUtf8 bytes
  | utf16le => decodeUnits none (unitsOf true bytes)
  | utf16be => decodeUnits none (unitsOf false bytes)
  | windows1252 => bytes.map windowsChar

end HtmlLayout.Encoding
