/-!
# Text as bytes

Texts are stored in UTF-8. `Utf8.decode` reads bytes back and refuses those that are no UTF-8 with
the place and the reason; `Utf8.decodeLossy` puts the replacement character in place of each
refused sequence. A sequence is refused as soon as a byte cannot continue it, and the bytes before
that byte are what is refused.
-/

namespace Branchwork.Utf8

/-- Why bytes are refused. -/
inductive Reason where
  | badStart
  | badContinuation
  | cutShort
deriving DecidableEq, Repr

/-- A refused sequence: its first byte, its place and its length. -/
structure Fault where
  first : UInt8
  position : Nat
  length : Nat
  reason : Reason
deriving DecidableEq, Repr

/-- The words for a reason. -/
def Reason.message : Reason → String
  | .badStart => "invalid start byte"
  | .badContinuation => "invalid continuation byte"
  | .cutShort => "unexpected end of data"

/-- What is at the front of a list of bytes: a character of `length` bytes, or a refused sequence
of `length` bytes. -/
inductive Sequence where
  | char (c : Char) (length : Nat)
  | bad (reason : Reason) (length : Nat)
deriving DecidableEq, Repr

/-- Whether a byte continues a sequence. -/
def isContinuation (b : UInt8) : Bool := 0x80 ≤ b && b ≤ 0xbf

/-- Whether the second byte fits the first one: no overlong forms, no halves of pairs, and nothing
beyond the last code point. -/
def isSecond (first second : UInt8) : Bool :=
  isContinuation second &&
    !((first = 0xe0 && second < 0xa0) || (first = 0xed && 0xa0 ≤ second) ||
      (first = 0xf0 && second < 0x90) || (first = 0xf4 && 0x90 ≤ second))

/-- The number of bytes that a first byte asks for; none if it starts no sequence. -/
def lengthOf? (first : UInt8) : Option Nat :=
  if first < 0x80 then some 1
  else if first < 0xc2 then none
  else if first < 0xe0 then some 2
  else if first < 0xf0 then some 3
  else if first < 0xf5 then some 4
  else none

/-- The bits of a continuing byte. -/
def low (b : UInt8) : Nat := b.toNat % 64

/-- The sequence that starts with `first`. -/
def sequence (first : UInt8) (rest : List UInt8) : Sequence :=
  match lengthOf? first, rest with
  | none, _ => .bad .badStart 1
  | some 1, _ => .char (Char.ofNat first.toNat) 1
  | some _, [] => .bad .cutShort 1
  | some n, b :: rest =>
    if !isSecond first b then .bad .badContinuation 1
    else if n = 2 then .char (Char.ofNat (first.toNat % 32 * 64 + low b)) 2
    else
      match rest with
      | [] => .bad .cutShort 2
      | c :: rest =>
        if !isContinuation c then .bad .badContinuation 2
        else if n = 3 then .char (Char.ofNat ((first.toNat % 16 * 64 + low b) * 64 + low c)) 3
        else
          match rest with
          | [] => .bad .cutShort 3
          | d :: _ =>
            if !isContinuation d then .bad .badContinuation 3
            else .char (Char.ofNat (((first.toNat % 8 * 64 + low b) * 64 + low c) * 64 + low d)) 4

/-- Reads bytes from a position on; the next `skip` bytes belong to a sequence already read. -/
def decodeFrom (position : Nat) : (skip : Nat) → List UInt8 → Except Fault (List Char)
  | _, [] => .ok []
  | skip + 1, _ :: rest => decodeFrom (position + 1) skip rest
  | 0, b :: rest =>
    match sequence b rest with
    | .char c length => (decodeFrom (position + 1) (length - 1) rest).map (c :: ·)
    | .bad reason length => .error ⟨b, position, length, reason⟩

/-- Reads bytes with the replacement character in place of each refused sequence. -/
def decodeLossyFrom : (skip : Nat) → List UInt8 → List Char
  | _, [] => []
  | skip + 1, _ :: rest => decodeLossyFrom skip rest
  | 0, b :: rest =>
    match sequence b rest with
    | .char c length => c :: decodeLossyFrom (length - 1) rest
    | .bad _ length => '\ufffd' :: decodeLossyFrom (length - 1) rest

/-- The text that bytes stand for. -/
def decode (bytes : List UInt8) : Except Fault String :=
  (decodeFrom 0 0 bytes).map String.ofList

/-- The text that bytes stand for, as far as it can be read. -/
def decodeLossy (bytes : List UInt8) : String := String.ofList (decodeLossyFrom 0 bytes)

/-- The bytes of a text. -/
def encode (s : String) : List UInt8 := s.toList.flatMap String.utf8EncodeChar

end Branchwork.Utf8

namespace Branchwork.Text

/-- Writes every line end as one line feed. -/
def unifyLineEnds : List Char → List Char
  | [] => []
  | '\r' :: '\n' :: rest => '\n' :: unifyLineEnds rest
  | c :: rest => (if c = '\r' then '\n' else c) :: unifyLineEnds rest

end Branchwork.Text
