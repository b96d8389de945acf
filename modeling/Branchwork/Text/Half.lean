import Branchwork.Text.Hex

/-!
# Halves of characters

A character beyond the 16-bit range may be spelt as two codes, its halves. A code of a half without
the other half spells no character. A text may hold one nevertheless: there it is kept as its
stand-in, the character of the last private plane whose code lies `0x100000` above that of the half.

Main statement: `half?_standIn`, a stand-in tells which half it stands for.
-/

namespace Branchwork.Text

/-- Whether a code is the first half of a pair that stands for one character. -/
def isHighHalf (n : Nat) : Bool := 0xd800 ≤ n && n ≤ 0xdbff

/-- Whether a code is the second half of a pair that stands for one character. -/
def isLowHalf (n : Nat) : Bool := 0xdc00 ≤ n && n ≤ 0xdfff

/-- The code that two halves stand for. -/
def joinHalves (high low : Nat) : Nat := 0x10000 + (high - 0xd800) * 0x400 + (low - 0xdc00)

/-- The distance from the code of a half to that of its stand-in. -/
def standInOffset : Nat := 0x100000

/-- The character that stands for a half. -/
def standIn (half : Nat) : Char := Char.ofNat (standInOffset + half)

/-- The half that a character stands for, if it is a stand-in. -/
def half? (c : Char) : Option Nat :=
  if c.toNat < standInOffset then none
  else
    let code := c.toNat - standInOffset
    if isHighHalf code || isLowHalf code then some code else none

/-- The character with a code; a stand-in for the code of a half. -/
def charOfCode (n : Nat) : Char := if n.isValidChar then Char.ofNat n else standIn n

/-! ## Halves in texts

A text with halves cannot be stored. The halves from `0xdc80` to `0xdcff` may stand in names, where
each of them is the name of a byte. -/

/-- Whether a text holds no halves. -/
def isWhole (s : List Char) : Bool := s.all fun c => (half? c).isNone

/-- Whether a half is the name of a byte. -/
def isByteHalf (half : Nat) : Bool := 0xdc80 ≤ half && half ≤ 0xdcff

/-- Halves in a row that stand in the way of storing a text: the first one, its place, and how many
there are. -/
structure LoneHalves where
  first : Nat
  position : Nat
  count : Nat
deriving DecidableEq, Repr

/-- The first halves in the way of storing a text that starts at a position, except for those that
may stand there. -/
def loneHalves? (mayStand : Nat → Bool) (position : Nat) : List Char → Option LoneHalves
  | [] => none
  | c :: rest =>
    match (half? c).filter (!mayStand ·) with
    | some first => some ⟨first, position, 1 + (rest.takeWhile fun c => (half? c).isSome).length⟩
    | none => loneHalves? mayStand (position + 1) rest

/-- The halves in the way of storing a text. -/
def unstorable? (s : String) : Option LoneHalves := loneHalves? (fun _ => false) 0 s.toList

/-- The halves in the way of using a text as a name. -/
def unnamable? (s : String) : Option LoneHalves := loneHalves? isByteHalf 0 s.toList

/-- The halves in words. -/
def LoneHalves.message (found : LoneHalves) : String :=
  let place :=
    if found.count = 1 then
      let code := String.ofList (hexDigits 4 found.first)
      s!"character '\\u{code}' in position {found.position}"
    else s!"characters in position {found.position}-{found.position + found.count - 1}"
  s!"'utf-8' codec can't encode {place}: surrogates not allowed"

theorem half?_standIn (half : Nat) (h : isHighHalf half ∨ isLowHalf half) :
    half? (standIn half) = some half := by
  have range : 0xd800 ≤ half ∧ half ≤ 0xdfff := by
    rcases h with h | h <;> simp [isHighHalf, isLowHalf] at h <;> omega
  have valid : (standInOffset + half).isValidChar := by
    unfold standInOffset
    right
    omega
  have code : (standIn half).toNat = standInOffset + half := by
    rw [standIn, Char.ofNat, dif_pos valid]
    rfl
  have either : (isHighHalf half || isLowHalf half) = true := by simpa using h
  simp [half?, code, either]

end Branchwork.Text
