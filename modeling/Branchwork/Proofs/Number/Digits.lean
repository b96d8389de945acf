import Branchwork.Proofs.Number.Numeral

/-!
# Integers in the digits of any script

A text of digits reads as an integer if each of them is a decimal digit, of whatever script, and they
are not too many; ornamental digits, such as superscripts, stand for no place of a number. Of a text
with both, the decimal digits in front are counted before the first ornamental one is refused.

Main result: `int?_of_anyDigit`.
-/

namespace Branchwork

namespace Text

variable {c : Char}

theorem decimalDigit?_le {d : Nat} (h : decimalDigit? c = some d) : d ≤ 9 := by
  obtain ⟨first, found, rfl⟩ := Option.map_eq_some_iff.mp h
  have within := List.find?_some found
  simp only [Bool.and_eq_true, decide_eq_true_eq] at within
  omega

/-- The codes of the blanks. -/
def blankCodes : List Nat :=
  [0x20, 0x09, 0x0a, 0x0b, 0x0c, 0x0d, 0x1c, 0x1d, 0x1e, 0x1f, 0x85, 0xa0, 0x1680, 0x2000, 0x2001,
    0x2002, 0x2003, 0x2004, 0x2005, 0x2006, 0x2007, 0x2008, 0x2009, 0x200a, 0x2028, 0x2029, 0x202f,
    0x205f, 0x3000]

theorem mem_blankCodes (h : isBlank c = true) : c.toNat ∈ blankCodes := by
  simp only [isBlank, isWideBlank, Bool.or_eq_true, Bool.and_eq_true, beq_iff_eq,
    decide_eq_true_eq] at h
  simp only [blankCodes, List.mem_cons, List.not_mem_nil, or_false]
  omega

theorem isBlank_of_isAnyDigit (h : isAnyDigit c = true) : isBlank c = false := by
  have apart : ∀ n ∈ blankCodes, isAnyDigit (Char.ofNat n) = false := by decide
  by_contra blank
  have none := apart c.toNat (mem_blankCodes (Bool.eq_true_of_not_eq_false blank))
  rw [Char.ofNat_toNat, h] at none
  cases none

end Text

namespace Literal

open Text

/-! ## Digits one by one -/

/-- A decimal digit as an ASCII digit; every other character stays. -/
def plain (c : Char) : Char := ((decimalDigit? c).map fun d => Char.ofNat (48 + d)).getD c

theorem plainDigits_eq (s : List Char) : plainDigits s = s.map plain := rfl

theorem digitBelow?_ofNat {d : Nat} (h : d ≤ 9) :
    digitBelow? 10 (Char.ofNat (48 + d)) = some d ∧ isAnyDigit (Char.ofNat (48 + d)) = true := by
  revert d
  decide

theorem digitBelow?_of_not_decimal {c : Char} (h : decimalDigit? c = none) :
    digitBelow? 10 c = none := by
  have notAscii : c.isDigit = false := by
    by_contra digit
    rw [decimalDigit?_of_isDigit (Bool.eq_true_of_not_eq_false digit)] at h
    cases h
  have from_code {lo : Char} (above : lo ≤ c) : lo.toNat ≤ c.toNat := UInt32.le_iff_toNat_le.mp above
  rw [digitBelow?, if_neg (by simp [notAscii]), Option.filter_eq_none_iff]
  intro value found
  -- letters stand for ten and more
  rw [decide_eq_true_eq]
  split at found
  · rename_i letter
    cases found
    have code := from_code (Bool.and_eq_true_iff.mp letter |>.1 |> of_decide_eq_true)
    rw [show 'a'.toNat = 97 from rfl] at code
    omega
  · split at found
    · rename_i letter
      cases found
      have code := from_code (Bool.and_eq_true_iff.mp letter |>.1 |> of_decide_eq_true)
      rw [show 'A'.toNat = 65 from rfl] at code
      omega
    · cases found

/-- The place value of a digit does not depend on its script. -/
theorem digitBelow?_plain (c : Char) : digitBelow? 10 (plain c) = decimalDigit? c := by
  unfold plain
  cases h : decimalDigit? c with
  | none => exact digitBelow?_of_not_decimal h
  | some d => exact (digitBelow?_ofNat (decimalDigit?_le h)).1

theorem isAnyDigit_plain {c : Char} (h : isAnyDigit c = true) : isAnyDigit (plain c) = true := by
  unfold plain
  cases value : decimalDigit? c with
  | none => exact h
  | some d => exact (digitBelow?_ofNat (decimalDigit?_le value)).2

/-! ## Texts of digits -/

/-- The decimal digits at the front of a text. -/
def leadingDigits (s : List Char) : List Char := s.takeWhile fun c => (decimalDigit? c).isSome

/-- The number that decimal digits of any scripts stand for. -/
def digitsNumber (digits : List Char) : Nat :=
  digits.foldl (fun n c => 10 * n + (decimalDigit? c).getD 0) 0

theorem leadingDigits_eq_self_iff {s : List Char} :
    leadingDigits s = s ↔ ∀ c ∈ s, (decimalDigit? c).isSome = true := by
  rw [leadingDigits, List.takeWhile_eq_self_iff]

section

variable {part : List Char} (digits : ∀ c ∈ part, isAnyDigit c = true)

include digits

theorem not_mem_plainDigits {c : Char} (other : isAnyDigit c = false) : c ∉ part.map plain := by
  intro mem
  obtain ⟨d, inside, rfl⟩ := List.mem_map.mp mem
  rw [isAnyDigit_plain (digits d inside)] at other
  cases other

theorem trim_anyDigit : trim part = part :=
  trim_of_ends (fun c first => isBlank_of_isAnyDigit (digits c (List.mem_of_mem_head? first)))
    fun c last => isBlank_of_isAnyDigit (digits c (List.mem_of_mem_getLast? last))

theorem takeSign_anyDigit : takeSign (part.map plain) = (false, part.map plain) := by
  have minus := not_mem_plainDigits digits (c := '-') (by decide)
  have plus := not_mem_plainDigits digits (c := '+') (by decide)
  cases text : part.map plain with
  | nil => rfl
  | cons c rest =>
    rw [text, List.mem_cons, not_or] at minus plus
    rw [takeSign, if_neg (Ne.symm minus.1), if_neg (Ne.symm plus.1)]

theorem takeWhile_plainDigits :
    (part.map plain).takeWhile (fun c => (digitBelow? 10 c).isSome || c = '_') =
      (leadingDigits part).map plain := by
  induction part with
  | nil => rfl
  | cons c rest ih =>
    have mark := not_mem_plainDigits digits (c := '_') (by decide)
    rw [List.map_cons, List.mem_cons, not_or] at mark
    have digit : ((digitBelow? 10 (plain c)).isSome || decide (plain c = '_')) =
        (decimalDigit? c).isSome := by
      rw [digitBelow?_plain, decide_eq_false (Ne.symm mark.1), Bool.or_false]
    rw [List.map_cons, List.takeWhile_cons, digit, leadingDigits, List.takeWhile_cons]
    split
    · rw [ih fun d mem => digits d (List.mem_cons_of_mem _ mem), List.map_cons, leadingDigits]
    · rfl

end

theorem dropBaseMark_ten (s : List Char) : dropBaseMark 10 s = s := by
  unfold dropBaseMark
  split
  · exact if_neg nofun
  · rfl

theorem digitsNumber_eq (s : List Char) :
    (s.map plain).foldl (fun n c => 10 * n + (digitBelow? 10 c).getD 0) 0 = digitsNumber s := by
  rw [List.foldl_map, digitsNumber]
  congr 2
  funext n c
  rw [digitBelow?_plain]

/-- How a text of digits is read. -/
theorem int?_of_anyDigit {part : List Char} (ne : part ≠ [])
    (digits : ∀ c ∈ part, isAnyDigit c = true) :
    int? 10 part =
      if DigitLimit.greatest < (leadingDigits part).length then
        .error (.tooManyDigits (leadingDigits part).length)
      else if leadingDigits part = part then .ok (digitsNumber part)
      else .error .notDigits := by
  have leading : leadingDigits part <+: part := List.takeWhile_prefix _
  have marks : '_' ∉ (leadingDigits part).map plain := fun mem =>
    not_mem_plainDigits digits (by decide)
      (List.map_subset _ leading.subset mem)
  unfold int?
  rw [trim_anyDigit digits, plainDigits_eq, takeSign_anyDigit digits]
  dsimp only
  rw [dropBaseMark_ten, takeWhile_plainDigits digits, Numeral.dropMarks?_eq_self marks]
  dsimp only
  rw [List.length_map, List.length_map, decide_eq_true (rfl : 10 = 10), Bool.true_and]
  simp only [decide_eq_true_eq]
  split
  · rfl
  by_cases whole : leadingDigits part = part
  · have some_digit : ¬ ((part.map plain).isEmpty || decide (part.length < part.length)) = true := by
      simp [ne]
    rw [whole, if_neg some_digit, if_pos rfl, digitsNumber_eq]
    rfl
  · -- the leading digits end before the text does
    have short : (leadingDigits part).length < part.length :=
      Nat.lt_of_le_of_ne leading.length_le fun same => whole (leading.eq_of_length same)
    rw [if_pos (by simp [short]), if_neg whole]

end Literal

end Branchwork
