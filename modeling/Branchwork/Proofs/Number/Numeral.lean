import Branchwork.Json.Reader
import Branchwork.Json.Writer
import Branchwork.Number.Literal
import Branchwork.Proofs.Number.Shortest
import Branchwork.Proofs.Text.Blank
import Mathlib.Data.Bool.AllAny
import Mathlib.Data.List.DropRight
import Mathlib.Tactic.Common
import Mathlib.Tactic.IntervalCases

/-!
# Numbers as text and back

A number is written as a numeral: digits, perhaps a point with digits behind it, perhaps an exponent.
No numeral has a zero in front of further digits, and nothing else can be read off its text, so a
numeral that is followed by something else is read up to its end.

Main results:

* `Numeral.unsigned_text`, `Numeral.float?_signed` — what a numeral is read as.
* `Json.scalar_int`, `Json.scalar_float` — integers and floating-point numbers are read back from JSON.
* `Literal.float?_text` — and so is a floating-point number from its plain text.
-/

namespace Branchwork

/-! ## Numerals -/

/-- A numeral without its sign: the digits before the point, the digits behind it, and the sign and
the digits of the exponent. -/
structure Numeral where
  whole : List Char
  places : List Char
  power? : Option (Bool × List Char)
  whole_ne : whole ≠ []
  whole_digits : ∀ c ∈ whole, c.isDigit = true
  /-- A zero in front stands alone. -/
  whole_zero : whole.head? = some '0' → whole = ['0']
  places_digits : ∀ c ∈ places, c.isDigit = true
  power_ne : ∀ power ∈ power?, power.2 ≠ []
  power_digits : ∀ power ∈ power?, ∀ c ∈ power.2, c.isDigit = true

namespace Numeral

/-- The point and the digits behind it. -/
def pointText (n : Numeral) : List Char := if n.places.isEmpty then [] else '.' :: n.places

/-- The exponent. -/
def powerText (n : Numeral) : List Char :=
  match n.power? with
  | none => []
  | some (negative, digits) => 'e' :: (if negative then '-' else '+') :: digits

/-- The text of a numeral. -/
def text (n : Numeral) : List Char := n.whole ++ (n.pointText ++ n.powerText)

/-- The exponent as a number. -/
def power (n : Numeral) : Int :=
  match n.power? with
  | none => 0
  | some (negative, digits) =>
    if negative then -(Json.decimalNumber digits : Int) else Json.decimalNumber digits

/-- The decimal that a numeral with a sign stands for. -/
def decimal (negative : Bool) (n : Numeral) : Decimal :=
  ⟨negative, Json.decimalNumber (n.whole ++ n.places), n.power - n.places.length⟩

/-- Whether a text cannot go on with a number that stands before it. -/
def Ends (rest : List Char) : Prop :=
  ∀ c ∈ rest.head?, c.isDigit = false ∧ c ≠ '.' ∧ c ≠ 'e' ∧ c ≠ 'E'

section

variable {n : Numeral} {rest : List Char}

theorem ends_powerText (ends : Ends rest) :
    ∀ c ∈ (n.powerText ++ rest).head?, c.isDigit = false ∧ c ≠ '.' := by
  unfold powerText
  split
  · exact fun c first => ⟨(ends c first).1, (ends c first).2.1⟩
  · intro c first
    cases first
    decide

theorem ends_pointText (ends : Ends rest) :
    ∀ c ∈ (n.pointText ++ (n.powerText ++ rest)).head?, c.isDigit = false := by
  unfold pointText
  split
  · exact fun c first => (ends_powerText ends c first).1
  · intro c first
    cases first
    rfl

theorem ne_of_isDigit {c d : Char} (digit : d.isDigit = true) (other : c.isDigit = false) : d ≠ c := by
  rintro rfl
  rw [digit] at other
  cases other

theorem exists_text (n : Numeral) : ∃ d more, n.text = d :: more ∧ d.isDigit = true := by
  obtain ⟨d, more, whole⟩ := List.exists_cons_of_ne_nil n.whole_ne
  refine ⟨d, more ++ (n.pointText ++ n.powerText), by rw [text, whole, List.cons_append], ?_⟩
  exact n.whole_digits d (whole ▸ List.mem_cons_self)

/-- The characters of numerals and their signs. -/
def letters : List Char :=
  ['0', '1', '2', '3', '4', '5', '6', '7', '8', '9', '.', 'e', '+', '-']

theorem mem_letters_of_isDigit {c : Char} (digit : c.isDigit = true) : c ∈ letters := by
  obtain ⟨low, high⟩ : 48 ≤ c.toNat ∧ c.toNat ≤ 57 := Char.isDigit_iff_toNat.mp digit
  rw [← Char.ofNat_toNat c]
  generalize c.toNat = code at low high
  interval_cases code <;> decide

theorem mem_letters {c : Char} (mem : c ∈ n.text) : c ∈ letters := by
  rcases List.mem_append.mp mem with mem | mem
  · exact mem_letters_of_isDigit (n.whole_digits c mem)
  rcases List.mem_append.mp mem with mem | mem
  · unfold pointText at mem
    split at mem
    · cases mem
    · rcases List.mem_cons.mp mem with rfl | mem
      · decide
      · exact mem_letters_of_isDigit (n.places_digits c mem)
  · unfold powerText at mem
    split at mem
    · cases mem
    · rename_i negative digits power
      rcases List.mem_cons.mp mem with rfl | mem
      · decide
      rcases List.mem_cons.mp mem with rfl | mem
      · cases negative <;> decide
      · exact mem_letters_of_isDigit (n.power_digits (negative, digits) power c mem)

/-! ## Numerals in documents -/

theorem fraction_eq (ends : Ends rest) :
    Json.fraction (n.pointText ++ (n.powerText ++ rest)) = (n.places, n.powerText ++ rest) := by
  have behind := ends_powerText (n := n) ends
  unfold pointText
  split
  · rename_i none
    rw [List.isEmpty_iff.mp none, List.nil_append]
    unfold Json.fraction
    split
    · rename_i same
      exact absurd rfl (behind '.' (by rw [same]; rfl)).2
    · rfl
  · rename_i some
    have digits := fun c first => (behind c first).1
    simp only [Json.fraction, List.cons_append, Text.takeWhile_run n.places_digits digits,
      Text.dropWhile_run n.places_digits digits, if_neg some]

theorem exponent?_eq (ends : Ends rest) :
    Json.exponent? (n.powerText ++ rest) = (n.power?.map fun _ => n.power, rest) := by
  unfold powerText power
  split
  · rename_i none
    rw [none, List.nil_append]
    cases rest with
    | nil => rfl
    | cons c rest =>
      obtain ⟨-, -, small, great⟩ := ends c rfl
      simp [Json.exponent?, small, great]
  · rename_i negative digits some
    have all := n.power_digits _ some
    have ne := n.power_ne _ some
    have stops := fun c first => (ends c first).1
    rw [some]
    cases negative <;>
      simp [Json.exponent?, Text.takeWhile_run all stops, Text.dropWhile_run all stops, ne]

theorem takeWhile_text (ends : Ends rest) :
    (n.text ++ rest).takeWhile Char.isDigit = n.whole := by
  rw [text, List.append_assoc, List.append_assoc]
  exact Text.takeWhile_run n.whole_digits (ends_pointText ends)

theorem whole_of_zero {tail : List Char} (first : n.text ++ rest = '0' :: tail) :
    n.whole = ['0'] := by
  rw [text, List.append_assoc] at first
  apply n.whole_zero
  rw [← List.head?_append_of_ne_nil _ n.whole_ne, first]
  rfl

theorem drop_whole : (n.text ++ rest).drop n.whole.length =
    n.pointText ++ (n.powerText ++ rest) := by
  rw [text, List.append_assoc, List.append_assoc, List.drop_left]

/-- What a numeral in a document is read as: digits alone as an integer, if there are not too many of
them, and every other numeral as the floating-point number nearest to its decimal. -/
theorem unsigned_text (ends : Ends rest) (negative : Bool) (start : List Char) :
    Json.unsigned negative start (n.text ++ rest) =
      if n.places = [] ∧ n.power? = none then
        if DigitLimit.greatest < n.whole.length then .error ⟨.tooManyDigits n.whole.length, 0⟩
        else
          .ok (.int (if negative then -(Json.decimalNumber n.whole : Int) else
            Json.decimalNumber n.whole), rest)
      else .ok (.float (n.decimal negative).toBinary64, rest) := by
  have power : (n.power?.map fun _ => n.power).getD 0 = n.power := by
    unfold Numeral.power
    cases n.power? <;> rfl
  have run := takeWhile_text (n := n) ends
  unfold Json.unsigned
  split
  · -- a zero in front is all that is read of the whole part, and here it is all there is of it
    rename_i first
    rw [← whole_of_zero first]
    simp [n.whole_ne, drop_whole, fraction_eq ends, exponent?_eq ends, power, decimal]
  · simp [run, n.whole_ne, drop_whole, fraction_eq ends, exponent?_eq ends, power, decimal]

/-- A numeral with its sign. -/
def signed (negative : Bool) (n : Numeral) : List Char :=
  if negative then '-' :: n.text else n.text

theorem mem_signed {negative : Bool} {c : Char} (mem : c ∈ n.signed negative) : c ∈ letters := by
  cases negative with
  | true => exact (List.mem_cons.mp mem).elim (fun same => same ▸ by decide) mem_letters
  | false => exact mem_letters mem

/-- No word of a document begins as a number does. -/
theorem find?_keywords (negative : Bool) :
    Json.keywords.find? (fun (word, _) => word.isPrefixOf (n.signed negative ++ rest)) = none := by
  obtain ⟨d, more, text, digit⟩ := n.exists_text
  have apart : ∀ c : Char, c.isDigit = false → c ≠ d := fun c other =>
    (ne_of_isDigit digit other).symm
  rw [List.find?_eq_none]
  simp only [Json.keywords, signed, text]
  cases negative <;>
    simp [apart 'n' rfl, apart 't' rfl, apart 'f' rfl, apart 'N' rfl, apart 'I' rfl, apart '-' rfl]

theorem scalar_signed (negative : Bool) : Json.scalar (n.signed negative ++ rest) =
    Json.unsigned negative (n.signed negative ++ rest) (n.text ++ rest) := by
  have words : Json.keywords.find? (fun (word, _) =>
      word.isPrefixOf (n.signed negative ++ rest)) = none := find?_keywords negative
  obtain ⟨d, more, text, digit⟩ := n.exists_text
  unfold Json.scalar
  -- the text begins with a digit or a sign, so it is no quoted text
  split
  · rename_i first
    exfalso
    cases negative with
    | true => cases first
    | false =>
      rw [signed, text] at first
      cases first
      cases digit
  · rw [words]
    unfold Json.number
    cases negative with
    | true => rfl
    | false =>
      dsimp only [signed]
      -- the text of a numeral begins with a digit, so no sign is taken off
      split
      · rename_i first
        rw [if_neg (by decide), text] at first
        cases first
        cases digit
      · rfl

/-! ## Numerals as people write them -/

theorem plainDigits_trim {s : List Char} (all : ∀ c ∈ s, c ∈ letters) :
    Literal.plainDigits (Text.trim s) = s := by
  have blank : ∀ c ∈ letters, Text.isBlank c = false := List.all_iff_forall_prop.mp (by decide)
  have plain : ∀ c ∈ letters,
      ((Text.decimalDigit? c).map fun d => Char.ofNat (48 + d)).getD c = c :=
    List.all_iff_forall_prop.mp (by decide)
  have solid : Text.trim s = s := Text.trim_of_ends
    (fun c first => blank c (all c (List.mem_of_mem_head? first)))
    (fun c last => blank c (all c (List.mem_of_mem_getLast? last)))
  rw [solid, Literal.plainDigits]
  exact (List.map_congr_left fun c mem => plain c (all c mem)).trans (List.map_id s)

theorem dropMarks?_eq_self {s : List Char} (none : '_' ∉ s) (isDigit : Char → Bool)
    (after : Bool) : Literal.dropMarks? isDigit after s = some s := by
  induction s generalizing after with
  | nil => rfl
  | cons c s ih =>
    rw [List.mem_cons, not_or] at none
    rw [Literal.dropMarks?, if_neg (Ne.symm none.1), ih none.2]
    rfl

theorem namedFloat?_eq_none (negative : Bool) : Literal.namedFloat? negative n.text = none := by
  obtain ⟨d, more, text, digit⟩ := n.exists_text
  have lower : ∀ c ∈ letters, c.toLower = c := List.all_iff_forall_prop.mp (by decide)
  have apart : ∀ c : Char, c.isDigit = false → d ≠ c := fun c => ne_of_isDigit digit
  simp [Literal.namedFloat?, text, lower d (mem_letters_of_isDigit digit), String.ext_iff,
    apart 'i' rfl, apart 'n' rfl]

theorem exponent?_powerText : Literal.exponent? n.powerText = some n.power := by
  unfold powerText power
  split
  · rfl
  · rename_i negative digits some
    have every : digits.all Char.isDigit = true := List.all_eq_true.mpr (n.power_digits _ some)
    cases negative <;>
      simp [Literal.exponent?, Literal.takeSign, every, n.power_ne _ some, Literal.digitsValue,
        Json.decimalNumber]

theorem unsigned?_text (negative : Bool) :
    Literal.unsigned? negative n.text = some (n.decimal negative).toBinary64 := by
  have nothing : Ends [] := fun _ first => nomatch first
  have stops := ends_pointText (n := n) nothing
  have behind := ends_powerText (n := n) nothing
  rw [List.append_nil] at stops behind
  unfold Literal.unsigned?
  rw [text, Text.takeWhile_run n.whole_digits stops, Text.dropWhile_run n.whole_digits stops]
  unfold pointText
  split
  · rename_i none
    rw [List.nil_append]
    dsimp only
    split
    · rename_i first
      exact absurd rfl (behind '.' (by rw [first]; rfl)).2
    · simp [n.whole_ne, exponent?_powerText, decimal, List.isEmpty_iff.mp none, Literal.digitsValue,
        Json.decimalNumber]
  · have digits := fun c first => (behind c first).1
    simp [n.whole_ne, exponent?_powerText, decimal, Text.takeWhile_run n.places_digits digits,
      Text.dropWhile_run n.places_digits digits, Literal.digitsValue, Json.decimalNumber]

/-- A numeral with its sign is the number nearest to its decimal. -/
theorem float?_signed (negative : Bool) :
    Literal.float? (n.signed negative) = some (n.decimal negative).toBinary64 := by
  obtain ⟨d, more, text, digit⟩ := n.exists_text
  have sign : Literal.takeSign (n.signed negative) = (negative, n.text) := by
    cases negative with
    | true => rfl
    | false =>
      have minus : d ≠ '-' := ne_of_isDigit digit rfl
      have plus : d ≠ '+' := ne_of_isDigit digit rfl
      simp [signed, text, Literal.takeSign, minus, plus]
  have marks : '_' ∉ n.text := fun mem => absurd (mem_letters mem) (by decide)
  rw [Literal.float?, plainDigits_trim fun c => mem_signed, sign]
  dsimp only
  rw [namedFloat?_eq_none, dropMarks?_eq_self marks]
  exact unsigned?_text negative

end

/-! ## Integers -/

theorem head?_toDigits {k : Nat} (first : (Nat.toDigits 10 k).head? = some '0') : k = 0 := by
  induction k using Nat.strongRecOn with
  | ind k ih =>
    rw [Nat.toDigits_eq_if (by decide)] at first
    split at first
    · exact Nat.digitChar_eq_zero.mp (Option.some.inj first)
    · rw [List.head?_append_of_ne_nil _ Nat.toDigits_ne_nil] at first
      have tenth := ih (k / 10) (by omega) first
      omega

/-- The numeral of a natural number. -/
def ofNat (k : Nat) : Numeral where
  whole := Nat.toDigits 10 k
  places := []
  power? := none
  whole_ne := Nat.toDigits_ne_nil
  whole_digits _ mem := Nat.isDigit_of_mem_toDigits (by decide) (by decide) mem
  whole_zero first := by rw [head?_toDigits first]; rfl
  places_digits _ mem := nomatch mem
  power_ne _ mem := nomatch mem
  power_digits _ mem := nomatch mem

theorem text_ofNat (k : Nat) : (ofNat k).text = Nat.toDigits 10 k := by
  simp [text, pointText, powerText, ofNat]

theorem toList_int (i : Int) : (toString i).toList = (ofNat i.natAbs).signed (i < 0) := by
  rw [Int.toString_eq_repr, Int.repr_eq_if, signed, text_ofNat]
  by_cases sign : 0 ≤ i
  · have same : i.toNat = i.natAbs := by omega
    rw [if_pos sign, if_neg (by simpa using sign), same, Nat.repr_eq_ofList_toDigits,
      String.toList_ofList]
  · have same : (-i).toNat = i.natAbs := by omega
    rw [if_neg sign, if_pos (by simpa using sign), same, Nat.repr_eq_ofList_toDigits]
    simp

end Numeral

/-! ## Floating-point numbers -/

namespace Numeral

open Binary64

theorem decimalNumber_eq (s : List Char) : Json.decimalNumber s = Nat.ofDigitChars 10 s 0 := rfl

/-- The digits of an exponent of ten. -/
theorem exists_power (e : Int) : ∃ digits : List Char, exponentText e =
    'e' :: (if e < 0 then '-' else '+') :: digits ∧ digits ≠ [] ∧
      (∀ c ∈ digits, c.isDigit = true) ∧ Json.decimalNumber digits = e.natAbs := by
  have written : ∀ c ∈ Nat.toDigits 10 e.natAbs, c.isDigit = true := fun c mem =>
    Nat.isDigit_of_mem_toDigits (by decide) (by decide) mem
  have value : Json.decimalNumber (Nat.toDigits 10 e.natAbs) = e.natAbs :=
    Nat.ofDigitChars_ten_toDigits
  refine ⟨_, rfl, ?_⟩
  split
  · exact ⟨List.cons_ne_nil _ _, List.forall_mem_cons.mpr ⟨rfl, written⟩, value⟩
  · exact ⟨Nat.toDigits_ne_nil, written, value⟩

/-- A numeral that is no integer stands for digits with the point at some place. -/
structure Spells (n : Numeral) (digits : List Char) (place : Int) : Prop where
  broken : ¬(n.places = [] ∧ n.power? = none)
  size : ∀ negative, (n.decimal negative).size =
    Json.decimalNumber digits * 10 ^ (place - digits.length)

section

variable {digits : List Char} {place : Int}

theorem isDigit_zeros (k : Nat) : ∀ c ∈ List.replicate k '0', c.isDigit = true := by
  intro c mem
  rw [List.eq_of_mem_replicate mem]
  rfl

/-- The point in front of all digits. -/
theorem spells_front (ne : digits ≠ []) (all : ∀ c ∈ digits, c.isDigit = true)
    (front : place ≤ 0) : ∃ n : Numeral, n.Spells digits place ∧
      n.text = '0' :: '.' :: (List.replicate place.natAbs '0' ++ digits) := by
  refine ⟨⟨['0'], List.replicate place.natAbs '0' ++ digits, none, List.cons_ne_nil _ _, by simp,
    fun _ => rfl, List.forall_mem_append.mpr ⟨isDigit_zeros _, all⟩, nofun, nofun⟩,
    ⟨by simp [ne], fun negative => ?_⟩, by simp [text, pointText, powerText, ne]⟩
  have number : Json.decimalNumber (['0'] ++ (List.replicate place.natAbs '0' ++ digits)) =
      Json.decimalNumber digits := by
    simp [decimalNumber_eq, Nat.ofDigitChars_append, Nat.ofDigitChars_cons]
  rw [decimal, Decimal.size, power, number]
  congr 2
  simp only [List.length_append, List.length_replicate]
  omega

/-- The point behind all digits. -/
theorem spells_behind (ne : digits ≠ []) (all : ∀ c ∈ digits, c.isDigit = true)
    (first : digits.head? ≠ some '0') (behind : (digits.length : Int) ≤ place) :
    ∃ n : Numeral, n.Spells digits place ∧
      n.text = digits ++ List.replicate (place.toNat - digits.length) '0' ++ ['.', '0'] := by
  have more : ((place.toNat - digits.length : Nat) : Int) = place - digits.length := by omega
  generalize place.toNat - digits.length = k at more
  have front : (digits ++ List.replicate k '0').head? ≠ some '0' := by
    rwa [List.head?_append_of_ne_nil _ ne]
  refine ⟨⟨digits ++ List.replicate k '0', ['0'], none, by simp [ne],
    List.forall_mem_append.mpr ⟨all, isDigit_zeros k⟩, fun zero => absurd zero front,
    by simp, nofun, nofun⟩, ⟨by simp, fun negative => ?_⟩, by simp [text, pointText, powerText]⟩
  have number : Json.decimalNumber (digits ++ List.replicate k '0' ++ ['0']) =
      Json.decimalNumber digits * 10 ^ k * 10 := by
    simp [decimalNumber_eq, Nat.ofDigitChars_append, Nat.ofDigitChars_cons, mul_comm]
  dsimp only [decimal, Decimal.size, power]
  rw [number, ← more, zpow_natCast]
  norm_num
  ring

/-- The point among the digits. -/
theorem spells_among (all : ∀ c ∈ digits, c.isDigit = true) (first : digits.head? ≠ some '0')
    (positive : 0 < place) (among : place < digits.length) :
    ∃ n : Numeral, n.Spells digits place ∧
      n.text = digits.take place.toNat ++ '.' :: digits.drop place.toNat := by
  obtain ⟨k, rfl⟩ := Int.eq_ofNat_of_zero_le positive.le
  simp only [Int.toNat_natCast]
  have front : (digits.take k).head? ≠ some '0' := by
    rwa [List.head?_take, if_neg (by omega)]
  have some : digits.drop k ≠ [] := by
    rw [Ne, List.drop_eq_nil_iff]
    omega
  refine ⟨⟨digits.take k, digits.drop k, none, ?_, fun c mem => all c (List.mem_of_mem_take mem),
    fun zero => absurd zero front, fun c mem => all c (List.mem_of_mem_drop mem), nofun, nofun⟩,
    ⟨by simp [some], fun negative => ?_⟩, by simp [text, pointText, powerText, some]⟩
  · rw [Ne, List.take_eq_nil_iff]
    rintro (rfl | rfl)
    · cases positive
    · simp at among
      omega
  · dsimp only [decimal, Decimal.size, power]
    rw [List.take_append_drop, List.length_drop]
    congr 2
    omega

/-- The point behind the first digit, and an exponent. -/
theorem spells_power {d : Char} {more : List Char} (all : ∀ c ∈ d :: more, c.isDigit = true)
    (first : d ≠ '0') (place : Int) : ∃ n : Numeral, n.Spells (d :: more) place ∧
      n.text = d :: (if more.isEmpty then [] else '.' :: more) ++ exponentText (place - 1) := by
  obtain ⟨digits, written, ne, each, number⟩ := exists_power (place - 1)
  refine ⟨⟨[d], more, some (decide (place - 1 < 0), digits), List.cons_ne_nil _ _,
    fun c mem => all c (by simp_all), fun zero => absurd (Option.some.inj zero) first,
    fun c mem => all c (List.mem_cons_of_mem _ mem), ?_, ?_⟩, ⟨by simp, fun negative => ?_⟩, ?_⟩
  · rintro power ⟨⟩
    exact ne
  · rintro power ⟨⟩
    exact each
  · dsimp only [decimal, Decimal.size, power]
    rw [number, List.singleton_append, List.length_cons]
    congr 2
    simp only [decide_eq_true_eq]
    split <;> omega
  · rw [written]
    simp [text, pointText, powerText]

end

/-- A layout of digits is a numeral. -/
theorem spells_layout {digits : List Char} (ne : digits ≠ [])
    (all : ∀ c ∈ digits, c.isDigit = true) (first : digits.head? ≠ some '0') (place : Int) :
    ∃ n : Numeral, n.Spells digits place ∧ n.text = layout digits place := by
  unfold layout
  dsimp only
  split
  · split
    · exact spells_front ne all ‹_›
    · split
      · exact spells_behind ne all first (by omega)
      · exact spells_among all first (by omega) (by omega)
  · split
    · exact spells_power all (by simpa using first) place
    · rename_i d more several
      have some : more.isEmpty = false := by
        cases more with
        | nil => exact (several rfl).elim
        | cons _ _ => rfl
      obtain ⟨n, spells, text⟩ := spells_power all (by simpa using first) place
      exact ⟨n, spells, text.trans (by rw [some]; rfl)⟩
    · exact absurd rfl ne

/-- The digits of a number are its digits without the zeros at the end, and these zeros. -/
theorem exists_stripped (k : Nat) : ∃ (digits : List Char) (zeros : Nat),
    ((Nat.toDigits 10 k).reverse.dropWhile (· = '0')).reverse = digits ∧
      Nat.toDigits 10 k = digits ++ List.replicate zeros '0' ∧
      Json.decimalNumber digits * 10 ^ zeros = k := by
  refine ⟨_, ((Nat.toDigits 10 k).reverse.takeWhile (· = '0')).length, rfl, ?_⟩
  have written : Nat.toDigits 10 k = ((Nat.toDigits 10 k).reverse.dropWhile (· = '0')).reverse ++
      List.replicate ((Nat.toDigits 10 k).reverse.takeWhile (· = '0')).length '0' := by
    rw [← List.reverse_inj, List.reverse_append, List.reverse_reverse, List.reverse_replicate,
      ← List.eq_replicate_of_mem fun c mem => by simpa using List.mem_takeWhile_imp mem,
      List.takeWhile_append_dropWhile]
  refine ⟨written, ?_⟩
  have value : Json.decimalNumber (Nat.toDigits 10 k) = k := Nat.ofDigitChars_ten_toDigits
  rw [written, decimalNumber_eq, Nat.ofDigitChars_append, Nat.ofDigitChars_replicate_zero,
    mul_comm] at value
  exact value

theorem shortest_pos {x : Magnitude} (ne : 0 < x.mantissa) {digits : Nat} {exponent : Int}
    (takes : x.Takes (digits * 10 ^ exponent)) : 0 < digits := by
  rw [Nat.pos_iff_ne_zero]
  rintro rfl
  have low := (Magnitude.low_pos ne).trans takes.low_le
  rw [Nat.cast_zero, zero_mul] at low
  exact absurd low (not_le.mpr (by positivity))

/-- A magnitude other than zero is written as a numeral in its interval. -/
theorem exists_shortest {x : Magnitude} (ne : 0 < x.mantissa) : ∃ n : Numeral,
    ¬(n.places = [] ∧ n.power? = none) ∧ n.text = layout x.shortest.1 x.shortest.2 ∧
      ∀ negative, x.Takes (n.decimal negative).size := by
  have takes := Magnitude.shortest_takes ne
  unfold Magnitude.shortest
  dsimp only
  generalize x.interval.shortest (pointPlace x.interval.value x.interval.unit) 17 1 = found at takes
  obtain ⟨k, exponent⟩ := found
  dsimp only at takes ⊢
  have pos := shortest_pos ne takes
  -- the zeros at the end are not written; the place of the point makes up for them
  obtain ⟨digits, zeros, stripped, written, value⟩ := exists_stripped k
  have nonempty : digits ≠ [] := by
    rintro rfl
    rw [decimalNumber_eq, Nat.ofDigitChars_nil, Nat.zero_mul] at value
    exact pos.ne value
  have first : digits.head? ≠ some '0' := by
    rw [← List.head?_append_of_ne_nil _ nonempty, ← written]
    exact fun zero => pos.ne' (head?_toDigits zero)
  have all : ∀ c ∈ digits, c.isDigit = true := fun c mem =>
    Nat.isDigit_of_mem_toDigits (by decide) (by decide) (written ▸ List.mem_append_left _ mem)
  rw [stripped, written, List.length_append, List.length_replicate]
  obtain ⟨n, spells, text⟩ := spells_layout nonempty all first
    ((digits.length + zeros : Nat) + exponent)
  refine ⟨n, spells.broken, text, fun negative => ?_⟩
  -- the places of the digits that are left out are those that the exponent has gained
  have size : (n.decimal negative).size = k * 10 ^ exponent := by
    have shift : ((digits.length + zeros : Nat) : Int) + exponent - digits.length =
        (zeros : Int) + exponent := by omega
    rw [spells.size, shift, zpow_add₀ (by norm_num), zpow_natCast, ← mul_assoc, ← value]
    push_cast
    rfl
  rwa [size]

/-- A finite number is written as a numeral that is read as this number. -/
theorem exists_signed (names : Names) (negative : Bool) (x : Magnitude) : ∃ n : Numeral,
    ¬(n.places = [] ∧ n.power? = none) ∧
      ((Binary64.finite negative x).render names).toList = n.signed negative ∧
      (n.decimal negative).toBinary64 = .finite negative x := by
  have sign : ∀ body, ((if negative then "-" else "") ++ String.ofList body).toList =
      if negative then '-' :: body else body := by
    intro body
    cases negative <;> simp
  unfold render
  dsimp only
  by_cases zero : x.mantissa = 0
  · -- zero has no shortest digits and is written by itself
    refine ⟨⟨['0'], ['0'], none, List.cons_ne_nil _ _, by simp, fun _ => rfl, by simp, nofun, nofun⟩,
      by simp, ?_, ?_⟩
    · rw [sign, if_pos zero]
      rfl
    · obtain ⟨mantissa, exponent, canonical⟩ := x
      obtain rfl : mantissa = 0 := zero
      obtain rfl : exponent = -1074 := canonical.elim (fun normal => absurd normal.1 (by decide)) (·.2)
      rfl
  · have ne := Nat.pos_of_ne_zero zero
    obtain ⟨n, broken, text, takes⟩ := exists_shortest ne
    refine ⟨n, broken, ?_, Decimal.toBinary64_of_takes ne (takes negative)⟩
    rw [sign, if_neg zero, signed, text]

end Numeral

namespace Json

open Numeral

variable {rest : List Char}

theorem length_whole {i : Int} (short : DigitLimit.exceeds i = false) :
    (ofNat i.natAbs).whole.length ≤ DigitLimit.greatest := by
  have limit : ∀ k, 0 < k → i.natAbs < Nat.pow 10 k → (Nat.toDigits 10 i.natAbs).length ≤ k :=
    fun k pos => (Nat.length_toDigits_le_iff (by decide) pos).mpr
  have below := Nat.not_le.mp (of_decide_eq_false short)
  unfold DigitLimit.bound at below
  exact limit _ (by decide) below

/-- An integer that has not too many digits is read back. -/
theorem scalar_int (ends : Ends rest) {i : Int} (short : DigitLimit.exceeds i = false) :
    scalar ((toString i).toList ++ rest) = .ok (.int i, rest) := by
  have value : decimalNumber (ofNat i.natAbs).whole = i.natAbs := Nat.ofDigitChars_ten_toDigits
  have signed : (if decide (i < 0) = true then -(i.natAbs : Int) else i.natAbs) = i := by
    split <;> rename_i sign <;> rw [decide_eq_true_eq] at sign <;> omega
  rw [toList_int, scalar_signed, unsigned_text ends, if_pos ⟨rfl, rfl⟩,
    if_neg (Nat.not_lt.mpr (length_whole short)), value, signed]

/-- A floating-point number is read back. -/
theorem scalar_float (ends : Ends rest) (x : Binary64) :
    scalar ((x.render numberNames).toList ++ rest) = .ok (.float x, rest) := by
  cases x with
  | nan => rfl
  | infinite negative => cases negative <;> rfl
  | finite negative x =>
    obtain ⟨n, broken, written, value⟩ := exists_signed numberNames negative x
    rw [written, scalar_signed, unsigned_text ends, if_neg broken, value]

end Json

/-- The text of a number is read as this number. -/
theorem Literal.float?_text (x : Binary64) : Literal.float? x.text.toList = some x := by
  cases x with
  | nan => rfl
  | infinite negative => cases negative <;> rfl
  | finite negative x =>
    obtain ⟨n, -, written, value⟩ := Numeral.exists_signed ⟨"inf", "nan"⟩ negative x
    rw [Binary64.text, written, Numeral.float?_signed, value]

end Branchwork
