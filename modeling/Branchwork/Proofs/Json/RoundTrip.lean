import Branchwork.Proofs.Number.Numeral
import Branchwork.Proofs.Step.Texts

/-!
# JSON that is written and read back

Every value that JSON can express is read back from its text, with the entries of its mappings in order.
Texts may hold every character, and halves of characters as well, as long as no two of them in a row
make up a character. The text of a value is lines of printable ASCII.

Main results:

* `Json.stringBody_escaped` — a text is read back from its escapes.
* `Json.writesAs_of_expressible` — a value is read back from its text, wherever this stands.
* `Json.read_write`, `Json.ascii_write` — the text of a value, read as a whole, and its characters.
-/

namespace Branchwork

open Text

/-! ## Hexadecimal digits -/

namespace Text

theorem hexNumber?_append (s t : List Char) : hexNumber? (s ++ t) =
    (hexNumber? s).bind fun n => t.foldlM (fun n c => (hexDigit? c).map (16 * n + ·)) n :=
  List.foldlM_append

theorem hexNumber?_toDigits (n : Nat) : hexNumber? (Nat.toDigits 16 n) = some n := by
  have digit : ∀ k < 16, hexDigit? (Nat.digitChar k) = some k := by decide
  induction n using Nat.strongRecOn with
  | ind n ih =>
    rw [Nat.toDigits_eq_if (by decide)]
    split
    · rename_i short
      simp [hexNumber?, digit n short]
    · rw [hexNumber?_append, ih (n / 16) (by omega)]
      simp [digit (n % 16) (by omega)]
      omega

theorem hexNumber?_hexDigits (width n : Nat) : hexNumber? (hexDigits width n) = some n := by
  have zeros : ∀ k, hexNumber? (List.replicate k '0') = some 0 := by
    intro k
    induction k with
    | zero => rfl
    | succ k ih => rw [List.replicate_succ', hexNumber?_append, ih]; rfl
  rw [hexDigits, hexNumber?_append, zeros]
  exact hexNumber?_toDigits n

/-- The four digits of a 16-bit unit. -/
theorem exists_hexDigits {n : Nat} (short : n < 0x10000) :
    ∃ a b c d, hexDigits 4 n = [a, b, c, d] := by
  have length : (Nat.toDigits 16 n).length ≤ 4 :=
    (Nat.length_toDigits_le_iff (by decide) (by decide)).mpr short
  have four : (hexDigits 4 n).length = 4 := by
    rw [hexDigits, List.length_append, List.length_replicate]
    omega
  match hexDigits 4 n, four with
  | [a, b, c, d], _ => exact ⟨a, b, c, d, rfl⟩

/-! ## Halves -/

/-- Whether no first half of a character stands right before a second one. -/
def Unpaired (s : List Char) : Prop :=
  s.IsChain fun c d => ∀ high ∈ half? c, ∀ low ∈ half? d, ¬(isHighHalf high ∧ isLowHalf low)

/-- A text of whole characters holds no halves. -/
theorem unpaired_of_isWhole {s : List Char} (whole : isWhole s = true) : Unpaired s := by
  have none : ∀ c ∈ s, half? c = none := by simpa [isWhole] using whole
  refine (List.pairwise_of_forall_mem_list fun c here d _ high found => ?_).isChain
  rw [none c here] at found
  cases found

theorem loneHalves?_of_isWhole {s : List Char} (whole : isWhole s = true) (mayStand : Nat → Bool)
    (position : Nat) : loneHalves? mayStand position s = none := by
  induction s generalizing position with
  | nil => rfl
  | cons c s ih =>
    obtain ⟨first, rest⟩ : half? c = none ∧ isWhole s = true := by simpa [isWhole] using whole
    rw [loneHalves?, first]
    exact ih rest (position + 1)

end Text

namespace Json

/-! ## Escapes -/

/-- The ways to write a character inside a string. -/
inductive Escape (c : Char) : List Char → Prop
  | letter {x} : x ≠ 'u' → simpleEscape? x = some c → Escape c ['\\', x]
  | self : c ≠ '\\' → c ≠ '"' → 0x20 ≤ c.toNat → c.toNat ≤ 0x7e → Escape c [c]
  | unit {n} : n < 0x10000 → charOfCode n = c →
      (isHighHalf n || isLowHalf n → half? c = some n) → Escape c (unitEscape n)
  | pair {high low} : isHighHalf high → isLowHalf low → charOfCode (joinHalves high low) = c →
      Escape c (unitEscape high ++ unitEscape low)

theorem isHalf_iff (n : Nat) :
    (isHighHalf n || isLowHalf n) = true ↔ 0xd800 ≤ n ∧ n ≤ 0xdfff := by
  simp [isHighHalf, isLowHalf]
  omega

theorem half?_eq_some {c : Char} {half : Nat} (h : half? c = some half) :
    charOfCode half = c ∧ 0xd800 ≤ half ∧ half ≤ 0xdfff := by
  obtain ⟨high, isHalf, rfl⟩ : ¬c.toNat < standInOffset ∧
      (isHighHalf (c.toNat - standInOffset) || isLowHalf (c.toNat - standInOffset)) = true ∧
        c.toNat - standInOffset = half := by
    simpa only [half?, Option.ite_none_left_eq_some, Option.ite_none_right_eq_some,
      Option.some.injEq] using h
  rw [isHalf_iff] at isHalf
  have invalid : ¬(c.toNat - standInOffset).isValidChar := by
    rintro (small | great) <;> omega
  have code : standInOffset + (c.toNat - standInOffset) = c.toNat := by omega
  refine ⟨?_, isHalf⟩
  rw [charOfCode, if_neg invalid, standIn, code, Char.ofNat_toNat]

theorem charOfCode_toNat (c : Char) : charOfCode c.toNat = c := by
  have valid : c.toNat.isValidChar := c.valid
  rw [charOfCode, if_pos valid, Char.ofNat_toNat]

/-- Every character is written in one of these ways. -/
theorem escape_escapeChar (c : Char) : Escape c (escapeChar c) := by
  have valid : c.toNat < 0xd800 ∨ 0xdfff < c.toNat ∧ c.toNat < 0x110000 := c.valid
  unfold escapeChar
  simp only [Bool.or_eq_true, Bool.and_eq_true, decide_eq_true_eq]
  split_ifs with quote feed return' tab page back plain short
  · rcases quote with rfl | rfl <;> exact .letter (by decide) rfl
  · subst feed
    exact .letter (by decide) rfl
  · subst return'
    exact .letter (by decide) rfl
  · subst tab
    exact .letter (by decide) rfl
  · subst page
    exact .letter (by decide) rfl
  · subst back
    exact .letter (by decide) rfl
  · exact .self (fun same => quote (.inr same)) (fun same => quote (.inl same)) plain.1 plain.2
  · split
    · rename_i half found
      obtain ⟨same, low, high⟩ := half?_eq_some found
      exact .unit (by omega) same fun _ => found
    · -- a whole character of 16 bits is no half, for no character has the code of one
      refine .unit short (charOfCode_toNat c) fun isHalf => ?_
      rw [isHalf_iff] at isHalf
      omega
  · split
    · rename_i half found
      obtain ⟨same, low, high⟩ := half?_eq_some found
      exact .unit (by omega) same fun _ => found
    · -- a character of more than 16 bits is written as its two halves
      have high : isHighHalf (0xd800 + (c.toNat - 0x10000) / 0x400) = true := by
        simp only [isHighHalf, Bool.and_eq_true, decide_eq_true_eq]
        omega
      have low : isLowHalf (0xdc00 + (c.toNat - 0x10000) % 0x400) = true := by
        simp only [isLowHalf, Bool.and_eq_true, decide_eq_true_eq]
        omega
      have code : joinHalves (0xd800 + (c.toNat - 0x10000) / 0x400)
          (0xdc00 + (c.toNat - 0x10000) % 0x400) = c.toNat := by
        unfold joinHalves
        omega
      exact .pair high low (by rw [code, charOfCode_toNat])

theorem unitEscape_eq {n : Nat} (short : n < 0x10000) : ∃ a b c d,
    unitEscape n = ['\\', 'u', a, b, c, d] ∧ hexNumber? [a, b, c, d] = some n := by
  obtain ⟨a, b, c, d, digits⟩ := exists_hexDigits short
  exact ⟨a, b, c, d, by rw [unitEscape, digits], by rw [← digits, hexNumber?_hexDigits]⟩

/-- An escape of a unit does not join with what follows it. -/
def Apart (n : Nat) (s : List Char) : Prop :=
  isHighHalf n = true → ∀ e f g h after, s = '\\' :: 'u' :: e :: f :: g :: h :: after →
    ∃ m, hexNumber? [e, f, g, h] = some m ∧ isLowHalf m = false

theorem stringBody_unit {opening n : Nat} {s : List Char} (short : n < 0x10000) (ne : s ≠ [])
    (apart : Apart n s) :
    stringBody opening (unitEscape n ++ s) = prepend (charOfCode n) (stringBody opening s) := by
  obtain ⟨a, b, c, d, digits, number⟩ := unitEscape_eq short
  rw [digits]
  simp only [List.cons_append, List.nil_append]
  rw [stringBody, number]
  dsimp only
  rw [if_neg (by simpa using ne)]
  split
  · rename_i e f g h after
    split
    · rename_i both
      rw [Bool.and_eq_true] at both
      obtain ⟨m, number', notLow⟩ := apart both.1 e f g h after rfl
      rw [number']
      dsimp only
      rw [if_neg (by rw [notLow]; exact Bool.false_ne_true)]
    · rfl
  · rfl

theorem stringBody_pair {opening high low : Nat} {s : List Char} (isHigh : isHighHalf high = true)
    (isLow : isLowHalf low = true) (ne : s ≠ []) :
    stringBody opening (unitEscape high ++ unitEscape low ++ s) =
      prepend (charOfCode (joinHalves high low)) (stringBody opening s) := by
  have highRange := (isHalf_iff high).mp (by rw [isHigh]; rfl)
  have lowRange := (isHalf_iff low).mp (by rw [isLow, Bool.or_true])
  obtain ⟨a, b, c, d, digits, number⟩ := unitEscape_eq (show high < 0x10000 by omega)
  obtain ⟨e, f, g, h, digits', number'⟩ := unitEscape_eq (show low < 0x10000 by omega)
  have nonempty : s.isEmpty = false := by simpa using ne
  rw [digits, digits']
  simp only [List.cons_append, List.nil_append]
  rw [stringBody, number]
  simp [isHigh, isLow, number', nonempty]

theorem stringBody_escape {opening : Nat} {c : Char} {escape s : List Char}
    (escapes : Escape c escape) (ne : s ≠ []) (apart : ∀ n ∈ half? c, Apart n s) :
    stringBody opening (escape ++ s) = prepend c (stringBody opening s) := by
  cases escapes with
  | @letter x notUnit letter =>
    change stringBody opening ('\\' :: x :: s) = _
    rw [stringBody, letter]
    · exact fun _ _ _ _ _ same => absurd same notUnit
    · exact fun same => absurd same notUnit
  | self notEscape notQuote noControl _ =>
    change stringBody opening (c :: s) = _
    rw [stringBody, if_neg notQuote, if_neg (by simpa using noControl)]
    all_goals intros; contradiction
  | @unit n short same isHalf =>
    rw [stringBody_unit short ne, same]
    intro isHigh
    exact apart n (isHalf (by rw [isHigh]; rfl)) isHigh
  | pair high low same => rw [stringBody_pair high low ne, same]

/-- An escape that follows another one does not join with it, unless the two are halves of a
character. -/
theorem apart_escape {n : Nat} {d : Char} {escape : List Char} (escapes : Escape d escape)
    (unpaired : ∀ low ∈ half? d, ¬(isHighHalf n ∧ isLowHalf low)) (s : List Char) :
    Apart n (escape ++ s) := by
  intro isHigh e f g h after same
  cases escapes with
  | letter notUnit =>
    cases same
    exact absurd rfl notUnit
  | self notEscape =>
    cases same
    exact absurd rfl notEscape
  | @unit m short _ isHalf =>
    -- the unit may be a low half, but then what is in front of it is no high one
    obtain ⟨a, b, c, d, digits, number⟩ := unitEscape_eq short
    rw [digits] at same
    cases same
    refine ⟨m, number, ?_⟩
    cases isLow : isLowHalf m with
    | false => rfl
    | true =>
      have found := isHalf (by rw [isLow, Bool.or_true])
      exact absurd ⟨isHigh, isLow⟩ (unpaired m found)
  | @pair high low isHigh' =>
    have range := (isHalf_iff high).mp (by rw [isHigh']; rfl)
    obtain ⟨a, b, c, d, digits, number⟩ := unitEscape_eq (show high < 0x10000 by omega)
    rw [digits] at same
    cases same
    refine ⟨high, number, ?_⟩
    -- a pair begins with a high half, which is no low one
    simp only [isHighHalf, isLowHalf, Bool.and_eq_true, Bool.and_eq_false_iff, decide_eq_true_eq,
      decide_eq_false_iff_not] at isHigh' ⊢
    omega

/-- A text is read back from its escapes. -/
theorem stringBody_escaped {s : List Char} (unpaired : Unpaired s) (opening : Nat)
    (rest : List Char) : stringBody opening (s.flatMap escapeChar ++ '"' :: rest) = .ok (s, rest) := by
  induction s with
  | nil => rfl
  | cons c s ih =>
    have apart : ∀ n ∈ half? c, Apart n (s.flatMap escapeChar ++ '"' :: rest) := by
      intro n found
      cases s with
      | nil => exact fun _ _ _ _ _ _ same => by cases same
      | cons d s =>
        rw [List.flatMap_cons, List.append_assoc]
        exact apart_escape (escape_escapeChar d) ((List.isChain_cons_cons.mp unpaired).1 n found) _
    rw [List.flatMap_cons, List.append_assoc,
      stringBody_escape (escape_escapeChar c) (by simp) apart, ih unpaired.tail]
    rfl

/-! ## Characters -/

/-- Whether a text is lines of printable ASCII characters. -/
def Ascii (s : List Char) : Prop := ∀ c ∈ s, c = '\n' ∨ 0x20 ≤ c.toNat ∧ c.toNat ≤ 0x7e

theorem ascii_append {s t : List Char} : Ascii (s ++ t) ↔ Ascii s ∧ Ascii t :=
  List.forall_mem_append

theorem ascii_cons {c : Char} {s : List Char} :
    Ascii (c :: s) ↔ (c = '\n' ∨ 0x20 ≤ c.toNat ∧ c.toNat ≤ 0x7e) ∧ Ascii s :=
  List.forall_mem_cons

instance (s : List Char) : Decidable (Ascii s) :=
  List.decidableBAll (fun c => c = '\n' ∨ 0x20 ≤ c.toNat ∧ c.toNat ≤ 0x7e) s

theorem ascii_letters {s : List Char} (letters : ∀ c ∈ s, c ∈ Numeral.letters) : Ascii s := by
  have each : Ascii Numeral.letters := by decide
  exact fun c mem => each c (letters c mem)

theorem ascii_newLine (level : Nat) : Ascii (newLine level) := by
  refine ascii_cons.mpr ⟨.inl rfl, fun c mem => ?_⟩
  rw [List.eq_of_mem_replicate mem]
  decide

theorem ascii_toDigits (n : Nat) : Ascii (Nat.toDigits 16 n) := by
  have digit : ∀ k < 16, Ascii [Nat.digitChar k] := by decide
  induction n using Nat.strongRecOn with
  | ind n ih =>
    rw [Nat.toDigits_eq_if (by decide)]
    split
    · exact digit n ‹_›
    · exact ascii_append.mpr ⟨ih (n / 16) (by omega), digit (n % 16) (by omega)⟩

theorem ascii_unitEscape (n : Nat) : Ascii (unitEscape n) := by
  refine ascii_cons.mpr ⟨by decide, ascii_cons.mpr ⟨by decide, ascii_append.mpr ⟨?_, ascii_toDigits n⟩⟩⟩
  intro c mem
  rw [List.eq_of_mem_replicate mem]
  decide

theorem ascii_escape {c : Char} {escape : List Char} (escapes : Escape c escape) : Ascii escape := by
  cases escapes with
  | @letter x _ letter =>
    have isLetter : x ∈ ['"', '\\', '/', 'b', 'f', 'n', 'r', 't'] := by
      unfold simpleEscape? at letter
      grind
    have each : ∀ x ∈ ['"', '\\', '/', 'b', 'f', 'n', 'r', 't'], Ascii ['\\', x] :=
      List.all_iff_forall_prop.mp (by decide)
    exact each x isLetter
  | self _ _ low high => exact ascii_cons.mpr ⟨.inr ⟨low, high⟩, List.forall_mem_nil _⟩
  | unit => exact ascii_unitEscape _
  | pair => exact ascii_append.mpr ⟨ascii_unitEscape _, ascii_unitEscape _⟩

theorem ascii_string (s : List Char) : Ascii (string s) := by
  refine ascii_cons.mpr ⟨by decide, ascii_append.mpr ⟨fun c mem => ?_, by decide⟩⟩
  obtain ⟨d, -, mem⟩ := List.mem_flatMap.mp mem
  exact ascii_escape (escape_escapeChar d) c mem

theorem ascii_int (i : Int) : Ascii (toString i).toList := by
  rw [Numeral.toList_int]
  exact ascii_letters fun c => Numeral.mem_signed

theorem ascii_float (x : Binary64) : Ascii (x.render numberNames).toList := by
  cases x with
  | nan => decide
  | infinite negative => cases negative <;> decide
  | finite negative x =>
    obtain ⟨n, -, written, -⟩ := Numeral.exists_signed numberNames negative x
    rw [written]
    exact ascii_letters fun c => Numeral.mem_signed

/-! ## Values -/

/-- The values that JSON can express: null, booleans, numbers with not too many digits, texts, lists,
and mappings whose keys are different texts. -/
inductive Expressible : Value → Prop
  | null : Expressible .null
  | bool (b) : Expressible (.bool b)
  | int {i} : DigitLimit.exceeds i = false → Expressible (.int i)
  | float (x) : Expressible (.float x)
  | text {s : String} : Unpaired s.toList → Expressible (.text s)
  | list {items} : (∀ v ∈ items, Expressible v) → Expressible (.list items)
  | map {rows : List (String × Value)} : (rows.map (·.1)).Nodup →
      (∀ row ∈ rows, Unpaired row.1.toList) → (∀ row ∈ rows, Expressible row.2) →
      Expressible (.map (Mapping.ofTexts rows))

/-- A text reads as a value, wherever it stands in front of something that is no part of a number. -/
structure ReadsAs (text : List Char) (v : Value) : Prop where
  opens : ∃ c more, text = c :: more ∧ isBlank c = false ∧ c ≠ ']' ∧ c ≠ '\x7d'
  reads : ∀ {fuel rest}, text.length ≤ fuel → Numeral.Ends rest →
    value fuel (text ++ rest) = .ok (v, rest)

theorem skipBlanks_cons {c : Char} (solid : isBlank c = false) (s : List Char) :
    skipBlanks (c :: s) = c :: s := by
  rw [skipBlanks, List.dropWhile_cons, if_neg (by simp [solid])]

theorem ReadsAs.skipBlanks_append {text : List Char} {v : Value} (reads : ReadsAs text v)
    (s : List Char) : skipBlanks (text ++ s) = text ++ s := by
  obtain ⟨c, more, rfl, solid, -⟩ := reads.opens
  exact skipBlanks_cons solid _

theorem skipBlanks_newLine (level : Nat) (s : List Char) :
    skipBlanks (newLine level ++ s) = skipBlanks s := by
  have blank : ∀ c ∈ newLine level, isBlank c = true := by
    refine List.forall_mem_cons.mpr ⟨rfl, fun c mem => ?_⟩
    rw [List.eq_of_mem_replicate mem]
    rfl
  rw [skipBlanks, List.dropWhile_append_of_pos blank]
  rfl

theorem ends_newLine (level : Nat) (s : List Char) : Numeral.Ends (newLine level ++ s) := by
  rintro c ⟨⟩
  decide

theorem ends_comma (s : List Char) : Numeral.Ends (',' :: s) := by
  rintro c ⟨⟩
  decide

/-- What is no collection is read by the reader of such values. -/
theorem readsAs_scalar {c : Char} {more : List Char} {v : Value} (solid : isBlank c = false)
    (apart : c ∉ ['[', ']', '\x7b', '\x7d'])
    (reads : ∀ {rest}, Numeral.Ends rest → scalar (c :: more ++ rest) = .ok (v, rest)) :
    ReadsAs (c :: more) v := by
  simp only [List.mem_cons, List.not_mem_nil, or_false, not_or] at apart
  obtain ⟨noList, noEnd, noMap, noClose⟩ := apart
  refine ⟨⟨c, more, rfl, solid, noEnd, noClose⟩, fun {fuel rest} enough ends => ?_⟩
  obtain ⟨fuel, rfl⟩ : ∃ k, fuel = k + 1 := ⟨fuel - 1, by simp at enough; omega⟩
  rw [List.cons_append, value]
  · exact reads ends
  · exact fun _ same => noMap (List.cons.inj same).1
  · exact fun _ same => noList (List.cons.inj same).1

theorem readsAs_null : ReadsAs "null".toList .null := by
  refine readsAs_scalar (by decide) (by decide) fun _ => rfl

theorem readsAs_bool (b : Bool) : ReadsAs (if b then "true" else "false").toList (.bool b) := by
  cases b <;> refine readsAs_scalar (by decide) (by decide) fun _ => rfl

theorem readsAs_signed {n : Numeral} {negative : Bool} {v : Value}
    (reads : ∀ {rest}, Numeral.Ends rest → scalar (n.signed negative ++ rest) = .ok (v, rest)) :
    ReadsAs (n.signed negative) v := by
  have some : n.signed negative ≠ [] := by
    obtain ⟨d, more, text, -⟩ := n.exists_text
    cases negative <;> simp [Numeral.signed, text]
  obtain ⟨c, more, same⟩ := List.exists_cons_of_ne_nil some
  have letter : c ∈ Numeral.letters := Numeral.mem_signed (same ▸ List.mem_cons_self)
  have solid : ∀ c ∈ Numeral.letters, isBlank c = false := List.all_iff_forall_prop.mp (by decide)
  have apart : ∀ c ∈ Numeral.letters, c ∉ ['[', ']', '\x7b', '\x7d'] :=
    List.all_iff_forall_prop.mp (by decide)
  rw [same] at reads ⊢
  exact readsAs_scalar (solid c letter) (apart c letter) reads

theorem readsAs_int {i : Int} (short : DigitLimit.exceeds i = false) :
    ReadsAs (toString i).toList (.int i) := by
  have reads {rest} (ends : Numeral.Ends rest) := scalar_int ends short
  rw [Numeral.toList_int] at reads ⊢
  exact readsAs_signed reads

theorem readsAs_float (x : Binary64) : ReadsAs (x.render numberNames).toList (.float x) := by
  have reads {rest} (ends : Numeral.Ends rest) := scalar_float ends x
  cases x with
  | nan => exact readsAs_scalar (by decide) (by decide) reads
  | infinite negative => cases negative <;> exact readsAs_scalar (by decide) (by decide) reads
  | finite negative x =>
    obtain ⟨n, -, written, -⟩ := Numeral.exists_signed numberNames negative x
    rw [written] at reads ⊢
    exact readsAs_signed reads

theorem readsAs_string {s : String} (unpaired : Unpaired s.toList) :
    ReadsAs (string s.toList) (.text s) := by
  refine readsAs_scalar (by decide) (by decide) fun {rest} _ => ?_
  rw [List.cons_append, List.append_assoc, List.singleton_append]
  rw [scalar, stringBody_escaped unpaired]
  change Except.ok (Value.text (String.ofList s.toList), rest) = _
  rw [String.ofList_toList]

/-! ## Collections -/

/-- A text that is read as a value from one level on. -/
def WritesAs (level : Nat) (v : Value) : Prop :=
  ∃ text, writeAt level v = .ok text ∧ ReadsAs text v

section

variable {fuel : Nat} {s rest after : List Char} {v : Value}

theorem items_last (first : value fuel s = .ok (v, rest)) (close : skipBlanks rest = ']' :: after) :
    items (fuel + 1) s = .ok ([v], after) := by
  simp only [items, first, close]

theorem items_more (first : value fuel s = .ok (v, rest)) (comma : skipBlanks rest = ',' :: after)
    {vs : List Value} {last : List Char} (others : items fuel (skipBlanks after) = .ok (vs, last)) :
    items (fuel + 1) s = .ok (v :: vs, last) := by
  simp only [items, first, comma, others, Except.map]

end

/-- The members of a list are written behind a line break, and they are read up to the bracket. -/
theorem exists_items {level : Nat} (close : Nat) {vs : List Value} (ne : vs ≠ [])
    (each : ∀ v ∈ vs, WritesAs level v) :
    ∃ inner, writeItems level vs = .ok (newLine level ++ inner) ∧
      (∃ c more, inner = c :: more ∧ isBlank c = false ∧ c ≠ ']') ∧
      ∀ {fuel rest}, inner.length < fuel →
        items fuel (inner ++ (newLine close ++ ']' :: rest)) = .ok (vs, rest) := by
  induction vs with
  | nil => exact absurd rfl ne
  | cons v vs ih =>
    obtain ⟨first, written, reads⟩ := each v List.mem_cons_self
    obtain ⟨c, more, same, solid, noEnd, -⟩ := reads.opens
    cases vs with
    | nil =>
      refine ⟨first, ?_, ⟨c, more, same, solid, noEnd⟩, fun {fuel rest} enough => ?_⟩
      · rw [writeItems, written, writeItems]
        simp [bind, Except.bind, pure, Except.pure]
      · obtain ⟨fuel, rfl⟩ : ∃ k, fuel = k + 1 := ⟨fuel - 1, by omega⟩
        refine items_last (reads.reads (by omega) (ends_newLine close _)) ?_
        rw [skipBlanks_newLine, skipBlanks_cons (by decide)]
    | cons w ws =>
      obtain ⟨inner, others, ⟨d, tail, opens, solid', -⟩, readsInner⟩ :=
        ih (List.cons_ne_nil _ _) fun v mem => each v (List.mem_cons_of_mem _ mem)
      -- a member takes one unit of fuel, and the text before the next one is longer than that
      refine ⟨first ++ ',' :: (newLine level ++ inner), ?_, ⟨c, more ++ ',' :: (newLine level ++ inner),
        by rw [same, List.cons_append], solid, noEnd⟩, fun {fuel rest} enough => ?_⟩
      · rw [writeItems, written, others]
        simp [bind, Except.bind, pure, Except.pure]
      · obtain ⟨fuel, rfl⟩ : ∃ k, fuel = k + 1 := ⟨fuel - 1, by omega⟩
        simp only [List.length_append, List.length_cons] at enough
        rw [List.append_assoc, List.cons_append, List.append_assoc]
        refine items_more (reads.reads (by omega) (ends_comma _)) (skipBlanks_cons (by decide) _) ?_
        rw [skipBlanks_newLine, opens, List.cons_append, skipBlanks_cons solid', ← List.cons_append,
          ← opens]
        exact readsInner (by omega)

section

variable {fuel : Nat} {read : Mapping} {body colon behind rest after : List Char} {key : String}
  {v : Value}

theorem entries_last (keyed : stringBody (body.length + 1) body = .ok (key.toList, colon))
    (colons : skipBlanks colon = ':' :: behind)
    (first : value fuel (skipBlanks behind) = .ok (v, rest))
    (close : skipBlanks rest = '\x7d' :: after) :
    entries (fuel + 1) read ('"' :: body) = .ok (Mapping.put (.text key) v read, after) := by
  simp only [entries, List.length_cons, keyed, colons, first, close, String.ofList_toList]

theorem entries_more (keyed : stringBody (body.length + 1) body = .ok (key.toList, colon))
    (colons : skipBlanks colon = ':' :: behind)
    (first : value fuel (skipBlanks behind) = .ok (v, rest))
    (comma : skipBlanks rest = ',' :: after) :
    entries (fuel + 1) read ('"' :: body) =
      entries fuel (Mapping.put (.text key) v read) (skipBlanks after) := by
  simp only [entries, List.length_cons, keyed, colons, first, comma, String.ofList_toList]

end

/-- A key that is not there yet comes last. -/
theorem put_new {key : String} {rows : List (String × Value)} (new : key ∉ rows.map (·.1))
    (v : Value) : Mapping.put (.text key) v (Mapping.ofTexts rows) =
      Mapping.ofTexts (rows ++ [(key, v)]) := by
  induction rows with
  | nil => rfl
  | cons first rows ih =>
    rw [List.map_cons, List.mem_cons, not_or] at new
    rw [Mapping.ofTexts_cons, Mapping.put, Mapping.equals_text, if_neg (by simpa using Ne.symm new.1),
      ih new.2]
    rfl

theorem key_new {key : String} {v : Value} {read rows : List (String × Value)}
    (distinct : ((read ++ (key, v) :: rows).map (·.1)).Nodup) : key ∉ read.map (·.1) := by
  rw [List.map_append, List.nodup_append] at distinct
  exact fun mem => distinct.2.2 key mem key List.mem_cons_self rfl

/-- The entries of a mapping are written behind a line break, and they are read up to the brace, behind
those that were read before. -/
theorem exists_entries {level : Nat} (close : Nat) {rows : List (String × Value)} (ne : rows ≠ [])
    (keys : ∀ row ∈ rows, Unpaired row.1.toList) (each : ∀ row ∈ rows, WritesAs level row.2) :
    ∃ inner, writeEntries level (Mapping.ofTexts rows) = .ok (newLine level ++ '"' :: inner) ∧
      ∀ {fuel rest read}, ((read ++ rows).map (·.1)).Nodup → inner.length < fuel →
        entries fuel (Mapping.ofTexts read) ('"' :: (inner ++ (newLine close ++ '\x7d' :: rest))) =
          .ok (Mapping.ofTexts (read ++ rows), rest) := by
  induction rows with
  | nil => exact absurd rfl ne
  | cons row rows ih =>
    obtain ⟨key, v⟩ := row
    obtain ⟨first, written, reads⟩ := each _ List.mem_cons_self
    have unpaired : Unpaired key.toList := keys _ List.mem_cons_self
    have entry {fuel s} (enough : first.length ≤ fuel) (ends : Numeral.Ends s) :
        value fuel (skipBlanks (' ' :: (first ++ s))) = .ok (v, s) :=
      (congrArg _ (reads.skipBlanks_append s)).trans (reads.reads enough ends)
    cases rows with
    | nil =>
      refine ⟨key.toList.flatMap escapeChar ++ '"' :: ':' :: ' ' :: first, ?_,
        fun {fuel rest read} distinct enough => ?_⟩
      · rw [Mapping.ofTexts_cons, writeEntries, written]
        simp [bind, Except.bind, pure, Except.pure, keyText, string, writeEntries]
      · obtain ⟨fuel, rfl⟩ : ∃ k, fuel = k + 1 := ⟨fuel - 1, by omega⟩
        simp only [List.length_append, List.length_cons] at enough
        simp only [List.append_assoc, List.cons_append]
        rw [← put_new (key_new distinct)]
        refine entries_last (stringBody_escaped unpaired _ _) (skipBlanks_cons (by decide) _)
          (entry (by omega) (ends_newLine close _)) ?_
        rw [skipBlanks_newLine, skipBlanks_cons (by decide)]
    | cons w ws =>
      obtain ⟨inner, others, readsInner⟩ := ih (List.cons_ne_nil _ _)
        (fun row mem => keys row (List.mem_cons_of_mem _ mem))
        (fun row mem => each row (List.mem_cons_of_mem _ mem))
      refine ⟨key.toList.flatMap escapeChar ++ '"' :: ':' :: ' ' ::
        (first ++ ',' :: (newLine level ++ '"' :: inner)), ?_,
        fun {fuel rest read} distinct enough => ?_⟩
      · rw [Mapping.ofTexts_cons, writeEntries, written, others]
        simp [bind, Except.bind, pure, Except.pure, keyText, string, Mapping.ofTexts]
      · obtain ⟨fuel, rfl⟩ : ∃ k, fuel = k + 1 := ⟨fuel - 1, by omega⟩
        simp only [List.length_append, List.length_cons] at enough
        simp only [List.append_assoc, List.cons_append]
        rw [entries_more (stringBody_escaped unpaired _ _) (skipBlanks_cons (by decide) _)
          (entry (by omega) (ends_comma _)) (skipBlanks_cons (by decide) _), skipBlanks_newLine,
          skipBlanks_cons (by decide), put_new (key_new distinct),
          readsInner (by rwa [List.append_assoc]) (by omega), List.append_assoc]
        rfl

section

variable {fuel : Nat} {s more rest : List Char} {c : Char}

theorem value_list (inside : skipBlanks s = c :: more) (apart : c ≠ ']') {vs : List Value}
    (members : items fuel (c :: more) = .ok (vs, rest)) :
    value (fuel + 1) ('[' :: s) = .ok (.list vs, rest) := by
  simp [value, inside, apart, members, Except.map]

theorem value_map (inside : skipBlanks s = c :: more) (apart : c ≠ '\x7d') {read : Mapping}
    (members : entries fuel [] (c :: more) = .ok (read, rest)) :
    value (fuel + 1) ('\x7b' :: s) = .ok (.map read, rest) := by
  simp [value, inside, apart, members, Except.map]

end

theorem readsAs_brackets : ReadsAs ['[', ']'] (.list []) := by
  refine ⟨⟨'[', [']'], rfl, by decide⟩, fun {fuel rest} enough _ => ?_⟩
  obtain ⟨fuel, rfl⟩ : ∃ k, fuel = k + 1 := ⟨fuel - 1, by simp at enough; omega⟩
  rfl

theorem readsAs_braces : ReadsAs ['\x7b', '\x7d'] (.map []) := by
  refine ⟨⟨'\x7b', ['\x7d'], rfl, by decide⟩, fun {fuel rest} enough _ => ?_⟩
  obtain ⟨fuel, rfl⟩ : ∃ k, fuel = k + 1 := ⟨fuel - 1, by simp at enough; omega⟩
  rfl

theorem writesAs_list {level : Nat} {vs : List Value} (each : ∀ v ∈ vs, WritesAs (level + 1) v) :
    WritesAs level (.list vs) := by
  by_cases empty : vs = []
  · -- without members there is no line break between the brackets
    subst empty
    exact ⟨_, by rw [writeAt]; rfl, readsAs_brackets⟩
  obtain ⟨inner, written, ⟨c, more, opens, solid, apart⟩, reads⟩ := exists_items level empty each
  refine ⟨'[' :: (newLine (level + 1) ++ inner ++ newLine level ++ [']']), ?_,
    ⟨'[', _, rfl, by decide⟩, fun {fuel rest} enough _ => ?_⟩
  · rw [writeAt, written, if_neg (by simpa using empty)]
    rfl
  · simp only [List.length_cons, List.length_append] at enough
    obtain ⟨fuel, rfl⟩ : ∃ k, fuel = k + 1 := ⟨fuel - 1, by omega⟩
    have members : items fuel (inner ++ (newLine level ++ ']' :: rest)) = .ok (vs, rest) :=
      reads (by omega)
    simp only [List.cons_append, List.append_assoc, List.nil_append]
    rw [opens, List.cons_append] at members
    rw [opens, List.cons_append]
    exact value_list ((skipBlanks_newLine _ _).trans (skipBlanks_cons solid _)) apart members

theorem writesAs_map {level : Nat} {rows : List (String × Value)}
    (distinct : (rows.map (·.1)).Nodup) (keys : ∀ row ∈ rows, Unpaired row.1.toList)
    (each : ∀ row ∈ rows, WritesAs (level + 1) row.2) :
    WritesAs level (.map (Mapping.ofTexts rows)) := by
  by_cases empty : rows = []
  · subst empty
    exact ⟨_, by rw [writeAt]; rfl, readsAs_braces⟩
  obtain ⟨inner, written, reads⟩ := exists_entries level empty keys each
  have some : (Mapping.ofTexts rows).isEmpty = false := by
    cases rows with
    | nil => exact absurd rfl empty
    | cons row rows => rfl
  refine ⟨'\x7b' :: (newLine (level + 1) ++ '"' :: inner ++ newLine level ++ ['\x7d']), ?_,
    ⟨'\x7b', _, rfl, by decide⟩, fun {fuel rest} enough _ => ?_⟩
  · rw [writeAt, written, if_neg (by simp [some])]
    rfl
  · simp only [List.length_cons, List.length_append] at enough
    obtain ⟨fuel, rfl⟩ : ∃ k, fuel = k + 1 := ⟨fuel - 1, by omega⟩
    have members : entries fuel (Mapping.ofTexts []) ('"' :: (inner ++ (newLine level ++
        '\x7d' :: rest))) = .ok (Mapping.ofTexts ([] ++ rows), rest) :=
      reads (by rwa [List.nil_append]) (by omega)
    simp only [List.cons_append, List.append_assoc, List.nil_append] at members ⊢
    exact value_map ((skipBlanks_newLine _ _).trans (skipBlanks_cons (by decide) _)) (by decide) members

/-- Every value that can be expressed is written as a text that is read as this value. -/
theorem writesAs_of_expressible {v : Value} (expressible : Expressible v) (level : Nat) :
    WritesAs level v := by
  induction expressible generalizing level with
  | null => exact ⟨_, by rw [writeAt], readsAs_null⟩
  | bool b => exact ⟨_, by rw [writeAt], readsAs_bool b⟩
  | int short => exact ⟨_, by rw [writeAt], readsAs_int short⟩
  | float x => exact ⟨_, by rw [writeAt], readsAs_float x⟩
  | text unpaired => exact ⟨_, by rw [writeAt] <;> simp [Value.plain], readsAs_string unpaired⟩
  | list _ ih => exact writesAs_list fun v mem => ih v mem (level + 1)
  | map distinct keys _ ih => exact writesAs_map distinct keys fun row mem => ih row mem (level + 1)

/-! ## Documents -/

mutual

theorem ascii_writeAt {level : Nat} {text : List Char} :
    (v : Value) → writeAt level v = .ok text → Ascii text
  | .null, h => by
    rw [writeAt] at h
    cases h
    decide
  | .bool b, h => by
    rw [writeAt] at h
    cases h
    cases b <;> decide
  | .int i, h => by
    rw [writeAt] at h
    cases h
    exact ascii_int i
  | .float x, h => by
    rw [writeAt] at h
    cases h
    exact ascii_float x
  | .list vs, h | .tuple vs, h => by
    rw [writeAt] at h
    split at h
    · cases h
      decide
    · obtain ⟨body, written, rfl⟩ := map_eq_ok.mp h
      have inside := ascii_writeItems vs written
      simp only [ascii_cons, ascii_append]
      exact ⟨by decide, ⟨inside, ascii_newLine level⟩, by decide⟩
  | .map entries, h => by
    rw [writeAt] at h
    split at h
    · cases h
      decide
    · obtain ⟨body, written, rfl⟩ := map_eq_ok.mp h
      have inside := ascii_writeEntries entries written
      simp only [ascii_cons, ascii_append]
      exact ⟨by decide, ⟨inside, ascii_newLine level⟩, by decide⟩
  | .text _, h | .path _, h | .date _, h | .moment _, h | .bytes _, h | .set _, h => by
    rw [writeAt] at h <;> first | (cases h; exact ascii_string _) | simp

theorem ascii_writeItems {level : Nat} {text : List Char} :
    (vs : List Value) → writeItems level vs = .ok text → Ascii text
  | [], h => by
    cases h
    decide
  | v :: rest, h => by
    rw [writeItems] at h
    obtain ⟨first, written, h⟩ := bind_eq_ok.mp h
    obtain ⟨more, others, h⟩ := bind_eq_ok.mp h
    cases h
    have here := ascii_writeAt v written
    have there := ascii_writeItems rest others
    rw [ascii_append, ascii_append]
    refine ⟨⟨ascii_newLine level, here⟩, ?_⟩
    split
    · exact there
    · exact ascii_cons.mpr ⟨by decide, there⟩

theorem ascii_writeEntries {level : Nat} {text : List Char} :
    (entries : List (Value × Value)) → writeEntries level entries = .ok text → Ascii text
  | [], h => by
    cases h
    decide
  | (k, v) :: rest, h => by
    rw [writeEntries] at h
    obtain ⟨key, -, h⟩ := bind_eq_ok.mp h
    obtain ⟨first, written, h⟩ := bind_eq_ok.mp h
    obtain ⟨more, others, h⟩ := bind_eq_ok.mp h
    cases h
    have here := ascii_writeAt v written
    have there := ascii_writeEntries rest others
    simp only [ascii_append]
    refine ⟨⟨⟨⟨ascii_newLine level, ascii_string key⟩, by decide⟩, here⟩, ?_⟩
    split
    · exact there
    · exact ascii_cons.mpr ⟨by decide, there⟩

end

/-- JSON is written in lines of printable ASCII. -/
theorem ascii_write {v : Value} {text : String} (written : write v = .ok text) :
    Ascii text.toList := by
  obtain ⟨s, here, rfl⟩ := map_eq_ok.mp written
  rw [String.toList_ofList]
  exact ascii_writeAt v here

/-- A value is read back from the document that it is written as. -/
theorem read_write {v : Value} (expressible : Expressible v) :
    ∃ text, write v = .ok text ∧ read text = .ok v := by
  obtain ⟨text, written, reads⟩ := writesAs_of_expressible expressible 0
  refine ⟨String.ofList text, by rw [write, written]; rfl, ?_⟩
  have solid : skipBlanks text = text := by simpa using reads.skipBlanks_append []
  have whole : value (2 * text.length + 1) (text ++ []) = .ok (v, []) :=
    reads.reads (by omega) fun _ first => nomatch first
  -- a mark of the byte order in front would be refused
  have noMark : text.head? ≠ some '\ufeff' := fun first =>
    absurd (ascii_writeAt v written _ (List.mem_of_mem_head? first)) (by decide)
  rw [List.append_nil] at whole
  rw [read, String.toList_ofList, document, if_neg noMark, solid, whole]
  rfl

end Json

end Branchwork
