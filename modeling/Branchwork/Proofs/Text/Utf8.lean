import Branchwork.Proofs.Result
import Branchwork.Text.Utf8
import Mathlib.Tactic.Common

/-!
# Texts as bytes and back

Texts and the bytes that spell them belong together one to one: every text is read back from its bytes,
and bytes that are read as a text are the bytes of this text. A file that is read loses its line ends,
though: those that are not line feeds are read as line feeds.

Main results:

* `Utf8.decode_encode`, `Utf8.encode_of_decode` — texts and bytes.
* `Text.unifyLineEnds_eq_self_iff` — which texts keep their line ends.
-/

namespace Branchwork.Utf8

/-! ## Bytes -/

theorem toNat_ofNat_of_lt {n : Nat} (h : n < 256) : (UInt8.ofNat n).toNat = n := by
  simp [Nat.mod_eq_of_lt h]

theorem lengthOf?_eq (b : UInt8) : lengthOf? b =
    if b.toNat < 0x80 then some 1 else if b.toNat < 0xc2 then none
    else if b.toNat < 0xe0 then some 2 else if b.toNat < 0xf0 then some 3
    else if b.toNat < 0xf5 then some 4 else none := by
  simp [lengthOf?, UInt8.lt_iff_toNat_lt]

theorem isContinuation_iff (b : UInt8) :
    isContinuation b = true ↔ 0x80 ≤ b.toNat ∧ b.toNat ≤ 0xbf := by
  simp [isContinuation, UInt8.le_iff_toNat_le]

theorem isSecond_iff (first b : UInt8) : isSecond first b = true ↔
    0x80 ≤ b.toNat ∧ b.toNat ≤ 0xbf ∧
      (first.toNat = 0xe0 → 0xa0 ≤ b.toNat) ∧ (first.toNat = 0xed → b.toNat < 0xa0) ∧
      (first.toNat = 0xf0 → 0x90 ≤ b.toNat) ∧ (first.toNat = 0xf4 → b.toNat < 0x90) := by
  simp [isSecond, isContinuation, UInt8.le_iff_toNat_le, UInt8.lt_iff_toNat_lt, ← UInt8.toNat_inj]
  omega

theorem low_ofNat {n : Nat} (h : n < 64) : low (UInt8.ofNat (n + 0x80)) = n := by
  rw [low, toNat_ofNat_of_lt (by omega)]
  omega

theorem isContinuation_ofNat {n : Nat} (h : n < 64) :
    isContinuation (UInt8.ofNat (n + 0x80)) = true := by
  rw [isContinuation_iff, toNat_ofNat_of_lt (by omega)]
  omega

/-! ## Sequences -/

section

variable {first b c d : UInt8} {rest : List UInt8}

theorem sequence_one (one : lengthOf? first = some 1) :
    sequence first rest = .char (Char.ofNat first.toNat) 1 := by
  cases rest <;> simp [sequence, one]

theorem sequence_two (two : lengthOf? first = some 2) (second : isSecond first b = true) :
    sequence first (b :: rest) = .char (Char.ofNat (first.toNat % 32 * 64 + low b)) 2 := by
  simp [sequence, two, second]

theorem sequence_three (three : lengthOf? first = some 3) (second : isSecond first b = true)
    (third : isContinuation c = true) : sequence first (b :: c :: rest) =
      .char (Char.ofNat ((first.toNat % 16 * 64 + low b) * 64 + low c)) 3 := by
  simp [sequence, three, second, third]

theorem sequence_four (four : lengthOf? first = some 4) (second : isSecond first b = true)
    (third : isContinuation c = true) (fourth : isContinuation d = true) :
    sequence first (b :: c :: d :: rest) =
      .char (Char.ofNat (((first.toNat % 8 * 64 + low b) * 64 + low c) * 64 + low d)) 4 := by
  simp [sequence, four, second, third, fourth]

end

/-- The bytes of a character are a sequence that is read as this character. -/
theorem sequence_encode (c : Char) (rest : List UInt8) :
    ∃ first more, String.utf8EncodeChar c = first :: more ∧
      sequence first (more ++ rest) = .char c (more.length + 1) := by
  have valid : c.val.toNat < 0xd800 ∨ 0xdfff < c.val.toNat ∧ c.val.toNat < 0x110000 := c.valid
  have whole : Char.ofNat c.val.toNat = c := Char.ofNat_toNat c
  unfold String.utf8EncodeChar
  dsimp only
  generalize c.val.toNat = v at valid whole
  -- by the length of the sequence: the bits that its bytes share out are put together again
  split
  · refine ⟨_, [], rfl, ?_⟩
    have length : lengthOf? (UInt8.ofNat v) = some 1 := by
      rw [lengthOf?_eq, toNat_ofNat_of_lt (by omega), if_pos (by omega)]
    rw [sequence_one length, toNat_ofNat_of_lt (by omega), whole]
    rfl
  split
  · refine ⟨_, [_], rfl, ?_⟩
    have length : lengthOf? (UInt8.ofNat (v / 64 % 32 + 192)) = some 2 := by
      rw [lengthOf?_eq, toNat_ofNat_of_lt (by omega), if_neg (by omega), if_neg (by omega),
        if_pos (by omega)]
    have second : isSecond (UInt8.ofNat (v / 64 % 32 + 192)) (UInt8.ofNat (v % 64 + 128)) = true := by
      rw [isSecond_iff, toNat_ofNat_of_lt (by omega), toNat_ofNat_of_lt (by omega)]
      omega
    have code : (v / 64 % 32 + 192) % 32 * 64 + v % 64 = v := by omega
    rw [List.singleton_append, sequence_two length second, low_ofNat (by omega),
      toNat_ofNat_of_lt (by omega), code, whole]
    rfl
  split
  · refine ⟨_, [_, _], rfl, ?_⟩
    have length : lengthOf? (UInt8.ofNat (v / 4096 % 16 + 224)) = some 3 := by
      rw [lengthOf?_eq, toNat_ofNat_of_lt (by omega), if_neg (by omega), if_neg (by omega),
        if_neg (by omega), if_pos (by omega)]
    have second : isSecond (UInt8.ofNat (v / 4096 % 16 + 224)) (UInt8.ofNat (v / 64 % 64 + 128)) =
        true := by
      rw [isSecond_iff, toNat_ofNat_of_lt (by omega), toNat_ofNat_of_lt (by omega)]
      omega
    have code : ((v / 4096 % 16 + 224) % 16 * 64 + v / 64 % 64) * 64 + v % 64 = v := by omega
    rw [List.cons_append, List.singleton_append,
      sequence_three length second (isContinuation_ofNat (by omega)), low_ofNat (by omega),
      low_ofNat (by omega), toNat_ofNat_of_lt (by omega), code, whole]
    rfl
  · refine ⟨_, [_, _, _], rfl, ?_⟩
    have length : lengthOf? (UInt8.ofNat (v / 262144 % 8 + 240)) = some 4 := by
      rw [lengthOf?_eq, toNat_ofNat_of_lt (by omega), if_neg (by omega), if_neg (by omega),
        if_neg (by omega), if_neg (by omega), if_pos (by omega)]
    have second : isSecond (UInt8.ofNat (v / 262144 % 8 + 240))
        (UInt8.ofNat (v / 4096 % 64 + 128)) = true := by
      rw [isSecond_iff, toNat_ofNat_of_lt (by omega), toNat_ofNat_of_lt (by omega)]
      omega
    have code : (((v / 262144 % 8 + 240) % 8 * 64 + v / 4096 % 64) * 64 + v / 64 % 64) * 64 +
        v % 64 = v := by omega
    rw [List.cons_append, List.cons_append, List.singleton_append,
      sequence_four length second (isContinuation_ofNat (by omega)) (isContinuation_ofNat (by omega)),
      low_ofNat (by omega), low_ofNat (by omega), low_ofNat (by omega),
      toNat_ofNat_of_lt (by omega), code, whole]
    rfl

theorem lengthOf?_eq_some {b : UInt8} {n : Nat} (h : lengthOf? b = some n) :
    n = 1 ∧ b.toNat < 0x80 ∨ n = 2 ∧ 0xc2 ≤ b.toNat ∧ b.toNat < 0xe0 ∨
      n = 3 ∧ 0xe0 ≤ b.toNat ∧ b.toNat < 0xf0 ∨ n = 4 ∧ 0xf0 ≤ b.toNat ∧ b.toNat < 0xf5 := by
  rw [lengthOf?_eq] at h
  split_ifs at h <;> cases h <;> omega

theorem low_eq {b : UInt8} (h : 0x80 ≤ b.toNat ∧ b.toNat ≤ 0xbf) :
    low b + 0x80 = b.toNat ∧ low b < 64 := by
  rw [low]
  omega

theorem ofNat_eq {n : Nat} {b : UInt8} (h : n = b.toNat) : UInt8.ofNat n = b := by
  rw [h, UInt8.ofNat_toNat]

theorem toNat_charOfNat {v : Nat} (valid : v < 0xd800 ∨ 0xdfff < v ∧ v < 0x110000) :
    (Char.ofNat v).val.toNat = v := by
  rw [Char.ofNat, dif_pos valid]
  rfl

/-- The four ways to read a character. -/
inductive Reads (first : UInt8) : List UInt8 → Char → Prop
  | one : lengthOf? first = some 1 → Reads first [] (Char.ofNat first.toNat)
  | two {b} : lengthOf? first = some 2 → isSecond first b = true →
      Reads first [b] (Char.ofNat (first.toNat % 32 * 64 + low b))
  | three {b c} : lengthOf? first = some 3 → isSecond first b = true → isContinuation c = true →
      Reads first [b, c] (Char.ofNat ((first.toNat % 16 * 64 + low b) * 64 + low c))
  | four {b c d} : lengthOf? first = some 4 → isSecond first b = true → isContinuation c = true →
      isContinuation d = true →
      Reads first [b, c, d]
        (Char.ofNat (((first.toNat % 8 * 64 + low b) * 64 + low c) * 64 + low d))

theorem reads_of_sequence {first : UInt8} {rest : List UInt8} {c : Char} {n : Nat}
    (h : sequence first rest = .char c n) :
    ∃ more tail, rest = more ++ tail ∧ n = more.length + 1 ∧ Reads first more c := by
  revert h
  fun_cases sequence first rest with
  | case1 | case3 | case4 | case6 | case7 | case9 | case10 => nofun
  | case2 _ one =>
    rintro ⟨⟩
    exact ⟨[], rest, rfl, rfl, .one one⟩
  | case5 b tail second _ two =>
    rintro ⟨⟩
    exact ⟨[b], tail, rfl, rfl, .two two (by simpa using second)⟩
  | case8 b second d tail third _ three =>
    rintro ⟨⟩
    exact ⟨[b, d], tail, rfl, rfl, .three three (by simpa using second) (by simpa using third)⟩
  | case11 k b notOne length second notTwo d third notThree e tail fourth =>
    rintro ⟨⟩
    have four : k = 4 := by
      have range := lengthOf?_eq_some length
      have notOne : k ≠ 1 := notOne
      omega
    exact ⟨[b, d, e], tail, rfl, rfl, .four (four ▸ length) (by simpa using second)
      (by simpa using third) (by simpa using fourth)⟩

/-- What is read as a character is the bytes of this character. -/
theorem Reads.encode {first : UInt8} {more : List UInt8} {c : Char} (reads : Reads first more c) :
    String.utf8EncodeChar c = first :: more := by
  have continues {b : UInt8} (h : isContinuation b = true) := low_eq ((isContinuation_iff b).mp h)
  have continuesSecond {b : UInt8} (h : isSecond first b = true) :=
    low_eq (((isSecond_iff first b).mp h).imp_right And.left)
  simp only [String.utf8EncodeChar]
  -- each length has its own range of codes, and each byte is the one of its share of the bits
  cases reads with
  | one length =>
    have range := lengthOf?_eq_some length
    rw [toNat_charOfNat (by omega), if_pos (by omega), UInt8.ofNat_toNat]
  | @two b length second =>
    have range := lengthOf?_eq_some length
    have b' := continuesSecond second
    rw [isSecond_iff] at second
    rw [toNat_charOfNat (by omega), if_neg (by omega), if_pos (by omega),
      ofNat_eq (b := first) (by omega), ofNat_eq (b := b) (by omega)]
  | @three b c length second third =>
    have range := lengthOf?_eq_some length
    have b' := continuesSecond second
    have c' := continues third
    rw [isSecond_iff] at second
    rw [toNat_charOfNat (by omega), if_neg (by omega), if_neg (by omega), if_pos (by omega),
      ofNat_eq (b := first) (by omega), ofNat_eq (b := b) (by omega), ofNat_eq (b := c) (by omega)]
  | @four b c d length second third fourth =>
    have range := lengthOf?_eq_some length
    have b' := continuesSecond second
    have c' := continues third
    have d' := continues fourth
    rw [isSecond_iff] at second
    rw [toNat_charOfNat (by omega), if_neg (by omega), if_neg (by omega), if_neg (by omega),
      ofNat_eq (b := first) (by omega), ofNat_eq (b := b) (by omega), ofNat_eq (b := c) (by omega),
      ofNat_eq (b := d) (by omega)]

/-! ## Texts -/

/-- Reading passes over the bytes that belong to a sequence already read. -/
theorem decodeFrom_append (position : Nat) (before rest : List UInt8) :
    decodeFrom position before.length (before ++ rest) =
      decodeFrom (position + before.length) 0 rest := by
  induction before generalizing position with
  | nil => rfl
  | cons b before ih =>
    rw [List.length_cons, List.cons_append, decodeFrom, ih]
    congr 1
    omega

theorem decodeFrom_encode (position : Nat) (s : List Char) :
    decodeFrom position 0 (s.flatMap String.utf8EncodeChar) = .ok s := by
  induction s generalizing position with
  | nil => rfl
  | cons c s ih =>
    obtain ⟨first, more, bytes, read⟩ := sequence_encode c (s.flatMap String.utf8EncodeChar)
    rw [List.flatMap_cons, bytes, List.cons_append, decodeFrom, read]
    dsimp only
    rw [Nat.add_sub_cancel, decodeFrom_append, ih]
    rfl

theorem encode_of_decodeFrom {position : Nat} {bytes : List UInt8} {s : List Char}
    (h : decodeFrom position 0 bytes = .ok s) : s.flatMap String.utf8EncodeChar = bytes := by
  induction s generalizing position bytes with
  | nil =>
    cases bytes with
    | nil => rfl
    | cons first rest =>
      rw [decodeFrom] at h
      split at h
      · obtain ⟨_, -, last⟩ := map_eq_ok.mp h
        cases last
      · cases h
  | cons c s ih =>
    cases bytes with
    | nil => cases h
    | cons first rest =>
      rw [decodeFrom] at h
      split at h
      · rename_i read
        obtain ⟨s', later, same⟩ := map_eq_ok.mp h
        cases same
        obtain ⟨more, tail, rfl, rfl, reads⟩ := reads_of_sequence read
        rw [Nat.add_sub_cancel, decodeFrom_append] at later
        rw [List.flatMap_cons, reads.encode, ih later, List.cons_append]
      · cases h

/-- A text is read back from its bytes. -/
theorem decode_encode (s : String) : decode (encode s) = .ok s := by
  rw [decode, encode, decodeFrom_encode]
  exact congrArg Except.ok String.ofList_toList

/-- Bytes that are read as a text are the bytes of this text. -/
theorem encode_of_decode {bytes : List UInt8} {s : String} (h : decode bytes = .ok s) :
    encode s = bytes := by
  obtain ⟨chars, read, rfl⟩ := map_eq_ok.mp h
  rw [encode, String.toList_ofList, encode_of_decodeFrom read]

theorem encode_injective {s t : String} (same : encode s = encode t) : s = t := by
  have read := decode_encode s
  rw [same, decode_encode] at read
  exact (Except.ok.inj read).symm

end Branchwork.Utf8

namespace Branchwork.Text

/-- Line ends stay as they are exactly where there is no carriage return. -/
theorem unifyLineEnds_eq_self_iff {s : List Char} : unifyLineEnds s = s ↔ '\r' ∉ s := by
  fun_induction unifyLineEnds s with
  | case1 => simp
  | case2 rest ih => simp
  | case3 c rest other ih =>
    rw [List.cons.injEq, ih, List.mem_cons, not_or]
    refine and_congr_left fun _ => ?_
    split
    · rename_i same
      simp [same]
    · rename_i apart
      simp [Ne.symm apart]

end Branchwork.Text
