import Branchwork.Proofs.Number.Digits
import Branchwork.Proofs.Result
import Branchwork.Template.Lookup

/-!
# Where fields lead

A field that is made of two leads where the second one leads from where the first one does. It leads to
the value that its parts address one after the other, and to null as soon as a part addresses nothing;
so null that is stored and null for what is missing lead on in the same way.

A part of digits is taken for an index of a list before it is read as a number. Digits that no number
is written with, and more of them than a number may have, do not address anything then: the lookup
fails.

Main results:

* `follow_eq_ok_iff`, `follow_eq_error_iff` — what parts lead to.
* `lookup_along_parts` — fields that are put together, and what they lead to.
-/

namespace Branchwork.Template

/-! ## Parts -/

/-- The parts of a field are what stands between its points. -/
theorem partsOf_eq_splitOn (s : List Char) : partsOf s = s.splitOn '.' := by
  induction s with
  | nil => rfl
  | cons c rest ih =>
    rw [partsOf, List.splitOn_cons_eq_if_modifyHead, ih]
    by_cases point : c = '.'
    · rw [if_pos point, if_pos (beq_iff_eq.mpr point)]
    · rw [if_neg point, if_neg (mt beq_iff_eq.mp point)]
      obtain ⟨first, more, split⟩ := List.exists_cons_of_ne_nil (List.splitOn_ne_nil '.' rest)
      rw [split]
      rfl

theorem follow_append (v : Value) (parts more : List (List Char)) :
    follow v (parts ++ more) = follow v parts >>= fun reached => follow reached more := by
  induction parts generalizing v with
  | nil => rfl
  | cons part parts ih =>
    rw [List.cons_append, follow, follow]
    cases step v part with
    | error problem => rfl
    | ok next => exact ih next

theorem lookup_append (data : Value) (p q : String) :
    lookup data (p ++ "." ++ q) = lookup data p >>= fun reached => lookup reached q := by
  have parts : partsOf (p ++ "." ++ q).toList = partsOf p.toList ++ partsOf q.toList := by
    rw [String.toList_append, String.toList_append, List.append_assoc, partsOf_eq_splitOn,
      partsOf_eq_splitOn, partsOf_eq_splitOn]
    exact List.splitOn_append_cons_self _ _
  rw [lookup, parts, follow_append]
  rfl

/-! ## One part -/

/-- A part that is taken for an index: digits of any kind. -/
def IsDigits (part : List Char) : Prop := part ≠ [] ∧ ∀ c ∈ part, Text.isAnyDigit c = true

/-- A part that is read as an index: decimal digits, and not too many. -/
structure IsIndex (part : List Char) : Prop where
  ne_nil : part ≠ []
  decimal : ∀ c ∈ part, (Text.decimalDigit? c).isSome = true
  short : part.length ≤ DigitLimit.greatest

theorem IsIndex.isDigits {part : List Char} (isIndex : IsIndex part) : IsDigits part :=
  ⟨isIndex.ne_nil, fun c mem => by rw [Text.isAnyDigit, isIndex.decimal c mem, Bool.true_or]⟩

/-- A part addresses a value in another one: the value under it, or the member with that index. -/
inductive Addresses : Value → List Char → Value → Prop
  | entry {entries part v} : Mapping.find? entries (String.ofList part) = some v →
      Addresses (.map entries) part v
  | member {items part v} : IsIndex part → items[Literal.digitsNumber part]? = some v →
      Addresses (.list items) part v

/-- Digits that a list is asked for and that are no index. Those at the front are counted first. -/
inductive Unreadable : Value → List Char → IndexProblem → Prop
  | tooMany {items part} : IsDigits part →
      DigitLimit.greatest < (Literal.leadingDigits part).length →
      Unreadable (.list items) part
        ⟨String.ofList part, .tooManyDigits (Literal.leadingDigits part).length⟩
  | ornamental {items part} : IsDigits part →
      (Literal.leadingDigits part).length ≤ DigitLimit.greatest →
      (∃ c ∈ part, Text.decimalDigit? c = none) →
      Unreadable (.list items) part ⟨String.ofList part, .notDigits⟩

/-- A part that addresses nothing. -/
def Misses (v : Value) (part : List Char) : Prop :=
  (∀ next, ¬ Addresses v part next) ∧ ∀ problem, ¬ Unreadable v part problem

theorem isIndex_iff {part : List Char} : IsIndex part ↔ IsDigits part ∧
    Literal.leadingDigits part = part ∧
      (Literal.leadingDigits part).length ≤ DigitLimit.greatest := by
  constructor
  · intro isIndex
    have whole := Literal.leadingDigits_eq_self_iff.mpr isIndex.decimal
    exact ⟨isIndex.isDigits, whole, whole.symm ▸ isIndex.short⟩
  · rintro ⟨digits, whole, short⟩
    exact ⟨digits.1, Literal.leadingDigits_eq_self_iff.mp whole, whole ▸ short⟩

theorem step_list_of_isDigits {part : List Char} (digits : IsDigits part) (items : List Value) :
    step (.list items) part =
      if DigitLimit.greatest < (Literal.leadingDigits part).length then
        .error ⟨String.ofList part, .tooManyDigits (Literal.leadingDigits part).length⟩
      else if Literal.leadingDigits part = part then
        .ok (items[Literal.digitsNumber part]?.getD .null)
      else .error ⟨String.ofList part, .notDigits⟩ := by
  obtain ⟨ne, digits⟩ := digits
  have asked : ¬ (part.isEmpty || !part.all Text.isAnyDigit) = true := by
    simpa [ne] using digits
  rw [step, if_neg asked, Literal.int?_of_anyDigit ne digits]
  split_ifs <;> rfl

theorem step_list_of_not_isDigits {part : List Char} (other : ¬ IsDigits part)
    (items : List Value) : step (.list items) part = .ok .null := by
  have unasked : (part.isEmpty || !part.all Text.isAnyDigit) = true := by
    by_contra asked
    exact other (by simpa [IsDigits] using asked)
  rw [step, if_pos unasked]

theorem step_of_addresses {v next : Value} {part : List Char} (addresses : Addresses v part next) :
    step v part = .ok next := by
  cases addresses with
  | entry found => rw [step, found, Option.getD_some]
  | member isIndex found =>
    obtain ⟨digits, whole, short⟩ := isIndex_iff.mp isIndex
    rw [step_list_of_isDigits digits, if_neg (Nat.not_lt.mpr short), if_pos whole, found,
      Option.getD_some]

theorem step_of_unreadable {v : Value} {part : List Char} {problem : IndexProblem}
    (unreadable : Unreadable v part problem) : step v part = .error problem := by
  cases unreadable with
  | tooMany digits many => rw [step_list_of_isDigits digits, if_pos many]
  | ornamental digits few other =>
    have partly : Literal.leadingDigits part ≠ part := by
      obtain ⟨c, mem, none⟩ := other
      intro whole
      have decimal := Literal.leadingDigits_eq_self_iff.mp whole c mem
      rw [none] at decimal
      cases decimal
    rw [step_list_of_isDigits digits, if_neg (Nat.not_lt.mpr few), if_neg partly]

theorem step_of_misses {v : Value} {part : List Char} (misses : Misses v part) :
    step v part = .ok .null := by
  obtain ⟨nothing, readable⟩ := misses
  cases v with
  | map entries =>
    cases found : Mapping.find? entries (String.ofList part) with
    | none => rw [step, found, Option.getD_none]
    | some next => exact absurd (.entry found) (nothing next)
  | list items =>
    -- digits that are plain and few are an index, and there is no member at it
    by_cases digits : IsDigits part
    · have few : (Literal.leadingDigits part).length ≤ DigitLimit.greatest := by
        by_contra many
        exact readable _ (.tooMany digits (Nat.not_le.mp many))
      have whole : Literal.leadingDigits part = part := by
        by_contra partly
        rw [Literal.leadingDigits_eq_self_iff] at partly
        push Not at partly
        obtain ⟨c, mem, other⟩ := partly
        exact readable _ (.ornamental digits few ⟨c, mem, by simpa using other⟩)
      cases found : items[Literal.digitsNumber part]? with
      | none =>
        rw [step_list_of_isDigits digits, if_neg (Nat.not_lt.mpr few), if_pos whole, found,
          Option.getD_none]
      | some next => exact absurd (.member (isIndex_iff.mpr ⟨digits, whole, few⟩) found) (nothing next)
    · exact step_list_of_not_isDigits digits items
  | _ => rfl

/-! ## Several parts -/

/-- Parts that address one value after the other. -/
inductive Reaches : Value → List (List Char) → Value → Prop
  | here {v} : Reaches v [] v
  | along {v part next parts w} : Addresses v part next → Reaches next parts w →
      Reaches v (part :: parts) w

theorem Reaches.follow_append {v w : Value} {parts : List (List Char)} (reaches : Reaches v parts w)
    (more : List (List Char)) : follow v (parts ++ more) = follow w more := by
  induction reaches with
  | here => rfl
  | along addresses _ ih => rw [List.cons_append, follow, step_of_addresses addresses]; exact ih

theorem Reaches.follow_eq {v w : Value} {parts : List (List Char)} (reaches : Reaches v parts w) :
    follow v parts = .ok w := by
  have reached := reaches.follow_append []
  rwa [List.append_nil] at reached

/-- Null leads nowhere else. -/
theorem follow_null (parts : List (List Char)) : follow .null parts = .ok .null := by
  induction parts with
  | nil => rfl
  | cons part parts ih => exact ih

/-- Parts lead to a value, which is asked for the next one of them. -/
def AsksFor (v : Value) (parts : List (List Char)) (reached : Value) (part : List Char) : Prop :=
  ∃ before after, parts = before ++ part :: after ∧ Reaches v before reached

section

variable {v reached : Value} {parts : List (List Char)} {part : List Char}

theorem follow_of_misses (asks : AsksFor v parts reached part) (misses : Misses reached part) :
    follow v parts = .ok .null := by
  obtain ⟨before, after, rfl, reaches⟩ := asks
  rw [reaches.follow_append, follow, step_of_misses misses]
  exact follow_null after

theorem follow_of_unreadable {problem : IndexProblem} (asks : AsksFor v parts reached part)
    (unreadable : Unreadable reached part problem) : follow v parts = .error problem := by
  obtain ⟨before, after, rfl, reaches⟩ := asks
  rw [reaches.follow_append, follow, step_of_unreadable unreadable]

/-- All parts address something, or there is a first one that does not. -/
theorem reaches_or_asksFor (v : Value) (parts : List (List Char)) : (∃ w, Reaches v parts w) ∨
    ∃ reached part, AsksFor v parts reached part ∧
      (Misses reached part ∨ ∃ problem, Unreadable reached part problem) := by
  induction parts generalizing v with
  | nil => exact .inl ⟨v, .here⟩
  | cons part parts ih =>
    -- the first part decides, unless it addresses something
    by_cases unreadable : ∃ problem, Unreadable v part problem
    · exact .inr ⟨v, part, ⟨[], parts, rfl, .here⟩, .inr unreadable⟩
    by_cases addresses : ∃ next, Addresses v part next
    · obtain ⟨next, addresses⟩ := addresses
      rcases ih next with ⟨w, reaches⟩ | ⟨reached, other, ⟨before, after, rfl, reaches⟩, ends⟩
      · exact .inl ⟨w, .along addresses reaches⟩
      · exact .inr ⟨reached, other, ⟨part :: before, after, rfl, .along addresses reaches⟩, ends⟩
    · exact .inr ⟨v, part, ⟨[], parts, rfl, .here⟩,
        .inl ⟨not_exists.mp addresses, not_exists.mp unreadable⟩⟩

/-- What parts lead to: the value that they address, or null where one of them addresses nothing. -/
theorem follow_eq_ok_iff {w : Value} : follow v parts = .ok w ↔ Reaches v parts w ∨
    w = .null ∧ ∃ reached part, AsksFor v parts reached part ∧ Misses reached part := by
  constructor
  · intro h
    rcases reaches_or_asksFor v parts with
      ⟨w', reaches⟩ | ⟨reached, part, asks, misses | ⟨problem, unreadable⟩⟩
    · rw [reaches.follow_eq] at h
      cases h
      exact .inl reaches
    · rw [follow_of_misses asks misses] at h
      cases h
      exact .inr ⟨rfl, reached, part, asks, misses⟩
    · rw [follow_of_unreadable asks unreadable] at h
      cases h
  · rintro (reaches | ⟨rfl, reached, part, asks, misses⟩)
    · exact reaches.follow_eq
    · exact follow_of_misses asks misses

/-- Where parts lead nowhere: a list on the way is asked for digits that are no index. -/
theorem follow_eq_error_iff {problem : IndexProblem} : follow v parts = .error problem ↔
    ∃ reached part, AsksFor v parts reached part ∧ Unreadable reached part problem := by
  constructor
  · intro h
    rcases reaches_or_asksFor v parts with
      ⟨w, reaches⟩ | ⟨reached, part, asks, misses | ⟨problem', unreadable⟩⟩
    · rw [reaches.follow_eq] at h
      cases h
    · rw [follow_of_misses asks misses] at h
      cases h
    · rw [follow_of_unreadable asks unreadable] at h
      cases h
      exact ⟨reached, part, asks, unreadable⟩
  · rintro ⟨reached, part, asks, unreadable⟩
    exact follow_of_unreadable asks unreadable

end

/-! ## Fields -/

/-- Fields that are put together lead on from each other, with whatever each of them leads to. A field
leads to the value that its parts address, to null if one of them addresses nothing, and it fails only
where a list on the way is asked for digits that are no index. -/
theorem lookup_along_parts (data : Value) :
    (∀ p q : String,
      lookup data (p ++ "." ++ q) = lookup data p >>= fun reached => lookup reached q) ∧
    ∀ field : String,
      (∀ v, lookup data field = .ok v ↔ Reaches data (field.toList.splitOn '.') v ∨
        v = .null ∧ ∃ reached part,
          AsksFor data (field.toList.splitOn '.') reached part ∧ Misses reached part) ∧
      ∀ problem, lookup data field = .error problem ↔ ∃ reached part,
        AsksFor data (field.toList.splitOn '.') reached part ∧ Unreadable reached part problem := by
  refine ⟨lookup_append data, fun field => ?_⟩
  rw [← partsOf_eq_splitOn]
  exact ⟨fun _ => follow_eq_ok_iff, fun _ => follow_eq_error_iff⟩

/-- A member of a list under a key, by an index in other digits, and by a superscript. -/
example : lookup (.map [(.text "a", .list [.null, .text "x"])]) "a.१" = .ok (.text "x") ∧
    lookup (.map [(.text "a", .list [.null, .text "x"])]) "a.0.b" = .ok .null ∧
    lookup (.map [(.text "a", .list [.null, .text "x"])]) "a.²" = .error ⟨"²", .notDigits⟩ :=
  ⟨rfl, rfl, rfl⟩

end Branchwork.Template
