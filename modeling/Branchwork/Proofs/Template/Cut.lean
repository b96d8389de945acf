import Branchwork.Proofs.Pattern.Language
import Branchwork.Proofs.Result
import Branchwork.Proofs.Text.Blank
import Branchwork.Template.Render
import Mathlib.Data.List.TakeWhile

/-!
# How a template is cut

A template is cut into variables and the literal segments between them. The cut is made from left to
right: at each place the variable that starts there is taken, and only where none starts the character
belongs to a segment (`Cuts`). A variable cannot start inside another one, so there is no second way.

Rendering puts a text in the place of each variable and leaves the segments as they are. What is put
there is not read again: the result is woven of the segments of the template and of texts that each
depend on one variable only.

Main results:

* `cuts_iff` — the pieces of a template are the only way to cut it.
* `render_weaves` — the segments of a template, and what becomes of it when it is rendered.
-/

namespace Branchwork.Template

open Pattern (weave weave_cons_char)

/-! ## Variables as they are written -/

/-- A variable as templates write it. Its namespace is a name, which does not start with a digit; its
field consists of the characters of names and points. -/
structure Variable.Proper (v : Variable) : Prop where
  starts : ∃ first rest, v.space = first :: rest ∧ first.isDigit = false
  space : ∀ c ∈ v.space, c.isAlphanum = true ∨ c = '_'
  filled : v.field ≠ []
  field : ∀ c ∈ v.field, c.isAlphanum = true ∨ c = '_' ∨ c = '.'

theorem isNameChar_iff {c : Char} : isNameChar c = true ↔ c.isAlphanum = true ∨ c = '_' := by
  simp [isNameChar]

theorem isFieldChar_iff {c : Char} :
    isFieldChar c = true ↔ c.isAlphanum = true ∨ c = '_' ∨ c = '.' := by
  simp [isFieldChar, isNameChar, or_assoc]

/-- What stands in front of the first character that does not belong to a run, and what stands behind. -/
theorem span_run {p : Char → Bool} {run : List Char} {c : Char} (rest : List Char)
    (inside : ∀ x ∈ run, p x = true) (outside : p c = false) :
    (run ++ c :: rest).takeWhile p = run ∧ (run ++ c :: rest).dropWhile p = c :: rest := by
  have ends : ∀ x ∈ (c :: rest).head?, p x = false := by simpa using outside
  exact ⟨Text.takeWhile_run inside ends, Text.dropWhile_run inside ends⟩

theorem leadingVariable?_eq_some_iff {s : List Char} {v : Variable} :
    leadingVariable? s = some v ↔ v.Proper ∧ v.written <+: '{' :: s := by
  constructor
  · intro h
    unfold leadingVariable? at h
    dsimp only at h
    split at h
    · rename_i first rest head behind
      split at h
      · rename_i tail closing
        split at h
        · cases h
        · rename_i fine
          cases h
          -- a name, a point, a field and the closing brace were found, in this order
          rw [Bool.or_eq_true, not_or, Bool.not_eq_true, List.isEmpty_iff] at fine
          obtain ⟨more, starts⟩ := List.head?_eq_some_iff.mp head
          refine ⟨⟨⟨first, more, starts, fine.1⟩, fun c mem => ?_, fine.2, fun c mem => ?_⟩,
            tail, ?_⟩
          · exact isNameChar_iff.mp (List.mem_takeWhile_imp mem)
          · exact isFieldChar_iff.mp (List.mem_takeWhile_imp mem)
          · have spaced := List.takeWhile_append_dropWhile (p := isNameChar) (l := s)
            have fielded := List.takeWhile_append_dropWhile (p := isFieldChar) (l := rest)
            rw [behind] at spaced
            rw [closing] at fielded
            conv => rhs; rw [← spaced, ← fielded]
            simp [Variable.written]
      · cases h
    · cases h
  · rintro ⟨⟨⟨first, more, starts, letter⟩, space, filled, field⟩, tail, whole⟩
    have whole : s = v.space ++ '.' :: (v.field ++ '}' :: tail) := by
      simpa [Variable.written] using (List.cons.inj whole).2.symm
    -- neither the point nor the closing brace belongs to the run in front of it
    obtain ⟨front, behind⟩ := span_run (v.field ++ '}' :: tail)
      (fun c mem => isNameChar_iff.mpr (space c mem)) (show isNameChar '.' = false by decide)
    obtain ⟨front', behind'⟩ := span_run tail
      (fun c mem => isFieldChar_iff.mpr (field c mem)) (show isFieldChar '}' = false by decide)
    have head : v.space.head? = some first := by rw [starts]; rfl
    unfold leadingVariable?
    rw [whole, front, behind]
    dsimp only
    rw [head]
    simp [front', behind', letter, filled]

/-! ## Cutting -/

/-- Ways to cut a text: at each place the variable that starts there is taken, and where none starts the
character. -/
inductive Cuts : List Char → List Piece → Prop
  | done : Cuts [] []
  | hole {v rest pieces} : v.Proper → Cuts rest pieces →
      Cuts (v.written ++ rest) (.hole v :: pieces)
  | char {c rest pieces} : (∀ v : Variable, v.Proper → ¬ v.written <+: c :: rest) →
      Cuts rest pieces → Cuts (c :: rest) (.char c :: pieces)

theorem piecesFrom_eq_drop (skip : Nat) (s : List Char) :
    piecesFrom skip s = piecesFrom 0 (s.drop skip) := by
  induction s generalizing skip with
  | nil => cases skip <;> rfl
  | cons c rest ih =>
    cases skip with
    | zero => rfl
    | succ skip => exact ih skip

/-- The variable that starts at a place, if one does. -/
theorem variableAt_eq_some_iff {c : Char} {rest : List Char} {v : Variable} :
    (if c = '{' then leadingVariable? rest else none) = some v ↔
      v.Proper ∧ v.written <+: c :: rest := by
  by_cases brace : c = '{'
  · rw [if_pos brace, brace, leadingVariable?_eq_some_iff]
  · rw [if_neg brace]
    refine ⟨nofun, ?_⟩
    rintro ⟨-, tail, whole⟩
    exact absurd (List.cons.inj whole).1.symm brace

theorem piecesFrom_hole {v : Variable} (proper : v.Proper) (rest : List Char) :
    piecesFrom 0 (v.written ++ rest) = .hole v :: piecesFrom 0 rest := by
  obtain ⟨c, front, written⟩ : ∃ c front, v.written = c :: front := ⟨_, _, rfl⟩
  have starts := variableAt_eq_some_iff.mpr
    ⟨proper, show v.written <+: c :: (front ++ rest) from ⟨rest, by rw [written]; rfl⟩⟩
  have behind : (front ++ rest).drop (v.written.length - 1) = rest := by
    rw [written, List.length_cons, Nat.add_sub_cancel, List.drop_left]
  rw [written, List.cons_append, piecesFrom, starts]
  dsimp only
  rw [piecesFrom_eq_drop, behind]

theorem piecesFrom_char {c : Char} {rest : List Char}
    (none : ∀ v : Variable, v.Proper → ¬ v.written <+: c :: rest) :
    piecesFrom 0 (c :: rest) = .char c :: piecesFrom 0 rest := by
  rw [piecesFrom]
  cases starts : if c = '{' then leadingVariable? rest else Option.none with
  | none => rfl
  | some v =>
    obtain ⟨proper, leads⟩ := variableAt_eq_some_iff.mp starts
    exact absurd leads (none v proper)

theorem cuts_piecesFrom (s : List Char) : Cuts s (piecesFrom 0 s) := by
  -- a variable takes many characters at once: by induction on the length
  induction h : s.length using Nat.strongRecOn generalizing s with
  | ind n ih =>
    cases s with
    | nil => exact .done
    | cons c rest =>
      cases starts : if c = '{' then leadingVariable? rest else none with
      | some v =>
        obtain ⟨proper, behind, whole⟩ := variableAt_eq_some_iff.mp starts
        rw [← whole, piecesFrom_hole proper]
        refine .hole proper (ih _ ?_ behind rfl)
        rw [← h, ← whole, Variable.written, List.cons_append, List.length_cons, List.length_append]
        omega
      | none =>
        have bare : ∀ v : Variable, v.Proper → ¬ v.written <+: c :: rest := by
          intro v proper leads
          rw [variableAt_eq_some_iff.mpr ⟨proper, leads⟩] at starts
          cases starts
        rw [piecesFrom_char bare]
        exact .char bare (ih _ (by rw [← h]; exact Nat.lt_succ_self _) rest rfl)

/-- The pieces of a template are the only way to cut it. -/
theorem cuts_iff {s : List Char} {ps : List Piece} : Cuts s ps ↔ ps = piecesFrom 0 s := by
  constructor
  · intro cuts
    induction cuts with
    | done => rfl
    | hole proper _ ih => rw [piecesFrom_hole proper, ih]
    | char bare _ ih => rw [piecesFrom_char bare, ih]
  · rintro rfl
    exact cuts_piecesFrom _

/-! ## Segments -/

/-- The variables among pieces. -/
def holes : List Piece → List Variable
  | [] => []
  | .char _ :: rest => holes rest
  | .hole v :: rest => v :: holes rest

/-- The literal segments of pieces: in front of each variable, and behind the last one. -/
def literals : List Piece → List (List Char)
  | [] => [[]]
  | .char c :: rest => (literals rest).modifyHead (c :: ·)
  | .hole _ :: rest => [] :: literals rest

theorem variablesOf_eq (template : String) : variablesOf template = holes (pieces template) := by
  rw [variablesOf]
  induction pieces template with
  | nil => rfl
  | cons piece rest ih => cases piece <;> simpa [holes] using ih

theorem exists_literals (ps : List Piece) : ∃ segment more, literals ps = segment :: more := by
  induction ps with
  | nil => exact ⟨[], [], rfl⟩
  | cons piece rest ih =>
    cases piece with
    | char c =>
      obtain ⟨segment, more, same⟩ := ih
      exact ⟨c :: segment, more, by rw [literals, same]; rfl⟩
    | hole v => exact ⟨[], literals rest, rfl⟩

theorem length_literals (ps : List Piece) : (literals ps).length = (holes ps).length + 1 := by
  induction ps with
  | nil => rfl
  | cons piece rest ih =>
    cases piece with
    | char c => rw [literals, List.length_modifyHead, ih, holes]
    | hole v => rw [literals, List.length_cons, ih, holes, List.length_cons]

theorem weave_char (c : Char) (ps : List Piece) (texts : List (List Char)) :
    weave (literals (.char c :: ps)) texts = c :: weave (literals ps) texts := by
  obtain ⟨segment, more, same⟩ := exists_literals ps
  rw [literals, same, List.modifyHead_cons, weave_cons_char]

/-- Literal segments and the variables between them make up a template. At no place inside a segment does
a variable start. -/
structure CutInto (template : List Char) (segments : List (List Char)) (between : List Variable) :
    Prop where
  count : segments.length = between.length + 1
  whole : template = weave segments (between.map Variable.written)
  proper : ∀ v ∈ between, v.Proper
  bare : ∀ i segment, segments[i]? = some segment → ∀ k < segment.length, ∀ v : Variable, v.Proper →
    ¬ v.written <+: (weave (segments.drop i) ((between.drop i).map Variable.written)).drop k

theorem Cuts.into {s : List Char} {ps : List Piece} (cuts : Cuts s ps) :
    CutInto s (literals ps) (holes ps) := by
  induction cuts with
  | done =>
    refine ⟨rfl, rfl, nofun, ?_⟩
    rintro (_ | i) segment at_i k inside
    · cases at_i
      cases inside
    · cases at_i
  | @hole v rest ps proper _ ih =>
    refine ⟨length_literals _, ?_, ?_, ?_⟩
    · exact congrArg (v.written ++ ·) ih.whole
    · rintro other (_ | ⟨_, mem⟩)
      · exact proper
      · exact ih.proper other mem
    · rintro (_ | i) segment at_i k inside
      · cases at_i
        cases inside
      · exact ih.bare i segment at_i k inside
  | @char c rest ps none _ ih =>
    obtain ⟨first, more, same⟩ := exists_literals ps
    have segments : literals (.char c :: ps) = (c :: first) :: more := by
      rw [literals, same]
      rfl
    have whole : c :: rest = weave ((c :: first) :: more) ((holes ps).map Variable.written) := by
      rw [weave_cons_char, ← same, ← ih.whole]
    refine ⟨length_literals _, segments ▸ whole, ih.proper, ?_⟩
    rw [segments]
    rw [same] at ih
    rintro (_ | i) segment at_i k inside
    · cases at_i
      -- the character itself, or a later place in the segment that it joins
      rw [List.drop_zero, List.drop_zero, holes, ← whole]
      cases k with
      | zero => exact none
      | succ k =>
        have later := ih.bare 0 first rfl k (Nat.lt_of_succ_lt_succ inside)
        rwa [List.drop_zero, List.drop_zero, ← ih.whole] at later
    · exact ih.bare (i + 1) segment at_i k inside

theorem cutInto (template : String) :
    CutInto template.toList (literals (pieces template)) (variablesOf template) :=
  variablesOf_eq template ▸ (cuts_iff.mpr rfl).into

/-! ## Rendering -/

/-- What stands in the place of a variable: the field of the value, the option, or the variable itself if
it is in another namespace. -/
inductive Variable.Stands (settings : Option Settings) (data : Value) : Variable → List Char → Prop
  | data {field found} : lookup data (String.ofList field) = .ok found →
      Stands settings data ⟨"data".toList, field⟩ found.rendered.toList
  | config {field s found} : settings = some s → s.option? (String.ofList field) = some found →
      found ≠ .null → Stands settings data ⟨"config".toList, field⟩ found.rendered.toList
  | other {v} : v.space ≠ "data".toList → v.space ≠ "config".toList →
      Stands settings data v v.written

theorem option?_eq_some_iff {s : Settings} {field : String} {found : Value} :
    option? s field = some found ↔ s.option? field = some found ∧ found ≠ .null := by
  unfold option?
  cases s.option? field with
  | none => simp
  | some v =>
    cases v with
    | null =>
      refine ⟨nofun, ?_⟩
      rintro ⟨⟨⟩, given⟩
      exact absurd rfl given
    | _ => exact ⟨fun h => ⟨h, by cases h; nofun⟩, And.left⟩

theorem renderValue_eq_ok {v : Value} {text : List Char} :
    renderValue v = .ok text ↔ v.isOverlong = false ∧ text = v.rendered.toList := by
  unfold renderValue
  split
  · rename_i overlong
    simp [overlong]
  · rename_i short
    simp [short, eq_comm]

theorem space?_eq_data_iff {v : Variable} : v.space? = some .data ↔ v.space = "data".toList := by
  unfold Variable.space?
  split
  · exact iff_of_true rfl ‹_›
  · rename_i other
    refine iff_of_false (fun same => ?_) other
    split at same <;> cases same

theorem space?_eq_config_iff {v : Variable} :
    v.space? = some .config ↔ v.space = "config".toList := by
  unfold Variable.space?
  by_cases isData : v.space = "data".toList
  · rw [if_pos isData, isData]
    exact iff_of_false nofun (by decide)
  · rw [if_neg isData]
    split
    · exact iff_of_true rfl ‹_›
    · exact iff_of_false nofun ‹_›

section

variable {settings : Option Settings} {data : Value} {v : Variable}

theorem Variable.render_data (isData : v.space = "data".toList) :
    v.render settings data = match lookup data (String.ofList v.field) with
      | .ok found => renderValue found
      | .error problem => .error (.index problem) := by
  have space := space?_eq_data_iff.mpr isData
  unfold Variable.render
  generalize v.space? = space? at space
  subst space
  rfl

theorem Variable.render_config (isConfig : v.space = "config".toList) :
    v.render settings data = match settings with
      | none => .error (.noSettings (String.ofList v.written))
      | some s =>
        match option? s (String.ofList v.field) with
        | some found => renderValue found
        | none => .error (.noOption ("config." ++ String.ofList v.field)) := by
  have space := space?_eq_config_iff.mpr isConfig
  unfold Variable.render
  generalize v.space? = space? at space
  subst space
  rfl

theorem Variable.render_other (notData : v.space ≠ "data".toList)
    (notConfig : v.space ≠ "config".toList) : v.render settings data = .ok v.written := by
  unfold Variable.render Variable.space?
  rw [if_neg notData, if_neg notConfig]

theorem Variable.stands_of_render {text : List Char} (h : v.render settings data = .ok text) :
    v.Stands settings data text := by
  obtain ⟨space, field⟩ := v
  by_cases isData : space = "data".toList
  · rw [Variable.render_data isData] at h
    split at h
    · rename_i found leads
      obtain ⟨-, rfl⟩ := renderValue_eq_ok.mp h
      subst isData
      exact .data leads
    · cases h
  by_cases isConfig : space = "config".toList
  · rw [Variable.render_config isConfig] at h
    cases settings with
    | none => cases h
    | some s =>
      dsimp only at h
      split at h
      · rename_i found there
        obtain ⟨-, rfl⟩ := renderValue_eq_ok.mp h
        obtain ⟨there, given⟩ := option?_eq_some_iff.mp there
        subst isConfig
        exact .config rfl there given
      · cases h
  · rw [Variable.render_other isData isConfig] at h
    cases h
    exact .other isData isConfig

end

/-- Pieces render as their segments, with what each variable renders as. -/
theorem renderPieces_eq_mapM (settings : Option Settings) (data : Value) (ps : List Piece) :
    renderPieces settings data ps =
      ((holes ps).mapM (Variable.render settings data)).map (weave (literals ps)) := by
  induction ps with
  | nil => rfl
  | cons piece rest ih =>
    cases piece with
    | char c =>
      rw [renderPieces, ih, holes]
      cases (holes rest).mapM (Variable.render settings data) with
      | error problem => rfl
      | ok texts => exact congrArg Except.ok (weave_char c rest texts).symm
    | hole v =>
      rw [renderPieces, ih, holes, List.mapM_cons]
      cases v.render settings data with
      | error problem => rfl
      | ok text => cases (holes rest).mapM (Variable.render settings data) <;> rfl

/-- A template renders if all its variables do. -/
theorem render_eq_mapM (settings : Option Settings) (data : Value) (template : String) :
    render settings data template =
      ((variablesOf template).mapM (Variable.render settings data)).map fun texts =>
        String.ofList (weave (literals (pieces template)) texts) := by
  rw [render, renderPieces_eq_mapM, variablesOf_eq]
  cases (holes (pieces template)).mapM (Variable.render settings data) <;> rfl

/-- A template is segments and the variables between them, all variables that stand there, and it renders
as its segments with what the variables stand for between them. -/
theorem render_weaves (template : String) :
    ∃ segments, CutInto template.toList segments (variablesOf template) ∧
      ∀ settings data text, render settings data template = .ok text →
        ∃ texts, List.Forall₂ (Variable.Stands settings data) (variablesOf template) texts ∧
          text.toList = weave segments texts := by
  refine ⟨literals (pieces template), cutInto template, fun settings data text h => ?_⟩
  rw [render_eq_mapM] at h
  obtain ⟨texts, renders, rfl⟩ := map_eq_ok.mp h
  exact ⟨texts, (mapM_eq_ok.mp renders).imp fun _ _ => Variable.stands_of_render,
    String.toList_ofList⟩

/-- Braces that come from the value stay as they are, and so do variables of other namespaces. -/
theorem braces_of_data_stay :
    render none (.map [(.text "a", .text "\x7bconfig.b\x7d")])
        "\x7b\x7bdata.a\x7d-\x7bother.b\x7d" = .ok "\x7b\x7bconfig.b\x7d-\x7bother.b\x7d" ∧
      ∃ segments,
        CutInto "\x7b\x7bdata.a\x7d-\x7bother.b\x7d".toList segments
          (variablesOf "\x7b\x7bdata.a\x7d-\x7bother.b\x7d") ∧
        ∃ texts,
          List.Forall₂ (Variable.Stands none (.map [(.text "a", .text "\x7bconfig.b\x7d")]))
            (variablesOf "\x7b\x7bdata.a\x7d-\x7bother.b\x7d") texts ∧
          "\x7b\x7bconfig.b\x7d-\x7bother.b\x7d".toList = weave segments texts := by
  obtain ⟨segments, cut, renders⟩ := render_weaves "\x7b\x7bdata.a\x7d-\x7bother.b\x7d"
  have rendered : render none (.map [(.text "a", .text "\x7bconfig.b\x7d")])
      "\x7b\x7bdata.a\x7d-\x7bother.b\x7d" = .ok "\x7b\x7bconfig.b\x7d-\x7bother.b\x7d" := by
    decide +kernel
  exact ⟨rendered, segments, cut, renders _ _ _ rendered⟩

end Branchwork.Template
