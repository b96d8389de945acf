import Branchwork.Proofs.Template.Cut

/-!
# References to options

A variable of the options' namespace refers to an option. Validating a template complains of the
references to options that are not there. Rendering it is refused for the first of them, so the two
agree, as long as all that the other variables lead to can be found and written: a part of a field
that is no index, or an integer with too many digits, is in the way of rendering, and validating
does not see it.

Main results:

* `validate_eq` — what validating complains of.
* `Variable.render_of_unresolved`, `Variable.render_isOk_iff`, `Variable.failsWith_render` — whether a
  variable renders, and what is wrong if it does not.
* `validate_agrees` — a template without complaints renders, and another one is refused for the
  reference that is complained of first.
-/

namespace Branchwork.Template

/-! ## References -/

/-- A reference to an option that is not there: no settings are given, or nothing but null stands under
the field. -/
def Variable.Unresolved (settings : Option Settings) (v : Variable) : Prop :=
  v.space = "config".toList ∧ ∀ s, settings = some s →
    ∀ found, s.option? (String.ofList v.field) = some found → found = .null

/-- What is said of a reference to an option that is not there. -/
def Variable.complaint (v : Variable) : Option Settings → String
  | none => "No configuration available for " ++ String.ofList v.written
  | some _ => "Config option not found: " ++ String.ofList v.written

/-- What is said when a reference cannot be rendered. -/
def Variable.refusal (v : Variable) : Option Settings → String
  | none => "No configuration available for " ++ String.ofList v.written
  | some _ => "Config option not found: " ++ ("config." ++ String.ofList v.field)

theorem option?_eq_none_iff {s : Settings} {field : String} :
    option? s field = none ↔ ∀ found, s.option? field = some found → found = .null := by
  constructor
  · intro none found there
    by_contra given
    rw [option?_eq_some_iff.mpr ⟨there, given⟩] at none
    cases none
  · intro nulls
    cases found : option? s field with
    | none => rfl
    | some v =>
      obtain ⟨there, given⟩ := option?_eq_some_iff.mp found
      exact absurd (nulls v there) given

theorem unresolved_none_iff {v : Variable} :
    v.Unresolved none ↔ v.space = "config".toList :=
  ⟨And.left, fun isConfig => ⟨isConfig, fun _ same => nomatch same⟩⟩

theorem unresolved_some_iff {s : Settings} {v : Variable} :
    v.Unresolved (some s) ↔
      v.space = "config".toList ∧ option? s (String.ofList v.field) = none := by
  rw [option?_eq_none_iff]
  exact and_congr_right fun _ => ⟨fun h => h s rfl, fun h _ same => Option.some.inj same ▸ h⟩

theorem check_eq_none_iff {settings : Option Settings} {v : Variable} :
    check settings v = none ↔ ¬ v.Unresolved settings := by
  unfold check
  by_cases isConfig : v.space = "config".toList
  · rw [if_pos (space?_eq_config_iff.mpr isConfig)]
    cases settings with
    | none => simp [unresolved_none_iff, isConfig]
    | some s =>
      rw [unresolved_some_iff]
      dsimp only
      cases option? s (String.ofList v.field) <;> simp [isConfig]
  · rw [if_neg fun same => isConfig (space?_eq_config_iff.mp same)]
    exact iff_of_true rfl fun unresolved => isConfig unresolved.1

instance (settings : Option Settings) (v : Variable) : Decidable (v.Unresolved settings) :=
  decidable_of_iff (check settings v ≠ none) (by rw [ne_eq, check_eq_none_iff, not_not])

theorem message_of_check {settings : Option Settings} {v : Variable} {problem : Problem}
    (h : check settings v = some problem) : problem.message = v.complaint settings := by
  unfold check at h
  split at h
  · cases settings with
    | none =>
      cases h
      rfl
    | some s =>
      dsimp only at h
      split at h
      · cases h
      · cases h
        rfl
  · cases h

/-- The references to options that are not there, in order. -/
def unresolved (settings : Option Settings) (template : String) : List Variable :=
  (variablesOf template).filter (·.Unresolved settings)

/-- Validating complains of each reference to an option that is not there, in order. -/
theorem validate_eq (settings : Option Settings) (template : String) :
    (validate settings template).map Problem.message =
      (unresolved settings template).map (Variable.complaint · settings) := by
  rw [validate, unresolved]
  -- the check of each variable complains exactly of what the filter keeps
  induction variablesOf template with
  | nil => rfl
  | cons v rest ih =>
    cases checked : check settings v with
    | none =>
      rw [List.filterMap_cons_none checked, ih,
        List.filter_cons_of_neg (by simpa using check_eq_none_iff.mp checked)]
    | some problem =>
      have isUnresolved : v.Unresolved settings := by
        by_contra resolved
        rw [check_eq_none_iff.mpr resolved] at checked
        cases checked
      rw [List.filterMap_cons_some checked, List.map_cons, ih, message_of_check checked,
        List.filter_cons_of_pos (by simpa using isUnresolved), List.map_cons]

theorem validate_eq_nil_iff {settings : Option Settings} {template : String} :
    validate settings template = [] ↔ unresolved settings template = [] := by
  rw [← List.map_eq_nil_iff, validate_eq, List.map_eq_nil_iff]

/-! ## Rendering a variable -/

/-- What a variable leads to can be found and written: the field of the value, or the option. -/
structure Variable.Answers (settings : Option Settings) (data : Value) (v : Variable) : Prop where
  data : v.space = "data".toList →
    ∃ found, lookup data (String.ofList v.field) = .ok found ∧ found.isOverlong = false
  option : v.space = "config".toList → ∀ s, settings = some s →
    ∀ found, s.option? (String.ofList v.field) = some found → found.isOverlong = false

section

variable {settings : Option Settings} {data : Value} {v : Variable}

/-- A reference to an option that is not there is refused. -/
theorem Variable.render_of_unresolved (data : Value) (unresolved : v.Unresolved settings) :
    ∃ problem, v.render settings data = .error problem ∧ problem.kind = "TemplateError" ∧
      problem.message = v.refusal settings := by
  rw [Variable.render_config unresolved.1]
  cases settings with
  | none => exact ⟨.noSettings (String.ofList v.written), rfl, rfl, rfl⟩
  | some s =>
    refine ⟨.noOption ("config." ++ String.ofList v.field), ?_, rfl, rfl⟩
    dsimp only
    rw [(unresolved_some_iff.mp unresolved).2]

theorem renderValue_isOk_iff {found : Value} :
    (∃ text, renderValue found = .ok text) ↔ found.isOverlong = false := by
  simp [renderValue_eq_ok]

theorem failsWith_renderValue (found : Value) :
    FailsWith (Problem.kind · = "ValueError") (renderValue found) := by
  unfold renderValue
  split
  · exact failsWith_error rfl
  · exact failsWith_ok _

/-- An option that is there is what a reference to it renders as. -/
theorem Variable.exists_option (data : Value) (resolved : ¬ v.Unresolved settings)
    (isConfig : v.space = "config".toList) :
    ∃ s found, settings = some s ∧ s.option? (String.ofList v.field) = some found ∧
      v.render settings data = renderValue found := by
  cases settings with
  | none => exact absurd (unresolved_none_iff.mpr isConfig) resolved
  | some s =>
    cases there : option? s (String.ofList v.field) with
    | none => exact absurd (unresolved_some_iff.mpr ⟨isConfig, there⟩) resolved
    | some found =>
      refine ⟨s, found, rfl, (option?_eq_some_iff.mp there).1, ?_⟩
      rw [Variable.render_config isConfig]
      dsimp only
      rw [there]

/-- A variable that is no reference to a missing option renders exactly if what it leads to can be found
and written. -/
theorem Variable.render_isOk_iff (resolved : ¬ v.Unresolved settings) :
    (∃ text, v.render settings data = .ok text) ↔ v.Answers settings data := by
  by_cases isData : v.space = "data".toList
  · -- a field need not be found, or may be one that cannot be written
    have notConfig : v.space ≠ "config".toList := by
      rw [isData]
      decide
    rw [Variable.render_data isData]
    constructor
    · intro renders
      refine ⟨fun _ => ?_, fun isConfig => absurd isConfig notConfig⟩
      cases leads : lookup data (String.ofList v.field) with
      | error problem => simp [leads] at renders
      | ok found =>
        rw [leads] at renders
        exact ⟨found, rfl, renderValue_isOk_iff.mp renders⟩
    · intro answers
      obtain ⟨found, leads, short⟩ := answers.data isData
      rw [leads]
      exact renderValue_isOk_iff.mpr short
  by_cases isConfig : v.space = "config".toList
  · -- the option is there, so all that is asked of it is that it can be written
    obtain ⟨s, found, rfl, there, renders⟩ := Variable.exists_option data resolved isConfig
    rw [renders, renderValue_isOk_iff]
    constructor
    · intro short
      refine ⟨fun same => absurd same isData, fun _ s' same found' there' => ?_⟩
      cases same
      rw [there] at there'
      cases there'
      exact short
    · exact fun answers => answers.option isConfig s rfl found there
  · rw [Variable.render_other isData isConfig]
    exact iff_of_true ⟨_, rfl⟩ ⟨fun same => absurd same isData, fun same => absurd same isConfig⟩

/-- Nothing but a missing option is a fault of the template. -/
theorem Variable.failsWith_render (resolved : ¬ v.Unresolved settings) :
    FailsWith (Problem.kind · = "ValueError") (v.render settings data) := by
  by_cases isData : v.space = "data".toList
  · rw [Variable.render_data isData]
    split
    · exact failsWith_renderValue _
    · exact failsWith_error rfl
  by_cases isConfig : v.space = "config".toList
  · obtain ⟨s, found, -, -, renders⟩ := Variable.exists_option data resolved isConfig
    rw [renders]
    exact failsWith_renderValue found
  · rw [Variable.render_other isData isConfig]
    exact failsWith_ok _

end

/-! ## Rendering a template -/

/-- The fault of a template is that of its first variable that has one. -/
theorem faultOf_render (settings : Option Settings) (data : Value) (template : String) :
    faultOf (render settings data template) =
      (variablesOf template).findSome? fun v => faultOf (v.render settings data) := by
  rw [← faultOf_mapM, render_eq_mapM]
  cases (variablesOf template).mapM (Variable.render settings data) <;> rfl

section

variable {settings : Option Settings} {data : Value} {template : String}

theorem not_unresolved (resolved : unresolved settings template = []) {v : Variable}
    (mem : v ∈ variablesOf template) : ¬ v.Unresolved settings := fun isUnresolved =>
  absurd (decide_eq_true isUnresolved) (List.filter_eq_nil_iff.mp resolved v mem)

/-- A template without unresolved references renders exactly if what its variables lead to can be found
and written. -/
theorem render_isOk_iff (resolved : unresolved settings template = []) :
    (∃ text, render settings data template = .ok text) ↔
      ∀ v ∈ variablesOf template, v.Answers settings data := by
  rw [← faultOf_eq_none, faultOf_render, List.findSome?_eq_none_iff]
  refine forall₂_congr fun v mem => ?_
  rw [faultOf_eq_none]
  exact Variable.render_isOk_iff (not_unresolved resolved mem)

theorem failsWith_render (resolved : unresolved settings template = []) :
    FailsWith (Problem.kind · = "ValueError") (render settings data template) := by
  intro problem fails
  rw [render_eq_mapM, map_eq_error] at fails
  obtain ⟨v, mem, fails⟩ := exists_of_mapM_eq_error fails
  exact Variable.failsWith_render (not_unresolved resolved mem) problem fails

end

/-- A template is refused for its first unresolved reference, if what the variables lead to can be found
and written. -/
theorem render_of_unresolved {settings : Option Settings} {data : Value} {template : String}
    (answers : ∀ v ∈ variablesOf template, v.Answers settings data) {v : Variable}
    {rest : List Variable} (first : unresolved settings template = v :: rest) :
    ∃ problem, render settings data template = .error problem ∧ problem.kind = "TemplateError" ∧
      problem.message = v.refusal settings := by
  obtain ⟨before, behind, split, others, isUnresolved, -⟩ := List.filter_eq_cons_iff.mp first
  obtain ⟨problem, refused, kind, message⟩ :=
    Variable.render_of_unresolved data (of_decide_eq_true isUnresolved)
  refine ⟨problem, faultOf_eq_some.mp ?_, kind, message⟩
  -- the variables in front of the reference render
  have faultless : before.findSome? (fun u => faultOf (u.render settings data)) = none := by
    refine List.findSome?_eq_none_iff.mpr fun u mem => faultOf_eq_none.mpr ?_
    refine (Variable.render_isOk_iff fun isUnresolved => ?_).mpr (answers u ?_)
    · exact others u mem (decide_eq_true isUnresolved)
    · rw [split]
      exact List.mem_append_left _ mem
  rw [faultOf_render, split, List.findSome?_append, faultless, Option.none_or,
    List.findSome?_cons_of_isSome, refused]
  · rfl
  · rw [refused]
    rfl

/-- Where all that the variables lead to can be found and written, validating a template and rendering it
agree: a template that is not complained of renders, and another one is refused for the reference that is
complained of first. The complaints are those of the unresolved references, one for each, in order. -/
theorem validate_agrees {settings : Option Settings} {data : Value} {template : String}
    (answers : ∀ v ∈ variablesOf template, v.Answers settings data) :
    (validate settings template).map Problem.message =
      ((variablesOf template).filter (·.Unresolved settings)).map (Variable.complaint · settings) ∧
    (validate settings template = [] ↔ ∃ text, render settings data template = .ok text) ∧
    ∀ v rest, (variablesOf template).filter (·.Unresolved settings) = v :: rest →
      ∃ problem, render settings data template = .error problem ∧
        problem.kind = "TemplateError" ∧ problem.message = v.refusal settings := by
  refine ⟨validate_eq settings template, ?_, fun v rest => render_of_unresolved answers⟩
  rw [validate_eq_nil_iff]
  refine ⟨fun resolved => (render_isOk_iff resolved).mpr answers, ?_⟩
  -- a template with an unresolved reference is refused, so one that renders has none
  rintro ⟨text, renders⟩
  by_contra some
  obtain ⟨v, rest, first⟩ := List.exists_cons_of_ne_nil some
  obtain ⟨problem, refused, -⟩ := render_of_unresolved answers first
  rw [refused] at renders
  cases renders

/-- Settings with one further option. -/
def settingsWith (name : String) (v : Value) : Settings :=
  { Settings.ofEnvironment [] .here with extras := [(name, v)] }

/-- A field of the value, and two references of which the second one is unresolved. -/
def partlyResolved : String := "\x7bdata.a\x7d \x7bconfig.x\x7d \x7bconfig.y.z\x7d"

theorem answers_partlyResolved : ∀ v ∈ variablesOf partlyResolved,
    v.Answers (some (settingsWith "x" (.text "X"))) (.map [(.text "a", .int 1)]) := by
  have three : variablesOf partlyResolved = [⟨"data".toList, "a".toList⟩,
      ⟨"config".toList, "x".toList⟩, ⟨"config".toList, "y.z".toList⟩] := by decide +kernel
  have short : ∀ field ∈ ["x", "y.z"],
      ((settingsWith "x" (.text "X")).option? field).any Value.isOverlong = false := by decide +kernel
  have option : ∀ field ∈ ["x", "y.z"], ∀ s, some (settingsWith "x" (.text "X")) = some s →
      ∀ found, s.option? field = some found → found.isOverlong = false := by
    rintro field mem s ⟨⟩ found there
    simpa [there] using short field mem
  rw [three]
  simp only [List.forall_mem_cons]
  refine ⟨⟨fun _ => ⟨.int 1, rfl, by decide +kernel⟩, fun other => ?_⟩, ⟨fun other => ?_, fun _ => ?_⟩,
    ⟨fun other => ?_, fun _ => ?_⟩, nofun⟩
  · exact absurd other (by decide)
  · exact absurd other (by decide)
  · exact option "x" (by decide)
  · exact absurd other (by decide)
  · exact option "y.z" (by decide)

theorem partlyResolved_agrees :
    (∀ v ∈ variablesOf partlyResolved,
      v.Answers (some (settingsWith "x" (.text "X"))) (.map [(.text "a", .int 1)])) ∧
    ¬ (∃ text, render (some (settingsWith "x" (.text "X"))) (.map [(.text "a", .int 1)])
      partlyResolved = .ok text) ∧
    ∃ problem, render (some (settingsWith "x" (.text "X"))) (.map [(.text "a", .int 1)])
        partlyResolved = .error problem ∧ problem.kind = "TemplateError" ∧
      problem.message = "Config option not found: config.y.z" := by
  obtain ⟨-, rendersIff, refuses⟩ := validate_agrees answers_partlyResolved
  have complaints : validate (some (settingsWith "x" (.text "X"))) partlyResolved ≠ [] := by
    decide +kernel
  obtain ⟨problem, refused, kind, message⟩ := refuses ⟨"config".toList, "y.z".toList⟩ []
    (by decide +kernel)
  exact ⟨answers_partlyResolved, fun renders => complaints (rendersIff.mpr renders),
    problem, refused, kind, message.trans (by decide +kernel)⟩

/-- An option that is there need not be one that can be written. -/
theorem overlong_option_unrendered :
    (∀ v ∈ variablesOf "\x7bconfig.x\x7d", v.space = "data".toList →
      ∃ found, lookup .null (String.ofList v.field) = .ok found) ∧
    validate (some (settingsWith "x" (.int (Nat.pow 10 4300)))) "\x7bconfig.x\x7d" = [] ∧
    ¬ ∃ text, render (some (settingsWith "x" (.int (Nat.pow 10 4300)))) .null "\x7bconfig.x\x7d" =
      .ok text := by
  have one : variablesOf "\x7bconfig.x\x7d" = [⟨"config".toList, "x".toList⟩] := by
    decide +kernel
  have refused : render (some (settingsWith "x" (.int (Nat.pow 10 4300)))) .null "\x7bconfig.x\x7d" =
      .error .overlong := by decide +kernel
  refine ⟨?_, by decide +kernel, ?_⟩
  · rw [one]
    intro v mem isData
    cases List.mem_singleton.mp mem
    exact absurd isData (by decide)
  · rw [refused]
    rintro ⟨text, ⟨⟩⟩

end Branchwork.Template
