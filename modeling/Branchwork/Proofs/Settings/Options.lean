import Branchwork.Proofs.Settings.Flags

/-!
# The options that settings hold

An option that is given is checked in the way of its name, and the settings hold what the check makes
of its value. An option that is not given is held as it was. Settings may be taken apart into their
options and put together again any number of times: what they hold passes the check unchanged.

Main results:

* `ofOptions_takes` — what settings hold that are made of options.
* `withFlags_takes` — what settings hold that flags were applied to.
-/

namespace Branchwork.Settings

/-! ## Checks -/

/-- What the check of an option makes of a value. An option beside the seven takes every value. -/
def coerce (name : String) (v : Value) : Except Problem Value :=
  if name ∈ ["work_dir", "telemetry_dir", "template_dir"] then (readPath v).map .path
  else if name = "chromium" then (readOptionalText v).map fun text => text.elim .null .text
  else if name ∈ ["save_browser", "python"] then (readText v).map .text
  else if name = "telemetry_timeout" then (readNumber v).map .float
  else .ok v

/-- An option holds what the check makes of the value that it is given, or else what it held before. -/
def Takes (name : String) (given before after : Option Value) : Prop :=
  match given with
  | some v => ∃ v', coerce name v = .ok v' ∧ after = some v'
  | none => after = before

/-- What is given later counts. -/
theorem Takes.trans {name : String} {first later before between after : Option Value}
    (h : Takes name first before between) (h' : Takes name later between after) :
    Takes name (later.or first) before after := by
  cases later with
  | some v => exact h'
  | none =>
    rw [Option.none_or, show after = between from h']
    exact h

theorem lookup_fields_of_not_mem {s : Settings} {name : String} (other : name ∉ fieldNames) :
    s.fields.lookup name = none :=
  lookup_eq_none_iff_fresh.mpr other

theorem lookup_dump_of_not_mem {s : Settings} {name : String} (other : name ∉ fieldNames) :
    s.dump.lookup name = s.extras.lookup name := by
  rw [dump, List.lookup_append, lookup_fields_of_not_mem other, Option.none_or]

theorem lookup_dump_of_mem {s : Settings} {name : String} (mem : name ∈ fieldNames) :
    s.dump.lookup name = s.fields.lookup name := by
  have isSome : (s.fields.lookup name).isSome := (lookup_isSome_iff _ _).mpr mem
  obtain ⟨v, found⟩ := Option.isSome_iff_exists.mp isSome
  rw [dump, List.lookup_append, found, Option.some_or]

theorem coerce_other {name : String} (other : name ∉ fieldNames) (v : Value) :
    coerce name v = .ok v := by
  simp only [fieldNames, List.mem_cons, not_or] at other
  simp [coerce, other]

theorem readText_text {text text' : String} (h : readText (.text text) = .ok text') :
    text' = text := by
  unfold readText at h
  dsimp only at h
  split at h
  · exact (Except.ok.inj h).symm
  · cases h

theorem coerce_text {name text : String} {v : Value} (mem : name ∈ ["save_browser", "python"])
    (passes : coerce name (.text text) = .ok v) : v = .text text := by
  have checks : coerce name (.text text) = (readText (.text text)).map .text := by
    simp only [List.mem_cons, List.not_mem_nil, or_false] at mem
    rcases mem with rfl | rfl <;> rfl
  rw [checks] at passes
  obtain ⟨text', isRead, rfl⟩ := map_eq_ok.mp passes
  rw [readText_text isRead]

theorem coerce_chromium {given : Option String} {v : Value}
    (passes : coerce "chromium" (given.elim .null .text) = .ok v) : v = given.elim .null .text := by
  cases given with
  | none => cases passes; rfl
  | some text =>
    have checks : coerce "chromium" (.text text) =
        ((readText (.text text)).map some).map fun text => text.elim .null .text := rfl
    rw [Option.elim_some, checks] at passes
    obtain ⟨_, isSome, rfl⟩ := map_eq_ok.mp passes
    obtain ⟨text', isRead, rfl⟩ := map_eq_ok.mp isSome
    rw [readText_text isRead]

/-- What settings hold passes its check unchanged. -/
theorem coerce_held {s : Settings} {name : String} {v v' : Value}
    (held : s.dump.lookup name = some v) (passes : coerce name v = .ok v') : v' = v := by
  by_cases mem : name ∈ fieldNames
  · rw [lookup_dump_of_mem mem] at held
    simp only [fieldNames, List.mem_cons, List.not_mem_nil, or_false] at mem
    -- a path and a number are taken as they are, a text if it is whole
    rcases mem with rfl | rfl | rfl | rfl | rfl | rfl | rfl
    · cases held
      exact (Except.ok.inj passes).symm
    · cases held
      exact coerce_chromium passes
    · cases held
      exact coerce_text (by decide) passes
    · cases held
      exact coerce_text (by decide) passes
    · cases held
      exact (Except.ok.inj passes).symm
    · cases held
      exact (Except.ok.inj passes).symm
    · cases held
      exact (Except.ok.inj passes).symm
  · rw [coerce_other mem] at passes
    exact (Except.ok.inj passes).symm

/-! ## Settings made of options -/

theorem readField_takes {α : Type} {options : List (String × Value)} {name : String}
    {default x : α} {read : Value → Except Problem α} (wrap : α → Value)
    (checks : ∀ v, coerce name v = (read v).map wrap)
    (h : readField options name default read = .ok x) :
    Takes name (options.lookup name) (some (wrap default)) (some (wrap x)) := by
  unfold readField at h
  split at h
  · rename_i none
    cases h
    rw [none]
    rfl
  · rename_i v some
    rw [some]
    refine ⟨wrap x, ?_, rfl⟩
    rw [checks]
    exact map_eq_ok.mpr ⟨x, mapError_eq_ok.mp h, rfl⟩

theorem ofOptions_eq_ok {defaults s : Settings} {options : List (String × Value)}
    (h : ofOptions defaults options = .ok s) :
    readField options "work_dir" defaults.workDir readPath = .ok s.workDir ∧
    readField options "chromium" defaults.chromium readOptionalText = .ok s.chromium ∧
    readField options "save_browser" defaults.saveBrowser readText = .ok s.saveBrowser ∧
    readField options "python" defaults.python readText = .ok s.python ∧
    readField options "telemetry_dir" defaults.telemetryDir readPath = .ok s.telemetryDir ∧
    readField options "telemetry_timeout" defaults.telemetryTimeout readNumber =
      .ok s.telemetryTimeout ∧
    readField options "template_dir" defaults.templateDir readPath = .ok s.templateDir ∧
    s.extras = options.filter fun (name, _) => !fieldNames.contains name := by
  unfold ofOptions at h
  dsimp only at h
  split at h
  · rename_i a b c d e f g
    cases h
    exact ⟨a, b, c, d, e, f, g, rfl⟩
  · cases h

theorem lookup_filter {options : List (String × Value)} {name : String} (other : name ∉ fieldNames) :
    (options.filter fun (name, _) => !fieldNames.contains name).lookup name = options.lookup name := by
  induction options with
  | nil => rfl
  | cons entry rest ih =>
    obtain ⟨n, v⟩ := entry
    rw [List.filter_cons]
    by_cases isField : n ∈ fieldNames
    · have apart : name ≠ n := fun same => other (same ▸ isField)
      rw [if_neg (by simpa using isField), ih, lookup_cons_if, if_neg apart]
    · rw [if_pos (by simpa using isField), lookup_cons_if, lookup_cons_if, ih]

/-- Settings that are made of options hold those that are given, and the defaults of the others. -/
theorem ofOptions_takes {defaults s : Settings} {options : List (String × Value)}
    (h : ofOptions defaults options = .ok s) (name : String) :
    Takes name (options.lookup name) (defaults.fields.lookup name) (s.dump.lookup name) := by
  obtain ⟨workDir, chromium, saveBrowser, python, telemetryDir, timeout, templateDir, extras⟩ :=
    ofOptions_eq_ok h
  by_cases mem : name ∈ fieldNames
  · rw [lookup_dump_of_mem mem]
    simp only [fieldNames, List.mem_cons, List.not_mem_nil, or_false] at mem
    rcases mem with rfl | rfl | rfl | rfl | rfl | rfl | rfl
    · exact readField_takes .path (fun _ => rfl) workDir
    · exact readField_takes (fun text => text.elim .null .text) (fun _ => rfl) chromium
    · exact readField_takes .text (fun _ => rfl) saveBrowser
    · exact readField_takes .text (fun _ => rfl) python
    · exact readField_takes .path (fun _ => rfl) telemetryDir
    · exact readField_takes .float (fun _ => rfl) timeout
    · exact readField_takes .path (fun _ => rfl) templateDir
  · rw [lookup_dump_of_not_mem mem, lookup_fields_of_not_mem mem, extras, lookup_filter mem]
    cases options.lookup name with
    | none => rfl
    | some v => exact ⟨v, coerce_other mem v, rfl⟩

/-! ## Settings with flags -/

/-- Of the flags with one name the last counts. An option that no flag sets is held as it was. -/
theorem withFlags_takes {s s' : Settings} {flags : Mapping} (h : s.withFlags flags = .ok s') :
    ∃ given, flags = Mapping.ofTexts given ∧ ∀ name,
      Takes name (given.reverse.lookup name) (s.dump.lookup name) (s'.dump.lookup name) := by
  unfold withFlags at h
  split at h
  · rename_i none
    cases h
    exact ⟨[], List.isEmpty_iff.mp none, fun _ => rfl⟩
  · rw [named?_applied, named?_mapping, Option.bind_some] at h
    cases named : named? flags with
    | none => rw [named] at h; cases h
    | some given =>
      refine ⟨given, named?_eq_some.mp named, fun name => ?_⟩
      rw [named] at h
      -- all that the settings held is made into settings again, with the flags over it
      dsimp only [Option.map_some] at h
      cases made : ofOptions s (Table.putAll s.dump given) with
      | error faults => rw [made] at h; cases h
      | ok made' =>
        rw [made] at h
        cases h
        have takes := ofOptions_takes made name
        rw [lookup_putAll] at takes
        cases set : given.reverse.lookup name with
        | some v => rwa [set, Option.some_or] at takes
        | none =>
          -- what the settings held is checked once more
          rw [set, Option.none_or] at takes
          cases held : s.dump.lookup name with
          | some v =>
            rw [held] at takes
            obtain ⟨v', passes, after⟩ := takes
            rw [Takes, after, coerce_held held passes]
          | none =>
            have other : name ∉ fieldNames := fun mem => by
              have isSome := (lookup_isSome_iff s.fields name).mpr mem
              rw [← lookup_dump_of_mem mem, held] at isSome
              cases isSome
            rw [held, lookup_fields_of_not_mem other] at takes
            exact takes

end Branchwork.Settings
