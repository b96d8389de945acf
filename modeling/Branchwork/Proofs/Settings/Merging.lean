import Branchwork.Proofs.Run.Escapes
import Branchwork.Proofs.Settings.Options

/-!
# Flags merged with further flags

Flags that are applied to settings, and further flags that are applied to what comes of it, are worth
the two merged: the further ones win, and every option stands where it was given first. What settings
hold passes its check unchanged, so it makes no difference that options are checked twice when flags
are applied in two goes.

The messages do make a difference. A flag that takes the place of a value is warned about, and the
warning has to be written. In two goes a value can be set to null first and is then replaced without a
word; or a value is set that cannot be written, which is in the way of the next flag.

Main results:

* `Settings.withFlags_merged` — the settings themselves.
* `Run.flags_compose` — flags applied with their warnings.
-/

namespace Branchwork

namespace Settings

/-- Flags merged with further flags: those of both in order, and of two with one key the later value. -/
def merged (flags further : Mapping) : Mapping := Mapping.ofPairs (flags ++ further)

/-! ## Names of merged flags -/

theorem named?_append (flags further : Mapping) :
    named? (flags ++ further) =
      (named? flags).bind fun given => (named? further).map (given ++ ·) := by
  induction flags with
  | nil =>
    rw [List.nil_append, named?, Option.bind_some]
    cases named? further <;> rfl
  | cons flag rest ih =>
    obtain ⟨key, v⟩ := flag
    cases key with
    | text name =>
      rw [List.cons_append, named?, named?, ih]
      cases named? rest <;> cases named? further <;> rfl
    | _ => rfl

theorem named?_merged (flags further : Mapping) :
    named? (merged flags further) =
      (named? flags).bind fun given => (named? further).map fun more =>
        Table.putAll [] (given ++ more) := by
  have filled : merged flags further = applied [] (flags ++ further) := rfl
  rw [filled, named?_applied, named?_append, named?, Option.bind_some]
  cases named? flags <;> cases named? further <;> rfl

/-- The options that are made when flags with names are applied. -/
theorem withFlags_of_named {s : Settings} {flags : Mapping} {given : List (String × Value)}
    (named : named? flags = some given) :
    s.withFlags flags = if given = [] then .ok s
      else (ofOptions s (Table.putAll s.dump given)).mapError .invalid := by
  obtain rfl := named?_eq_some.mp named
  cases given with
  | nil => rfl
  | cons first rest =>
    unfold withFlags
    rw [if_neg (by simp), named?_applied, named?_mapping, named, Option.bind_some, Option.map_some,
      if_neg (List.cons_ne_nil _ _)]

theorem withFlags_of_nameless {s : Settings} {flags : Mapping} (nameless : named? flags = none) :
    s.withFlags flags = .error .nameless := by
  unfold withFlags
  split
  · rename_i empty
    rw [List.isEmpty_iff.mp empty] at nameless
    cases nameless
  · rw [named?_applied, named?_mapping, nameless]
    rfl

/-! ## Checking again -/

theorem readText_idem {v : Value} {text : String} (h : readText v = .ok text) :
    readText (.text text) = .ok text := by
  have whole : Text.isWhole text.toList := by
    unfold readText at h
    split at h
    · split at h
      · cases h
        assumption
      · cases h
    · split at h
      · split at h
        · cases h
          assumption
        · cases h
      · cases h
    · cases h
  exact if_pos whole

theorem readOptionalText_idem {v : Value} {text : Option String} (h : readOptionalText v = .ok text) :
    readOptionalText (text.elim .null .text) = .ok text := by
  cases text with
  | none => rfl
  | some text =>
    have isText : ∃ v, readText v = .ok text := by
      unfold readOptionalText at h
      split at h
      · cases h
      · obtain ⟨text', isRead, same⟩ := map_eq_ok.mp h
        cases same
        exact ⟨_, isRead⟩
    obtain ⟨v, isRead⟩ := isText
    exact map_eq_ok.mpr ⟨text, readText_idem isRead, rfl⟩

section

variable {s d : Settings} {options : List (String × Value)}

/-- An option that was checked once is checked again with the same result, whether it is given as it was
at first or as it is held. -/
theorem readField_again {α : Type} {name : String} {before after : α}
    (read : Value → Except Problem α) (wrap : α → Value)
    (again : ∀ v, read v = .ok after → read (wrap after) = .ok after)
    (held : d.dump.lookup name = some (wrap after)) (there : (options.lookup name).isSome)
    (checked : readField options name before read = .ok after) (given : List (String × Value)) :
    readField (Table.putAll d.dump given) name after read =
      readField (Table.putAll options given) name before read := by
  unfold readField
  rw [lookup_putAll, lookup_putAll]
  cases given.reverse.lookup name with
  | some v => rfl
  | none =>
    obtain ⟨v, isGiven⟩ := Option.isSome_iff_exists.mp there
    rw [readField, isGiven] at checked
    have first := mapError_eq_ok.mp checked
    rw [Option.none_or, Option.none_or, held, isGiven]
    dsimp only
    rw [first, again v first]
    rfl

/-- Options that are checked alike and leave the same ones over make settings that hold the same. -/
theorem dump_ofOptions_congr {s s' : Settings} {options options' : List (String × Value)}
    (workDir : readField options "work_dir" s.workDir readPath =
      readField options' "work_dir" s'.workDir readPath)
    (chromium : readField options "chromium" s.chromium readOptionalText =
      readField options' "chromium" s'.chromium readOptionalText)
    (saveBrowser : readField options "save_browser" s.saveBrowser readText =
      readField options' "save_browser" s'.saveBrowser readText)
    (python : readField options "python" s.python readText =
      readField options' "python" s'.python readText)
    (telemetryDir : readField options "telemetry_dir" s.telemetryDir readPath =
      readField options' "telemetry_dir" s'.telemetryDir readPath)
    (timeout : readField options "telemetry_timeout" s.telemetryTimeout readNumber =
      readField options' "telemetry_timeout" s'.telemetryTimeout readNumber)
    (templateDir : readField options "template_dir" s.templateDir readPath =
      readField options' "template_dir" s'.templateDir readPath)
    (extras : (options.filter fun (name, _) => !fieldNames.contains name) =
      options'.filter fun (name, _) => !fieldNames.contains name) :
    (ofOptions s options).map dump = (ofOptions s' options').map dump := by
  unfold ofOptions
  dsimp only
  rw [workDir, chromium, saveBrowser, python, telemetryDir, timeout, templateDir, extras]
  -- the two sides differ in the names that were given, which are not among the options
  split <;> rfl

theorem filter_dump_of_made (made : ofOptions s options = .ok d) :
    (d.dump.filter fun (name, _) => !fieldNames.contains name) =
      options.filter fun (name, _) => !fieldNames.contains name := by
  have extras := (ofOptions_eq_ok made).2.2.2.2.2.2.2
  have none : (d.fields.filter fun (name, _) => !fieldNames.contains name) = [] :=
    List.filter_eq_nil_iff.mpr fun entry mem => by
      simp only [Bool.not_eq_true, Bool.not_eq_false', List.contains_iff_mem]
      exact List.mem_map_of_mem mem
  rw [dump, List.filter_append, none, List.nil_append, extras, List.filter_filter]
  simp only [Bool.and_self]

/-- Further options may be put among those that settings were made of, or among those that the settings
hold. -/
theorem dump_ofOptions_again (made : ofOptions s options = .ok d)
    (complete : ∀ name ∈ fieldNames, (options.lookup name).isSome) (given : List (String × Value)) :
    (ofOptions d (Table.putAll d.dump given)).map dump =
      (ofOptions s (Table.putAll options given)).map dump := by
  obtain ⟨workDir, chromium, saveBrowser, python, telemetryDir, timeout, templateDir, -⟩ :=
    ofOptions_eq_ok made
  refine dump_ofOptions_congr
    (readField_again readPath .path (fun _ _ => rfl) rfl (complete "work_dir" (by decide)) workDir given)
    (readField_again readOptionalText (fun text => text.elim .null .text)
      (fun _ => readOptionalText_idem) rfl (complete "chromium" (by decide)) chromium given)
    (readField_again readText .text (fun _ => readText_idem) rfl (complete "save_browser" (by decide))
      saveBrowser given)
    (readField_again readText .text (fun _ => readText_idem) rfl (complete "python" (by decide)) python
      given)
    (readField_again readPath .path (fun _ _ => rfl) rfl (complete "telemetry_dir" (by decide))
      telemetryDir given)
    (readField_again readNumber .float (fun _ _ => rfl) rfl (complete "telemetry_timeout" (by decide))
      timeout given)
    (readField_again readPath .path (fun _ _ => rfl) rfl (complete "template_dir" (by decide))
      templateDir given) ?_
  have further := Table.filter_putAll (fun name => !fieldNames.contains name) d.dump given
  have further' := Table.filter_putAll (fun name => !fieldNames.contains name) options given
  refine further.trans (Eq.trans ?_ further'.symm)
  rw [show (d.dump.filter fun entry => !fieldNames.contains entry.1) = _ from filter_dump_of_made made]

end

theorem map_mapError {ε ε' α β : Type} (f : α → β) (g : ε → ε') (x : Except ε α) :
    (x.mapError g).map f = (x.map f).mapError g := by
  cases x <;> rfl

/-- Every one of the seven options is among those of settings that options were put into. -/
theorem lookup_putAll_isSome (s : Settings) (given : List (String × Value)) :
    ∀ name ∈ fieldNames, ((Table.putAll s.dump given).lookup name).isSome := by
  intro name mem
  have held : (s.dump.lookup name).isSome := by
    rw [lookup_dump_of_mem mem]
    exact (lookup_isSome_iff s.fields name).mpr mem
  rw [lookup_putAll]
  cases given.reverse.lookup name with
  | some v => rfl
  | none => rwa [Option.none_or]

/-- The options that are made when flags are applied that were gathered from others. -/
theorem withFlags_of_gathered {s : Settings} {flags : Mapping} {given : List (String × Value)}
    (named : named? flags = some (Table.putAll [] given)) :
    s.withFlags flags = if given = [] then .ok s
      else (ofOptions s (Table.putAll s.dump given)).mapError .invalid := by
  rw [withFlags_of_named named, Table.putAll_putAll]
  simp only [Table.putAll_eq_nil_iff]

/-- Flags and then further flags come to the same options as the two merged, or are refused for the same
faults. -/
theorem withFlags_merged {s d : Settings} {flags further : Mapping}
    (h : s.withFlags flags = .ok d) :
    (d.withFlags further).map dump = (s.withFlags (merged flags further)).map dump := by
  cases named : named? flags with
  | none =>
    rw [withFlags_of_nameless named] at h
    cases h
  | some given =>
    have both := named?_merged flags further
    rw [named, Option.bind_some] at both
    rw [withFlags_of_named named] at h
    cases named' : named? further with
    | none =>
      rw [named'] at both
      rw [withFlags_of_nameless named', withFlags_of_nameless both]
    | some more =>
      rw [named', Option.map_some] at both
      rw [withFlags_of_named named', withFlags_of_gathered both]
      split at h
      · -- nothing was applied first
        rename_i empty
        cases h
        rw [empty, List.nil_append]
      · rename_i filled
        rw [if_neg fun none => filled (List.append_eq_nil_iff.mp none).1, Table.putAll_append]
        have made := mapError_eq_ok.mp h
        split
        · -- nothing further is applied
          rename_i empty
          rw [empty]
          exact congrArg (Except.map dump) h.symm
        · rw [map_mapError, map_mapError,
            dump_ofOptions_again made (lookup_putAll_isSome s given) more]

/-! ## Options that no flag sets -/

/-- An option that neither of two groups of flags sets is not set by the two merged. -/
theorem unset_merged {flags further : Mapping} {rows : List (String × Value)}
    (named : named? (merged flags further) = some rows) {name : String}
    (unset : ∀ flag ∈ flags ++ further, flag.1 ≠ .text name) :
    ∀ flag ∈ merged flags further, flag.1 ≠ .text name := by
  rw [named?_merged] at named
  obtain ⟨given, named, named'⟩ := Option.bind_eq_some_iff.mp named
  obtain ⟨more, named', -⟩ := Option.map_eq_some_iff.mp named'
  obtain rfl := named?_eq_some.mp named
  obtain rfl := named?_eq_some.mp named'
  rw [← Mapping.ofTexts_append] at unset
  obtain ⟨rows', filled, -, each⟩ := Mapping.ofPairs_ofTexts (given ++ more)
  rw [merged, ← Mapping.ofTexts_append, filled]
  intro flag mem
  obtain ⟨row, among, rfl⟩ := List.mem_map.mp mem
  exact unset _ (List.mem_map_of_mem (each row among))

/-- An option that no flag sets is held as it was. -/
theorem withFlags_keeps {s s' : Settings} {flags : Mapping} (h : s.withFlags flags = .ok s')
    {name : String} (unset : ∀ flag ∈ flags, flag.1 ≠ .text name) :
    s'.dump.lookup name = s.dump.lookup name := by
  obtain ⟨given, rfl, takes⟩ := withFlags_takes h
  have none : given.reverse.lookup name = none := by
    rw [lookup_reverse_eq_none_iff]
    intro mem
    obtain ⟨row, among, rfl⟩ := List.mem_map.mp mem
    exact unset (.text row.1, row.2) (List.mem_map_of_mem among) rfl
  have kept := takes name
  rwa [none] at kept

end Settings

namespace Run

open Action Settings

/-! ## Flags applied with their warnings -/

section

variable {s d : Settings} {flags further : Mapping}

/-- A warning that cannot be written is in the way of flags. -/
theorem applyFlags_eq_overlong_iff (w : World) :
    ((applyFlags s flags).on w).1 = .error .overlong ↔ Unwritable s.mapping flags := by
  rw [applyFlags_result, ← none_mem_overrideWarnings, ← warnings]
  split
  · rename_i unwritable
    exact iff_of_true rfl unwritable
  · rename_i writable
    refine iff_of_false (fun same => ?_) writable
    -- what flags are refused for is something else
    cases applied : s.withFlags flags with
    | ok d => rw [applied] at same; cases same
    | error fault => rw [applied] at same; cases fault <;> cases same

theorem applyFlags_of_warned {w : World}
    (warned : ((applyFlags s flags).on w).1 ≠ .error .overlong) :
    ((applyFlags s flags).on w).1 = (s.withFlags flags).mapError flagFault := by
  rw [applyFlags_result] at warned ⊢
  split at warned
  · exact absurd rfl warned
  · rename_i writable
    rw [if_neg writable]

theorem withFlags_of_applyFlags {w w' : World} (h : (applyFlags s flags).on w = (.ok d, w')) :
    s.withFlags flags = .ok d := by
  have result : ((applyFlags s flags).on w).1 = .ok d := congrArg Prod.fst h
  rw [applyFlags_of_warned (by rw [result]; nofun)] at result
  exact mapError_eq_ok.mp result

end

/-- Flags and then further flags come to the same as the two merged, which is settings with the same
options in the same order, or the faults that they are refused for, unless a warning cannot be written: a
non-null value is replaced, and its name, itself or the new value is too long. Options that are not named
are held as they were. Settings are values, so those that flags are applied to stay what they are; all that
applying flags changes is the log. -/
theorem flags_compose {s d : Settings} {flags further : Mapping} {w w' : World}
    (applied : (applyFlags s flags).on w = (.ok d, w')) :
    (∀ v v', ((applyFlags d further).on v).1 ≠ .error .overlong →
      ((applyFlags s (merged flags further)).on v').1 ≠ .error .overlong →
      ((applyFlags d further).on v).1.map dump =
        ((applyFlags s (merged flags further)).on v').1.map dump) ∧
    (∀ v, ((applyFlags d further).on v).1 = .error .overlong ↔ Unwritable d.mapping further) ∧
    (∀ v, ((applyFlags s (merged flags further)).on v).1 = .error .overlong ↔
      Unwritable s.mapping (merged flags further)) ∧
    (∀ name, (∀ flag ∈ flags ++ further, flag.1 ≠ .text name) →
      d.dump.lookup name = s.dump.lookup name ∧ ∀ e v v',
        ((applyFlags d further).on v = (.ok e, v') ∨
          (applyFlags s (merged flags further)).on v = (.ok e, v')) →
        e.dump.lookup name = s.dump.lookup name) ∧
    ∃ log, w' = { w with log } := by
  have first := withFlags_of_applyFlags applied
  refine ⟨fun v v' warned warned' => ?_, applyFlags_eq_overlong_iff, applyFlags_eq_overlong_iff,
    fun name unset => ?_, ?_⟩
  · rw [applyFlags_of_warned warned, applyFlags_of_warned warned', map_mapError, map_mapError,
      withFlags_merged first]
  · have kept := withFlags_keeps first fun flag mem => unset flag (List.mem_append_left _ mem)
    refine ⟨kept, fun e v v' second => ?_⟩
    rcases second with second | second
    · have kept' := withFlags_keeps (withFlags_of_applyFlags second) fun flag mem =>
        unset flag (List.mem_append_right _ mem)
      rw [kept', kept]
    · have both := withFlags_of_applyFlags second
      obtain ⟨rows, named, -⟩ := withFlags_takes both
      exact withFlags_keeps both (unset_merged (named?_eq_some.mpr named) unset)
  · obtain ⟨log, same⟩ := applyFlags_onlyLogs s flags w
    rw [applied] at same
    exact ⟨log, same⟩

/-- Settings with a further option. -/
def numbered : Settings := { Settings.ofEnvironment [] .here with extras := [("x", .int 1)] }

/-- Flags for one of the seven options and for two further ones. -/
def canary : Mapping := [(.text "save_browser", .text "canary"), (.text "y", .bool true), (.text "x", .null)]

/-- Further flags, of which one takes the place of null. -/
def release : Mapping := [(.text "x", .int 2), (.text "save_browser", .text "release")]

theorem exists_on_eq_ok {α : Type} {a : Action α} {w : World} (ok : (a.on w).1.toOption.isSome) :
    ∃ x w', a.on w = (.ok x, w') := by
  rcases ran : a.on w with ⟨_ | x, w'⟩
  · rw [ran] at ok
    cases ok
  · exact ⟨x, w', rfl⟩

theorem canary_release_compose :
    ∃ d w', (applyFlags numbered canary).on (.start ⟨[]⟩) = (.ok d, w') ∧
      ((applyFlags d release).on w').1.map dump =
        ((applyFlags numbered (merged canary release)).on (.start ⟨[]⟩)).1.map dump ∧
      ((applyFlags d release).on w').1.toOption.isSome := by
  obtain ⟨d, w', applied⟩ := exists_on_eq_ok (a := applyFlags numbered canary) (w := .start ⟨[]⟩)
    (by decide +kernel)
  have further : ((applyFlags numbered canary >>= fun d => applyFlags d release).on
    (.start ⟨[]⟩)).1.toOption.isSome := by decide +kernel
  have both : ((applyFlags numbered (merged canary release)).on (.start ⟨[]⟩)).1.toOption.isSome := by
    decide +kernel
  rw [on_bind_ok applied] at further
  refine ⟨d, w', applied, (flags_compose applied).1 w' (.start ⟨[]⟩) (fun same => ?_) (fun same => ?_), further⟩
  · rw [same] at further
    cases further
  · rw [same] at both
    cases both

/-- A value that is set to null first can be replaced by one that cannot be written. -/
theorem overlong_override_differs :
    (∃ d w', (applyFlags numbered [(.text "x", .null)]).on (.start ⟨[]⟩) = (.ok d, w') ∧
      ∃ e, ((applyFlags d [(.text "x", .int (Nat.pow 10 4300))]).on w').1 = .ok e) ∧
    ¬ ∃ e, ((applyFlags numbered (merged [(.text "x", .null)] [(.text "x", .int (Nat.pow 10 4300))])).on
      (.start ⟨[]⟩)).1 = .ok e := by
  constructor
  · obtain ⟨d, w', applied⟩ := exists_on_eq_ok (a := applyFlags numbered [(.text "x", .null)])
      (w := .start ⟨[]⟩) (by decide +kernel)
    have further : ((applyFlags numbered [(.text "x", .null)] >>= fun d =>
      applyFlags d [(.text "x", .int (Nat.pow 10 4300))]).on (.start ⟨[]⟩)).1.toOption.isSome := by
        decide +kernel
    rw [on_bind_ok applied] at further
    obtain ⟨e, w'', ran⟩ := exists_on_eq_ok further
    exact ⟨d, w', applied, e, congrArg Prod.fst ran⟩
  · have refused : ((applyFlags numbered (merged [(.text "x", .null)]
      [(.text "x", .int (Nat.pow 10 4300))])).on (.start ⟨[]⟩)).1.toOption.isSome = false := by
        decide +kernel
    rintro ⟨e, ran⟩
    rw [ran] at refused
    cases refused

end Run

end Branchwork
