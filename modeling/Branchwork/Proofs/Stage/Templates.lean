import Branchwork.Proofs.Stage.Again
import Branchwork.Proofs.Template.References
import Branchwork.Proofs.Walk.Run

/-!
# The templates of a directory

The template stage reads every file of the template directory and collects the texts under the stems of
the names. Two files with one stem have one place in that table, which the later one takes: the earlier
one is neither checked nor rendered. What is left is checked as a whole before anything is rendered.

Main results:

* `readTemplates_over` — what is collected is the table that is filled with the files in order.
* `problemsOf_message` — what is complained of are the unresolved references, under the stems.
* `template_renders_last` — the last file of each stem is rendered, unless a reference in one of these
  files is unresolved.
-/

namespace Branchwork.Stage

open Action FileSystem

/-! ## Reading templates -/

/-- The name of a file without its last extension. -/
def stemOf (name : String) : String := String.ofList (Path.stemOf name.toList)

/-- Files with the stems of their names. -/
def byStem (files : List (String × String)) : List (String × String) :=
  files.map fun file => (stemOf file.1, file.2)

/-- The files of the template directory with their texts, in order of their names. -/
structure Scope.HasTemplates (scope : Scope) (fs : FileSystem) (files : List (String × String)) :
    Prop where
  directory : ∃ place, fs.look scope.host.current
      (scope.settings.resolve scope.settings.templateDir) = .ok (some (place, .directory)) ∧
    files.map (·.1) = fileNames fs place
  texts : ∀ file ∈ files, ((scope.readText
    ((scope.settings.resolve scope.settings.templateDir).below [file.1])).over fs).1 = .ok file.2

theorem putTemplate_eq (stem text : String) (templates : List (String × String)) :
    putTemplate stem text templates = Table.put stem text templates := by
  induction templates with
  | nil => rfl
  | cons template rest ih => rw [putTemplate, Table.put, ih]

theorem stem_below (directory : Path) (name : String) :
    (directory.below [name]).stem = stemOf name := by
  rw [Path.stem, Path.name, Path.below, List.getLast?_concat, Option.getD_some, stemOf]

variable {scope : Scope}

/-- The table of the templates is filled with the files in order. -/
theorem readTemplates_over {directory : Path} {fs : FileSystem} {files : List (String × String)}
    (texts : ∀ file ∈ files, ((scope.readText (directory.below [file.1])).over fs).1 = .ok file.2)
    (read : List (String × String)) :
    (scope.readTemplates directory read (files.map (·.1))).over fs =
      (.ok (Table.putAll read (byStem files)), fs) := by
  -- each file is put into the table of those before it, and no reading changes the files
  induction files generalizing read with
  | nil => rfl
  | cons file rest ih =>
    have first : scope.readTemplates directory read ((file :: rest).map (·.1)) =
        scope.readText (directory.below [file.1]) >>= fun text => scope.readTemplates directory
          (putTemplate (directory.below [file.1]).stem text read) (rest.map (·.1)) := rfl
    rw [first, over_bind _ fun text => filesOnly_readTemplates _ _ _ _, (reads_readText _).over_eq,
      texts file List.mem_cons_self]
    dsimp only
    rw [ih fun other mem => texts other (List.mem_cons_of_mem _ mem), putTemplate_eq, stem_below]
    rfl

/-! ## Checking templates -/

/-- The problems of templates, under the stems. -/
def problemsOf (settings : Settings) (templates : List (String × String)) :
    List (String × Template.Problem) :=
  templates.flatMap fun template =>
    (Template.validate (some settings) template.2).map fun problem => (template.1, problem)

/-- What is said of the references in templates to options that are not there. -/
def complaints (settings : Settings) (templates : List (String × String)) : List String :=
  templates.flatMap fun template => (Template.unresolved (some settings) template.2).map fun v =>
    s!"{template.1}: {v.complaint (some settings)}"

theorem problemsOf_message (settings : Settings) (templates : List (String × String)) :
    ((problemsOf settings templates).map fun (stem, problem) => s!"{stem}: {problem.message}") =
      complaints settings templates := by
  rw [problemsOf, complaints, List.map_flatMap]
  refine congrArg (List.flatMap · templates) (funext fun template => ?_)
  rw [List.map_map]
  have same := congrArg (List.map fun message => s!"{template.1}: {message}")
    (Template.validate_eq (some settings) template.2)
  rwa [List.map_map, List.map_map] at same

theorem problemsOf_eq_nil_iff {settings : Settings} {templates : List (String × String)} :
    problemsOf settings templates = [] ↔ complaints settings templates = [] := by
  rw [← problemsOf_message, List.map_eq_nil_iff]

theorem complaints_eq_nil_iff {settings : Settings} {templates : List (String × String)} :
    complaints settings templates = [] ↔
      ∀ template ∈ templates, Template.unresolved (some settings) template.2 = [] := by
  rw [complaints, List.flatMap_eq_nil_iff]
  exact forall₂_congr fun template mem => List.map_eq_nil_iff

/-! ## Rendering templates -/

/-- What a template comes to, under its stem. -/
def renderRow (settings : Settings) (v : Value) (template : String × String) :
    Except Template.Problem (String × String) :=
  (Template.render (some settings) v template.2).map (template.1, ·)

/-- The mapping of stems to texts. -/
def ofRows (rows : List (String × String)) : Mapping :=
  rows.map fun row => (.text row.1, .text row.2)

theorem renderAll_eq_mapM (settings : Settings) (v : Value) (templates : List (String × String)) :
    renderAll settings v templates = (templates.mapM (renderRow settings v)).map ofRows := by
  induction templates with
  | nil => rfl
  | cons template rest ih =>
    rw [renderAll, List.mapM_cons, ih, renderRow]
    cases Template.render (some settings) v template.2 with
    | error problem => rfl
    | ok text => cases rest.mapM (renderRow settings v) <;> rfl

theorem renderTemplates_eq (settings : Settings) (v : Value) (templates : List (String × String)) :
    renderTemplates settings v templates = (do
      unless (problemsOf settings templates).isEmpty do
        throw (.templates (problemsOf settings templates))
      return .map (← Action.ofExcept .template (renderAll settings v templates))) := rfl

/-- Templates with unresolved references are refused. -/
theorem renderTemplates_of_complaints {settings : Settings} {templates : List (String × String)}
    (complained : complaints settings templates ≠ []) (v : Value) (fs : FileSystem) :
    (renderTemplates settings v templates).over fs =
      (.error (.templates (problemsOf settings templates)), fs) := by
  have problems : (problemsOf settings templates).isEmpty = false := by
    rw [List.isEmpty_eq_false_iff, ne_eq, problemsOf_eq_nil_iff]
    exact complained
  rw [renderTemplates_eq, problems]
  rfl

/-- Other templates are rendered one by one. -/
theorem renderTemplates_of_none {settings : Settings} {templates : List (String × String)}
    (uncomplained : complaints settings templates = []) (v : Value) (fs : FileSystem) :
    (renderTemplates settings v templates).over fs =
      (((templates.mapM (renderRow settings v)).mapError Fault.template).map fun rows =>
        .map (ofRows rows), fs) := by
  have problems : (problemsOf settings templates).isEmpty := by
    rw [List.isEmpty_iff, problemsOf_eq_nil_iff]
    exact uncomplained
  rw [renderTemplates_eq, problems]
  change (Action.ofExcept .template (renderAll settings v templates) >>= _ : Action Value).over fs = _
  rw [over_bind _ fun _ => filesOnly_pure _, over_ofExcept, renderAll_eq_mapM]
  cases templates.mapM (renderRow settings v) <;> rfl

theorem renderRow_isOk_iff {settings : Settings} {v : Value} {template : String × String}
    (resolved : Template.unresolved (some settings) template.2 = []) :
    (∃ row, renderRow settings v template = .ok row) ↔
      ∀ x ∈ Template.variablesOf template.2, x.Answers (some settings) v := by
  rw [← Template.render_isOk_iff resolved, renderRow]
  cases Template.render (some settings) v template.2 <;> simp [Except.map]

theorem failsWith_renderRow {settings : Settings} {v : Value} {template : String × String}
    (resolved : Template.unresolved (some settings) template.2 = []) :
    FailsWith (Template.Problem.kind · = "ValueError") (renderRow settings v template) := by
  intro problem fails
  exact Template.failsWith_render resolved problem (map_eq_error.mp fails)

theorem renderRow_eq_ok {settings : Settings} {v : Value} {template row : String × String} :
    renderRow settings v template = .ok row ↔
      row.1 = template.1 ∧ Template.render (some settings) v template.2 = .ok row.2 := by
  rw [renderRow, map_eq_ok]
  constructor
  · rintro ⟨text, renders, rfl⟩
    exact ⟨rfl, renders⟩
  · rintro ⟨same, renders⟩
    exact ⟨row.2, renders, by rw [← same]⟩

/-! ## The stage -/

/-- The stage reads the files of the directory and renders what is left of them by their stems. -/
theorem run_template_on {w : World} {files : List (String × String)}
    (has : scope.HasTemplates w.files files) (v : Value) :
    ((Stage.template.run scope v).on w).1 =
        ((renderTemplates scope.settings v (Table.putAll [] (byStem files))).over w.files).1 ∧
      ((Stage.template.run scope v).on w).2.files = w.files := by
  obtain ⟨⟨place, found, names⟩, texts⟩ := has
  obtain ⟨same, sameFiles⟩ := (filesOnly_runTemplate scope v).agree w
  refine ⟨same.trans ?_, sameFiles.trans (reads_runTemplate v w.files)⟩
  rw [runTemplate_over, found]
  dsimp only
  rw [← names, over_bind _ (filesOnly_renderTemplates _ _), readTemplates_over texts]

/-- The template stage keeps the last file of each stem, so every file exactly if no two of them have one
stem. An unresolved reference in a file that is kept refuses them all, with every unresolved reference in
these files. Otherwise every file that is kept is rendered, if all that its variables lead to can be found
and written. -/
theorem template_renders_last {w : World} {files : List (String × String)}
    (has : scope.HasTemplates w.files files) (v : Value) :
    ∃ kept, Table.KeepsLast (byStem files) kept ∧
      (kept.length = files.length ↔ ((byStem files).map (·.1)).Nodup) ∧
      (((byStem files).map (·.1)).Nodup → kept = byStem files) ∧
      ((Stage.template.run scope v).on w).2.files = w.files ∧
      (complaints scope.settings kept ≠ [] →
        ∃ fault, ((Stage.template.run scope v).on w).1 = .error fault ∧
          fault.kind = "TemplateError" ∧
          fault.message = "; ".intercalate (complaints scope.settings kept)) ∧
      (complaints scope.settings kept = [] →
        ((∀ template ∈ kept, ∀ x ∈ Template.variablesOf template.2,
            x.Answers (some scope.settings) v) →
          ∃ rows : List (String × String),
            List.Forall₂ (fun template row => row.1 = template.1 ∧
              Template.render (some scope.settings) v template.2 = .ok row.2) kept rows ∧
            ((Stage.template.run scope v).on w).1 = .ok (.map (ofRows rows))) ∧
        (¬ (∀ template ∈ kept, ∀ x ∈ Template.variablesOf template.2,
            x.Answers (some scope.settings) v) →
          ∃ fault, ((Stage.template.run scope v).on w).1 = .error fault ∧
            fault.kind = "ValueError")) := by
  obtain ⟨ran, sameFiles⟩ := run_template_on has v
  have keeps := Table.keepsLast_putAll (byStem files)
  have counted : (Table.putAll [] (byStem files)).length = files.length ↔
      ((byStem files).map (·.1)).Nodup := by
    rw [← keeps.length_eq_iff, byStem, List.length_map]
  refine ⟨_, keeps, counted, keeps.eq_of_nodup, sameFiles, fun complained => ?_,
    fun uncomplained => ?_⟩
  · -- the check comes first: nothing is rendered
    rw [ran, renderTemplates_of_complaints complained]
    refine ⟨_, rfl, rfl, ?_⟩
    rw [← problemsOf_message]
    rfl
  · rw [ran, renderTemplates_of_none uncomplained]
    have resolved := complaints_eq_nil_iff.mp uncomplained
    constructor
    · intro answers
      obtain ⟨rows, renders⟩ := mapM_isOk fun template mem =>
        (renderRow_isOk_iff (resolved template mem)).mpr (answers template mem)
      refine ⟨rows, (mapM_eq_ok.mp renders).imp fun _ _ => renderRow_eq_ok.mp, ?_⟩
      rw [renders]
      rfl
    · -- no reference is unresolved, so what stops the rendering is a field or an overlong integer
      intro silent
      cases rendered : (Table.putAll [] (byStem files)).mapM (renderRow scope.settings v) with
      | ok rows =>
        refine absurd (fun template mem => ?_) silent
        obtain ⟨row, -, renders⟩ := mem_of_mapM_eq_ok rendered template mem
        exact (renderRow_isOk_iff (resolved template mem)).mp ⟨row, renders⟩
      | error problem =>
        obtain ⟨template, mem, fails⟩ := exists_of_mapM_eq_error rendered
        exact ⟨.template problem, rfl, failsWith_renderRow (resolved template mem) problem fails⟩

/-- Two templates with one stem, of which the earlier one has an unresolved reference. -/
def sameStem : FileSystem :=
  ⟨[(["templates"], .directory),
    (["templates", "a.md"], .file (Utf8.encode "\x7bconfig.nope\x7d")),
    (["templates", "a.txt"], .file (Utf8.encode "fine"))]⟩

theorem hasTemplates_sameStem : Walk.bareScope.HasTemplates sameStem
    [("a.md", "\x7bconfig.nope\x7d"), ("a.txt", "fine")] := by
  have names : (sameStem.children ["templates"]).filter (fun name =>
      isFile sameStem (["templates"] ++ [name])) = ["a.md", "a.txt"] := by decide +kernel
  have inOrder : fileNames sameStem ["templates"] = ["a.md", "a.txt"] := by
    refine (congrArg (fun names : List String => names.mergeSort fun a b => a ≤ b) names).trans ?_
    exact List.mergeSort_of_pairwise (by decide +kernel)
  refine ⟨⟨["templates"], eq_ok_of_toOption (by decide +kernel), inOrder.symm⟩, ?_⟩
  simp only [List.forall_mem_cons]
  refine ⟨eq_ok_of_toOption (by decide +kernel), eq_ok_of_toOption (by decide +kernel), nofun⟩

/-- The earlier template is not rendered, and its reference does not count. -/
theorem sameStem_renders_last :
    Walk.bareScope.HasTemplates sameStem
      [("a.md", "\x7bconfig.nope\x7d"), ("a.txt", "fine")] ∧
    Template.unresolved (some Walk.bareScope.settings) "\x7bconfig.nope\x7d" ≠ [] ∧
    ((Stage.template.run Walk.bareScope .null).on (.start sameStem)).1 =
      .ok (.map [(.text "a", .text "fine")]) := by
  refine ⟨hasTemplates_sameStem, by decide +kernel, ?_⟩
  obtain ⟨kept, keeps, -, -, -, -, renders⟩ :=
    template_renders_last (w := .start sameStem) hasTemplates_sameStem .null
  -- the later file has taken the place of the earlier one
  have one : kept = [("a", "fine")] := (Table.keepsLast_iff.mp keeps).trans (by decide +kernel)
  subst one
  have plain : Template.variablesOf "fine" = [] := by decide +kernel
  have rendered : Template.render (some Walk.bareScope.settings) .null "fine" = .ok "fine" := by
    decide +kernel
  obtain ⟨rows, texts, ran⟩ := (renders (by decide +kernel)).1 <| by
    simp [plain]
  cases texts with
  | @cons _ row _ _ first rest =>
    cases rest
    obtain ⟨stem, text⟩ := row
    obtain ⟨rfl, renders⟩ := first
    rw [rendered] at renders
    cases renders
    exact ran

end Branchwork.Stage
