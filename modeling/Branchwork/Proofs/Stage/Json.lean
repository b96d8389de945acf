import Branchwork.Proofs.Json.RoundTrip
import Branchwork.Proofs.Stage.Outcome
import Branchwork.Proofs.Text.Utf8

/-!
# Values that come back from JSON

A value that JSON can express comes back from its text, whether the text is handed on or written to a
file and read again. JSON is lines of printable ASCII, so a file keeps every character of it.

Main result: `json_comes_back`.
-/

namespace Branchwork.Stage

open Action FileSystem

variable {scope : Scope}

/-! ## Files that are read after they are written -/

theorem checkPath_anywhere {p : Path} {w w' : World}
    (checked : (checkPath p).on w = (.ok (), w')) (u : World) : (checkPath p).on u = (.ok (), u) := by
  unfold checkPath at checked ⊢
  cases named : Text.unnamable? p.text with
  | some found =>
    rw [named] at checked
    cases checked
  | none =>
    rw [named] at checked
    cases null : hasNull p.parts with
    | true =>
      rw [null] at checked
      cases checked
    | false => rfl

/-- A file that was opened has a path that no check refuses. -/
theorem openFile_checks {name : Value} {w w' : World} {p : Path}
    (opened : (scope.openFile name).on w = (.ok p, w')) (u : World) :
    (checkPath p).on u = (.ok (), u) := by
  obtain ⟨p', w₁, path, behind⟩ := on_bind_eq_ok.mp opened
  obtain ⟨_, w₂, _, behind⟩ := on_bind_eq_ok.mp behind
  obtain ⟨_, w₃, _, behind⟩ := on_bind_eq_ok.mp behind
  obtain ⟨_, w₄, named, behind⟩ := on_bind_eq_ok.mp behind
  obtain ⟨_, w₅, _, last⟩ := on_bind_eq_ok.mp behind
  cases last
  exact checkPath_anywhere named u

/-- A text without carriage returns is read from a file that holds its bytes. -/
theorem readText_of_encoded {p : Path} {w : World} {text : String}
    (checked : (checkPath p).on w = (.ok (), w))
    (opened : w.files.readFile scope.host.current p = .ok (Utf8.encode text))
    (noReturn : '\r' ∉ text.toList) : (scope.readText p).on w = (.ok text, w) := by
  unfold Scope.readText
  rw [on_bind_ok checked, on_bind_ok (on_files w),
    on_bind_ok (on_ofExcept_eq_ok.mpr ⟨opened, rfl⟩),
    on_bind_ok (on_ofExcept_eq_ok.mpr ⟨Utf8.decode_encode text, rfl⟩),
    Text.unifyLineEnds_eq_self_iff.mpr noReturn, String.ofList_toList, on_pure]

/-- A value that can be written is stored wherever a file can be opened, and it is found there. -/
theorem store_of_opened {name data : Value} {w mid : World} {p : Path} {text : String}
    (opened : (scope.openFile name).on w = (.ok p, mid)) (writable : Writable data text) :
    ∃ r w', (scope.store name data).on w = (.ok r, w') ∧
      w'.files.readFile scope.host.current p = .ok (Utf8.encode text) := by
  obtain ⟨-, place, leads, empty, -⟩ := openFile_eq_ok opened
  have free : mid.files.get? place ≠ some .directory := by simp [empty]
  have put := grown_put_file free (Utf8.encode text)
  have spelt : (storedText data).on mid = (.ok text, mid) := by
    rw [storedText, serialize_eq, on_bind_ok (on_ofExcept_eq_ok.mpr ⟨writable.isText, rfl⟩)]
    rw [writable.whole]
    rfl
  unfold Scope.store
  rw [on_bind_ok opened, on_bind_ok spelt, on_bind, writeBytes_on, writeFile_of_follow leads free]
  exact ⟨_, _, rfl, readFile_eq_ok.mpr
    ⟨place, put.follow leads, get?_put_self _ (ne_root_of_free free) _⟩⟩

/-! ## Values that come back -/

theorem unstorable?_of_ascii {text : String} (ascii : Json.Ascii text.toList) :
    Text.unstorable? text = none := by
  refine Text.loneHalves?_of_isWhole (List.all_eq_true.mpr fun c mem => ?_) _ 0
  have low : c.toNat < Text.standInOffset := by
    rcases ascii c mem with newLine | ⟨-, high⟩
    · rw [newLine]
      decide
    · unfold Text.standInOffset
      omega
  simp [Text.half?, low]

/-- A value that JSON can express comes back from its text: from the text itself, and from the file
that this text was written to, or a value which is spelt like it. A file that can be opened takes every
such text. -/
theorem json_comes_back {v : Value} (expressible : Json.Expressible v) (scope : Scope) :
    ∃ text : String,
      (∀ w, (toJsonString.run scope v).on w = (.ok (.text text), w)) ∧
      (∀ w, (fromJsonString.run scope (.text text)).on w = (.ok v, w)) ∧
      ∀ {pair name data}, pairOf? pair = some (name, data) → spelling data = .ok text → ∀ w,
        match (toFile.run scope pair).on w with
        | (.ok _, w') => (fileToJson.run scope name).on w' = (.ok v, w')
        | (.error fault, w') => (scope.openFile name).on w = (.error fault, w') := by
  obtain ⟨text, written, read⟩ := Json.read_write expressible
  have ascii := Json.ascii_write written
  have toText : ∀ w, (toJson v).on w = (.ok text, w) := fun w =>
    on_ofExcept_eq_ok.mpr ⟨written, rfl⟩
  have ofText : ∀ w, (ofJson text).on w = (.ok v, w) := fun w => on_ofExcept_eq_ok.mpr ⟨read, rfl⟩
  refine ⟨text, fun w => ?_, ofText, fun {pair name data} isPair spelt w => ?_⟩
  · change (toJson v >>= fun text => pure (Value.text text)).on w = _
    rw [on_bind_ok (toText w), on_pure]
  · rw [show toFile.run scope pair = runToFile scope pair from rfl, runToFile_eq, isPair]
    dsimp only
    rcases opened : (scope.openFile name).on w with ⟨fault | p, mid⟩
    · rw [Scope.store, on_bind_error opened]
    · -- the text holds no halves, so that it can be stored, and no line ends that reading would change
      have writable : Writable data text := ⟨spelt, unstorable?_of_ascii ascii⟩
      obtain ⟨r, w', stored, holds⟩ := store_of_opened opened writable
      have noReturn : '\r' ∉ text.toList := fun mem => absurd (ascii _ mem) (by decide)
      have path : (ofShape (scope.path name)).on w' = (.ok p, w') :=
        on_ofExcept_eq_ok.mpr ⟨(openFile_eq_ok opened).1, rfl⟩
      rw [stored]
      change (ofShape (scope.path name) >>= fun p => scope.readText p >>= ofJson).on w' = _
      rw [on_bind_ok path, on_bind_ok (readText_of_encoded (openFile_checks opened w') holds noReturn), ofText]

/-- A value of every kind. -/
def sampleItems : List Value :=
  [.int (-30), .float (.ofRatio false 1 10), .float .nan, .text "é\x7f😀", .bool true, .null]

/-- A value of every kind, and values without members. -/
def sample : Value :=
  .map (Mapping.ofTexts [("a\n", .list sampleItems), ("", .map []), ("b", .list [])])

theorem sample_comes_back : Json.Expressible sample ∧ ∃ text r w',
    (toJsonString.run Walk.bareScope sample).on (.start ⟨[]⟩) = (.ok (.text text), .start ⟨[]⟩) ∧
      (toFile.run Walk.bareScope (.tuple [.text "o", .text text])).on (.start ⟨[]⟩) = (.ok r, w') ∧
      (fileToJson.run Walk.bareScope (.text "o")).on w' = (.ok sample, w') := by
  have items : ∀ v ∈ sampleItems, Json.Expressible v := by
    simp only [sampleItems, List.forall_mem_cons, List.not_mem_nil, false_implies, implies_true,
      and_true]
    exact ⟨.int (by decide +kernel), .float _, .float _, .text (Text.unpaired_of_isWhole (by decide)),
      .bool _, .null⟩
  have none : Json.Expressible (.map (Mapping.ofTexts [])) := .map .nil nofun nofun
  have expressible : Json.Expressible sample := by
    refine .map (by decide) (fun row mem => Text.unpaired_of_isWhole ?_) ?_
    · revert row
      decide
    · simp only [List.forall_mem_cons, List.not_mem_nil, false_implies, implies_true, and_true]
      exact ⟨.list items, none, .list nofun⟩
  obtain ⟨text, written, -, stored⟩ := json_comes_back expressible Walk.bareScope
  have isPair : pairOf? (.tuple [.text "o", .text text]) = some (.text "o", .text text) := rfl
  have stored := stored isPair rfl (.start ⟨[]⟩)
  refine ⟨expressible, text, ?_⟩
  -- the file can be opened, so its text is stored
  rcases ran : (toFile.run Walk.bareScope (.tuple [.text "o", .text text])).on (.start ⟨[]⟩) with
    ⟨fault | r, w'⟩
  · have opens : ((Walk.bareScope.openFile (.text "o")).on (.start ⟨[]⟩)).1.toOption.isSome := by
      decide +kernel
    rw [ran] at stored
    rw [show (Walk.bareScope.openFile (.text "o")).on (.start ⟨[]⟩) = (.error fault, w') from stored]
      at opens
    cases opens
  · rw [ran] at stored
    exact ⟨r, w', written _, rfl, stored⟩

end Branchwork.Stage
