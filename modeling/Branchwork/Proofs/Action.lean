import Branchwork.Proofs.Result
import Branchwork.World

/-!
# Actions in a world

`Action.on` runs an action in a world: it gives what the action comes to, and the world behind it.
There is one equation for each way to build an action, so that the later modules never open the
monad.

An action that only logs leaves everything but the log of the world as it is. Preparing a run is
such an action, and so is everything that reads files or computes values.
-/

namespace Branchwork

namespace Action

variable {α β : Type}

/-- What an action comes to in a world, and the world behind it. -/
def on (a : Action α) (w : World) : Except Fault α × World := StateT.run a.run w

/-! ## Equations -/

@[simp] theorem on_pure (x : α) (w : World) : (pure x : Action α).on w = (.ok x, w) := rfl

@[simp] theorem on_throw (fault : Fault) (w : World) :
    (throw fault : Action α).on w = (.error fault, w) := rfl

@[simp] theorem on_fail (fault : Fault) (w : World) :
    (fail fault : Action α).on w = (.error fault, w) := rfl

/-- An action goes on in the world behind its first part, unless that part fails. -/
theorem on_bind (a : Action α) (f : α → Action β) (w : World) :
    (a >>= f).on w = match a.on w with
      | (.ok x, w) => (f x).on w
      | (.error fault, w) => (.error fault, w) := by
  change (match a.on w with | (result, w) => ExceptT.bindCont f result w) = _
  rcases a.on w with ⟨result, w'⟩
  cases result <;> rfl

theorem on_bind_ok {a : Action α} {f : α → Action β} {w w' : World} {x : α}
    (ok : a.on w = (.ok x, w')) : (a >>= f).on w = (f x).on w' := by
  rw [on_bind, ok]

theorem on_bind_error {a : Action α} {f : α → Action β} {w w' : World} {fault : Fault}
    (failed : a.on w = (.error fault, w')) : (a >>= f).on w = (.error fault, w') := by
  rw [on_bind, failed]

theorem on_bind_eq_ok {a : Action α} {f : α → Action β} {w w' : World} {y : β} :
    (a >>= f).on w = (.ok y, w') ↔ ∃ x v, a.on w = (.ok x, v) ∧ (f x).on v = (.ok y, w') := by
  rw [on_bind]
  constructor
  · intro h
    rcases run : a.on w with ⟨_ | x, v⟩
    · rw [run] at h
      cases h
    · rw [run] at h
      exact ⟨x, v, rfl, h⟩
  · rintro ⟨x, v, run, h⟩
    rw [run]
    exact h

theorem on_bind_eq_error {a : Action α} {f : α → Action β} {w w' : World} {fault : Fault} :
    (a >>= f).on w = (.error fault, w') ↔ a.on w = (.error fault, w') ∨
      ∃ x v, a.on w = (.ok x, v) ∧ (f x).on v = (.error fault, w') := by
  rw [on_bind]
  constructor
  · intro h
    rcases run : a.on w with ⟨cause | x, v⟩
    · rw [run] at h
      cases h
      exact .inl rfl
    · rw [run] at h
      exact .inr ⟨x, v, rfl, h⟩
  · rintro (run | ⟨x, v, run, h⟩)
    · rw [run]
    · rw [run]
      exact h

@[simp] theorem on_map (a : Action α) (f : α → β) (w : World) :
    (f <$> a).on w = ((a.on w).1.map f, (a.on w).2) := by
  rw [map_eq_pure_bind, on_bind]
  obtain ⟨result, w'⟩ := a.on w
  cases result <;> rfl

theorem on_map_eq_ok {a : Action α} {f : α → β} {w w' : World} {y : β} :
    (f <$> a).on w = (.ok y, w') ↔ ∃ x, a.on w = (.ok x, w') ∧ f x = y := by
  rw [on_map]
  rcases a.on w with ⟨cause | x, v⟩ <;> simp [Except.map, and_comm]

@[simp] theorem on_files (w : World) : files.on w = (.ok w.files, w) := rfl

@[simp] theorem on_setFiles (fs : FileSystem) (w : World) :
    (setFiles fs).on w = (.ok (), { w with files := fs }) := rfl

@[simp] theorem on_log (level : Level) (message : String) (w : World) :
    (log level message).on w = (.ok (), { w with log := w.log ++ [⟨level, message⟩] }) := rfl

@[simp] theorem on_print (text : String) (w : World) :
    (print text).on w = (.ok (), { w with shown := w.shown ++ Console.shown text }) := rfl

@[simp] theorem on_giveNotice (notice : Notice) (w : World) :
    (giveNotice notice).on w = (.ok (), { w with notices := w.notices ++ [notice] }) := rfl

/-- A step that cannot change the world comes to its result. -/
@[simp] theorem on_ofExcept {ε : Type} (wrap : ε → Fault) (x : Except ε α) (w : World) :
    (ofExcept wrap x).on w = (x.mapError wrap, w) := by
  cases x <;> rfl

theorem on_ofExcept_eq_ok {ε : Type} {wrap : ε → Fault} {x : Except ε α} {w w' : World} {y : α} :
    (ofExcept wrap x).on w = (.ok y, w') ↔ x = .ok y ∧ w' = w := by
  rw [on_ofExcept, Prod.mk.injEq, mapError_eq_ok, @eq_comm _ w]

/-- A text with tags is shown without them, or refused. -/
theorem on_printMarkup_ok {text shown : String} (plain : Markup.plain text = .ok shown)
    (w : World) : (printMarkup text).on w =
      (.ok (), { w with shown := w.shown ++ Console.shown shown }) := by
  unfold printMarkup
  rw [plain]
  rfl

theorem on_printMarkup_error {text : String} {problem : Markup.Problem}
    (refused : Markup.plain text = .error problem) (w : World) :
    (printMarkup text).on w = (.error (.markup problem), w) := by
  unfold printMarkup
  rw [refused]
  rfl

@[simp] theorem on_look (current : Location) (p : Path) (w : World) :
    (look current p).on w = ((w.files.look current p).mapError .files, w) := by
  rw [look, on_bind, on_files]
  exact on_ofExcept _ _ _

theorem on_look_eq_ok {current : Location} {p : Path} {w w' : World}
    {found : Option (Location × FileSystem.Entry)} :
    (look current p).on w = (.ok found, w') ↔ w.files.look current p = .ok found ∧ w' = w := by
  rw [on_look, Prod.mk.injEq, mapError_eq_ok, @eq_comm _ w]

/-- A part of an action that cannot fail. -/
@[simp] theorem on_lift (a : StateM World α) (w : World) :
    (liftM a : Action α).on w = (.ok (a.run w).1, (a.run w).2) := rfl

/-! ## Actions that only log -/

/-- An action that changes nothing but the log. -/
def OnlyLogs (a : Action α) : Prop := ∀ w, ∃ log, (a.on w).2 = { w with log }

theorem OnlyLogs.of_same {a : Action α} (same : ∀ w, (a.on w).2 = w) : OnlyLogs a :=
  fun w => ⟨w.log, same w⟩

theorem onlyLogs_pure (x : α) : OnlyLogs (pure x) := .of_same fun _ => rfl

theorem onlyLogs_throw (fault : Fault) : OnlyLogs (throw fault : Action α) := .of_same fun _ => rfl

theorem onlyLogs_log (level : Level) (message : String) : OnlyLogs (log level message) :=
  fun _ => ⟨_, rfl⟩

theorem onlyLogs_ofExcept {ε : Type} (wrap : ε → Fault) (x : Except ε α) :
    OnlyLogs (ofExcept wrap x) := .of_same fun w => by rw [on_ofExcept]

theorem onlyLogs_look (current : Location) (p : Path) : OnlyLogs (look current p) :=
  .of_same fun w => by rw [on_look]

theorem OnlyLogs.bind {a : Action α} {f : α → Action β} (first : OnlyLogs a)
    (rest : ∀ x, OnlyLogs (f x)) : OnlyLogs (a >>= f) := by
  intro w
  obtain ⟨log, same⟩ := first w
  rcases run : a.on w with ⟨result, w'⟩
  rw [run] at same
  cases result with
  | error fault => exact ⟨log, by rw [on_bind_error run, same]⟩
  | ok x =>
    obtain ⟨log', same'⟩ := rest x w'
    refine ⟨log', ?_⟩
    rw [on_bind_ok run, same', show w' = _ from same]

theorem OnlyLogs.forM {f : α → Action Unit} (each : ∀ x, OnlyLogs (f x)) (xs : List α) :
    OnlyLogs (xs.forM f) := by
  induction xs with
  | nil => exact onlyLogs_pure ()
  | cons x xs ih => exact (each x).bind fun _ => ih

end Action

end Branchwork
