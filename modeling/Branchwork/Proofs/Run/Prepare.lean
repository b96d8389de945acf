import Branchwork.Proofs.Step.FilesOnly
import Branchwork.Run

/-!
# Preparing a run

What happens before the first pipeline of a run: the flags are applied to the settings, the device is
opened, and all pipelines are built. Up to there a run warns and informs in its log and does nothing
else.

Main results:

* `build_onlyLogs` — nothing but the log of the world changes.
* `prepare_device` — the device that is opened is that of the host.
* `prepare_onFiles` — it sees nothing of the world but its files.
-/

namespace Branchwork.Run

open Action

theorem applyFlags_onlyLogs (settings : Settings) (flags : Mapping) :
    OnlyLogs (applyFlags settings flags) := by
  unfold applyFlags
  refine OnlyLogs.bind (OnlyLogs.forM (fun warning? => ?_) _) fun _ => ?_
  · cases warning? with
    | none => exact onlyLogs_throw _
    | some warning => exact onlyLogs_log _ _
  · split
    · exact onlyLogs_pure _
    · exact onlyLogs_throw _
    · exact onlyLogs_throw _

theorem openDevice_onlyLogs (host : Host) (settings : Settings) :
    OnlyLogs (openDevice host settings) := by
  have informs : OnlyLogs (do
      log .info s!"Telemetry device ready (browser={settings.saveBrowser})"
      return Capture.device host settings) :=
    (onlyLogs_log _ _).bind fun _ => onlyLogs_pure _
  unfold openDevice
  split
  · refine (onlyLogs_look _ _).bind fun found => ?_
    dsimp only
    split
    · exact informs
    · exact (onlyLogs_log _ _).bind fun _ => informs
  · exact informs

theorem prepare_onlyLogs (setup : Setup) (e : Experiment) : OnlyLogs (prepare setup e) := by
  unfold prepare
  refine (applyFlags_onlyLogs _ _).bind fun settings => ?_
  split
  · refine OnlyLogs.bind ?_ fun _ => onlyLogs_pure _
    rw [map_eq_pure_bind]
    exact (openDevice_onlyLogs _ _).bind fun _ => onlyLogs_pure _
  · exact (onlyLogs_pure _).bind fun _ => onlyLogs_pure _

/-- Before its first pipeline a run does nothing but log. -/
theorem build_onlyLogs (setup : Setup) (e : Experiment) : OnlyLogs (build setup e) := by
  unfold build
  exact (prepare_onlyLogs _ _).bind fun _ => (onlyLogs_ofExcept _ _).bind fun _ => onlyLogs_pure _

/-- What is prepared is kept beside the pipelines that are built. -/
theorem build_on {setup : Setup} {e : Experiment} {w w' : World} {scope : Stage.Scope}
    (prepared : (prepare setup e).on w = (.ok scope, w')) :
    (build setup e).on w = ((Pipeline.buildAll setup.registry e).map (scope, ·), w') := by
  rw [build, on_bind_ok prepared, on_bind, on_ofExcept]
  cases Pipeline.buildAll setup.registry e <;> rfl

/-! ## The device -/

theorem openDevice_eq_ok {host : Host} {settings : Settings} {w w' : World} {device : Device}
    (h : (openDevice host settings).on w = (.ok device, w')) :
    device = Capture.device host settings := by
  have informs : ∀ w, (do
      log .info s!"Telemetry device ready (browser={settings.saveBrowser})"
      return Capture.device host settings : Action Device).on w = (.ok device, w') →
        device = Capture.device host settings := by
    intro w h
    cases h
    rfl
  unfold openDevice at h
  split at h
  · obtain ⟨found, v, -, h⟩ := on_bind_eq_ok.mp h
    dsimp only at h
    split at h
    · exact informs v h
    · obtain ⟨_, v', -, h⟩ := on_bind_eq_ok.mp h
      exact informs v' h
  · exact informs w h

/-- What is prepared captures with the host of the setup, whether a device was opened or not. -/
theorem prepare_device {setup : Setup} {e : Experiment} {w w' : World} {scope : Stage.Scope}
    (h : (prepare setup e).on w = (.ok scope, w')) :
    scope.host = setup.host ∧ ∀ address styled,
      scope.capture address styled = Capture.device setup.host scope.settings address styled := by
  -- a scope without a device makes one of its own, which is the same as one that was opened
  have capture : ∀ device : Option Device,
      (∀ opened, device = some opened → opened = Capture.device setup.host scope.settings) →
      scope = ⟨scope.settings, setup.host, device⟩ → scope.host = setup.host ∧
        ∀ address styled,
          scope.capture address styled = Capture.device setup.host scope.settings address styled := by
    intro device known same
    refine ⟨congrArg Stage.Scope.host same, fun address styled => ?_⟩
    rw [same]
    unfold Stage.Scope.capture
    cases device with
    | none => rfl
    | some opened =>
      rw [known opened rfl]
      rfl
  unfold prepare at h
  obtain ⟨settings, v, -, h⟩ := on_bind_eq_ok.mp h
  dsimp only at h
  split at h
  · obtain ⟨device, v', opened, h⟩ := on_bind_eq_ok.mp h
    rw [map_eq_pure_bind] at opened
    obtain ⟨_, _, opened, same⟩ := on_bind_eq_ok.mp opened
    cases same
    cases h
    refine capture _ (fun other same => ?_) rfl
    cases same
    exact openDevice_eq_ok opened
  · obtain ⟨device, v', opened, h⟩ := on_bind_eq_ok.mp h
    cases opened
    cases h
    exact capture none (fun opened same => by cases same) rfl

theorem prepare_onFiles {setup : Setup} {e : Experiment} {w w' : World} {scope : Stage.Scope}
    (h : (prepare setup e).on w = (.ok scope, w')) : scope.OnFiles := by
  intro address styled
  rw [(prepare_device h).2]
  exact Capture.filesOnly_device _ _ _ _

end Branchwork.Run
