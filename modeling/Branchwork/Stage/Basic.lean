import Branchwork.Stage.Registry

/-!
# Stages

The stages that are built in, and the registry in which experiments find them.
-/

namespace Branchwork

/-- A stage: it turns one value into another. -/
inductive Stage where
  | taggedConsoleOutput
  | fileToString
  | fileToJson
  | toFile
  | telemetrySave
  | telemetrySaveNoStyle
  | nullFilter
  | toJsonString
  | fromJsonString
  | tracePidSplitter
  | template
deriving DecidableEq, Repr

namespace Stage

/-- All stages, in the order in which they are registered. -/
def all : List Stage :=
  [.taggedConsoleOutput, .fileToString, .fileToJson, .toFile, .telemetrySave,
    .telemetrySaveNoStyle, .nullFilter, .toJsonString, .fromJsonString, .tracePidSplitter,
    .template]

/-- The name that a stage is registered under. -/
def name : Stage → String
  | .taggedConsoleOutput => "taggedConsoleOutput"
  | .fileToString => "fileToString"
  | .fileToJson => "fileToJSON"
  | .toFile => "toFile"
  | .telemetrySave => "telemetrySave"
  | .telemetrySaveNoStyle => "telemetrySaveNoStyle"
  | .nullFilter => "nullFilter"
  | .toJsonString => "toJSONString"
  | .fromJsonString => "fromJSONString"
  | .tracePidSplitter => "tracePIDSplitter"
  | .template => "template"

/-- The title of a stage. -/
def title : Stage → String
  | .taggedConsoleOutput => "TaggedConsoleOutput"
  | .fileToString => "FileToString"
  | .fileToJson => "FileToJSON"
  | .toFile => "ToFile"
  | .telemetrySave => "TelemetrySave"
  | .telemetrySaveNoStyle => "TelemetrySaveNoStyle"
  | .nullFilter => "NullFilter"
  | .toJsonString => "ToJSONString"
  | .fromJsonString => "FromJSONString"
  | .tracePidSplitter => "TracePIDSplitter"
  | .template => "TemplateStage"

end Stage

/-- The registry of the stages that are built in. -/
def Registry.builtIn : Registry Stage := .ofList (Stage.all.map fun stage => (stage.name, stage))

end Branchwork
