import ToolchainChoice.Config.Settings
import ToolchainChoice.Diagnostics.Advisor
import ToolchainChoice.Installation.Probe
import ToolchainChoice.Report
import ToolchainChoice.Workspace.Scan

/-!
# Identifying the environment of a workspace

The whole of a run: the workspace is asked for the version that it requires and the machine for the
one that is installed, once each and in this order; the advisor decides and tells its sink; the
message is logged, unless the sink has done so; and the environment is reported. Nothing is emitted
or reported unless both questions have been answered.
-/
namespace ToolchainChoice

open Files (Path Disk)
open Calendar (Moment)
open Diagnostics (Sink Emission)
open Config (Settings)
open Installation (Machine)

/-- The version that the workspace at `root` requires. -/
def Workspace.observe (disk : Disk) (root : Path) : Traced Observation := do
  return .ofOption ((← Workspace.requirement disk root).map Workspace.Requirement.version)

/-- The version of the toolchain that an executable belongs to. -/
def Installation.observe (machine : Machine) (executable : Symbols) : Traced Observation := do
  return .ofOption ((← Installation.detect machine executable).map Installation.Installed.version)

/-- The sink that the settings ask for. -/
def Config.Settings.sink (settings : Settings) : Sink :=
  match settings.directory with
  | none => .standardLog
  | some folder =>
    if folder = [] then .standardLog
    else .archive { directory := folder, source := settings.toolchain.key }

def Config.Settings.advisor (settings : Settings) (sink : Sink) : Advisor :=
  ⟨settings.range, settings.toolchain, sink⟩

/-- What a run takes from outside besides the disk. -/
structure Surroundings where
  machine : Machine
  now : Moment
  stream : Stream

namespace Surroundings

variable (s : Surroundings)

/-- The survey of a run, from the answer of the workspace. -/
def survey (settings : Settings) (workspace : Traced Observation) : Traced Survey := do
  let declared ← workspace
  let installed ← Installation.observe s.machine settings.executable
  let survey : Survey := ⟨declared, installed⟩
  .debug .identification survey.text
  return survey

/-- What a run does once the advisor has spoken. -/
def announce (settings : Settings) (sink : Sink) (advice : Advice) : Traced Unit := do
  if !sink.isLogging then .log .info .identification advice.message
  let _ ← report s.stream advice.version settings.toolchain.key

/-- A whole run, with the given sink. -/
def identify (settings : Settings) (sink : Sink) (workspace : Traced Observation) (disk : Disk) :
    Emission Sink Advice :=
  let surveyed := s.survey settings workspace
  match surveyed.result with
  | .error e => ⟨sink, disk, ⟨surveyed.events, .error e⟩⟩
  | .ok survey =>
    let emission := (settings.advisor sink).advise s.now survey disk
    ⟨emission.sink, emission.disk, do
      let _ ← surveyed
      let advice ← emission.trace
      s.announce settings sink advice
      return advice⟩

end Surroundings

end ToolchainChoice
