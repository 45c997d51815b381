import DeployGate.Command.Invocation
import DeployGate.Command.Verdict
import DeployGate.Gate.ConfigToml
import DeployGate.Gate.PlanFile

/-!
# Running a command

A check loads the configuration, lets its options override it, runs the plan through the gate and
prints the verdict. Without a configuration file there are the defaults. A file that cannot be read
or is no configuration ends the command before anything else happens.
-/

namespace DeployGate.Command

open Files (Inputs Location)
open Gate (Config LogRecord PlanFile Transcript)

/-- Why a command came to no answer, and what was behind that. -/
structure Trouble where
  context : String
  cause : String
  deriving DecidableEq, Repr

def loadConfig (inputs : Inputs) : Option String → Except Trouble Config
  | none => .ok {}
  | some path =>
    match inputs.text (.file path) with
    | .error fault => .error ⟨"reading config " ++ path, fault.message⟩
    | .ok document =>
      (Config.ofToml document).mapError fun fault =>
        ⟨"parsing config " ++ path, (fault.toFailure document).message⟩

namespace CheckOptions

/-- The configuration that the options leave of another. -/
def override (options : CheckOptions) (config : Config) : Config where
  unrecognized := if options.allowUnrecognized then .proceed else config.unrecognized
  emptyTask := if options.skipEmptyTasks then .skipTask else config.emptyTask

def check (options : CheckOptions) (inputs : Inputs) (config : Config) : Bool × Transcript :=
  let plan := PlanFile.ofArgument options.plan options.bareDiff
  Gate.runPlan Transcript.recordAndLog (options.override config) (plan.fetch inputs) {}

end CheckOptions

def Invocation.locations (invocation : Invocation) : List Location :=
  let plan := match invocation.action with
    | .check options => [(PlanFile.ofArgument options.plan options.bareDiff).location]
    | .config => []
  (invocation.config.map Location.file).toList ++ plan

/-- What a command comes to: whether the deployment may proceed, what it prints and what it logs. -/
structure Finish where
  result : Except Trouble Bool
  output : String := ""
  records : List LogRecord := []

def verdictText (format : Format) (style : Style) (proceeds : Bool) (events : List Gate.Event) :
    String :=
  match format with
  | .text => verdictLine style proceeds events
  | .json => summaryText proceeds events

def Invocation.run (invocation : Invocation) (inputs : Inputs) (style : Style) : Finish :=
  match loadConfig inputs invocation.config with
  | .error trouble => { result := .error trouble }
  | .ok config =>
    match invocation.action with
    | .config => { result := .ok true, output := config.toToml }
    | .check options =>
      let (proceeds, transcript) := options.check inputs config
      { result := .ok proceeds
        output := verdictText invocation.format style proceeds transcript.events
        records := transcript.records }

end DeployGate.Command
