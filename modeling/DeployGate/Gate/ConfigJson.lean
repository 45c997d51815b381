import DeployGate.Gate.Config
import DeployGate.Json.Record
import DeployGate.Json.Write

/-!
# Configurations in JSON

A configuration is a record of its two policies. Either may be left out, and nothing else may be in
it.
-/

namespace DeployGate.Gate

open Json (Reader Record Value)

def readUnrecognizedPolicy : Reader UnrecognizedPolicy := Json.readVariant unrecognizedPolicies

def readEmptyTaskPolicy : Reader Walk.EmptyTaskPolicy := Json.readVariant emptyTaskPolicies

def configRecord : Record Config where
  types := [UnrecognizedPolicy, Walk.EmptyTaskPolicy]
  keys :=
    .cons ⟨"unrecognized", readUnrecognizedPolicy, some ({} : Config).unrecognized⟩ <|
    .cons ⟨"empty-task", readEmptyTaskPolicy, some ({} : Config).emptyTask⟩ .nil
  build := fun (unrecognized, emptyTask, _) => ⟨unrecognized, emptyTask⟩
  closed := true

def readConfig : Reader Config := Json.readRecord "GateConfig" (some configRecord)

def Config.toJson (config : Config) : Value :=
  .object [("unrecognized", .string config.unrecognized.name),
    ("empty-task", .string config.emptyTask.name)]

end DeployGate.Gate
