import DeployGate.Files.Tree
import DeployGate.Gate.ConfigJson
import DeployGate.Main
import DeployGate.Plan.Assembly
import DeployGate.Plan.Writing
import DeployGate.Proofs.Command.FailClosed
import DeployGate.Proofs.Plan.Places
import DeployGate.Proofs.Plan.RoundTrip
import DeployGate.Proofs.Walk.EmptyTasks
import DeployGate.Proofs.Json.DecodingRecords
import DeployGate.Proofs.Plan.Schema
import DeployGate.Proofs.Plan.Respelling
import DeployGate.Proofs.Json.Depth
import DeployGate.Proofs.Plan.Refusals
import DeployGate.Proofs.Json.Sealing
import DeployGate.Proofs.Command.TornPlans
import DeployGate.Proofs.Plan.Nesting
import DeployGate.Proofs.Plan.Stability
import DeployGate.Proofs.Walk.Erasure
import DeployGate.Proofs.Gate.Agreement
import DeployGate.Proofs.Gate.Entrances
import DeployGate.Proofs.Plan.Rendering
import DeployGate.Proofs.Walk.Receivers
import DeployGate.Proofs.Json.Indented
import DeployGate.Proofs.Gate.Narration
import DeployGate.Proofs.Gate.Acceptance
import DeployGate.Proofs.Command.Overrides
import DeployGate.Proofs.Command.Summary
import DeployGate.Proofs.Command.CheckLog
import DeployGate.Proofs.Command.Messages
import DeployGate.Proofs.Command.UnplacedGroups
import DeployGate.Proofs.Plan.Warnings
import DeployGate.Proofs.Plan.TypeNames
import DeployGate.Proofs.Command.Attribution
import DeployGate.Proofs.Plan.ModifyIndex
import DeployGate.Proofs.Gate.UndecodablePlans
import DeployGate.Proofs.Command.OptionOrder
import DeployGate.Proofs.Gate.FailureMessages
