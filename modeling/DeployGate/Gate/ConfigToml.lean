import DeployGate.Gate.Config
import DeployGate.Gate.Failure
import DeployGate.Text.Choice
import DeployGate.Toml.Complaint
import DeployGate.Toml.Document

/-!
# Configurations in TOML

A configuration document has at most the two keys of the policies. A policy is its name, or a table
whose only key is its name and whose value there is empty.
-/

namespace DeployGate.Gate

open Toml (Span Key Item Entries Complaint)

def policyNamed (policies : List (String × α)) (name : String) (span : Span) :
    Except Complaint α :=
  match policies.lookup name with
  | some policy => .ok policy
  | none =>
    .error ⟨span, "unknown variant `" ++ name ++ "`, expected "
      ++ Text.offer (policies.map (·.1))⟩

/-- Accepts what stands under the name of a policy, if it is empty. -/
def expectEmpty (item : Item) (around : Span) : Except Complaint Unit :=
  let refuse (detail : String) := .error ⟨item.span?.getD around, detail⟩
  match item with
  | .scalar _ value => refuse ("expected table, found " ++ value.typeName)
  | .array _ elements => if elements.isEmpty then .ok () else refuse "expected empty table"
  | .inline _ _ entries | .table _ _ entries =>
    if entries.isEmpty then .ok () else refuse "expected empty table"
  | .tables items => if items.isEmpty then .ok () else refuse "expected empty array"

def policyOf (policies : List (String × α)) (key : Key) (item : Item) : Except Complaint α :=
  let span := item.span?.getD key.span
  match item with
  | .scalar span (.string name) => policyNamed policies name span
  | .inline _ _ entries | .table _ _ entries =>
    match entries with
    | [] => .error ⟨span, "wanted exactly 1 element, found 0 elements"⟩
    | [(name, inner)] => do
      let policy ← policyNamed policies name.name name.span
      expectEmpty inner span
      return policy
    | _ => .error ⟨span, "wanted exactly 1 element, more than 1 element"⟩
  | _ => .error ⟨span, "wanted string or table"⟩

/-- The configuration that the entries of a document spell, from one that has the defaults. -/
def Config.ofEntries (config : Config) : Entries → Except Complaint Config
  | [] => .ok config
  | (key, item) :: rest =>
    if key.name = "unrecognized" then do
      let policy ← policyOf unrecognizedPolicies key item
      Config.ofEntries { config with unrecognized := policy } rest
    else if key.name = "empty-task" then do
      let policy ← policyOf emptyTaskPolicies key item
      Config.ofEntries { config with emptyTask := policy } rest
    else
      .error ⟨key.span, "unknown field `" ++ key.name ++ "`, expected "
        ++ Text.offer ["unrecognized", "empty-task"]⟩

/-- Why a configuration is not accepted. All texts that are no TOML are one fault with one message:
which rule such a text breaks, and where, is left out. -/
inductive ConfigFault
  | notToml
  | complaint (about : Complaint)

def Config.ofToml (document : String) : Except ConfigFault Config :=
  match Toml.parse? document.toList with
  | none => .error .notToml
  | some entries => (Config.ofEntries {} entries).mapError .complaint

def ConfigFault.toFailure (fault : ConfigFault) (document : String) : Failure :=
  match fault with
  | .notToml => .config "TOML parse error\n"
  | .complaint about => .config (about.message document)

def Config.toToml (config : Config) : String :=
  "unrecognized = \"" ++ config.unrecognized.name ++ "\"\n"
    ++ "empty-task = \"" ++ config.emptyTask.name ++ "\"\n"

end DeployGate.Gate
