import DeployGate.Proofs.Plan.Nesting

/-!
# Stability of decoded plans

What is decoded of a document is in normal form, so that it is read again as it is written, as long
as it is not nested too deeply. As lists that were left out are written, it can be nested one level
deeper than the document was.
-/

namespace DeployGate.Plan

open Json (Recovers Spelled Tree Value)

/-- No type that was decoded is an unknown one with the name of a known one. What was decoded is
written at most one level deeper than it was read, and this is read as the same again, unless that
one level makes it too deep. -/
structure Stable (root : Kind) (ofJson : String → Except Json.Defect root.Result)
    (toJson : root.Result → Value) (types : root.Result → List DiffType) (document : String)
    (result : root.Result) : Prop where
  canonical : ∀ raw, .unrecognized raw ∈ types result → ¬ DiffType.Names raw
  spelled : ∃ tree, Spelled tree document
  nesting : ∀ tree, Spelled tree document →
    (Part.node root).nesting tree ≤ 127 ∧
      (toJson result).depth ≤ (Part.node root).nesting tree + 1
  depth : (toJson result).depth ≤ 128
  again : (toJson result).depth ≠ 128 →
    ofJson (String.ofList (toJson result).compact) = .ok result
  tooDeep : (toJson result).depth = 128 → ∃ defect line column,
    ofJson (String.ofList (toJson result).compact) = .error defect ∧
      defect.message = "recursion limit exceeded at line " ++ toString (line : Nat) ++ " column "
        ++ toString (column : Nat)
  same : ∀ result', ofJson (String.ofList (toJson result).compact) = .ok result' →
    (toJson result').compact = (toJson result).compact

theorem stable_of_recovers {root : Kind} {document : String} {result normal : root.Result}
    (decoded : Json.decode (root.read Json.depthLimit) document = .ok result)
    (recovers : Recovers Json.depthLimit (root.read Json.depthLimit) (root.toJson result) normal)
    (same : normal = result ↔ ∀ type ∈ root.diffTypes result, type.norm = type) :
    Stable root (Json.decode (root.read Json.depthLimit)) root.toJson root.diffTypes document
      result := by
  have reads := root.reads Json.depthLimit
  have sound {tree : Tree} (spelled : Spelled tree document) :
      (Part.node root).Sound Json.depthLimit tree result :=
    Kind.sound ((reads.decode_iff spelled).mp decoded)
  obtain ⟨tree, spelled, -⟩ := reads.spelled decoded
  -- a type that was decoded is never an unknown one with a known name, so what was decoded is its
  -- own normal form, and this is what is recovered
  have canonical : ∀ type ∈ root.diffTypes result, type.norm = type := (sound spelled).canonical
  have depth : (root.toJson result).depth ≤ 128 :=
    Nat.le_trans (sound spelled).depth (Nat.add_le_add_right (sound spelled).nesting 1)
  have again (shallow : (root.toJson result).depth ≠ 128) :
      Json.decode (root.read Json.depthLimit) (String.ofList (root.toJson result).compact)
        = .ok result := by
    have recovered := recovers.decode (Nat.le_of_lt_succ (Nat.lt_of_le_of_ne depth shallow))
    rwa [same.mpr canonical] at recovered
  have tooDeep (deep : (root.toJson result).depth = 128) :=
    recovers.decode_tooDeep (Nat.lt_of_lt_of_eq (Nat.lt_succ_self _) deep.symm)
  exact {
    canonical := DiffType.forall_norm_eq_self_iff.mp canonical
    spelled := ⟨tree, spelled⟩
    nesting := fun tree spelled => ⟨(sound spelled).nesting, (sound spelled).depth⟩
    depth := depth
    again := again
    tooDeep := fun deep => by
      obtain ⟨place, refused⟩ := tooDeep deep
      exact ⟨_, place.line, place.column, refused, rfl⟩
    same := fun result' found => by
      by_cases deep : (root.toJson result).depth = 128
      · obtain ⟨place, refused⟩ := tooDeep deep
        cases refused.symm.trans found
      · cases (again deep).symm.trans found
        rfl }

/-- Whatever is decoded is stable. -/
theorem ofJson_stable :
    (∀ document job, JobDiff.ofJson document = .ok job →
      Stable .job JobDiff.ofJson JobDiff.toJson JobDiff.types document job) ∧
    ∀ document response, Response.ofJson document = .ok response → response.Integral →
      Stable .response Response.ofJson Response.toJson Response.types document response :=
  ⟨fun _ job decoded => stable_of_recovers decoded (recovers_job job) job.norm_eq_self_iff,
    fun _ response decoded integral =>
      stable_of_recovers decoded (recovers_response integral) response.norm_eq_self_iff⟩

/-- Only the type of a job is given, in a list, and the job is written as an object with three lists
in it; a response has only an untyped value. -/
theorem ofJson_stable_bare :
    let job : JobDiff := { type := .deleted }
    let response : Response :=
      { unplaced := some (Json.Members.empty.insert "web" ⟨.bool true, .bool true⟩) }
    (JobDiff.ofJson "[\"deleted\"]" = .ok job ∧ job.toJson.depth = 2 ∧
      JobDiff.ofJson (String.ofList job.toJson.compact) = .ok job) ∧
    Response.ofJson "\x7b\"FailedTGAllocs\":\x7b\"web\":true\x7d\x7d" = .ok response ∧
      response.Integral ∧
      Response.ofJson (String.ofList response.toJson.compact) = .ok response := by
  intro job response
  have decoded : JobDiff.ofJson "[\"deleted\"]" = .ok job := by decide +kernel
  have decoded' :
      Response.ofJson "\x7b\"FailedTGAllocs\":\x7b\"web\":true\x7d\x7d" = .ok response := by
    decide +kernel
  have integral : response.Integral := by
    intro members found member inside
    obtain rfl := Option.some.inj found
    obtain rfl : member = ("web", .bool true) := by
      simpa [Json.Members.insert, Json.Members.empty, Json.insertMember] using inside
    exact .bool true
  refine ⟨⟨decoded, by decide, (ofJson_stable.1 _ job decoded).again (by decide)⟩,
    decoded', integral, (ofJson_stable.2 _ response decoded' integral).again (by decide)⟩

end DeployGate.Plan
