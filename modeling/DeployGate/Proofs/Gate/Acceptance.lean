import DeployGate.Proofs.Gate.Approval
import DeployGate.Proofs.Gate.Tellings
import DeployGate.Proofs.Toml.Readings

/-!
# Which documents are configurations

A document is a configuration just if its table is understood. How the document is written does not
matter: two documents that say the same are the same configuration, if both are documents at all.
A document that gives a key or a table twice is none, and neither is one with a header in double
brackets. A configuration that is rendered is read back.

## Main result

`ofToml_understood`.
-/

namespace DeployGate.Gate

open Toml (Binding Section Entries Item Key Mark Scalar Written Writes documentEntries documentTells
  documentGiven)

variable {document document' : String} {leading leading' : List Binding}
  {parts parts' : List Section} {config : Config}

theorem ofToml_eq_ok_iff :
    Config.ofToml document = .ok config ↔
      ∃ root, Toml.parse? document.toList = some root ∧ Config.ofEntries {} root = .ok config := by
  rw [Config.ofToml]
  cases Toml.parse? document.toList with
  | none => simp
  | some root => simp [mapError_eq_ok_iff]

theorem toFailure_config (fault : ConfigFault) (document : String) :
    ∃ reason, fault.toFailure document = .config reason := by
  cases fault with
  | notToml => exact ⟨_, rfl⟩
  | complaint about => exact ⟨_, rfl⟩

/-- No key comes twice in the table of a document. -/
theorem parse_distinct {root : Entries} (parsed : Toml.parse? document.toList = some root) :
    (root.map fun entry => entry.1.name).Nodup := by
  obtain ⟨leading, parts, written, -⟩ := Toml.exists_written parsed
  have distinct := (written.table parsed).1.distinct
  rw [Entries.names, Entries.bare_eq_map, List.map_map] at distinct
  exact distinct

/-- A document is the configuration that its table is understood as. -/
theorem ofToml_iff {root : Entries} (parsed : Toml.parse? document.toList = some root) :
    Config.ofToml document = .ok config ↔ Understood root config := by
  rw [ofToml_eq_ok_iff, ← ofEntries_eq_ok_iff (parse_distinct parsed)]
  constructor
  · rintro ⟨root', parsed', accepted⟩
    obtain rfl := Option.some.inj (parsed.symm.trans parsed')
    exact accepted
  · exact fun accepted => ⟨root, parsed, accepted⟩

/-- A text is a document just if the grammar writes it and its keys and headers go together. -/
theorem parses_iff (document : String) :
    (∃ root, Toml.parse? document.toList = some root) ↔
      ∃ leading parts root, Written leading parts document ∧
        documentEntries leading parts = some root := by
  constructor
  · rintro ⟨root, parsed⟩
    obtain ⟨leading, parts, written, made⟩ := Toml.exists_written parsed
    exact ⟨leading, parts, root.bare, written, made⟩
  · rintro ⟨leading, parts, root, written, made⟩
    obtain ⟨root', parsed, -⟩ := Option.map_eq_some_iff.mp (written.parse_bare.trans made)
    exact ⟨root', parsed⟩

/-- What a document is depends on its bindings and its headers only. -/
theorem ofToml_written_iff (written : Written leading parts document) :
    Config.ofToml document = .ok config ↔
      ∃ root, documentEntries leading parts = some root ∧ Understood root config := by
  have bare := written.parse_bare
  cases parsed : Toml.parse? document.toList with
  | none =>
    rw [parsed] at bare
    rw [ofToml_eq_ok_iff, ← bare, parsed]
    simp
  | some root =>
    rw [parsed] at bare
    rw [ofToml_iff parsed, ← bare, ← understood_bare]
    simp

/-- Space, comments, quotes and line ends make no difference. -/
theorem ofToml_written (written : Written leading parts document)
    (written' : Written leading parts document') :
    Config.ofToml document = .ok config ↔ Config.ofToml document' = .ok config := by
  rw [ofToml_written_iff written, ofToml_written_iff written']

/-- The order of the keys and the style of the tables make no difference: what is said is enough. -/
theorem ofToml_of_tells {root root' : Entries} (written : Written leading parts document)
    (written' : Written leading' parts' document')
    (parsed : Toml.parse? document.toList = some root)
    (parsed' : Toml.parse? document'.toList = some root')
    (same : ∀ names mark, documentTells leading parts names mark ↔
      documentTells leading' parts' names mark)
    (accepted : Config.ofToml document = .ok config) : Config.ofToml document' = .ok config := by
  rw [ofToml_iff parsed, ← understood_bare] at accepted
  rw [ofToml_iff parsed', ← understood_bare]
  obtain ⟨proper, adds⟩ := written.table parsed
  obtain ⟨proper', adds'⟩ := written'.table parsed'
  -- a configuration has no tables under double brackets, so just what is said stands in both
  have single := accepted.single
  have single' : ¬ ∃ path, root'.bare.holds (Item.Marked .tables) path := by
    rw [Toml.Adds.tables_iff adds] at single
    rw [Toml.Adds.tables_iff adds']
    simpa only [same] using single
  apply accepted.of_alike _ proper proper'
  intro path mark
  rw [adds.holds_iff single, adds'.holds_iff single', same]

/-- An accepted document gives no key and no table twice, and has no header in double brackets. -/
theorem given_of_accepted (written : Written leading parts document)
    (accepted : Config.ofToml document = .ok config) :
    (documentGiven leading parts).Nodup ∧ ∀ part ∈ parts, part.header.double = false := by
  obtain ⟨root, parsed, -⟩ := ofToml_eq_ok_iff.mp accepted
  rw [ofToml_iff parsed, ← understood_bare] at accepted
  obtain ⟨-, adds⟩ := written.table parsed
  have single := accepted.single
  constructor
  · rcases adds.exact with tables | exact_
    · exact absurd tables single
    · exact exact_.distinct
  · intro part inside
    cases double : part.header.double with
    | false => rfl
    | true =>
      rw [Toml.Adds.tables_iff adds] at single
      exact absurd ⟨part.names, .inr ⟨part, inside, part.tells_tables double⟩⟩ single

/-! ### Rendering -/

-- Conditions on the characters of a word are decided by `List.all`, which runs on closed words.

theorem line_of_plain {quote : Char} {chars : List Char}
    (plain : chars.all (Toml.Itself quote ·) = true) :
    Toml.Line quote chars (chars ++ [quote]) := by
  induction chars with
  | nil => exact .close
  | cons c chars ih =>
    rw [List.all_cons, Bool.and_eq_true, decide_eq_true_eq] at plain
    exact .plain plain.1 (ih plain.2)

theorem names_self {name : String} (some_ : name.toList ≠ [])
    (bare : name.toList.all Toml.isBareKeyChar = true) : Toml.Names name name.toList := by
  have names := Toml.Names.bare some_ (List.all_eq_true.mp bare)
  rwa [String.ofList_toList] at names

/-- The binding of a key to a text. -/
def textBinding (key : String) (value : String) : Binding :=
  ⟨[], ⟨key, .blank⟩, .scalar .blank (.string value)⟩

/-- A key and a text on a line of their own. -/
theorem writes_line {key value : String} {under : List Binding} {more : List Char}
    (some_ : key.toList ≠ []) (bare : key.toList.all Toml.isBareKeyChar = true)
    (plain : value.toList.all (Toml.Itself '"' ·) = true) (writes : Writes under parts more) :
    Writes (textBinding key value :: under) parts
      ((key ++ " = \"" ++ value ++ "\"\n").toList ++ more) := by
  have blank : Toml.Space [' '] := by simp [Toml.Space, Toml.isSpace]
  have nothing := Toml.Space.nil
  have names := names_self some_ bare
  have quoted := Toml.Quoted.line (.inl rfl) (line_of_plain plain)
  have text : Toml.Spells (.value Toml.depthLimit (textBinding key value).item)
      ('"' :: (value.toList ++ ['"'])) := by
    have same : textBinding key value
        = ⟨[], ⟨key, .blank⟩, .scalar .blank (.string (String.ofList value.toList))⟩ := by
      rw [textBinding, String.ofList_toList]
    rw [same]
    exact .text quoted
  have binding := Toml.Spells.binding (.last nothing names blank) (by decide) blank text
  have line : Toml.Rest ([] ++ ([] ++ (['\n'] ++ more))) more := .line nothing .none .feed
  have whole := Writes.binding .nil binding line writes
  have same : (key ++ " = \"" ++ value ++ "\"\n").toList ++ more
      = [] ++ (([] ++ (key.toList ++ [' ']) ++ '=' :: ([' '] ++ '"' :: (value.toList ++ ['"'])))
        ++ ([] ++ ([] ++ (['\n'] ++ more)))) := by
    simp
  rw [same]
  exact whole

/-- A configuration is rendered as a document that binds the two policies. -/
theorem written_toToml (config : Config) :
    Written [textBinding "unrecognized" config.unrecognized.name,
      textBinding "empty-task" config.emptyTask.name] [] config.toToml := by
  have last : Writes [textBinding "empty-task" config.emptyTask.name] []
      (("empty-task" ++ " = \"" ++ config.emptyTask.name ++ "\"\n").toList ++ []) := by
    apply writes_line (by decide) (by decide) _ (.nothing .nil .none)
    cases config.emptyTask <;> decide
  have first : Writes [textBinding "unrecognized" config.unrecognized.name,
        textBinding "empty-task" config.emptyTask.name] []
      (("unrecognized" ++ " = \"" ++ config.unrecognized.name ++ "\"\n").toList
        ++ (("empty-task" ++ " = \"" ++ config.emptyTask.name ++ "\"\n").toList ++ [])) := by
    apply writes_line (by decide) (by decide) _ last
    cases config.unrecognized <;> decide
  have text : config.toToml
      = ("unrecognized" ++ " = \"" ++ config.unrecognized.name ++ "\"\n")
        ++ ("empty-task" ++ " = \"" ++ config.emptyTask.name ++ "\"\n") := by
    obtain ⟨unrecognized, emptyTask⟩ := config
    cases unrecognized <;> cases emptyTask <;> decide
  refine ⟨_, first, .inl ?_⟩
  simp only [text, String.toList_append, List.append_nil]

theorem ofToml_toToml (config : Config) : Config.ofToml config.toToml = .ok config := by
  rw [ofToml_written_iff (written_toToml config)]
  refine ⟨[(⟨"unrecognized", .blank⟩, .scalar .blank (.string config.unrecognized.name)),
    (⟨"empty-task", .blank⟩, .scalar .blank (.string config.emptyTask.name))], rfl, ?_⟩
  rw [← ofEntries_eq_ok_iff (by simp)]
  obtain ⟨unrecognized, emptyTask⟩ := config
  cases unrecognized <;> cases emptyTask <;> rfl

/-! ### Acceptance -/

/-- A document is accepted just if its table is understood, as what it is understood, and everything
else is a fault of the configuration. Documents are those texts that the grammar writes for bindings
and headers that go together. Space, comments and quotes make no difference, and neither do the
order of the keys and the style of the tables. What is accepted gives no key or table twice, and it
is read again from what it is rendered as. -/
theorem ofToml_understood :
    (∀ document root, Toml.parse? document.toList = some root → ∀ config,
      Config.ofToml document = .ok config ↔ Understood root config) ∧
    (∀ document, Toml.parse? document.toList = none →
      ∃ fault, Config.ofToml document = .error fault) ∧
    (∀ document fault, Config.ofToml document = .error fault →
      ∃ reason, fault.toFailure document = .config reason) ∧
    (∀ document, (∃ root, Toml.parse? document.toList = some root) ↔
      ∃ leading parts root, Written leading parts document ∧
        documentEntries leading parts = some root) ∧
    (∀ leading parts document document', Written leading parts document →
      Written leading parts document' → ∀ config,
        Config.ofToml document = .ok config ↔ Config.ofToml document' = .ok config) ∧
    (∀ leading parts leading' parts' document document' root root',
      Written leading parts document → Written leading' parts' document' →
      Toml.parse? document.toList = some root → Toml.parse? document'.toList = some root' →
      Toml.Restyled leading parts leading' parts' → ∀ config,
        Config.ofToml document = .ok config ↔ Config.ofToml document' = .ok config) ∧
    (∀ leading parts document, Written leading parts document →
      ¬ (documentGiven leading parts).Nodup → ∃ fault, Config.ofToml document = .error fault) ∧
    (∀ document config, Config.ofToml document = .ok config →
      Config.ofToml config.toToml = .ok config) := by
  refine ⟨?_, ?_, ?_, parses_iff, ?_, ?_, ?_, ?_⟩
  · intro document root parsed config
    exact ofToml_iff parsed
  · intro document none
    exact ⟨.notToml, by rw [Config.ofToml, none]⟩
  · intro document fault _
    exact toFailure_config fault document
  · intro leading parts document document' written written' config
    exact ofToml_written written written'
  · intro leading parts leading' parts' document document' root root' written written' parsed
      parsed' restyled config
    constructor
    · exact ofToml_of_tells written written' parsed parsed' restyled.tells
    · exact ofToml_of_tells written' written parsed' parsed fun names mark =>
        (restyled.tells names mark).symm
  · intro leading parts document written repeated
    cases answer : Config.ofToml document with
    | error fault => exact ⟨fault, rfl⟩
    | ok config => exact absurd (given_of_accepted written answer).1 repeated
  · intro document config _
    exact ofToml_toToml config

/-- The policy for empty tasks by a dotted key, by a header, and by a header that is written in
another way; a key without a value, and a header that comes twice. -/
theorem ofToml_understood_header :
    Config.ofToml "empty-task.skip-task=\x7b\x7d\n" = .ok ⟨.reject, .skipTask⟩ ∧
    Config.ofToml "[empty-task.skip-task]\n" = .ok ⟨.reject, .skipTask⟩ ∧
    Config.ofToml "[ 'empty-task'.skip-task] # header" = .ok ⟨.reject, .skipTask⟩ ∧
    Config.ofToml (Config.toToml ⟨.reject, .skipTask⟩) = .ok ⟨.reject, .skipTask⟩ ∧
    (∃ fault reason, Config.ofToml "empty-task" = .error fault ∧
      fault.toFailure "empty-task" = .config reason) ∧
    ∃ fault, Config.ofToml "[empty-task]\n[empty-task]\n" = .error fault := by
  obtain ⟨understood, noToml, failure, parses, written, restyled, repeated, rendered⟩ :=
    ofToml_understood
  have nothing := Toml.Space.nil
  have blank : Toml.Space [' '] := by simp [Toml.Space, Toml.isSpace]
  have emptyTask : Toml.Names "empty-task" "empty-task".toList := names_self (by decide) (by decide)
  have skipTask : Toml.Names "skip-task" "skip-task".toList := names_self (by decide) (by decide)
  have quoted : Toml.Names "empty-task" ('\'' :: ("empty-task".toList ++ ['\''])) := by
    have line : Toml.Line '\'' "empty-task".toList ("empty-task".toList ++ ['\'']) :=
      line_of_plain (by decide)
    have names := Toml.Names.quoted (.inr rfl) line
    rwa [String.ofList_toList] at names
  have keys := Toml.Dotted.next nothing emptyTask nothing (.last nothing skipTask nothing)
  have keys' := Toml.Dotted.next blank quoted nothing (.last nothing skipTask nothing)
  have dotted : Written [⟨[⟨"empty-task", .blank⟩], ⟨"skip-task", .blank⟩,
      .inline (some .blank) .written []⟩] [] "empty-task.skip-task=\x7b\x7d\n" :=
    ⟨_, .binding .nil (.binding keys (by decide) nothing (.emptyTable nothing))
      (.line nothing .none .feed) (.nothing .nil .none), .inl (by decide)⟩
  have header : Written [] [⟨⟨[⟨"empty-task", .blank⟩], ⟨"skip-task", .blank⟩, false, .blank⟩, []⟩]
      "[empty-task.skip-task]\n" :=
    ⟨_, .header .nil (.single keys (by decide)) (.line nothing .none .feed) (.nothing .nil .none),
      .inl (by decide)⟩
  have comment : Toml.Comment ('#' :: " header".toList) :=
    .line (List.all_eq_true.mp (by decide))
  have header' : Written [] [⟨⟨[⟨"empty-task", .blank⟩], ⟨"skip-task", .blank⟩, false, .blank⟩, []⟩]
      "[ 'empty-task'.skip-task] # header" :=
    ⟨_, .header .nil (.single keys' (by decide)) (.last blank comment) (.nothing .nil .none),
      .inl (by decide)⟩
  have key := Toml.Dotted.last nothing emptyTask nothing
  have twice : Written [] [⟨⟨[], ⟨"empty-task", .blank⟩, false, .blank⟩, []⟩,
      ⟨⟨[], ⟨"empty-task", .blank⟩, false, .blank⟩, []⟩] "[empty-task]\n[empty-task]\n" :=
    ⟨_, .header .nil (.single key (by decide)) (.line nothing .none .feed)
      (.header .nil (.single key (by decide)) (.line nothing .none .feed) (.nothing .nil .none)),
      .inl (by decide)⟩
  obtain ⟨root, parsed⟩ := (parses _).mpr ⟨_, _, _, dotted, rfl⟩
  obtain ⟨root', parsed'⟩ := (parses _).mpr ⟨_, _, _, header, rfl⟩
  have first : Config.ofToml "empty-task.skip-task=\x7b\x7d\n" = .ok ⟨.reject, .skipTask⟩ := by
    have bare := dotted.parse_bare
    rw [parsed] at bare
    rw [understood _ root parsed, ← understood_bare, Option.some.inj bare,
      ← ofEntries_eq_ok_iff (by decide)]
    rfl
  have second := (restyled _ _ _ _ _ _ root root' dotted header parsed parsed'
    (.symm (.empty rfl rfl rfl)) _).mp first
  have third := (written _ _ _ _ header header' _).mp second
  obtain ⟨fault, refused⟩ := noToml "empty-task" (by decide +kernel)
  obtain ⟨reason, because⟩ := failure "empty-task" fault refused
  exact ⟨first, second, third, rendered _ _ first, ⟨fault, reason, refused, because⟩,
    repeated _ _ _ twice (by decide)⟩

end DeployGate.Gate
