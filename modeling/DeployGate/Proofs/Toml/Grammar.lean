import DeployGate.Proofs.Toml.Spans

/-!
# The grammar of documents

Which texts are written for a sequence of bindings and headers, told without a parser. Space,
comments and new lines may stand between the parts, keys and strings may be quoted in any way that
is there for them, and a list may end with a comma. Numbers, dates, times and truth values are
those of `scalar?`.
-/

namespace DeployGate.Toml

/-! ### Space -/

def Space (text : List Char) : Prop := ∀ c ∈ text, isSpace c = true

/-- A line end. -/
inductive Break : List Char → Prop
  | feed : Break ['\n']
  | carriage : Break ['\r', '\n']

/-- A comment without its line end, or none. -/
inductive Comment : List Char → Prop
  | none : Comment []
  | line {text : List Char} : (∀ c ∈ text, isPlain c = true) → Comment ('#' :: text)

/-- Space, new lines, and comments up to the end of their lines. -/
inductive Trivia : List Char → Prop
  | nil : Trivia []
  | space {c : Char} {text : List Char} : isSpace c = true → Trivia text → Trivia (c :: text)
  | line {comment lineBreak text : List Char} : Comment comment → Break lineBreak → Trivia text →
    Trivia (comment ++ (lineBreak ++ text))

/-! ### Strings -/

/-- A backslash and what follows it stand for a character. -/
inductive Escaped : Char → List Char → Prop
  | backspace : Escaped '\x08' ['b']
  | tab : Escaped '\t' ['t']
  | feed : Escaped '\n' ['n']
  | page : Escaped '\x0c' ['f']
  | carriage : Escaped '\r' ['r']
  | quote : Escaped '"' ['"']
  | backslash : Escaped '\\' ['\\']
  | short {digits : List Char} {c : Char} : digits.length = 4 → digits.all isHexDigit = true →
    scalarValue? (digitsValue 16 digits) = some c → Escaped c ('u' :: digits)
  | long {digits : List Char} {c : Char} : digits.length = 8 → digits.all isHexDigit = true →
    scalarValue? (digitsValue 16 digits) = some c → Escaped c ('U' :: digits)

/-- Strings begin and end with double or single quotes. There are escapes between double ones. -/
def IsQuote (quote : Char) : Prop := quote = '"' ∨ quote = '\''

instance (quote : Char) : Decidable (IsQuote quote) := inferInstanceAs (Decidable (_ ∨ _))

/-- The character stands for itself between the quotes. -/
def Itself (quote c : Char) : Prop := isPlain c = true ∧ c ≠ quote ∧ (quote = '"' → c ≠ '\\')

instance (quote c : Char) : Decidable (Itself quote c) := inferInstanceAs (Decidable (_ ∧ _ ∧ _))

/-- What stands between quotes on one line, and the closing quote. -/
inductive Line (quote : Char) : List Char → List Char → Prop
  | close : Line quote [] [quote]
  | plain {c : Char} {chars text : List Char} : Itself quote c → Line quote chars text →
    Line quote (c :: chars) (c :: text)
  | escape {c : Char} {chars escape text : List Char} : quote = '"' → Escaped c escape →
    Line quote chars text → Line quote (c :: chars) ('\\' :: (escape ++ text))

/-- The closing quotes of a string on several lines. Up to two more belong to the string. -/
inductive Closing (quote : Char) : List Char → List Char → Prop
  | three : Closing quote [] [quote, quote, quote]
  | four : Closing quote [quote] [quote, quote, quote, quote]
  | five : Closing quote [quote, quote] [quote, quote, quote, quote, quote]

/-- Space and new lines. -/
inductive Gap : List Char → Prop
  | nil : Gap []
  | space {c : Char} {text : List Char} : isSpace c = true → Gap text → Gap (c :: text)
  | line {lineBreak text : List Char} : Break lineBreak → Gap text → Gap (lineBreak ++ text)

/-- The text does not begin with space or a new line. -/
def Solid (text : List Char) : Prop :=
  ∀ c, text.head? = some c → isSpace c = false ∧ c ≠ '\n' ∧ c ≠ '\r'

/-- What stands between three quotes, and the closing ones. One or two quotes stand for themselves,
and a backslash at the end of a line joins it to what comes after the gap. -/
inductive Lines (quote : Char) : List Char → List Char → Prop
  | close {chars text : List Char} : Closing quote chars text → Lines quote chars text
  | plain {c : Char} {chars text : List Char} : Itself quote c → Lines quote chars text →
    Lines quote (c :: chars) (c :: text)
  | one {chars text : List Char} : text.head? ≠ some quote → Lines quote chars text →
    Lines quote (quote :: chars) (quote :: text)
  | two {chars text : List Char} : text.head? ≠ some quote → Lines quote chars text →
    Lines quote (quote :: quote :: chars) (quote :: quote :: text)
  | line {lineBreak chars text : List Char} : Break lineBreak → Lines quote chars text →
    Lines quote ('\n' :: chars) (lineBreak ++ text)
  | escape {c : Char} {chars escape text : List Char} : quote = '"' → Escaped c escape →
    Lines quote chars text → Lines quote (c :: chars) ('\\' :: (escape ++ text))
  | join {space lineBreak gap chars text : List Char} : quote = '"' → Space space →
    Break lineBreak → Gap gap → Solid text → Lines quote chars text →
    Lines quote chars ('\\' :: (space ++ (lineBreak ++ (gap ++ text))))

/-- A new line behind the opening quotes is dropped. -/
inductive Opening : List Char → List Char → Prop
  | here {text : List Char} : (∀ c, text.head? = some c → c ≠ '\n' ∧ c ≠ '\r') → Opening text text
  | next {lineBreak text : List Char} : Break lineBreak → Opening text (lineBreak ++ text)

/-- A string in quotes. -/
inductive Quoted : List Char → List Char → Prop
  | line {quote : Char} {chars text : List Char} : IsQuote quote → Line quote chars text →
    Quoted chars (quote :: text)
  | lines {quote : Char} {chars text body : List Char} : IsQuote quote → Lines quote chars body →
    Opening body text → Quoted chars (quote :: quote :: quote :: text)

/-! ### Keys -/

/-- A key without dots: bare, or quoted on one line. -/
inductive Names : String → List Char → Prop
  | bare {name : List Char} : name ≠ [] → (∀ c ∈ name, isBareKeyChar c = true) →
    Names (String.ofList name) name
  | quoted {quote : Char} {name text : List Char} : IsQuote quote → Line quote name text →
    Names (String.ofList name) (quote :: text)

/-- Keys joined by dots, with space around each. -/
inductive Dotted : List Key → Key → List Char → Prop
  | last {name : String} {before text after : List Char} : Space before → Names name text →
    Space after → Dotted [] ⟨name, .blank⟩ (before ++ (text ++ after))
  | next {name : String} {path : List Key} {last : Key} {before text after more : List Char} :
    Space before → Names name text → Space after → Dotted path last more →
    Dotted (⟨name, .blank⟩ :: path) last (before ++ (text ++ (after ++ '.' :: more)))

/-! ### Values -/

/-- What a part of a document can be: a value in which so many lists and tables may be open, the
binding of a key, and what follows the opening bracket of a list or of a table. -/
inductive Phrase
  | value (depth : Nat) (item : Item)
  | binding (depth : Nat) (binding : Binding)
  | elements (depth : Nat) (items : List Item)
  | bindings (depth : Nat) (bindings : List Binding)

/-- The text is written for this part. -/
inductive Spells : Phrase → List Char → Prop
  | text {depth : Nat} {chars text : List Char} : Quoted chars text →
    Spells (.value depth (.scalar .blank (.string (String.ofList chars)))) text
  | word {depth : Nat} {word : List Char} {value : Scalar} : word ≠ [] →
    (∀ c ∈ word, isWordChar c = true) → scalar? word = some value →
    Spells (.value depth (.scalar .blank value)) word
  -- A date and a time with a space between them.
  | moment {depth : Nat} {date time : List Char} : (∀ c ∈ date ++ time, isWordChar c = true) →
    isDate date = true → isOffsetTime time = true →
    Spells (.value depth (.scalar .blank (.datetime (String.ofList (date ++ ' ' :: time)))))
      (date ++ ' ' :: time)
  | array {depth : Nat} {items : List Item} {text : List Char} :
    Spells (.elements depth items) text →
    Spells (.value (depth + 1) (.array .blank items)) ('[' :: text)
  | emptyTable {depth : Nat} {space : List Char} : Space space →
    Spells (.value (depth + 1) (.inline (some .blank) .written [])) ('\x7b' :: (space ++ ['\x7d']))
  -- The bindings make a table: no key comes twice, and dots lead into tables only.
  | table {depth : Nat} {bindings : List Binding} {item : Item} {text : List Char} :
    Spells (.bindings depth bindings) text → inlineTable .blank bindings = some item →
    Spells (.value (depth + 1) item) ('\x7b' :: text)
  | noElements {depth : Nat} {trivia : List Char} : Trivia trivia →
    Spells (.elements depth []) (trivia ++ [']'])
  | lastElement {depth : Nat} {item : Item} {before text after : List Char} : Trivia before →
    Spells (.value depth item) text → Trivia after →
    Spells (.elements depth [item]) (before ++ (text ++ (after ++ [']'])))
  | element {depth : Nat} {item : Item} {items : List Item} {before text after more : List Char} :
    Trivia before → Spells (.value depth item) text → Trivia after →
    Spells (.elements depth items) more →
    Spells (.elements depth (item :: items)) (before ++ (text ++ (after ++ ',' :: more)))
  | lastBinding {depth : Nat} {binding : Binding} {text after : List Char} :
    Spells (.binding depth binding) text → Space after →
    Spells (.bindings depth [binding]) (text ++ (after ++ ['\x7d']))
  | nextBinding {depth : Nat} {binding : Binding} {bindings : List Binding}
    {text after more : List Char} : Spells (.binding depth binding) text → Space after →
    Spells (.bindings depth bindings) more →
    Spells (.bindings depth (binding :: bindings)) (text ++ (after ++ ',' :: more))
  | binding {depth : Nat} {path : List Key} {last : Key} {item : Item}
    {key space text : List Char} : Dotted path last key → path.length < depthLimit →
    Space space → Spells (.value depth item) text →
    Spells (.binding depth ⟨path, last, item⟩) (key ++ '=' :: (space ++ text))

/-! ### Documents -/

/-- A header in brackets. -/
inductive Heads : Header → List Char → Prop
  | single {path : List Key} {last : Key} {key : List Char} : Dotted path last key →
    path.length < depthLimit → Heads ⟨path, last, false, .blank⟩ ('[' :: (key ++ [']']))
  | double {path : List Key} {last : Key} {key : List Char} : Dotted path last key →
    path.length < depthLimit →
    Heads ⟨path, last, true, .blank⟩ ('[' :: '[' :: (key ++ [']', ']']))

/-- The rest of a line, and what comes after the line. Only the last line has no line end. -/
inductive Rest : List Char → List Char → Prop
  | line {space comment lineBreak more : List Char} : Space space → Comment comment →
    Break lineBreak → Rest (space ++ (comment ++ (lineBreak ++ more))) more
  | last {space comment : List Char} : Space space → Comment comment → Rest (space ++ comment) []

/-- The text has the bindings in front of its first header, and the sections, in their order. -/
inductive Writes : List Binding → List Section → List Char → Prop
  | nothing {trivia comment : List Char} : Trivia trivia → Comment comment →
    Writes [] [] (trivia ++ comment)
  | binding {binding : Binding} {under : List Binding} {parts : List Section}
    {trivia text rest more : List Char} : Trivia trivia →
    Spells (.binding depthLimit binding) text → Rest rest more → Writes under parts more →
    Writes (binding :: under) parts (trivia ++ (text ++ rest))
  | header {header : Header} {under : List Binding} {parts : List Section}
    {trivia text rest more : List Char} : Trivia trivia → Heads header text → Rest rest more →
    Writes under parts more → Writes [] (⟨header, under⟩ :: parts) (trivia ++ (text ++ rest))

/-- The document says this. A byte order mark may stand in front of it. -/
def Written (leading : List Binding) (parts : List Section) (document : String) : Prop :=
  ∃ text, Writes leading parts text ∧
    (document.toList = text ∨ document.toList = '\ufeff' :: text)

end DeployGate.Toml
