import DeployGate.Json.Reader
import DeployGate.Text.HexDigit

/-!
# Strings

`readString` gives the characters of a string, and `skipString` only looks for its end. A skipped
string is checked less: its escapes need four hexadecimal digits, but these need not spell a
character. Both start after the opening quote.
-/

namespace DeployGate.Json

def hexNumber? (a b c d : Char) : Option Nat :=
  [a, b, c, d].foldlM (fun value digit => (Text.hexDigit? digit).map (16 * value + ·)) 0

/-- Four bytes are taken before they are judged, so the blame lies behind them. -/
def brokenHex (text : List Char) : Fault :=
  if Text.byteCount (text.take 4) < 4 then .here .endInString [] else ⟨.badEscape, text, 4⟩

def readHex (text : List Char) : Except Fault (Found Nat text) :=
  match text with
  | a :: b :: c :: d :: rest =>
    match hexNumber? a b c d with
    | some n => .ok ⟨n, rest, by simp only [List.length_cons]; omega⟩
    | none => .error (brokenHex (a :: b :: c :: d :: rest))
  | _ => .error (brokenHex text)

def shortEscape? : Char → Option Char
  | '"' => some '"'
  | '\\' => some '\\'
  | '/' => some '/'
  | 'b' => some '\x08'
  | 'f' => some '\x0c'
  | 'n' => some '\n'
  | 'r' => some '\r'
  | 't' => some '\t'
  | _ => none

def isHighSurrogate (unit : Nat) : Bool := 0xD800 ≤ unit && unit ≤ 0xDBFF

def isLowSurrogate (unit : Nat) : Bool := 0xDC00 ≤ unit && unit ≤ 0xDFFF

def joinSurrogates (high low : Nat) : Char :=
  Char.ofNat (0x10000 + (high - 0xD800) * 0x400 + (low - 0xDC00))

/-- The second half of a surrogate pair, with its own backslash. -/
def readLowSurrogate (high : Nat) (text : List Char) : Except Fault (Found Char text) :=
  match text with
  | [] => .error (.here .endInString [])
  | '\\' :: [] => .error (.here .endInString [])
  | '\\' :: 'u' :: rest =>
    match readHex rest with
    | .error fault => .error fault
    | .ok ⟨low, after, shorter⟩ =>
      if isLowSurrogate low then
        .ok ⟨joinSurrogates high low, after, by simp only [List.length_cons]; omega⟩
      else .error (.here .loneSurrogate after)
  | '\\' :: rest => .error (.next .unfinishedSurrogatePair rest)
  | _ => .error (.next .unfinishedSurrogatePair text)

def readEscape (text : List Char) : Except Fault (Found Char text) :=
  match text with
  | [] => .error (.here .endInString [])
  | 'u' :: rest =>
    match readHex rest with
    | .error fault => .error fault
    | .ok ⟨unit, after, shorter⟩ =>
      if isLowSurrogate unit then .error (.here .loneSurrogate after)
      else if isHighSurrogate unit then
        (readLowSurrogate unit after).map fun found => (found.past shorter).later
      else .ok ⟨Char.ofNat unit, after, by simp only [List.length_cons]; omega⟩
  | c :: rest =>
    match shortEscape? c with
    | some escaped => .ok (.first escaped)
    | none => .error (.next .badEscape (c :: rest))

def isControl (c : Char) : Bool := c.toNat < 0x20

def readString (text : List Char) : Except Fault (Found (List Char) text) :=
  match text with
  | [] => .error (.here .endInString [])
  | '"' :: _ => .ok (.first [])
  | '\\' :: rest =>
    match readEscape rest with
    | .error fault => .error fault
    | .ok ⟨c, after, shorter⟩ =>
      match readString after with
      | .error fault => .error fault
      | .ok ⟨cs, last, shorter'⟩ =>
        .ok ⟨c :: cs, last, by simp only [List.length_cons]; omega⟩
  | c :: rest =>
    if isControl c then .error (.next .controlCharacter (c :: rest))
    else
      match readString rest with
      | .error fault => .error fault
      | .ok ⟨cs, last, shorter⟩ => .ok ⟨c :: cs, last, by simp only [List.length_cons]; omega⟩
termination_by text.length
decreasing_by all_goals simp only [List.length_cons]; omega

def skipString (text : List Char) : Except Fault (Found Unit text) :=
  match text with
  | [] => .error (.here .endInString [])
  | '"' :: _ => .ok (.first ())
  | '\\' :: [] => .error (.here .endInString [])
  | '\\' :: 'u' :: rest =>
    match readHex rest with
    | .error fault => .error fault
    | .ok ⟨_, after, shorter⟩ =>
      (skipString after).map fun found => (found.past shorter).later.later
  | '\\' :: c :: rest =>
    if (shortEscape? c).isSome then
      (skipString rest).map (·.later.later)
    else .error (.next .badEscape (c :: rest))
  | c :: rest =>
    if isControl c then .error (.here .controlCharacter (c :: rest))
    else (skipString rest).map Found.later
termination_by text.length
decreasing_by all_goals simp only [List.length_cons]; omega

end DeployGate.Json
