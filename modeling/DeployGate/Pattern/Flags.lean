import DeployGate.Text.Blank
import DeployGate.Text.Found

/-!
# Flags of a pattern

A pattern is a regular expression. Its flags hold from where they are set to the end of the group
around them, or in a group of their own.
-/

namespace DeployGate.Pattern

/-- The flags that bear on whether a pattern can be used. -/
structure Flags where
  foldCase : Bool := false
  unicode : Bool := true
  -- Blank characters and comments stand for nothing.
  spaced : Bool := false
  deriving DecidableEq, Repr

namespace Flags

def switch? (flags : Flags) (letter : Char) (on : Bool) : Option Flags :=
  match letter with
  | 'i' => some { flags with foldCase := on }
  | 'u' => some { flags with unicode := on }
  | 'x' => some { flags with spaced := on }
  | 'm' | 's' | 'R' | 'U' => some flags
  | _ => none

/-- Reads flags and what ends them, a colon or a bracket, and says whether it is a colon. Those
after a minus sign are switched off, and none may be named twice. -/
def read (flags : Flags) (seen : List Char) (text : List Char) :
    Option (Found (Flags × Bool) text) :=
  match text with
  | [] => none
  | c :: rest =>
    if c = ':' || c = ')' then
      if seen.head? = some '-' || c = ')' && seen.isEmpty then none
      else some (.first (flags, c = ':'))
    else if seen.contains c then none
    else if c = '-' then (flags.read (c :: seen) rest).map Found.later
    else
      match flags.switch? c (!seen.contains '-') with
      | none => none
      | some flags => (flags.read (c :: seen) rest).map Found.later

def dropSpacing (inComment : Bool) : (text : List Char) → Remainder text
  | [] => .all []
  | c :: rest =>
    if inComment then (dropSpacing (c ≠ '\n') rest).later
    else if Text.isBlank c then (dropSpacing false rest).later
    else if c = '#' then (dropSpacing true rest).later
    else .all (c :: rest)

def skip (flags : Flags) (text : List Char) : Remainder text :=
  if flags.spaced then dropSpacing false text else .all text

end Flags

end DeployGate.Pattern
