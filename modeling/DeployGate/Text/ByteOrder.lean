/-!
# Order by UTF-8 bytes

Object members are kept in the order of their keys' UTF-8 bytes. It is a strict total order: two
texts with the same bytes are the same text.
-/

namespace DeployGate.Text

def utf8 (text : String) : List UInt8 := text.toByteArray.data.toList

theorem utf8_inj {a b : String} : utf8 a = utf8 b ↔ a = b := by
  rw [utf8, utf8, Array.toList_inj, ← String.toByteArray_inj, ByteArray.ext_iff]

/-- The first text comes before the second when their UTF-8 bytes are compared. -/
def Precedes (a b : String) : Prop := utf8 a < utf8 b

instance (a b : String) : Decidable (Precedes a b) :=
  inferInstanceAs (Decidable (utf8 a < utf8 b))

theorem Precedes.trans {a b c : String} (first : Precedes a b) (second : Precedes b c) :
    Precedes a c :=
  List.lt_trans first second

theorem not_precedes_self (a : String) : ¬Precedes a a := List.lt_irrefl _

theorem precedes_of_not {a b : String} (after : ¬Precedes a b) (differ : a ≠ b) : Precedes b a :=
  Decidable.byContradiction fun before =>
    differ (utf8_inj.1 (List.le_antisymm (List.not_lt.1 before) (List.not_lt.1 after)))

end DeployGate.Text
