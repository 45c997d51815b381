import DeployGate.Proofs.Json.Indented

/-!
# The compact form

The compact form of every value is a document that spells it, binary64 numbers included: however a
decimal is laid out, it is a number. The keys of a canonical value are written in ascending order.

## Main results

`Value.spells_compact`, `Value.Canonical.sorted_toTree`.
-/

namespace DeployGate.Json

open Decimal (Binary Scientific)

/-! ### Decimals -/

/-- A number that is not zero has no interval with zero in it. -/
theorem digits_ne_zero_of_onGrid {b : Binary} (positive : b.significand ≠ 0) {k : Int}
    {number : Scientific} (hit : b.onGrid k = some number) : number.digits ≠ 0 := by
  unfold Binary.onGrid at hit
  extract_lets binary quarter step size low high closed rounds below toBelow toAbove at hit
  have above : 0 < low := by
    apply Nat.mul_pos
    · have least : 2 ≤ 4 * b.significand := by omega
      split
      · omega
      · omega
    · exact Nat.mul_pos (Nat.pow_pos (by decide)) (Nat.pow_pos (by decide))
  have noZero : rounds 0 = false := by
    simp only [rounds, Nat.zero_mul]
    split
    · simp [Nat.pos_iff_ne_zero.mp above]
    · simp
  split at hit
  next => cases hit
  next near _ =>
    cases hit
    intro zero
    rw [show below = 0 from zero, noZero] at near
    cases near
  next =>
    cases hit
    exact Nat.succ_ne_zero below
  next near _ =>
    split at hit
    · cases hit
      intro zero
      rw [show below = 0 from zero, noZero] at near
      cases near
    · cases hit
      exact Nat.succ_ne_zero below

theorem digits_ne_zero_of_firstOnGrid {b : Binary} (positive : b.significand ≠ 0) {count : Nat}
    {k : Int} {number : Scientific} (hit : b.firstOnGrid count k = some number) :
    number.digits ≠ 0 := by
  induction count generalizing k with
  | zero => cases hit
  | succ count ih =>
    rw [Binary.firstOnGrid, Option.or_eq_some_iff] at hit
    rcases hit with hit | ⟨-, hit⟩
    · exact digits_ne_zero_of_onGrid positive hit
    · exact ih hit

/-- Only zero is written without a digit of its own, and it has no exponent. -/
theorem exponent_shortest {b : Binary} (zero : b.shortest.digits = 0) :
    b.shortest.exponent = 0 := by
  rw [Binary.shortest] at zero ⊢
  split
  next => rfl
  next positive =>
    rw [if_neg positive] at zero
    cases hit : b.firstOnGrid 634 309 with
    | none => rfl
    | some number =>
      rw [hit] at zero
      exact absurd zero (digits_ne_zero_of_firstOnGrid positive hit)

theorem digits_toDigits (n : Nat) : Digits (Nat.toDigits 10 n) := by
  constructor
  · exact Nat.toDigits_ne_nil
  · intro c inside
    exact Nat.isDigit_of_mem_toDigits (by decide) (by decide) inside

theorem digits_zeros (count : Nat) : ∀ c ∈ List.replicate count '0', c.isDigit = true := by
  intro c inside
  rw [List.eq_of_mem_replicate inside]
  rfl

theorem eq_zero_of_toDigits {n : Nat} {digits : List Char}
    (spelled : Nat.toDigits 10 n = '0' :: digits) : n = 0 := by
  by_contra positive
  have head := head_toDigits_ne_zero (Nat.pos_of_ne_zero positive)
  rw [spelled] at head
  exact head rfl

/-- However a decimal is laid out, it is a number. -/
theorem magnitude_layout {number : Scientific}
    (integral : number.digits = 0 → number.exponent = 0) :
    Magnitude (Number.layout.render number) := by
  obtain ⟨c, digits, spelled, opening, numeric, leading⟩ := toDigits_eq_cons number.digits
  have first : Whole [c] := whole_of_cons opening (by simp) fun _ => rfl
  unfold Decimal.Layout.render
  extract_lets all position mantissa sign
  have given : all = c :: digits := spelled
  have length : position = number.exponent + digits.length := by
    simp only [position, given, List.length_cons]
    omega
  split
  · split
    -- the digits of an integral number, and zeros for its exponent
    next =>
      have whole : Whole (c :: (digits ++ List.replicate number.exponent.toNat '0')) := by
        apply whole_of_cons opening
        · exact List.forall_mem_append.mpr ⟨numeric, digits_zeros _⟩
        · intro zero
          subst zero
          rw [leading rfl, integral (eq_zero_of_toDigits spelled)]
          rfl
      have tail : Fraction ['.', '0'] := .digits ⟨by simp, by simp⟩
      have magnitude := Magnitude.parts whole tail .none
      simpa [given, Number.layout] using magnitude
    next =>
      split
      -- a point between the digits
      next =>
        have whole : Whole (c :: digits.take position.toNat) := by
          apply whole_of_cons opening
          · exact fun d inside => numeric d (List.mem_of_mem_take inside)
          · intro zero
            rw [leading zero, List.take_nil]
        have fraction : Fraction ('.' :: digits.drop position.toNat) := by
          apply Fraction.digits
          constructor
          · rw [ne_eq, List.drop_eq_nil_iff]
            omega
          · exact fun d inside => numeric d (List.mem_of_mem_drop inside)
        have magnitude := Magnitude.parts whole fraction .none
        simpa [given] using magnitude
      -- zeros behind the point
      next =>
        have fraction : Fraction ('.' :: (List.replicate (-position - 1).toNat '0' ++ all)) := by
          apply Fraction.digits
          constructor
          · simp [given]
          · rw [given]
            exact List.forall_mem_append.mpr
              ⟨digits_zeros _, List.forall_mem_cons.mpr ⟨opening, numeric⟩⟩
        have magnitude := Magnitude.parts .zero fraction .none
        simpa using magnitude
  -- one digit before the point, and an exponent
  · have exponent (sign : List Char) (signed : sign = [] ∨ sign = ['+'] ∨ sign = ['-']) :
        Exponent ('e' :: (sign ++ Nat.toDigits 10 position.natAbs)) :=
      .digits (.inl rfl) signed (digits_toDigits _)
    have fraction : Fraction (if all.length = 1 then [] else '.' :: all.drop 1) := by
      split
      · exact .none
      next more =>
        rw [given, List.drop_succ_cons, List.drop_zero]
        apply Fraction.digits
        constructor
        · rintro rfl
          exact more (by rw [given]; rfl)
        · exact numeric
    have signed : sign = [] ∨ sign = ['+'] ∨ sign = ['-'] := by
      simp only [sign]
      split
      · exact .inr (.inr rfl)
      · exact .inr (.inl rfl)
    have magnitude := Magnitude.parts first fraction (exponent sign signed)
    simpa [mantissa, given] using magnitude

theorem Number.numeral_render (number : Number) : Numeral number.render := by
  cases number with
  | integer value lower upper => exact Json.numeral_render value lower upper
  | float bits =>
    have magnitude := magnitude_layout (exponent_shortest (b := Binary.ofBits bits))
    rw [Number.render]
    split
    · exact .positive magnitude
    · exact .negative magnitude

/-! ### Values -/

namespace Value

mutual

/-- The compact form of a value spells it. -/
theorem spells_compact (value : Value) : Spells (.value value.toTree) value.compact := by
  cases value with
  | null =>
    rw [compact]
    exact .null
  | bool value =>
    rw [compact]
    exact .bool value
  | number number =>
    rw [compact]
    exact .number number.numeral_render
  | string text =>
    rw [compact]
    exact spells_writeString text
  | array elements =>
    cases elements with
    | nil =>
      rw [compact]
      exact .emptyArray .closeArray
    | cons first rest =>
      rw [compact]
      exact .array (spells_compact first) (spells_compactElements rest)
  | object members =>
    cases members with
    | nil =>
      rw [compact]
      exact .emptyObject .closeObject
    | cons first rest =>
      have member := spells_writtenMember first.1 (spells_compact first.2)
      have spells := member.object (spells_compactMembers rest)
      simpa [compact, toTree, memberTrees] using spells

theorem spells_compactElements (elements : List Value) :
    Spells (.elements (elementTrees elements)) (compactElements elements) := by
  cases elements with
  | nil => exact .closeArray
  | cons first rest => exact .element (spells_compact first) (spells_compactElements rest)

theorem spells_compactMembers (members : List (String × Value)) :
    Spells (.members (memberTrees members)) (compactMembers members) := by
  cases members with
  | nil => exact .closeObject
  | cons first rest =>
    have member := spells_writtenMember first.1 (spells_compact first.2)
    have spells := member.nextMember (spells_compactMembers rest)
    simpa [compactMembers, memberTrees] using spells

end

theorem spelled_compact (value : Value) :
    Spelled value.toTree (String.ofList value.compact) :=
  ⟨value.compact, [], value.spells_compact, by simp, by simp⟩

end Value

/-! ### Order -/

/-- The keys of every object in the tree ascend. -/
inductive Tree.Sorted : Tree → Prop
  | null : Sorted .null
  | bool (value : Bool) : Sorted (.bool value)
  | number (literal : List Char) : Sorted (.number literal)
  | string (units : List Nat) : Sorted (.string units)
  | array {trees : List Tree} : (∀ tree ∈ trees, Sorted tree) → Sorted (.array trees)
  | object {members : List (List Nat × Tree)} {names : List String} :
    members.map Prod.fst = names.map unitsOfText → names.Pairwise Text.Precedes →
    (∀ member ∈ members, Sorted member.2) → Sorted (.object members)

theorem Value.Canonical.sorted_toTree {value : Value} (canonical : value.Canonical) :
    value.toTree.Sorted := by
  induction canonical with
  | null => exact .null
  | bool value => exact .bool value
  | number number => exact .number number.render
  | string text => exact .string (unitsOfText text)
  | array _ ih =>
    rw [toTree, elementTrees_eq_map]
    exact .array (List.forall_mem_map.mpr ih)
  | object ascending _ ih =>
    rw [toTree, memberTrees_eq_map]
    apply Tree.Sorted.object ?_ ascending (List.forall_mem_map.mpr ih)
    rw [List.map_map, List.map_map]
    rfl

end DeployGate.Json
