import Offside.Proofs.Values.Operands

/-!
# Booleans count as integers

The rules of the operators do not tell a boolean from the integer that it counts as
(`Value.binary?_counted_left`, `Value.binary?_counted_right`), but for `& | ^` on two booleans and the
operators that give back an operand or look at its type. So `booleans_count` finds the same outcome on
both, up to the type that an error names.
-/

namespace Offside

/-- The same fault over operands of other types. -/
def Fault.withKinds (left right : Value.Kind) : Fault → Fault
  | .unsupportedOperands op _ _ => .unsupportedOperands op left right
  | fault => fault

theorem Fault.withKinds_of_liesInValues {fault : Fault} (lies : fault.liesInValues = true)
    (left right : Value.Kind) : fault.withKinds left right = fault := by
  cases fault with
  | unsupportedOperands => cases lies
  | _ => rfl

namespace Value

/-- A boolean as the integer that it counts as. -/
def counted : Value → Value
  | .bool b => .int (if b then 1 else 0)
  | v => v

variable {op : BinaryOp} {a b a' b' : Value}

/-! ### Rules on a counted operand -/

theorem int?_counted (a : Value) : a.counted.int? = a.int? := by
  cases a <;> rfl

theorem float?_counted (a : Value) : a.counted.float? = a.float? := by
  cases a <;> rfl

theorem complex?_counted (a : Value) : a.counted.complex? = a.complex? := by
  cases a <;> rfl

theorem isSequence_counted (a : Value) : a.counted.isSequence = a.isSequence := by
  cases a <;> rfl

theorem promote?_counted_left (a b : Value) : a.counted.promote? b = a.promote? b := by
  simp only [promote?, int?_counted, float?_counted, complex?_counted]

theorem promote?_counted_right (a b : Value) : a.promote? b.counted = a.promote? b := by
  simp only [promote?, int?_counted, float?_counted, complex?_counted]

theorem sequence?_counted_left (op : BinaryOp) (a b : Value) :
    sequence? op a.counted b = sequence? op a b := by
  cases op <;> cases a <;> rfl

theorem sequence?_counted_right (op : BinaryOp) (a b : Value) :
    sequence? op a b.counted = sequence? op a b := by
  cases op <;> cases b <;> cases a <;> rfl

theorem power?_counted_left (a b : Value) : a.counted.power? b = a.power? b := by
  cases a <;> cases b <;> rfl

theorem power?_counted_right (a b : Value) : a.power? b.counted = a.power? b := by
  cases b <;> rfl

theorem less?_counted_left (a b : Value) : a.counted.less? b = a.less? b := by
  cases a <;> cases b <;> rfl

theorem less?_counted_right (a b : Value) : a.less? b.counted = a.less? b := by
  cases b <;> cases a <;> rfl

theorem equals_counted_left (a b : Value) : a.counted.equals b = a.equals b := by
  cases a <;> cases b <;> rfl

theorem equals_counted_right (a b : Value) : a.equals b.counted = a.equals b := by
  cases b <;> cases a <;> rfl

theorem contains?_counted_left (a b : Value) : a.counted.contains? b = a.contains? b := by
  cases a <;> rfl

theorem contains?_counted_right (a b : Value) : a.contains? b.counted = a.contains? b := by
  cases b <;> cases a <;> rfl

/-- The operators that give back an operand, or look at its type. -/
def unlikeArithmetic : List BinaryOp := [.identical, .notIdentical, .and, .or]

/-- The operators that give a boolean on two booleans. -/
def onBits : List BinaryOp := [.bitAnd, .bitOr, .bitXor]

theorem bitwise?_counted_left (apart : op ∈ onBits → b.kind ≠ .bool) :
    bitwise? op a.counted b = bitwise? op a b := by
  cases op <;> cases a <;> cases b <;> first
    | rfl
    | exact absurd rfl (apart (by decide))

theorem bitwise?_counted_right (apart : op ∈ onBits → a.kind ≠ .bool) :
    bitwise? op a b.counted = bitwise? op a b := by
  cases op <;> cases b <;> cases a <;> first
    | rfl
    | exact absurd rfl (apart (by decide))

theorem binary?_counted_left (other : op ∉ unlikeArithmetic) (apart : op ∈ onBits → b.kind ≠ .bool) :
    binary? op a.counted b = binary? op a b := by
  have bitwise := bitwise?_counted_left apart (a := a)
  cases op
  case identical | notIdentical | and | or => exact absurd (by decide) other
  all_goals simp only [binary?, bitwise, isSequence_counted, sequence?_counted_left, arithmetic?,
    promote?_counted_left, power?_counted_left, comparison?, lessEqual?, less?_counted_left,
    less?_counted_right, equals_counted_left, equals_counted_right, contains?_counted_right]

theorem binary?_counted_right (other : op ∉ unlikeArithmetic) (apart : op ∈ onBits → a.kind ≠ .bool) :
    binary? op a b.counted = binary? op a b := by
  have bitwise := bitwise?_counted_right apart (b := b)
  cases op
  case identical | notIdentical | and | or => exact absurd (by decide) other
  all_goals simp only [binary?, bitwise, isSequence_counted, sequence?_counted_right, arithmetic?,
    promote?_counted_right, power?_counted_right, comparison?, lessEqual?, less?_counted_left,
    less?_counted_right, equals_counted_left, equals_counted_right, contains?_counted_left]

/-- By the same rule the outcome is the same, but for the types that an error names. -/
theorem binary_of_binary? (rule : binary? op a' b' = binary? op a b) :
    a'.binary op b' = (a.binary op b).mapError (.withKinds a'.kind b'.kind) := by
  rw [binary, binary, rule]
  cases found : binary? op a b with
  | none => rfl
  | some result =>
    cases result with
    | ok v => rfl
    | error fault =>
      have lies := byValue_binary? found fault rfl
      exact congrArg Except.error (Fault.withKinds_of_liesInValues lies _ _).symm

/-- On two booleans an operator on bits gives the boolean of what it gives on integers. -/
theorem binary_bits (bits : op ∈ onBits) (x y : Bool) : ∃ z, (bool x).binary op (bool y) = .ok (.bool z) ∧
    (bool x).counted.binary op (bool y) = .ok (bool z).counted ∧
    (bool x).binary op (bool y).counted = .ok (bool z).counted := by
  simp only [onBits, List.mem_cons, List.not_mem_nil, or_false] at bits
  rcases bits with rfl | rfl | rfl
  · exact ⟨x && y, by cases x <;> cases y <;> decide⟩
  · exact ⟨x || y, by cases x <;> cases y <;> decide⟩
  · exact ⟨x != y, by cases x <;> cases y <;> decide⟩

theorem unary_counted (op : UnaryOp) (b : Bool) : (bool b).counted.unary op = (bool b).unary op := by
  cases op <;> cases b <;> decide

end Value

open EvalM Value in
/-- Wherever a boolean is an operand, an operator comes to the same as on the integer that it counts as:
to the same value, or to the same error, but for the types of operands it names. Only `& | ^` on two
booleans give a boolean, and on an integer the integer it counts as. -/
theorem booleans_count {op : BinaryOp} (other : op ∉ unlikeArithmetic) (b : Bool) (v : Value)
    (line : Nat) :
    let n : Value := .int (if b then 1 else 0)
    (¬ (op ∈ onBits ∧ v.kind = .bool) →
      onLine line (n.binary op v) =
        onLine line (((bool b).binary op v).mapError (.withKinds .int v.kind)) ∧
      onLine line (v.binary op n) =
        onLine line ((v.binary op (bool b)).mapError (.withKinds v.kind .int))) ∧
    (op ∈ onBits → ∀ c, v = .bool c → ∃ x y,
      onLine line ((bool b).binary op v) = pure (.bool x) ∧
      onLine line (n.binary op v) = pure (.int (if x then 1 else 0)) ∧
      onLine line (v.binary op (bool b)) = pure (.bool y) ∧
      onLine line (v.binary op n) = pure (.int (if y then 1 else 0))) ∧
    ∀ op : UnaryOp, onLine line (n.unary op) = onLine line ((bool b).unary op) := by
  refine ⟨fun apart => ⟨?_, ?_⟩, ?_, fun op => ?_⟩
  · have rule := binary?_counted_left other (fun bits same => apart ⟨bits, same⟩) (a := bool b)
    exact congrArg (onLine line) (binary_of_binary? rule)
  · have rule := binary?_counted_right other (fun bits same => apart ⟨bits, same⟩) (b := bool b)
    exact congrArg (onLine line) (binary_of_binary? rule)
  · rintro bits c rfl
    obtain ⟨x, left, left', -⟩ := binary_bits bits b c
    obtain ⟨y, right, -, right'⟩ := binary_bits bits c b
    exact ⟨x, y, congrArg (onLine line) left, congrArg (onLine line) left',
      congrArg (onLine line) right, congrArg (onLine line) right'⟩
  · exact congrArg (onLine line) (unary_counted op b)

open EvalM Value in
/-- A remainder by text is refused on a boolean and on an integer, each time with its type. -/
theorem booleans_count_in_remainder : BinaryOp.mod ∉ unlikeArithmetic ∧
    ¬ (BinaryOp.mod ∈ onBits ∧ (Value.str "a").kind = .bool) ∧
    ∀ line, onLine line ((Value.int 1).binary .mod (.str "a")) =
      fail (.unsupportedOperands .mod .int .str) line := by
  have other : BinaryOp.mod ∉ unlikeArithmetic := by decide
  have apart : ¬ (BinaryOp.mod ∈ onBits ∧ (Value.str "a").kind = .bool) := by decide
  refine ⟨other, apart, fun line => ?_⟩
  obtain ⟨counts, -⟩ := booleans_count other true (.str "a") line
  exact (counts apart).1

end Offside
