import Offside.Proofs.Values.Shifts

/-!
# The operands of an operator

`BinaryOp.takes` is the table of the types that an operator takes. A rule gives a result exactly for
these (`Value.isSome_binary?`), and where a rule gives a failure it is over what the values are
(`Value.byValue_of_binary?`), so that `operands_by_kind` finds the types alone behind a refusal.
-/

namespace Offside

namespace Value.Kind

def isInteger (kind : Kind) : Bool := kind = .bool || kind = .int

def isReal (kind : Kind) : Bool := kind.isInteger || kind = .float

def isNumber (kind : Kind) : Bool := kind.isReal || kind = .complex

def isSequence (kind : Kind) : Bool := kind = .str || kind = .bytes

end Value.Kind

/-- Whether an operator takes operands of these types. -/
def BinaryOp.takes (op : BinaryOp) (left right : Value.Kind) : Bool :=
  match op with
  | .add => left.isNumber && right.isNumber || left.isSequence && left = right
  | .sub | .div | .pow => left.isNumber && right.isNumber
  | .mul => left.isNumber && right.isNumber || left.isSequence && right.isInteger ||
      left.isInteger && right.isSequence
  | .floorDiv | .mod => left.isReal && right.isReal
  | .shiftLeft | .shiftRight | .bitAnd | .bitOr | .bitXor => left.isInteger && right.isInteger
  | .less | .greater | .lessEqual | .greaterEqual =>
    left.isReal && right.isReal || left.isSequence && left = right
  | .contained | .notContained =>
    right.isSequence && left = right || right = .bytes && left.isInteger
  | .equal | .notEqual | .identical | .notIdentical | .and | .or => true

/-- Whether a fault lies in what the operands are, and not in their types. -/
def Fault.liesInValues : Fault → Bool
  | .divisionByZero | .overflow | .invalidArgument _ => true
  | _ => false

/-- A failure, if the result is one, lies in the values. -/
def ByValue {α : Type} (result : Except Fault α) : Prop :=
  ∀ fault, result = .error fault → fault.liesInValues = true

namespace ByValue

variable {α β : Type} {result : Except Fault α}

theorem ok (a : α) : ByValue (.ok a) := nofun

theorem error {fault : Fault} (lies : fault.liesInValues = true) :
    ByValue (.error fault : Except Fault α) := by
  rintro _ ⟨⟩
  exact lies

theorem bind {f : α → Except Fault β} (first : ByValue result) (second : ∀ a, ByValue (f a)) :
    ByValue (result >>= f) := by
  cases result with
  | ok a => exact second a
  | error fault => exact error (first fault rfl)

theorem map (f : α → β) (first : ByValue result) : ByValue (f <$> result) := by
  cases result with
  | ok a => exact ok (f a)
  | error fault => exact error (first fault rfl)

end ByValue

/-! ### Failures of the rules -/

namespace Integer

theorem byValue_narrow (n : Int) : ByValue (narrow n) := by
  unfold narrow
  split
  · exact .ok _
  · exact .error rfl

theorem byValue_divMod (a b : Int64) : ByValue (divMod a b) := by
  unfold divMod
  split
  · exact .error rfl
  · exact .bind (byValue_narrow _) fun _ => .ok _

theorem byValue_powTimes (base result : Int64) (exponent : Nat) :
    ByValue (powTimes base result exponent) := by
  induction exponent using Nat.strong_induction_on generalizing base result with
  | h exponent ih =>
    have square : ∀ result, exponent ≠ 0 → ByValue (do
        let square ← mul base base
        powTimes square result (exponent / 2)) := fun result positive =>
      .bind (byValue_narrow _) fun square => ih _ (Nat.div_lt_self (by omega) (by decide)) square result
    rw [powTimes]
    split
    · exact .ok _
    split
    · exact byValue_narrow _
    next positive _ =>
    split
    · exact .bind (byValue_narrow _) fun product => square product positive
    · exact square result positive

theorem byValue_pow (base exponent : Int64) : ByValue (pow base exponent) := by
  unfold pow
  split
  · exact byValue_powTimes _ _ _
  split
  · exact .ok _
  split
  · exact .ok _
  · exact .error rfl

theorem byValue_shiftCount (count : Int64) : ByValue (shiftCount count) := by
  unfold shiftCount
  split
  · exact .error rfl
  · exact .ok _

theorem byValue_shiftLeft (a count : Int64) : ByValue (shiftLeft a count) := by
  refine .bind (byValue_shiftCount count) fun count => ?_
  split
  · exact .ok _
  split
  · exact .error rfl
  · exact byValue_narrow _

theorem byValue_shiftRight (a count : Int64) : ByValue (shiftRight a count) := by
  refine .bind (byValue_shiftCount count) fun count => ?_
  split
  · exact .ok _
  · exact .ok _

theorem byValue_arithmetic? {op : BinaryOp} {m n : Int64} {result : Except Fault Value}
    (rule : arithmetic? op m n = some result) : ByValue result := by
  unfold arithmetic? at rule
  split at rule
  case h_1 | h_2 | h_3 =>
    cases rule
    exact .map _ (byValue_narrow _)
  case h_4 =>
    split at rule <;> cases rule
    · exact .error rfl
    · exact .ok _
  case h_5 | h_6 =>
    cases rule
    exact .map _ (.map _ (byValue_divMod m n))
  case h_7 => cases rule

theorem byValue_bitwise? {op : BinaryOp} {m n : Int64} {result : Except Fault Value}
    (rule : bitwise? op m n = some result) : ByValue result := by
  unfold bitwise? at rule
  split at rule <;> cases rule
  case h_1 | h_2 | h_3 => exact .ok _
  case h_4 => exact .map _ (byValue_shiftLeft m n)
  case h_5 => exact .map _ (byValue_shiftRight m n)

end Integer

namespace Binary64

theorem byValue_dividing (f : Float → Float → Float) (x y : Float) : ByValue (dividing f x y) := by
  unfold dividing
  split
  · exact .error rfl
  · exact .ok _

theorem byValue_arithmetic? {op : BinaryOp} {x y : Float} {result : Except Fault Value}
    (rule : arithmetic? op x y = some result) : ByValue result := by
  unfold arithmetic? at rule
  split at rule <;> cases rule
  case h_1 | h_2 | h_3 => exact .ok _
  case h_4 | h_5 | h_6 => exact byValue_dividing _ x y

end Binary64

namespace Complex

theorem byValue_divide (z w : Complex) : ByValue (divide z w) := by
  unfold divide
  split
  · exact .error rfl
  · exact .ok _

theorem byValue_arithmetic? {op : BinaryOp} {z w : Complex} {result : Except Fault Value}
    (rule : arithmetic? op z w = some result) : ByValue result := by
  unfold arithmetic? at rule
  split at rule <;> cases rule
  case h_1 | h_2 | h_3 => exact .ok _
  case h_4 => exact .map _ (byValue_divide z w)

theorem byValue_pow (z w : Complex) : ByValue (pow z w) := by
  -- Only the last test looks at the result, which may be too large.
  have finite : ∀ result : Complex,
      ByValue (if result.isFinite then .ok result else .error .overflow) := by
    intro result
    split
    · exact .ok _
    · exact .error rfl
  unfold pow
  split
  · exact .ok _
  split
  · split
    · exact .error rfl
    · exact .ok _
  · exact finite _

theorem byValue_powTimes (base result : Complex) (n : Nat) : ByValue (powTimes base result n) := by
  fun_induction powTimes base result n with
  | case1 => exact .ok _
  | case2 _ _ _ _ _ ih => exact ih
  | case3 _ _ _ _ _ _ ih => exact ih
  | case4 => exact .error rfl

theorem byValue_powInt (z : Complex) (n : Int64) : ByValue (powInt z n) := by
  unfold powInt
  split
  · exact .ok _
  split
  · exact .error rfl
  split
  · exact byValue_pow _ _
  · refine .bind (byValue_powTimes _ _ _) fun result => ?_
    split
    · exact byValue_divide _ _
    · exact .ok _

end Complex

theorem Binary64.byValue_pow (x y : Float) : ByValue (pow x y) := by
  unfold pow
  split
  · exact .error rfl
  split
  · exact .map _ (Complex.byValue_pow _ _)
  split
  · exact .error rfl
  · exact .ok _

namespace Numbers

theorem byValue_arithmetic? {op : BinaryOp} {numbers : Numbers} {result : Except Fault Value}
    (rule : arithmetic? op numbers = some result) : ByValue result := by
  cases numbers with
  | ints m n => exact Integer.byValue_arithmetic? rule
  | floats x y => exact Binary64.byValue_arithmetic? rule
  | complexes z w => exact Complex.byValue_arithmetic? rule

theorem byValue_power (numbers : Numbers) : ByValue numbers.power := by
  cases numbers with
  | ints m n =>
    rw [power]
    split
    · exact Binary64.byValue_pow _ _
    · exact .map _ (Integer.byValue_pow m n)
  | floats x y => exact Binary64.byValue_pow x y
  | complexes z w => exact .map _ (Complex.byValue_pow z w)

end Numbers

namespace Value

variable {op : BinaryOp} {a b : Value} {result : Except Fault Value}

theorem byValue_copies (size : Nat) (count : Int64) : ByValue (copies size count) := by
  unfold copies
  split
  · exact .ok _
  split
  · exact .ok _
  · exact .error rfl

theorem byValue_repeated? {count : Int64} (rule : a.repeated? count = some result) :
    ByValue result := by
  unfold repeated? at rule
  split at rule <;> cases rule
  case h_1 | h_2 => exact .map _ (byValue_copies _ count)

theorem byValue_sequence? (rule : sequence? op a b = some result) : ByValue result := by
  unfold sequence? at rule
  split at rule
  case h_1 | h_2 =>
    cases rule
    exact .ok _
  case h_3 =>
    rcases Option.or_eq_some_iff.mp rule with rule | ⟨-, rule⟩
    · obtain ⟨_, -, rule⟩ := Option.bind_eq_some_iff.mp rule
      exact byValue_repeated? rule
    · obtain ⟨_, -, rule⟩ := Option.bind_eq_some_iff.mp rule
      exact byValue_repeated? rule
  case h_4 => cases rule

theorem byValue_power? (rule : a.power? b = some result) : ByValue result := by
  unfold power? at rule
  split at rule
  · cases rule
    exact .map _ (Complex.byValue_powInt _ _)
  · obtain ⟨numbers, -, rfl⟩ := Option.map_eq_some_iff.mp rule
    exact numbers.byValue_power

theorem byValue_bitwise? (rule : bitwise? op a b = some result) : ByValue result := by
  unfold bitwise? at rule
  split at rule
  case h_1 | h_2 | h_3 =>
    cases rule
    exact .ok _
  case h_4 =>
    split at rule
    · exact Integer.byValue_bitwise? rule
    · cases rule

theorem byValue_contains? {answer : Except Fault Bool} (rule : a.contains? b = some answer) :
    ByValue answer := by
  unfold contains? at rule
  split at rule
  case h_1 | h_2 =>
    cases rule
    exact .ok _
  case h_3 =>
    obtain ⟨n, -, rfl⟩ := Option.map_eq_some_iff.mp rule
    split
    · exact .ok _
    · exact .error rfl
  case h_4 => cases rule

theorem byValue_comparison? {answer : Except Fault Bool} (rule : comparison? op a b = some answer) :
    ByValue answer := by
  unfold comparison? at rule
  split at rule
  case h_1 | h_2 | h_3 | h_4 =>
    cases rule
    exact .ok _
  case h_5 => exact byValue_contains? rule
  case h_6 =>
    obtain ⟨answer, contains, rfl⟩ := Option.map_eq_some_iff.mp rule
    exact .map _ (byValue_contains? contains)
  case h_7 | h_8 | h_9 | h_10 =>
    obtain ⟨_, -, rfl⟩ := Option.map_eq_some_iff.mp rule
    exact .ok _
  case h_11 => cases rule

theorem byValue_binary? (rule : binary? op a b = some result) : ByValue result := by
  unfold binary? at rule
  cases op <;> dsimp only at rule
  case add | sub | mul | div | floorDiv | mod =>
    split at rule
    · exact byValue_sequence? rule
    · obtain ⟨numbers, -, rule⟩ := Option.bind_eq_some_iff.mp rule
      exact Numbers.byValue_arithmetic? rule
  case pow => exact byValue_power? rule
  case shiftLeft | shiftRight | bitAnd | bitOr | bitXor => exact byValue_bitwise? rule
  case and | or =>
    cases rule
    exact .ok _
  all_goals
    obtain ⟨answer, compared, rfl⟩ := Option.map_eq_some_iff.mp rule
    exact .map _ (byValue_comparison? compared)

/-! ### Types that have a rule -/

/-- A quotient of integers has a rule whatever the divisor is. -/
theorem isSome_quotient (m n : Int64) : (Integer.arithmetic? .div m n).isSome = true := by
  rw [Integer.arithmetic?]
  split <;> rfl

/-- A rule gives a result for the types of the table, and for no others. -/
theorem isSome_binary? (op : BinaryOp) (a b : Value) :
    (binary? op a b).isSome = op.takes a.kind b.kind := by
  cases op
  case div =>
    cases a <;> cases b <;> first
      | rfl
      | exact isSome_quotient _ _
  all_goals cases a <;> cases b <;> rfl

theorem binary_of_not_takes (other : op.takes a.kind b.kind = false) :
    a.binary op b = .error (.unsupportedOperands op a.kind b.kind) := by
  rw [← isSome_binary?, Option.isSome_eq_false_iff, Option.isNone_iff_eq_none] at other
  rw [binary, other]
  rfl

theorem byValue_of_takes (taken : op.takes a.kind b.kind = true) : ByValue (a.binary op b) := by
  rw [← isSome_binary?] at taken
  obtain ⟨result, rule⟩ := Option.isSome_iff_exists.mp taken
  rw [binary, rule]
  exact byValue_binary? rule

theorem eq_of_binary_error {fault : Fault} (failed : a.binary op b = .error fault) :
    op.takes a.kind b.kind = false ∧ fault = .unsupportedOperands op a.kind b.kind ∨
      op.takes a.kind b.kind = true ∧ fault.liesInValues = true := by
  cases taken : op.takes a.kind b.kind with
  | true => exact .inr ⟨rfl, byValue_of_takes taken fault failed⟩
  | false =>
    rw [binary_of_not_takes taken] at failed
    cases failed
    exact .inl ⟨rfl, rfl⟩

end Value

theorem Fault.eq_of_liesInValues {fault : Fault} (lies : fault.liesInValues = true) :
    fault = .divisionByZero ∨ fault = .overflow ∨ ∃ reason, fault = .invalidArgument reason := by
  cases fault with
  | divisionByZero => exact .inl rfl
  | overflow => exact .inr (.inl rfl)
  | invalidArgument reason => exact .inr (.inr ⟨reason, rfl⟩)
  | _ => cases lies

namespace EvalM

variable {α : Type} {line : Nat} {result : Except Fault α}

/-- The program refuses the types of two operands, whatever else it does or says. -/
def RefusesTypes (program : EvalM α) : Prop :=
  ∀ s, ∃ op left right line t, program s = .error (.error ⟨.unsupportedOperands op left right, line⟩) t

theorem eq_of_onLine_error {s t : Evaluator} {stop : Stop} (failed : onLine line result s = .error stop t) :
    t = s ∧ ∃ fault, result = .error fault ∧ stop = .error ⟨fault, line⟩ := by
  cases result with
  | ok a => cases failed
  | error fault =>
    cases failed
    exact ⟨rfl, fault, rfl, rfl⟩

theorem refusesTypes_onLine_iff : RefusesTypes (onLine line result) ↔
    ∃ op left right, result = .error (.unsupportedOperands op left right) := by
  constructor
  · intro refuses
    obtain ⟨op, left, right, line', t, failed⟩ := refuses Evaluator.start
    obtain ⟨-, fault, fails, same⟩ := eq_of_onLine_error failed
    cases same
    exact ⟨op, left, right, fails⟩
  · rintro ⟨op, left, right, rfl⟩ s
    exact ⟨op, left, right, line, s, rfl⟩

theorem refusesTypes_binary_iff {op : BinaryOp} {a b : Value} :
    RefusesTypes (onLine line (a.binary op b)) ↔ op.takes a.kind b.kind = false := by
  rw [refusesTypes_onLine_iff]
  constructor
  · rintro ⟨op', left, right, failed⟩
    rcases Value.eq_of_binary_error failed with ⟨other, -⟩ | ⟨-, lies⟩
    · exact other
    · cases lies
  · exact fun other => ⟨op, a.kind, b.kind, Value.binary_of_not_takes other⟩

end EvalM

open EvalM in
/-- Whether an operator takes its operands is decided by their types, as `BinaryOp.takes` has it. If it
does not, the error names the operator and the types of the left and of the right operand; every other
failure is over what the values are. Both stand on the line of the operator. -/
theorem operands_by_kind {op : BinaryOp} {a b a' b' : Value} (left : a'.kind = a.kind)
    (right : b'.kind = b.kind) (line : Nat) :
    (RefusesTypes (onLine line (a.binary op b)) ↔ RefusesTypes (onLine line (a'.binary op b'))) ∧
    (RefusesTypes (onLine line (a.binary op b)) ↔ op.takes a.kind b.kind = false) ∧
    ∀ s stop t, onLine line (a.binary op b) s = .error stop t → t = s ∧ ∃ e : RuntimeError,
      stop = .error e ∧ e.line = line ∧
      (e.fault = .unsupportedOperands op a.kind b.kind ∧ e.fault.text =
          s!"Unsupported operand type(s) for {op.spelling}: '{a.kind.name}' and '{b.kind.name}'." ∨
        e.fault = .divisionByZero ∨ e.fault = .overflow ∨
        ∃ reason, e.fault = .invalidArgument reason) := by
  refine ⟨?_, refusesTypes_binary_iff, fun s stop t failed => ?_⟩
  · rw [refusesTypes_binary_iff, refusesTypes_binary_iff, left, right]
  · obtain ⟨same, fault, fails, rfl⟩ := eq_of_onLine_error failed
    refine ⟨same, _, rfl, rfl, ?_⟩
    rcases Value.eq_of_binary_error fails with ⟨-, rfl⟩ | ⟨-, lies⟩
    · exact .inl ⟨rfl, rfl⟩
    · exact .inr (Fault.eq_of_liesInValues lies)

open EvalM in
/-- A byte value that is too large is no matter of types, but text in bytes is. -/
theorem operands_by_kind_of_membership :
    (Value.int 7).kind = (Value.int 300).kind ∧ (Value.str "a").kind = (Value.str "").kind ∧
    (Value.bytes [7]).kind = (Value.bytes []).kind ∧
    ¬ RefusesTypes (onLine 3 ((Value.int 300).binary .contained (.bytes []))) ∧
    RefusesTypes (onLine 3 ((Value.str "").binary .contained (.bytes []))) := by
  have number : (Value.int 7).kind = (Value.int 300).kind := rfl
  have text : (Value.str "a").kind = (Value.str "").kind := rfl
  have container : (Value.bytes [7]).kind = (Value.bytes []).kind := rfl
  have taken : RefusesTypes (onLine 3 ((Value.int 300).binary .contained (.bytes []))) ↔ _ :=
    (operands_by_kind number container 3).2.1
  have refused : RefusesTypes (onLine 3 ((Value.str "").binary .contained (.bytes []))) ↔ _ :=
    (operands_by_kind text container 3).2.1
  exact ⟨number, text, container, mt taken.mp (by decide), refused.mpr (by decide)⟩

end Offside
