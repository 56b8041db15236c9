import Mathlib.Data.Nat.Digits.Lemmas
import Offside.Lexer.Number

/-!
# Numerals

`Number.Spells` is the grammar of number literals with what they stand for. Reading digits gives the
number in positional notation (`natOf_eq`), and a numeral with a point or an exponent is read as a decimal
(`unsignedFloat?_eq`). `Number.convert` tells the forms apart by the letters that occur in the text, though
some of them are digits too, and gives what the numeral stands for (`Spells.convert_eq`).
-/

namespace Offside.Number

/-- The number of the digits in positional notation. -/
def positional (base : Nat) (digits : List Char) : Nat :=
  Nat.ofDigits base (digits.reverse.map Decimal.digitValue)

def AllDigits (digits : List Char) : Prop := ∀ c ∈ digits, c.isDigit = true

/-- Digits with at most one point among them, the number they spell without it, and how many of them
come after it. -/
inductive Significand : List Char → Nat → Nat → Prop
  | whole {digits} : digits ≠ [] → AllDigits digits → Significand digits (positional 10 digits) 0
  | pointed {before after} : before ++ after ≠ [] → AllDigits before → AllDigits after →
      Significand (before ++ '.' :: after) (positional 10 (before ++ after)) after.length

def IsExponentMark (c : Char) : Prop := c = 'e' ∨ c = 'E'

/-- A sign and the factor that it stands for. -/
inductive Sign : List Char → Int → Prop
  | none : Sign [] 1
  | plus : Sign ['+'] 1
  | minus : Sign ['-'] (-1)

/-- A power of ten behind a mark; without one it is the power zero. -/
inductive Exponent : List Char → Int → Prop
  | absent : Exponent [] 0
  | marked {mark sign factor digits} : IsExponentMark mark → Sign sign factor → digits ≠ [] →
      AllDigits digits → Exponent (mark :: (sign ++ digits)) (factor * positional 10 digits)

/-- What a numeral stands for. A decimal is `digits * 10 ^ exponent`. -/
inductive Meaning where
  | integer (n : Nat)
  | decimal (digits : Nat) (exponent : Int)
  | imaginary (digits : Nat) (exponent : Int)

def IsUnit (c : Char) : Prop := c = 'j' ∨ c = 'J'

/-- The numerals. Only an integer may not start with a zero, unless it has no other digits or its base is
marked. -/
inductive Spells : List Char → Meaning → Prop
  | integer {first digits} : first ≠ '0' → first.isDigit = true → AllDigits digits →
      Spells (first :: digits) (.integer (positional 10 (first :: digits)))
  | zeros (more : Nat) : Spells (List.replicate (more + 1) '0') (.integer 0)
  | marked {mark radix digits} : Radix.ofMark? mark = some radix → digits ≠ [] →
      (∀ c ∈ digits, Decimal.isDigit radix.base c = true) →
      Spells ('0' :: mark :: digits) (.integer (positional radix.base digits))
  | decimal {front tail digits places exponent} : Significand front digits places →
      Exponent tail exponent → ¬ AllDigits (front ++ tail) →
      Spells (front ++ tail) (.decimal digits (exponent - places))
  | imaginary {front tail unit digits places exponent} : Significand front digits places →
      Exponent tail exponent → IsUnit unit →
      Spells (front ++ tail ++ [unit]) (.imaginary digits (exponent - places))

/-- The value of a numeral. There is none for an integer that no word holds. -/
def Meaning.value? : Meaning → Option Value
  | .integer n => if n < 2 ^ 63 then some (.int (Int64.ofNat n)) else none
  | .decimal digits exponent => some (.float (Decimal.toFloat digits exponent))
  | .imaginary digits exponent => some (.complex ⟨0.0, Decimal.toFloat digits exponent⟩)

variable {c : Char} {chars digits front tail : List Char}

/-! ### Digits -/

theorem AllDigits.nil : AllDigits [] := fun _ member => absurd member List.not_mem_nil

theorem AllDigits.cons (digit : c.isDigit = true) (all : AllDigits digits) : AllDigits (c :: digits) := by
  intro d member
  rcases List.mem_cons.mp member with rfl | member
  · exact digit
  · exact all d member

theorem AllDigits.append {before after : List Char} (first : AllDigits before)
    (second : AllDigits after) : AllDigits (before ++ after) := fun c member =>
  (List.mem_append.mp member).elim (first c) (second c)

theorem natOf_concat (base : Nat) (digits : List Char) (c : Char) :
    Decimal.natOf base (digits ++ [c]) = base * Decimal.natOf base digits + Decimal.digitValue c :=
  List.foldl_concat ..

theorem natOf_eq (base : Nat) (digits : List Char) : Decimal.natOf base digits = positional base digits := by
  induction digits using List.reverseRecOn with
  | nil => rfl
  | append_singleton digits c ih =>
    rw [natOf_concat, ih, positional, positional, List.reverse_concat, List.map_cons, Nat.ofDigits_cons,
      Nat.add_comm]

theorem natOf_zeros (base count : Nat) : Decimal.natOf base (List.replicate count '0') = 0 := by
  induction count with
  | zero => rfl
  | succ count ih =>
    rw [List.replicate_succ', natOf_concat, ih]
    rfl

theorem takeWhile_digits (all : AllDigits digits) (stops : ∀ c ∈ tail.head?, c.isDigit = false) :
    (digits ++ tail).takeWhile Char.isDigit = digits ∧
      (digits ++ tail).dropWhile Char.isDigit = tail := by
  rw [List.takeWhile_append_of_pos all, List.dropWhile_append_of_pos all]
  cases tail with
  | nil => exact ⟨List.append_nil _, rfl⟩
  | cons c tail =>
    have stop : ¬ c.isDigit = true := by rw [stops c rfl]; decide
    rw [List.takeWhile_cons_of_neg stop, List.dropWhile_cons_of_neg stop]
    exact ⟨List.append_nil _, rfl⟩

/-! ### Decimals -/

theorem IsExponentMark.decide {mark : Char} (isMark : IsExponentMark mark) :
    (mark = 'e' || mark = 'E') = true := by
  simpa [IsExponentMark] using isMark

theorem splitSign_digits (all : AllDigits digits) : Decimal.splitSign digits = (false, digits) := by
  unfold Decimal.splitSign
  split
  · exact absurd (all '-' List.mem_cons_self) (by decide)
  · exact absurd (all '+' List.mem_cons_self) (by decide)
  · rfl

theorem Exponent.exponent?_eq {e : Int} (exponent : Exponent tail e) : Decimal.exponent? tail = some e := by
  cases exponent with
  | absent => rfl
  | @marked mark sign factor digits isMark hasSign nonempty all =>
    have split : Decimal.splitSign (sign ++ digits) = (decide (factor < 0), digits) := by
      cases hasSign with
      | none => exact splitSign_digits all
      | plus | minus => rfl
    have read : Decimal.exponent? (mark :: (sign ++ digits)) =
        some (if factor < 0 then -(positional 10 digits : Int) else positional 10 digits) := by
      simp only [Decimal.exponent?, split, isMark.decide, natOf_eq]
      simp [List.all_eq_true.mpr all, nonempty]
    rw [read]
    cases hasSign <;> simp

theorem Exponent.stops {e : Int} (exponent : Exponent tail e) :
    ∀ c ∈ tail.head?, c.isDigit = false ∧ c ≠ '.' := by
  have mark : ∀ {mark : Char}, IsExponentMark mark → mark.isDigit = false ∧ mark ≠ '.' := by
    rintro _ (rfl | rfl) <;> exact ⟨by decide, by decide⟩
  intro c head
  cases exponent with
  | absent => cases head
  | marked isMark =>
    cases head
    exact mark isMark

/-- A decimal is read as the number it spells. -/
theorem unsignedFloat?_eq {number places : Nat} {e : Int} (significand : Significand front number places)
    (exponent : Exponent tail e) :
    Decimal.unsignedFloat? (front ++ tail) = some (Decimal.toFloat number (e - places)) := by
  have stops : ∀ c ∈ tail.head?, c.isDigit = false := fun c head => (exponent.stops c head).1
  unfold Decimal.unsignedFloat?
  cases significand with
  | whole some all =>
    obtain ⟨digits, later⟩ := takeWhile_digits all stops
    rw [digits, later]
    dsimp only
    split
    · exact absurd rfl (exponent.stops '.' rfl).2
    · simp only [exponent.exponent?_eq, natOf_eq]
      simp [some]
  | @pointed before after some allBefore allAfter =>
    have point : ∀ c ∈ ('.' :: (after ++ tail)).head?, c.isDigit = false := by
      rintro c ⟨⟩
      decide
    obtain ⟨digits, later⟩ := takeWhile_digits allBefore point
    obtain ⟨places, rest⟩ := takeWhile_digits allAfter stops
    rw [List.append_assoc, List.cons_append, digits, later]
    simp only [places, rest, exponent.exponent?_eq, natOf_eq]
    have nonempty : (before.isEmpty && after.isEmpty) = false := by
      rw [← Bool.not_eq_true, Bool.and_eq_true, List.isEmpty_iff, List.isEmpty_iff]
      exact fun none => some (List.append_eq_nil_iff.mpr none)
    simp [nonempty]

/-! ### Integers -/

/-- What the characters come to, if they stand for this. -/
def Meaning.outcome (meaning : Meaning) (chars : List Char) (pos : Position) : Except LexError Value :=
  meaning.value?.elim (.error (.numberTooLarge (String.ofList chars) pos)) .ok

theorem integer_eq (chars : List Char) (pos : Position) (n : Nat) :
    Number.integer (String.ofList chars) pos n = (Meaning.integer n).outcome chars pos := by
  unfold Number.integer Meaning.outcome
  split
  · next small =>
    have held : (Meaning.integer n).value? = some (.int (Int64.ofNat n)) := if_pos small
    rw [held]
    rfl
  · next large =>
    have unheld : (Meaning.integer n).value? = none := if_neg large
    rw [unheld]
    rfl

/-! ### Lower case -/

theorem toNat_of_isDigit (digit : Decimal.isDigit 16 c = true) :
    48 ≤ c.toNat ∧ c.toNat ≤ 57 ∨ 65 ≤ c.toNat ∧ c.toNat ≤ 70 ∨ 97 ≤ c.toNat ∧ c.toNat ≤ 102 := by
  have between : ∀ {low high : Char}, c.val ≥ low.val ∧ c.val ≤ high.val →
      low.toNat ≤ c.toNat ∧ c.toNat ≤ high.toNat := fun range =>
    ⟨UInt32.le_iff_toNat_le.mp range.1, UInt32.le_iff_toNat_le.mp range.2⟩
  have bounds : '0'.toNat = 48 ∧ '9'.toNat = 57 ∧ 'A'.toNat = 65 ∧ 'Z'.toNat = 90 ∧ 'a'.toNat = 97 ∧
    'z'.toNat = 122 := by decide
  have decimal : c.isDigit = true → '0'.toNat ≤ c.toNat ∧ c.toNat ≤ '9'.toNat := fun digit =>
    between ((Bool.and_eq_true _ _).mp digit |>.imp of_decide_eq_true of_decide_eq_true)
  have lower : c.isLower = true → 'a'.toNat ≤ c.toNat ∧ c.toNat ≤ 'z'.toNat := fun lower =>
    between ((Bool.and_eq_true _ _).mp lower |>.imp of_decide_eq_true of_decide_eq_true)
  have upper : c.isUpper = true → 'A'.toNat ≤ c.toNat ∧ c.toNat ≤ 'Z'.toNat := fun upper =>
    between (of_decide_eq_true upper)
  obtain ⟨alphanum, small⟩ := (Bool.and_eq_true _ _).mp digit
  have small := of_decide_eq_true small
  rw [Decimal.digitValue] at small
  split at small
  · have range := decimal ‹_›
    omega
  · split at small
    · have range := lower ‹_›
      omega
    · have isUpper : c.isUpper = true := by
        rcases (Bool.or_eq_true _ _).mp alphanum with alpha | digit
        · exact ((Bool.or_eq_true _ _).mp alpha).resolve_right ‹_›
        · exact absurd digit ‹_›
      have range := upper isUpper
      omega

theorem mem_of_isDigit (digit : Decimal.isDigit 16 c = true) :
    c ∈ "0123456789abcdefABCDEF".toList := by
  have range := toNat_of_isDigit digit
  have spelled : c = Char.ofNat c.toNat := (Char.ofNat_toNat c).symm
  rw [spelled]
  generalize c.toNat = n at range
  rcases range with ⟨low, high⟩ | ⟨low, high⟩ | ⟨low, high⟩ <;> interval_cases n <;> decide

theorem toLower_of_isDigit (digit : c.isDigit = true) : c.toLower = c := by
  unfold Char.toLower
  split
  · next upper =>
    simp only [Char.isDigit, ge_iff_le, UInt32.le_iff_toNat_le, Bool.and_eq_true,
      decide_eq_true_eq] at digit upper
    have bounds : '9'.val.toNat = 57 ∧ 'A'.val.toNat = 65 := by decide
    omega
  · rfl

theorem AllDigits.lower (all : AllDigits digits) : digits.map Char.toLower = digits := by
  rw [List.map_congr_left fun c member => toLower_of_isDigit (all c member), List.map_id']

theorem lower_of_isDigit (digit : Decimal.isDigit 16 c = true) :
    Decimal.digitValue c.toLower = Decimal.digitValue c ∧ c.toLower ∉ ['j', 'x', 'o'] := by
  have all : "0123456789abcdefABCDEF".toList.all (fun c => decide
      (Decimal.digitValue c.toLower = Decimal.digitValue c ∧ c.toLower ∉ ['j', 'x', 'o'])) = true := by decide
  exact of_decide_eq_true (List.all_eq_true.mp all c (mem_of_isDigit digit))

theorem natOf_lower (base : Nat) (all : ∀ c ∈ digits, Decimal.isDigit 16 c = true) :
    Decimal.natOf base (digits.map Char.toLower) = Decimal.natOf base digits := by
  rw [natOf_eq, natOf_eq, positional, positional, ← List.map_reverse, List.map_map]
  exact congrArg (Nat.ofDigits base) (List.map_congr_left fun c member =>
    (lower_of_isDigit (all c (List.mem_reverse.mp member))).1)

theorem Significand.lower {number places : Nat} (significand : Significand front number places) :
    front.map Char.toLower = front := by
  cases significand with
  | whole _ all => exact all.lower
  | pointed _ allBefore allAfter =>
    rw [List.map_append, List.map_cons, allBefore.lower, allAfter.lower]
    rfl

theorem Sign.lower {sign : List Char} {factor : Int} (hasSign : Sign sign factor) :
    sign.map Char.toLower = sign := by
  cases hasSign <;> rfl

theorem Exponent.lower {e : Int} (exponent : Exponent tail e) : Exponent (tail.map Char.toLower) e := by
  have lowered : ∀ {mark : Char}, IsExponentMark mark → IsExponentMark mark.toLower := by
    rintro _ (rfl | rfl) <;> exact .inl rfl
  cases exponent with
  | absent => exact .absent
  | marked mark hasSign nonempty all =>
    rw [List.map_cons, List.map_append, hasSign.lower, all.lower]
    exact .marked (lowered mark) hasSign nonempty all

/-! ### Letters -/

theorem Significand.mem {number places : Nat} (significand : Significand front number places) :
    ∀ c ∈ front, c.isDigit = true ∨ c = '.' := by
  intro c member
  cases significand with
  | whole _ all => exact .inl (all c member)
  | pointed _ allBefore allAfter =>
    rcases List.mem_append.mp member with member | member
    · exact .inl (allBefore c member)
    · rcases List.mem_cons.mp member with point | member
      · exact .inr point
      · exact .inl (allAfter c member)

theorem Exponent.mem {e : Int} (exponent : Exponent tail e) :
    ∀ c ∈ tail, c.isDigit = true ∨ IsExponentMark c ∨ c = '+' ∨ c = '-' := by
  intro c member
  cases exponent with
  | absent => cases member
  | marked mark hasSign _ all =>
    rcases List.mem_cons.mp member with rfl | member
    · exact .inr (.inl mark)
    · rcases List.mem_append.mp member with member | member
      · cases hasSign with
        | none => cases member
        | plus => exact .inr (.inr (.inl (List.mem_singleton.mp member)))
        | minus => exact .inr (.inr (.inr (List.mem_singleton.mp member)))
      · exact .inl (all c member)

/-- A decimal has no letter that another form is told by. -/
theorem letters_of_decimal {number places : Nat} {e : Int} (significand : Significand front number places)
    (exponent : Exponent tail e) : ∀ c ∈ (front ++ tail).map Char.toLower, c ∉ ['j', 'x', 'o', 'b'] := by
  have digit : ∀ {c : Char}, c.isDigit = true → c.toLower ∉ ['j', 'x', 'o', 'b'] := by
    intro c digit letter
    rw [toLower_of_isDigit digit] at letter
    have letters : ['j', 'x', 'o', 'b'].all (!·.isDigit) = true := by decide
    have other := List.all_eq_true.mp letters c letter
    rw [digit] at other
    cases other
  intro _ lowered
  obtain ⟨c, member, rfl⟩ := List.mem_map.mp lowered
  rcases List.mem_append.mp member with member | member
  · rcases significand.mem c member with isDigit | rfl
    · exact digit isDigit
    · decide
  · rcases exponent.mem c member with isDigit | (rfl | rfl) | rfl | rfl
    · exact digit isDigit
    all_goals decide

/-! ### The text alone -/

/-- The base that a letter of a text in lower case marks. -/
def radixOf? (lowered : List Char) : Option Radix :=
  (['x', 'o', 'b'].find? lowered.contains).bind Radix.ofMark?

/-- The value by the text alone: the imaginary unit at its end, then a mark of a base anywhere in it,
then an exponent or a point. -/
def convert (chars : List Char) (pos : Position) : Except LexError Value :=
  let text := String.ofList chars
  let lowered := chars.map Char.toLower
  let float (chars : List Char) (make : Float → Value) :=
    match Decimal.unsignedFloat? chars with
    | some x => .ok (make x)
    | none => .error (.invalidNumber text pos)
  if lowered.getLast? = some 'j' then float lowered.dropLast fun x => .complex ⟨0.0, x⟩
  else match radixOf? lowered with
    | some radix => integer text pos (Decimal.natOf radix.base (lowered.drop 2))
    | none =>
      if lowered.contains 'e' || lowered.contains '.' then float lowered .float
      else integer text pos (Decimal.natOf 10 lowered)

theorem radixOf?_eq_none (letters : ∀ c ∈ chars, c ∉ ['j', 'x', 'o', 'b']) : radixOf? chars = none := by
  have absent : ['x', 'o', 'b'].find? chars.contains = none := by
    rw [List.find?_eq_none]
    intro c mark held
    exact letters c (List.contains_iff_mem.mp held) (List.mem_cons_of_mem _ mark)
  rw [radixOf?, absent]
  rfl

theorem getLast?_ne (letters : ∀ c ∈ chars, c ∉ ['j', 'x', 'o', 'b']) : chars.getLast? ≠ some 'j' :=
  fun last => letters 'j' (List.mem_of_getLast? last) List.mem_cons_self

theorem convert_digits (nonempty : digits ≠ []) (all : AllDigits digits) (pos : Position) :
    convert digits pos = integer (String.ofList digits) pos (Decimal.natOf 10 digits) := by
  have letters := letters_of_decimal (.whole nonempty all) .absent
  have foreign : ∀ c, c.isDigit = false → digits.contains c = false := by
    intro c other
    rw [← Bool.not_eq_true, List.contains_iff_mem]
    intro member
    rw [all c member] at other
    cases other
  rw [List.append_nil, all.lower] at letters
  unfold convert
  simp only [all.lower, if_neg (getLast?_ne letters), radixOf?_eq_none letters, foreign 'e' (by decide),
    foreign '.' (by decide)]
  rfl

/-- Without an exponent there is a point. -/
theorem told_of_decimal {number places : Nat} {e : Int} (significand : Significand front number places)
    (exponent : Exponent tail e) (other : ¬ AllDigits (front ++ tail)) :
    'e' ∈ (front ++ tail).map Char.toLower ∨ '.' ∈ (front ++ tail).map Char.toLower := by
  have marked : ∀ {mark : Char} {later : List Char}, IsExponentMark mark →
      'e' ∈ (front ++ mark :: later).map Char.toLower := by
    intro mark later isMark
    refine List.mem_map.mpr ⟨mark, List.mem_append_right _ List.mem_cons_self, ?_⟩
    rcases isMark with rfl | rfl <;> rfl
  cases significand with
  | whole _ all =>
    cases exponent with
    | absent => exact absurd (by rwa [List.append_nil]) other
    | marked mark => exact .inl (marked mark)
  | pointed =>
    refine .inr (List.mem_map.mpr ⟨'.', ?_, rfl⟩)
    exact List.mem_append_left _ (List.mem_append_right _ List.mem_cons_self)

theorem convert_decimal {number places : Nat} {e : Int} (significand : Significand front number places)
    (exponent : Exponent tail e) (other : ¬ AllDigits (front ++ tail)) (pos : Position) :
    convert (front ++ tail) pos = .ok (.float (Decimal.toFloat number (e - places))) := by
  have letters := letters_of_decimal significand exponent
  have told : (((front ++ tail).map Char.toLower).contains 'e' ||
      ((front ++ tail).map Char.toLower).contains '.') = true := by
    rw [Bool.or_eq_true, List.contains_iff_mem, List.contains_iff_mem]
    exact told_of_decimal significand exponent other
  have read := unsignedFloat?_eq significand exponent.lower
  unfold convert
  simp only [if_neg (getLast?_ne letters), radixOf?_eq_none letters, told]
  rw [List.map_append, significand.lower]
  simp only [read, if_true]

theorem convert_imaginary {number places : Nat} {e : Int} {unit : Char}
    (significand : Significand front number places) (exponent : Exponent tail e) (isUnit : IsUnit unit)
    (pos : Position) : convert (front ++ tail ++ [unit]) pos =
      .ok (.complex ⟨0.0, Decimal.toFloat number (e - places)⟩) := by
  have lowered : (front ++ tail ++ [unit]).map Char.toLower = front ++ tail.map Char.toLower ++ ['j'] := by
    rw [List.map_append, List.map_append, significand.lower]
    rcases isUnit with rfl | rfl <;> rfl
  have read := unsignedFloat?_eq significand exponent.lower
  unfold convert
  simp only [lowered, List.getLast?_concat, List.dropLast_concat, read, if_true]

theorem radixOf?_marked {mark : Char} {radix : Radix} (marks : Radix.ofMark? mark = some radix)
    (noX : 'x' ∉ digits) (noO : 'o' ∉ digits) : radixOf? ('0' :: mark.toLower :: digits) = some radix := by
  unfold Radix.ofMark? at marks
  split at marks <;> cases marks <;> simp [radixOf?, noX, noO, Radix.ofMark?]

theorem convert_marked {mark : Char} {radix : Radix} (marks : Radix.ofMark? mark = some radix)
    (nonempty : digits ≠ []) (all : ∀ c ∈ digits, Decimal.isDigit radix.base c = true) (pos : Position) :
    convert ('0' :: mark :: digits) pos =
      integer (String.ofList ('0' :: mark :: digits)) pos (Decimal.natOf radix.base digits) := by
  have hex : ∀ c ∈ digits, Decimal.isDigit 16 c = true := by
    intro c member
    have small := all c member
    simp only [Decimal.isDigit, Bool.and_eq_true, decide_eq_true_eq] at small ⊢
    have base : radix.base ≤ 16 := by cases radix <;> decide
    exact ⟨small.1, by omega⟩
  have letters : ∀ c ∈ digits.map Char.toLower, c ∉ ['j', 'x', 'o'] := by
    intro _ lowered
    obtain ⟨c, member, rfl⟩ := List.mem_map.mp lowered
    exact (lower_of_isDigit (hex c member)).2
  have last : (('0' :: mark :: digits).map Char.toLower).getLast? ≠ some 'j' := by
    show (['0', mark].map Char.toLower ++ digits.map Char.toLower).getLast? ≠ _
    rw [List.getLast?_append_of_ne_nil _ (by simpa using nonempty)]
    exact fun last => letters 'j' (List.mem_of_getLast? last) (by decide)
  have foreign : ∀ c ∈ ['x', 'o'], c ∉ digits.map Char.toLower := fun c letter member =>
    letters c member (List.mem_cons_of_mem _ letter)
  have found : radixOf? (('0' :: mark :: digits).map Char.toLower) = some radix :=
    radixOf?_marked marks (foreign 'x' (by decide)) (foreign 'o' (by decide))
  unfold convert
  simp only [if_neg last, found]
  rw [List.map_cons, List.map_cons]
  show integer _ pos (Decimal.natOf radix.base (digits.map Char.toLower)) = _
  rw [natOf_lower radix.base hex]

/-- The text of a numeral alone decides what it comes to. -/
theorem Spells.convert_eq {meaning : Meaning} (spells : Spells chars meaning) (pos : Position) :
    convert chars pos = meaning.outcome chars pos := by
  cases spells with
  | @integer first digits nonzero digit all =>
    rw [convert_digits (List.cons_ne_nil _ _) (.cons digit all), natOf_eq, integer_eq]
  | zeros more =>
    have all : AllDigits (List.replicate (more + 1) '0') := fun c member =>
      List.eq_of_mem_replicate member ▸ rfl
    rw [convert_digits (by simp) all, natOf_zeros, integer_eq]
  | marked marks nonempty all => rw [convert_marked marks nonempty all, natOf_eq, integer_eq]
  | decimal significand exponent other => exact convert_decimal significand exponent other pos
  | imaginary significand exponent unit => exact convert_imaginary significand exponent unit pos

end Offside.Number
