import Offside.Decimal.Layout
import Offside.Proofs.Lexing.Numbers
import Offside.Proofs.Lexing.Repr
import Offside.Proofs.Values.Decimals

/-!
# The text of a float as a source

A numeral is a lexeme, whatever it stands for (`isLexeme_numeral`). The text of a positive float is a
numeral with a point or an exponent, in each of the forms it is laid out in, and it spells the number that
the shortest digits of the float do. So it is read as one token with that float: `tokenize_float`.
-/

namespace Offside

/-! ### Numerals as lexemes -/

namespace Number

variable {chars : List Char} {state final : State}

theorem Significand.starts {number places : Nat} (significand : Significand chars number places)
    (later : List Char) : ∃ d rest, d.isDigit = true ∧
      (chars ++ later = d :: rest ∨ chars ++ later = '.' :: d :: rest) := by
  cases significand with
  | whole nonempty all =>
    obtain ⟨d, rest, rfl⟩ := List.exists_cons_of_ne_nil nonempty
    exact ⟨d, rest ++ later, all d List.mem_cons_self, .inl rfl⟩
  | @pointed before after some allBefore allAfter =>
    cases before with
    | cons d before =>
      exact ⟨d, _, allBefore d List.mem_cons_self, .inl rfl⟩
    | nil =>
      obtain ⟨d, rest, rfl⟩ := List.exists_cons_of_ne_nil some
      exact ⟨d, rest ++ later, allAfter d List.mem_cons_self, .inr rfl⟩

theorem Spells.starts {meaning : Meaning} (spells : Spells chars meaning) :
    ∃ d rest, d.isDigit = true ∧ (chars = d :: rest ∨ chars = '.' :: d :: rest) := by
  cases spells with
  | integer _ digit => exact ⟨_, _, digit, .inl rfl⟩
  | zeros more => exact ⟨'0', _, rfl, .inl rfl⟩
  | marked => exact ⟨'0', _, rfl, .inl rfl⟩
  | decimal significand => exact significand.starts _
  | imaginary significand =>
    rw [List.append_assoc]
    exact significand.starts _

/-- The characters are followed to their end where a blank comes after them. -/
theorem follow_of_run (ran : run state chars = some final) {follow : List Char}
    (blank : StartsBlank follow) : Number.follow state (chars ++ follow) = (chars, final) := by
  induction chars generalizing state with
  | nil =>
    cases ran
    obtain ⟨c, later, rfl, blank⟩ := blank
    exact follow_stop (step_blank _ blank)
  | cons c chars ih =>
    rw [run_cons, Option.bind_eq_some_iff] at ran
    obtain ⟨next, more, ran⟩ := ran
    rw [List.cons_append, follow_step more, ih ran]

theorem not_mem_of_run {c : Char} (foreign : ∀ current, step current c = none)
    (ran : run state chars = some final) : c ∉ chars := by
  induction chars generalizing state with
  | nil => exact List.not_mem_nil
  | cons d chars ih =>
    rw [run_cons, Option.bind_eq_some_iff] at ran
    obtain ⟨next, more, ran⟩ := ran
    rw [List.mem_cons, not_or]
    refine ⟨?_, ih ran⟩
    rintro rfl
    rw [foreign state] at more
    cases more

theorem step_return (state : State) : step state '\r' = none := by
  cases state with
  | radixMark radix | radixDigits radix => cases radix <;> decide
  | _ => decide

end Number

open Number in
theorem Token.isWord_numeral {text : String} {meaning : Meaning} {v : Value}
    (spells : Spells text.toList meaning) (held : meaning.value? = some v) (pos : Position) :
    IsWord { kind := .number v, text, pos } := by
  obtain ⟨state, ran, -, outcome⟩ := spells.value_eq
  obtain ⟨d, rest, digit, split⟩ := spells.starts
  refine ⟨⟨?_, not_mem_of_run (fun state => step_blank state (.inr rfl)) ran, .inl rfl, ?_⟩, ?_,
    not_mem_of_run step_return ran⟩
  · rintro none
    rcases split with split | split <;> cases none.symm.trans split
  · intro pos follow blank
    have continued : text.toList ++ follow = d :: (rest ++ follow) ∨
        text.toList ++ follow = '.' :: d :: (rest ++ follow) := by
      rcases split with split | split
      · exact .inl (by rw [split, List.cons_append])
      · exact .inr (by rw [split, List.cons_append, List.cons_append])
    obtain ⟨read, starts⟩ := Lexer.literal?_number digit continued pos
    refine Lexer.lexeme?_of_literal? (read.trans ?_)
    rw [Number.read?, if_pos starts, follow_of_run ran blank]
    simp only [outcome pos, Meaning.outcome, held]
    rfl
  · rcases split with split | split
    · exact ⟨d, rest, split, Lexer.startsSpelling_of digit (by decide)⟩
    · exact ⟨'.', d :: rest, split, by unfold StartsSpelling; decide⟩

/-! ### The forms of a text -/

namespace Number

variable {digits : List Char}

theorem positional_append (base : Nat) (first second : List Char) :
    positional base (first ++ second) =
      positional base first * base ^ second.length + positional base second := by
  rw [positional, List.reverse_append, List.map_append, Nat.ofDigits_append, List.length_map,
    List.length_reverse, positional, positional, add_comm, mul_comm]

theorem positional_zeros (count : Nat) : positional 10 (Decimal.zeros count) = 0 := by
  rw [← natOf_eq]
  exact natOf_zeros 10 count

theorem AllDigits.zeros (count : Nat) : AllDigits (Decimal.zeros count) := by
  intro c member
  rw [List.eq_of_mem_replicate member]
  rfl

theorem AllDigits.sublist {some all : List Char} (h : AllDigits all) (part : some.Sublist all) :
    AllDigits some := fun c member => h c (part.subset member)

theorem Spells.pointed (before after : List Char) (some : before ++ after ≠ [])
    (allBefore : AllDigits before) (allAfter : AllDigits after) :
    Spells (before ++ '.' :: after) (.decimal (positional 10 (before ++ after)) (-after.length)) := by
  have marked : ¬ AllDigits (before ++ '.' :: after ++ []) := fun all =>
    absurd (all '.' (by simp)) (by decide)
  have spells := Spells.decimal (.pointed some allBefore allAfter) .absent marked
  rwa [List.append_nil, zero_sub] at spells

/-- The text is a numeral that spells the number. -/
def SpellsOut (text : List Char) (v : ℚ) : Prop :=
  ∃ number exponent, Spells text (.decimal number exponent) ∧ (number : ℚ) * 10 ^ exponent = v

theorem positional_zeros_append (count : Nat) (digits : List Char) :
    positional 10 (Decimal.zeros count ++ digits) = positional 10 digits := by
  rw [positional_append, positional_zeros, zero_mul, zero_add]

theorem positional_append_zeros (digits : List Char) (count : Nat) :
    positional 10 (digits ++ Decimal.zeros count) = positional 10 digits * 10 ^ count := by
  rw [positional_append, positional_zeros, add_zero, Decimal.zeros, List.length_replicate]

/-- With the point before, behind or among them, the digits spell the same number. -/
theorem spellsOut_positional (nonempty : digits ≠ []) (all : AllDigits digits) (point : Int) :
    SpellsOut (Decimal.positional .printed digits point)
      (positional 10 digits * 10 ^ (point - digits.length)) := by
  have zero : ['0'] = Decimal.zeros 1 := rfl
  rw [Decimal.positional]
  split
  · -- Zeros come between the point and the digits.
    have spells := Spells.pointed ['0'] _ (List.cons_ne_nil _ _) (.cons rfl .nil)
      ((AllDigits.zeros (-point).toNat).append all)
    refine ⟨_, _, spells, ?_⟩
    rw [zero, positional_zeros_append, positional_zeros_append, List.length_append, Decimal.zeros,
      List.length_replicate]
    congr 2
    omega
  split
  · -- Zeros come between the digits and the point.
    have spells := Spells.pointed _ ['0']
      (List.append_ne_nil_of_right_ne_nil _ (List.cons_ne_nil _ _))
      (all.append (.zeros (point.toNat - digits.length))) (.cons rfl .nil)
    refine ⟨_, _, spells, ?_⟩
    have places : point - digits.length = ((point.toNat - digits.length + 1 : Nat) : Int) + -1 := by
      omega
    have whole : positional 10 (digits ++ Decimal.zeros (point.toNat - digits.length) ++ ['0']) =
        positional 10 digits * 10 ^ (point.toNat - digits.length + 1) := by
      rw [zero, positional_append_zeros, positional_append_zeros, mul_assoc, ← pow_add]
    rw [whole, places, zpow_add₀ (by norm_num), zpow_natCast]
    push_cast
    exact mul_assoc _ _ _
  · have spells := Spells.pointed _ _ (by rwa [List.take_append_drop])
      (all.sublist (List.take_sublist point.toNat digits))
      (all.sublist (List.drop_sublist point.toNat digits))
    refine ⟨_, _, spells, ?_⟩
    rw [List.take_append_drop, List.length_drop]
    congr 2
    omega

/-- An exponent with its sign, and with a zero in front if it has one digit. -/
theorem exponent_wide (exponent : Int) :
    Exponent ('e' :: ((if exponent < 0 then ['-'] else ['+']) ++
      (Nat.toDigits 10 exponent.natAbs).leftpad 2 '0')) exponent := by
  have digits : AllDigits ((Nat.toDigits 10 exponent.natAbs).leftpad 2 '0') :=
    (AllDigits.zeros _).append (isDigit_toDigits _)
  have some : (Nat.toDigits 10 exponent.natAbs).leftpad 2 '0' ≠ [] :=
    List.append_ne_nil_of_right_ne_nil _ Nat.toDigits_ne_nil
  have value : positional 10 ((Nat.toDigits 10 exponent.natAbs).leftpad 2 '0') = exponent.natAbs := by
    refine (positional_zeros_append _ _).trans ?_
    rw [← natOf_eq, natOf_toDigits]
  split
  · next negative =>
    have marked := Exponent.marked (.inl rfl) .minus some digits
    rwa [value, show -1 * (exponent.natAbs : Int) = exponent by omega] at marked
  · next nonneg =>
    have marked := Exponent.marked (.inl rfl) .plus some digits
    rwa [value, show 1 * (exponent.natAbs : Int) = exponent by omega] at marked

/-- With the point after the first of them, the digits and a power of ten spell the same number. -/
theorem spellsOut_scientific (nonempty : digits ≠ []) (all : AllDigits digits) (exponent : Int) :
    SpellsOut (Decimal.scientific .printed digits exponent)
      (positional 10 digits * 10 ^ (exponent - (digits.length - 1))) := by
  let tail := 'e' :: ((if exponent < 0 then ['-'] else ['+']) ++
    (Nat.toDigits 10 exponent.natAbs).leftpad 2 '0')
  have power : Exponent tail exponent := exponent_wide exponent
  have marked : ∀ front : List Char, ¬ AllDigits (front ++ tail) := fun front all =>
    absurd (all 'e' (List.mem_append_right _ List.mem_cons_self)) (by decide)
  match digits, nonempty, all with
  | [digit], _, all =>
    have text : Decimal.scientific .printed [digit] exponent = [digit] ++ tail := List.append_assoc ..
    have front : Significand [digit] _ _ := .whole (List.cons_ne_nil _ _) all
    rw [text]
    refine ⟨_, _, .decimal front power (marked _), ?_⟩
    simp
  | first :: second :: rest, _, all =>
    have text : Decimal.scientific .printed (first :: second :: rest) exponent =
        ([first] ++ '.' :: second :: rest) ++ tail := List.append_assoc ..
    have front : Significand ([first] ++ '.' :: second :: rest) _ _ :=
      .pointed (List.cons_ne_nil _ _) (all.sublist (by simp)) (all.sublist (by simp))
    rw [text]
    refine ⟨_, _, .decimal front power (marked _), ?_⟩
    simp

end Number

/-! ### The text of a float -/

namespace Decimal

open Float.Model Number

variable {x : Float} {m : Nat} {e : Int} {positive : 0 < m}

/-- A text ends in the zeros that it is freed of. -/
theorem exists_zeros (spelled : List Char) : ∃ count,
    spelled = (spelled.reverse.dropWhile (· = '0')).reverse ++ zeros count := by
  have zero : ∀ c ∈ spelled.reverse.takeWhile (· = '0'), c = '0' := fun c member => by
    simpa using List.mem_takeWhile_imp member
  refine ⟨(spelled.reverse.takeWhile (· = '0')).length, ?_⟩
  have split := congrArg List.reverse
    (List.takeWhile_append_dropWhile (p := (· = '0')) (l := spelled.reverse))
  rw [List.reverse_append, List.reverse_reverse, List.eq_replicate_of_mem zero, List.reverse_replicate]
    at split
  exact split.symm

theorem magnitude_positive (unpacked : x.toModel.unpack = .finite .positive m e positive) :
    Layout.printed.magnitude x =
      let spelled := Nat.toDigits 10 (shortest x).digits
      let digits := (spelled.reverse.dropWhile (· = '0')).reverse
      let exponent := (shortest x).exponent + spelled.length - 1
      if -4 ≤ exponent && exponent < 16 then positional .printed digits (exponent + 1)
      else scientific .printed digits exponent := by
  have nonzero : ¬ (x == 0.0) = true := fun same => by
    have zero : (0.0 : Float).toModel.unpack = .zero .positive := by rfl
    rw [← eq_of_beq_positive unpacked (BEq.symm same), zero] at unpacked
    cases unpacked
  rw [Layout.magnitude, if_neg nonzero]

/-- A positive float is written as the number that its shortest digits spell. -/
theorem spellsOut_magnitude (unpacked : x.toModel.unpack = .finite .positive m e positive) :
    SpellsOut (Layout.printed.magnitude x) ((shortest x).digits * 10 ^ (shortest x).exponent) := by
  obtain ⟨-, some⟩ := toFloat_shortest unpacked
  rw [magnitude_positive unpacked]
  generalize shortest x = s at some
  obtain ⟨count, split⟩ := exists_zeros (Nat.toDigits 10 s.digits)
  have all := isDigit_toDigits s.digits
  have value := natOf_toDigits s.digits
  obtain ⟨first, rest, starts, nonzero⟩ := head_toDigits some
  dsimp only
  generalize Nat.toDigits 10 s.digits = spelled at split all value starts
  generalize (spelled.reverse.dropWhile (· = '0')).reverse = digits at split
  subst split
  rw [natOf_eq, positional_append_zeros] at value
  have nonempty : digits ≠ [] := by
    rintro rfl
    cases count with
    | zero => cases starts
    | succ count => exact nonzero (List.cons.inj starts).1.symm
  have digit : AllDigits digits := fun c member => all c (List.mem_append_left _ member)
  have same : ∀ power : Int, power = s.exponent + count →
      (s.digits : ℚ) * 10 ^ s.exponent = Number.positional 10 digits * 10 ^ power := by
    rintro power rfl
    rw [← value, zpow_add₀ (by norm_num), zpow_natCast]
    push_cast
    ring
  rw [List.length_append, show (zeros count).length = count from List.length_replicate]
  split
  · rw [same (s.exponent + (digits.length + count : Nat) - 1 + 1 - digits.length) (by omega)]
    exact spellsOut_positional nonempty digit _
  · rw [same (s.exponent + (digits.length + count : Nat) - 1 - (digits.length - 1)) (by omega)]
    exact spellsOut_scientific nonempty digit _

/-- The text of a finite float without a sign is a numeral for it. -/
theorem spells_magnitude (finite : x.isFinite = true) (plain : Binary64.isNegative x = false) :
    ∃ number exponent, Spells (Layout.printed.magnitude x) (.decimal number exponent) ∧
      toFloat number exponent = x := by
  cases unpacked : x.toModel.unpack with
  | notANumber | infinity =>
    have finite : x.toModel.unpack.isFinite = true := finite
    rw [unpacked] at finite
    cases finite
  | zero s =>
    cases s with
    | negative =>
      rw [Binary64.isNegative, unpacked] at plain
      cases plain
    | positive =>
      obtain rfl : x = 0.0 := by
        rw [← ofUnpacked_unpack x, unpacked]
        rfl
      have zero : ((0.0 : Float) == 0.0) = true := by rfl
      have text : Layout.printed.magnitude 0.0 = ['0'] ++ '.' :: ['0'] := if_pos zero
      rw [text]
      exact ⟨_, _, .pointed _ _ (List.cons_ne_nil _ _) (.cons rfl .nil) (.cons rfl .nil),
        if_pos (.inl rfl)⟩
  | finite s m e positive =>
    cases s with
    | negative =>
      rw [Binary64.isNegative, unpacked] at plain
      cases plain
    | positive =>
      obtain ⟨number, exponent, spells, same⟩ := spellsOut_magnitude unpacked
      exact ⟨number, exponent, spells, (toFloat_congr same).trans (toFloat_shortest unpacked).1⟩

/-! ### Signs -/

theorem isNegative_abs (x : Float) : Binary64.isNegative x.abs = false := by
  rw [Binary64.isNegative, unpack_abs]
  cases x.toModel.unpack <;> rfl

theorem abs_of_plain (plain : Binary64.isNegative x = false) : x.abs = x := by
  have same : x.toModel.unpack.abs = x.toModel.unpack := by
    rw [Binary64.isNegative] at plain
    cases known : x.toModel.unpack with
    | notANumber => rfl
    | infinity s | zero s | finite s =>
      rw [known] at plain
      cases s with
      | negative => cases plain
      | positive => rfl
  rw [← ofUnpacked_unpack x.abs, unpack_abs, same, ofUnpacked_unpack]

theorem isFinite_abs (finite : x.isFinite = true) : x.abs.isFinite = true := by
  have finite : x.toModel.unpack.isFinite = true := finite
  show x.abs.toModel.unpack.isFinite = true
  rw [unpack_abs]
  cases known : x.toModel.unpack with
  | notANumber | infinity =>
    rw [known] at finite
    cases finite
  | zero | finite => rfl

theorem write_finite (finite : x.isFinite = true) : Layout.printed.write x =
    String.ofList (if Binary64.isNegative x then '-' :: Layout.printed.magnitude x.abs
      else Layout.printed.magnitude x.abs) := by
  have finite : x.toModel.unpack.isFinite = true := finite
  have number : ¬ x.isNaN = true := by
    show ¬ x.toModel.unpack.isNaN = true
    cases known : x.toModel.unpack with
    | notANumber =>
      rw [known] at finite
      cases finite
    | _ => exact nofun
  have inside : ¬ x.isInf = true := by
    show ¬ x.toModel.unpack.isInf = true
    cases known : x.toModel.unpack with
    | infinity =>
      rw [known] at finite
      cases finite
    | _ => exact nofun
  rw [Layout.write, if_neg number, if_neg inside]

end Decimal

open Decimal in
/-- The text of a finite float with a plus sign is read as one number, which is the float. With a minus
sign it is a minus and the text of the magnitude. -/
theorem tokenize_float {x : Float} (finite : x.isFinite = true) (tabSize : UInt64) :
    (Binary64.isNegative x = false → ∃ tokens,
      tokenize (Layout.printed.write x) tabSize = .ok tokens ∧
      tokens.map Token.content =
        [(.number (.float x), Layout.printed.write x), (.newline, "\n"), (.endMarker, "")]) ∧
    (Binary64.isNegative x = true →
      Layout.printed.write x = "-" ++ Layout.printed.write x.abs) := by
  constructor
  · intro plain
    have text : (Layout.printed.write x).toList = Layout.printed.magnitude x := by
      rw [write_finite finite, plain, abs_of_plain plain, String.toList_ofList]
      rfl
    obtain ⟨number, exponent, spells, same⟩ := spells_magnitude finite plain
    rw [← text] at spells
    have held : (Number.Meaning.decimal number exponent).value? = some (.float x) := by
      rw [Number.Meaning.value?, same]
    exact tokenize_word (Token.isWord_numeral spells held ⟨1, 1⟩) rfl tabSize
  · intro minus
    rw [write_finite finite, write_finite (isFinite_abs finite), minus, isNegative_abs,
      abs_of_plain (isNegative_abs x)]
    exact @String.ofList_append ['-'] _

/-- A small number is written with an exponent, and zero keeps its sign. -/
theorem tokenize_float_small : (1.5e-5 : Float).isFinite = true ∧
    (∃ tokens, tokenize "1.5e-05" 8 = .ok tokens ∧ tokens.map Token.content =
      [(.number (.float 1.5e-5), "1.5e-05"), (.newline, "\n"), (.endMarker, "")]) ∧
    Decimal.Layout.printed.write (-0.0) = "-0.0" := by
  have finite : (1.5e-5 : Float).isFinite = true := by decide
  have plain : Binary64.isNegative 1.5e-5 = false := by decide
  have text : Decimal.Layout.printed.write 1.5e-5 = "1.5e-05" := by decide
  have zero : Decimal.Layout.printed.write (-0.0 : Float).abs = "0.0" := by decide
  have read := (tokenize_float finite 8).1 plain
  rw [text] at read
  refine ⟨finite, read, ?_⟩
  rw [(tokenize_float (x := -0.0) (by decide) 8).2 (by decide), zero]
  rfl

end Offside
