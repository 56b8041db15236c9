import Mathlib.Data.List.DropRight
import Offside.Proofs.Lexing.Numerals
import Offside.Proofs.Lexing.Spelling
import Offside.Proofs.Values.Integers

/-!
# Integers from text

`Number.SpellsInteger` is the grammar of the texts that `int` takes, with the integer that each spells: blanks
around an optional sign and groups of digits. The text is cut down to what it spells in steps, and each step
follows the grammar: the blanks at both ends (`Text.trim_padded`), the sign, the test of the digits
(`Number.isGrouped_iff`) and the underscores that are dropped (`Number.Grouped.filter_eq`).
-/

namespace Offside

/-! ### Blanks around a text -/

namespace Text

/-- The text begins and ends with a character that is no blank. -/
def Bare (text : List Char) : Prop :=
  (∃ c ∈ text.head?, isBlank c = false) ∧ ∃ c ∈ text.getLast?, isBlank c = false

variable {before text after : List Char}

theorem trim_padded (left : before.all isBlank = true) (bare : Bare text) (right : after.all isBlank = true) :
    trim (before ++ text ++ after) = text := by
  obtain ⟨⟨first, head, starts⟩, last, tail, ends⟩ := bare
  obtain ⟨rest, rfl⟩ := List.head?_eq_some_iff.mp head
  have front : (before ++ (first :: rest) ++ after).dropWhile isBlank = first :: rest ++ after := by
    rw [List.append_assoc, List.dropWhile_append_of_pos (List.all_eq_true.mp left), List.cons_append,
      List.dropWhile_cons_of_neg (by rw [starts]; decide)]
  obtain ⟨rest', same⟩ := List.getLast?_eq_some_iff.mp tail
  rw [trim, front, same, List.reverse_append, List.reverse_concat, List.dropWhile_append_of_pos,
    List.dropWhile_cons_of_neg (by rw [ends]; decide), List.reverse_cons, List.reverse_reverse]
  simpa using right

/-- A text is what is left of it with blanks around. -/
theorem exists_padding (text : List Char) : ∃ before after : List Char, before.all isBlank = true ∧
    after.all isBlank = true ∧ text = before ++ trim text ++ after := by
  refine ⟨text.takeWhile isBlank, (text.dropWhile isBlank).rtakeWhile isBlank, ?_, ?_, ?_⟩
  · exact List.all_takeWhile
  · rw [List.rtakeWhile, List.all_reverse]
    exact List.all_takeWhile
  · have right : trim text ++ (text.dropWhile isBlank).rtakeWhile isBlank = text.dropWhile isBlank :=
      List.rdropWhile_append_rtakeWhile ..
    rw [List.append_assoc, right, List.takeWhile_append_dropWhile]

theorem isBlank_of_isDigit {c : Char} (digit : c.isDigit = true) : isBlank c = false := by
  have range := toNat_of_isDigit digit
  have space : c ≠ ' ' := by
    rintro rfl
    exact absurd range (by decide)
  rw [isBlank, if_pos (by omega), decide_eq_false space, decide_eq_true (by omega), Bool.true_and,
    Bool.false_or]
  exact decide_eq_false (by omega)

end Text

namespace Number

open Text

variable {c : Char} {chars digits core text : List Char} {z : Int}

/-! ### Grouped digits -/

/-- Groups of digits with an underscore between two, and the digits of all of them. -/
inductive Grouped : List Char → List Char → Prop
  | single {digits : List Char} : digits ≠ [] → AllDigits digits → Grouped digits digits
  | more {group chars digits : List Char} : group ≠ [] → AllDigits group → Grouped chars digits →
      Grouped (group ++ '_' :: chars) (group ++ digits)

namespace Grouped

theorem cons (digit : c.isDigit = true) (grouped : Grouped chars digits) :
    Grouped (c :: chars) (c :: digits) := by
  cases grouped with
  | single nonempty all => exact .single (List.cons_ne_nil _ _) (.cons digit all)
  | more nonempty all rest => exact .more (List.cons_ne_nil _ _) (.cons digit all) rest

/-- Another group before the first. -/
theorem before (digit : c.isDigit = true) (grouped : Grouped chars digits) :
    Grouped (c :: '_' :: chars) (c :: digits) :=
  .more (List.cons_ne_nil c []) (.cons digit .nil) grouped

theorem filter_eq (grouped : Grouped chars digits) : chars.filter (· ≠ '_') = digits := by
  have block : ∀ {group : List Char}, AllDigits group → group.filter (· ≠ '_') = group := fun all =>
    List.filter_eq_self.mpr fun c member => decide_eq_true <| by
      rintro rfl
      exact absurd (all '_' member) (by decide)
  induction grouped with
  | single nonempty all => exact block all
  | @more group chars digits nonempty all rest ih =>
    rw [List.filter_append, block all, List.filter_cons_of_neg (by decide), ih]

theorem head_isDigit (grouped : Grouped chars digits) : ∃ c ∈ chars.head?, c.isDigit = true := by
  cases grouped with
  | single nonempty all | more nonempty all =>
    obtain ⟨c, rest, rfl⟩ := List.exists_cons_of_ne_nil nonempty
    exact ⟨c, rfl, all c List.mem_cons_self⟩

theorem last_isDigit (grouped : Grouped chars digits) : ∃ c ∈ chars.getLast?, c.isDigit = true := by
  induction grouped with
  | @single digits nonempty all =>
    exact ⟨_, List.getLast?_eq_some_getLast nonempty, all _ (List.getLast_mem nonempty)⟩
  | more _ _ _ ih =>
    obtain ⟨c, last, digit⟩ := ih
    refine ⟨c, ?_, digit⟩
    rw [List.getLast?_append, List.getLast?_cons, Option.mem_def.mp last]
    rfl

/-- Behind the first digit the text ends, another group begins or the group goes on. -/
theorem uncons (grouped : Grouped (c :: chars) digits) : chars = [] ∨
    (∃ rest, chars = '_' :: rest ∧ ∃ digits, Grouped rest digits) ∨ ∃ digits, Grouped chars digits := by
  generalize same : c :: chars = text at grouped
  cases grouped with
  | single nonempty all =>
    subst same
    cases chars with
    | nil => exact .inl rfl
    | cons d rest =>
      exact .inr (.inr ⟨_, .single (List.cons_ne_nil d rest) fun e member =>
        all e (List.mem_cons_of_mem c member)⟩)
  | @more group rest digits nonempty all grouped =>
    obtain ⟨first, group, rfl⟩ := List.exists_cons_of_ne_nil nonempty
    obtain ⟨rfl, rfl⟩ := List.cons.inj same
    cases group with
    | nil => exact .inr (.inl ⟨rest, rfl, digits, grouped⟩)
    | cons d group =>
      exact .inr (.inr ⟨_, .more (List.cons_ne_nil d group)
        (fun e member => all e (List.mem_cons_of_mem c member)) grouped⟩)

end Grouped

/-- What makes a property of texts the one that the test of the digits decides. -/
structure Grouping (P : List Char → Prop) : Prop where
  head {text : List Char} : P text → ∃ c ∈ text.head?, c.isDigit = true
  single {c : Char} : c.isDigit = true → P [c]
  cons {c : Char} {text : List Char} : c.isDigit = true → P text → P (c :: text)
  before {c : Char} {text : List Char} : c.isDigit = true → P text → P (c :: '_' :: text)
  uncons {c : Char} {text : List Char} : P (c :: text) →
    text = [] ∨ (∃ rest, text = '_' :: rest ∧ P rest) ∨ P text

theorem Grouping.isGrouped_iff {P : List Char → Prop} (grouping : Grouping P) :
    Decimal.isGrouped chars = true ↔ P chars := by
  have digit : ∀ {c : Char} {text : List Char}, P (c :: text) → c.isDigit = true := by
    intro c text holds
    obtain ⟨_, ⟨⟩, digit⟩ := grouping.head holds
    exact digit
  constructor
  · intro accepted
    fun_induction Decimal.isGrouped chars with
    | case1 => cases accepted
    | case2 c => exact grouping.single accepted
    | case3 c rest ih =>
      obtain ⟨digit, accepted⟩ := (Bool.and_eq_true _ _).mp accepted
      exact grouping.before digit (ih accepted)
    | case4 c rest _ _ ih =>
      obtain ⟨digit, accepted⟩ := (Bool.and_eq_true _ _).mp accepted
      exact grouping.cons digit (ih accepted)
  · intro holds
    fun_induction Decimal.isGrouped chars with
    | case1 =>
      obtain ⟨_, ⟨⟩, -⟩ := grouping.head holds
    | case2 c => exact digit holds
    | case3 c rest ih =>
      obtain empty | ⟨_, same, inner⟩ | inner := grouping.uncons holds
      · cases empty
      · cases same
        rw [digit holds, ih inner, Bool.true_and]
      · exact absurd (digit inner) (by decide)
    | case4 c rest nonempty next ih =>
      obtain rfl | ⟨rest, rfl, -⟩ | inner := grouping.uncons holds
      · exact absurd rfl nonempty
      · exact absurd rfl (next rest)
      · rw [digit holds, ih inner, Bool.true_and]

theorem grouping_grouped : Grouping fun text => ∃ digits, Grouped text digits where
  head := fun ⟨_, grouped⟩ => grouped.head_isDigit
  single digit := ⟨_, .single (List.cons_ne_nil _ _) (.cons digit .nil)⟩
  cons := fun digit ⟨_, grouped⟩ => ⟨_, grouped.cons digit⟩
  before := fun digit ⟨_, grouped⟩ => ⟨_, grouped.before digit⟩
  uncons := fun ⟨_, grouped⟩ => grouped.uncons

/-- The ends of a text are digits, no two underscores are neighbours and nothing else is in it. -/
structure PassesTests (text : List Char) : Prop where
  head : ∃ c ∈ text.head?, c.isDigit = true
  last : ∃ c ∈ text.getLast?, c.isDigit = true
  apart : ¬ ['_', '_'] <:+: text
  all : ∀ c ∈ text, c.isDigit = true ∨ c = '_'

namespace PassesTests

variable {d : Char}

theorem single (digit : c.isDigit = true) : PassesTests [c] where
  head := ⟨c, rfl, digit⟩
  last := ⟨c, rfl, digit⟩
  apart inside := nomatch inside.sublist.length_le
  all d member := by
    rw [List.mem_singleton.mp member]
    exact .inl digit

theorem prepend (digit : c.isDigit = true) (last : ∃ d ∈ text.getLast?, d.isDigit = true)
    (apart : ¬ ['_', '_'] <:+: text) (all : ∀ d ∈ text, d.isDigit = true ∨ d = '_') :
    PassesTests (c :: text) where
  head := ⟨c, rfl, digit⟩
  last := by
    obtain ⟨d, last, digit⟩ := last
    refine ⟨d, ?_, digit⟩
    rw [List.getLast?_cons, Option.mem_def.mp last]
    rfl
  apart inside := by
    rcases List.infix_cons_iff.mp inside with front | inside
    · obtain ⟨rfl, -⟩ := List.cons_prefix_cons.mp front
      cases digit
    · exact apart inside
  all := List.forall_mem_cons.mpr ⟨.inl digit, all⟩

theorem rest (before : List Char) (tests : PassesTests (before ++ text))
    (head : ∃ d ∈ text.head?, d.isDigit = true) : PassesTests text where
  head := head
  last := by
    obtain ⟨d, first, -⟩ := head
    obtain ⟨rest, rfl⟩ := List.head?_eq_some_iff.mp first
    have last := tests.last
    rwa [List.getLast?_append_of_ne_nil before (List.cons_ne_nil d rest)] at last
  apart inside := tests.apart (inside.trans (List.suffix_append before text).isInfix)
  all d member := tests.all d (List.mem_append_right before member)

end PassesTests

theorem grouping_passesTests : Grouping PassesTests where
  head tests := tests.head
  single := .single
  cons digit tests := .prepend digit tests.last tests.apart tests.all
  before {c text} digit tests := by
    obtain ⟨d, head, first⟩ := tests.head
    obtain ⟨rest, rfl⟩ := List.head?_eq_some_iff.mp head
    refine .prepend digit ?_ ?_ (List.forall_mem_cons.mpr ⟨.inr rfl, tests.all⟩)
    · rw [List.getLast?_cons_cons]
      exact tests.last
    · rw [List.infix_cons_iff, not_or]
      refine ⟨fun front => ?_, tests.apart⟩
      obtain ⟨rfl, -⟩ := List.cons_prefix_cons.mp (List.cons_prefix_cons.mp front).2
      cases first
  uncons {c text} tests := by
    rcases text with _ | ⟨d, text⟩
    · exact .inl rfl
    rcases tests.all d (by simp) with digit | rfl
    · exact .inr (.inr (.rest [c] tests ⟨d, rfl, digit⟩))
    -- Behind an underscore there is a digit, as the text neither ends nor goes on with another one.
    have next : ∃ e ∈ text.head?, e.isDigit = true := by
      rcases text with _ | ⟨e, text⟩
      · obtain ⟨_, ⟨⟩, digit⟩ := tests.last
        cases digit
      · rcases tests.all e (by simp) with digit | rfl
        · exact ⟨e, rfl, digit⟩
        · exact absurd ⟨[c], text, rfl⟩ tests.apart
    exact .inr (.inl ⟨text, rfl, .rest [c, '_'] tests next⟩)

theorem isGrouped_iff : Decimal.isGrouped chars = true ↔ ∃ digits, Grouped chars digits :=
  grouping_grouped.isGrouped_iff

/-- The test of the digits is one of single characters and of neighbours. -/
theorem isGrouped_iff_passesTests : Decimal.isGrouped chars = true ↔ PassesTests chars :=
  grouping_passesTests.isGrouped_iff

/-! ### Signed integers -/

/-- A sign and grouped digits. -/
inductive Signed : List Char → Int → Prop
  | mk {sign chars digits : List Char} {factor : Int} : Sign sign factor → Grouped chars digits →
      Signed (sign ++ chars) (factor * positional 10 digits)

/-- The text of an integer, which may stand between blanks. -/
inductive SpellsInteger : List Char → Int → Prop
  | mk {before core after : List Char} {z : Int} : before.all isBlank = true → Signed core z →
      after.all isBlank = true → SpellsInteger (before ++ core ++ after) z

theorem Signed.bare (signed : Signed core z) : Bare core := by
  obtain ⟨hasSign, grouped⟩ := signed
  obtain ⟨c, head, first⟩ := grouped.head_isDigit
  obtain ⟨d, tail, last⟩ := grouped.last_isDigit
  constructor
  · cases hasSign with
    | none => exact ⟨c, head, isBlank_of_isDigit first⟩
    | plus => exact ⟨'+', rfl, rfl⟩
    | minus => exact ⟨'-', rfl, rfl⟩
  · refine ⟨d, ?_, isBlank_of_isDigit last⟩
    rw [List.getLast?_append, Option.mem_def.mp tail]
    rfl

theorem splitSign_signed {sign : List Char} {factor : Int} (hasSign : Sign sign factor)
    (grouped : Grouped chars digits) :
    Decimal.splitSign (sign ++ chars) = (decide (factor < 0), chars) := by
  cases hasSign with
  | plus | minus => rfl
  | none =>
    obtain ⟨c, head, digit⟩ := grouped.head_isDigit
    obtain ⟨rest, rfl⟩ := List.head?_eq_some_iff.mp head
    rw [List.nil_append]
    unfold Decimal.splitSign
    split
    · next same =>
      cases same
      cases digit
    · next same =>
      cases same
      cases digit
    · rfl

theorem exists_sign (text : List Char) : ∃ sign factor, Sign sign factor ∧
    text = sign ++ (Decimal.splitSign text).2 ∧ decide (factor < 0) = (Decimal.splitSign text).1 := by
  unfold Decimal.splitSign
  split
  · exact ⟨_, _, .minus, rfl, rfl⟩
  · exact ⟨_, _, .plus, rfl, rfl⟩
  · exact ⟨_, _, .none, rfl, rfl⟩

theorem Sign.mul_eq {sign : List Char} {factor : Int} (hasSign : Sign sign factor) (n : Int) :
    factor * n = if decide (factor < 0) then -n else n := by
  cases hasSign <;> simp

theorem int?_eq_some_iff : Decimal.int? core = some z ↔ Signed core z := by
  constructor
  · intro known
    obtain ⟨sign, factor, hasSign, same, below⟩ := exists_sign core
    rw [Decimal.int?] at known
    dsimp only at known
    split at known
    · next accepted =>
      obtain ⟨digits, grouped⟩ := isGrouped_iff.mp accepted
      rw [grouped.filter_eq, natOf_eq, ← below, ← hasSign.mul_eq] at known
      rw [same, ← Option.some.inj known]
      exact .mk hasSign grouped
    · cases known
  · rintro ⟨hasSign, grouped⟩
    rw [Decimal.int?, splitSign_signed hasSign grouped]
    dsimp only
    rw [if_pos (isGrouped_iff.mpr ⟨_, grouped⟩), grouped.filter_eq, natOf_eq, hasSign.mul_eq]

theorem spellsInteger_iff : SpellsInteger text z ↔ Decimal.int? (trim text) = some z := by
  rw [int?_eq_some_iff]
  constructor
  · rintro ⟨left, signed, right⟩
    rwa [trim_padded left signed.bare right]
  · intro signed
    obtain ⟨before, after, left, right, same⟩ := exists_padding text
    rw [same]
    exact .mk left signed right

theorem toList_text_negative {n : Int64} (below : n.toInt < 0) :
    (Value.int n).text.toList = '-' :: Nat.toDigits 10 (-n.toInt).toNat := by
  show (toString n.toInt).toList = _
  rw [Int.toString_eq_repr, Int.repr_eq_if, if_neg (not_le.mpr below), String.toList_append,
    Nat.toList_repr]
  rfl

theorem grouped_toDigits (n : Nat) : Grouped (Nat.toDigits 10 n) (Nat.toDigits 10 n) :=
  .single Nat.toDigits_ne_nil (isDigit_toDigits n)

theorem positional_toDigits (n : Nat) : positional 10 (Nat.toDigits 10 n) = n := by
  rw [← natOf_eq, natOf_toDigits]

theorem signed_text (n : Int64) : Signed (Value.int n).text.toList n.toInt := by
  by_cases below : n.toInt < 0
  · have signed : Signed _ _ := .mk .minus (grouped_toDigits (-n.toInt).toNat)
    rw [positional_toDigits, Int.toNat_of_nonneg (by omega), neg_mul_neg, one_mul] at signed
    rwa [toList_text_negative below]
  · have nonneg : 0 ≤ n := Int64.le_iff_toInt_le.mpr (not_lt.mp below)
    have signed : Signed _ _ := .mk .none (grouped_toDigits n.toInt.toNat)
    rw [positional_toDigits, Int.toNat_of_nonneg (not_lt.mp below), one_mul] at signed
    have spelled : (Value.int n).text.toList = _ := Lexer.toList_text_int nonneg
    rwa [spelled]

theorem spellsInteger_text (n : Int64) : SpellsInteger (Value.int n).text.toList n.toInt := by
  have spells : SpellsInteger ([] ++ (Value.int n).text.toList ++ []) n.toInt := .mk rfl (signed_text n) rfl
  rwa [List.append_nil, List.nil_append] at spells

end Number

namespace Integer

open Number

variable {text : String} {z : Int}

theorem ofText_of_fits (spells : SpellsInteger text.toList z) (fits : Fits z) :
    ofText text = .ok (Int64.ofInt z) := by
  rw [ofText, spellsInteger_iff.mp spells, Option.map_some, narrow_of_fits fits]

theorem ofText_of_not_fits (wide : ∀ z, SpellsInteger text.toList z → ¬ Fits z) :
    ofText text = .error (.invalidArgument (.notInteger text)) := by
  rw [ofText]
  cases read : Decimal.int? (Text.trim text.toList) with
  | none => rfl
  | some z =>
    rw [Option.map_some, narrow_of_not_fits (wide z (spellsInteger_iff.mpr read))]

theorem ofText_text (n : Int64) : ofText (Value.int n).text = .ok n := by
  rw [ofText_of_fits (spellsInteger_text n) (fits_toInt n), Int64.ofInt_toInt]

end Integer

open Number Integer EvalM in
/-- The function `int` takes the texts that spell an integer that a word holds, and gives that integer.
Any other text is an invalid argument, also one that spells an integer which is too large. The text that
`str` makes of an integer is taken back to it. -/
theorem int_of_text (text : String) (line : Nat) : ∃ int str,
    Builtin.named? "int" = some int ∧ Builtin.named? "str" = some str ∧
    (∀ z, SpellsInteger text.toList z → Fits z →
      ∃ word, word.toInt = z ∧ callBuiltin int [.str text] line = pure (.int word)) ∧
    ((∀ z, SpellsInteger text.toList z → ¬ Fits z) →
      callBuiltin int [.str text] line = fail (.invalidArgument (.notInteger text)) line) ∧
    ∀ n : Int64, ∃ printed, callBuiltin str [.int n] line = pure (.str printed) ∧
      callBuiltin int [.str printed] line = pure (.int n) := by
  refine ⟨_, _, rfl, rfl, fun z spells fits => ?_, fun wide => ?_, fun n => ⟨(Value.int n).text, ?_, ?_⟩⟩
  · refine ⟨Int64.ofInt z, toInt_ofInt fits, ?_⟩
    rw [callBuiltin_ofOptional]
    show onLine line (Value.int <$> ofText text) = _
    rw [ofText_of_fits spells fits]
    rfl
  · rw [callBuiltin_ofOptional]
    show onLine line (Value.int <$> ofText text) = _
    rw [ofText_of_not_fits wide]
    rfl
  · rw [callBuiltin_ofOptional]
    rfl
  · rw [callBuiltin_ofOptional]
    show onLine line (Value.int <$> ofText (Value.int n).text) = _
    rw [ofText_text]
    rfl

end Offside
