import Mathlib.Data.List.Basic
import Offside.Proofs.Lexing.Moves
import Offside.Proofs.Lexing.Quoted
import Offside.Proofs.Parsing.Printing

/-!
# Spelled tokens are read back

A token that is written as `Token.Kind.spelling` and followed by a blank is read as itself:
`Lexer.literal?_spelling` for literals and words, `Punct.longestMatch?_spelling` for punctuation.
-/

namespace Offside

/-- What follows a token on a printed line: a space before the next one, or the end of the line. -/
def StartsBlank (follow : List Char) : Prop :=
  ∃ c rest, follow = c :: rest ∧ (c = ' ' ∨ c = '\n')

theorem StartsBlank.clear {follow : List Char} (blank : StartsBlank follow) :
    ∀ c ∈ follow.head?, c ≠ '\'' ∧ c ≠ '"' := by
  obtain ⟨f, rest, rfl, blank⟩ := blank
  intro c found
  cases found
  rcases blank with rfl | rfl <;> decide

/-! ### Words -/

namespace StringLiteral

theorem read?_of_head {pos : Position} {cs : List Char}
    (clear : ∀ c ∈ (cs.drop ((cs.take 2).takeWhile isPrefixLetter).length).head?,
      c ≠ '\'' ∧ c ≠ '"') : read? pos cs = none := by
  simp only [read?]
  split
  · next quote rest found =>
    rw [found] at clear
    exact if_pos (clear quote rfl)
  · rfl

theorem read?_word {pos : Position} {word follow : List Char} (nonempty : word ≠ [])
    (clear : ∀ c ∈ word, c ≠ '\'' ∧ c ≠ '"') (blank : StartsBlank follow) :
    read? pos (word ++ follow) = none := by
  obtain ⟨f, rest, rfl, blank⟩ := blank
  have other : isPrefixLetter f = false ∧ f ≠ '\'' ∧ f ≠ '"' := by
    rcases blank with rfl | rfl <;> decide
  apply read?_of_head
  intro c found
  match word with
  | [] => exact absurd rfl nonempty
  | [a] =>
    cases letter : isPrefixLetter a <;> simp_all
  | [a, b] =>
    cases first : isPrefixLetter a <;> cases second : isPrefixLetter b <;> simp_all
  | a :: b :: d :: word =>
    cases first : isPrefixLetter a <;> cases second : isPrefixLetter b <;> simp_all

end StringLiteral

namespace Name

theorem continuesName_of_starts {c : Char} (h : Text.startsName c = true) :
    Text.continuesName c = true := by
  unfold Text.startsName at h
  rw [Text.continuesName, h, Bool.true_or]

theorem takeWhile_word {word follow : List Char} (all : word.all Text.continuesName = true)
    (blank : StartsBlank follow) : (word ++ follow).takeWhile Text.continuesName = word := by
  obtain ⟨f, rest, rfl, blank⟩ := blank
  have other : Text.continuesName f = false := by rcases blank with rfl | rfl <;> decide
  rw [List.takeWhile_append_of_pos (by simpa using all), List.takeWhile_cons, other]
  exact List.append_nil word

theorem read?_word {pos : Position} {c : Char} {word follow : List Char}
    (starts : Text.startsName c = true) (all : word.all Text.continuesName = true)
    (allowed : reservedWords.contains (String.ofList (c :: word)) = false)
    (blank : StartsBlank follow) :
    read? pos (c :: word ++ follow) =
      some (.ok (c :: word).length (kind (String.ofList (c :: word)))) := by
  have taken : (c :: word ++ follow).takeWhile Text.continuesName = c :: word := by
    apply takeWhile_word _ blank
    rw [List.all_cons, continuesName_of_starts starts, all]
    rfl
  rw [List.cons_append] at taken ⊢
  simp only [read?, starts, if_true, taken, allowed, Bool.false_eq_true, if_false]

theorem continuesName_not_quote {c : Char} (h : Text.continuesName c = true) :
    c ≠ '\'' ∧ c ≠ '"' := by
  constructor <;> (rintro rfl; revert h; decide)

end Name

/-! ### Numbers -/

theorem Text.toNat_of_isDigit {c : Char} (digit : c.isDigit = true) : 48 ≤ c.toNat ∧ c.toNat ≤ 57 := by
  simpa [Char.isDigit, UInt32.le_iff_toNat_le] using digit

namespace Number

theorem isDigit_toDigits (n : Nat) : ∀ c ∈ Nat.toDigits 10 n, c.isDigit = true := fun _ member =>
  Nat.isDigit_of_mem_toDigits (by decide) (by decide) member

theorem exists_digit_toDigits (n : Nat) :
    ∃ c rest, Nat.toDigits 10 n = c :: rest ∧ c.isDigit = true := by
  obtain ⟨c, rest, spelled⟩ := List.exists_cons_of_ne_nil (Nat.toDigits_ne_nil (n := n) (b := 10))
  exact ⟨c, rest, spelled, isDigit_toDigits n c (by rw [spelled]; exact List.mem_cons_self)⟩

theorem follow_digits {digits follow : List Char} (all : ∀ c ∈ digits, c.isDigit = true)
    (blank : StartsBlank follow) :
    Number.follow .integer (digits ++ follow) = (digits, .integer) := by
  induction digits with
  | nil =>
    obtain ⟨f, rest, rfl, blank⟩ := blank
    have stop : step .integer f = none := by rcases blank with rfl | rfl <;> decide
    simp only [List.nil_append, Number.follow, stop]
  | cons c digits ih =>
    have next : step .integer c = some .integer := if_pos (all c List.mem_cons_self)
    simp only [List.cons_append, Number.follow, next,
      ih fun c member => all c (List.mem_cons_of_mem _ member)]

theorem head_toDigits {n : Nat} (pos : 0 < n) :
    ∃ c digits, Nat.toDigits 10 n = c :: digits ∧ c ≠ '0' := by
  induction n using Nat.strongRecOn with
  | ind n ih =>
    by_cases small : n < 10
    · refine ⟨n.digitChar, [], Nat.toDigits_of_lt_base small, ?_⟩
      rw [ne_eq, Nat.digitChar_eq_zero]
      omega
    · obtain ⟨c, digits, spelled, ne⟩ := ih (n / 10) (by omega) (by omega)
      refine ⟨c, digits ++ [(n % 10).digitChar], ?_, ne⟩
      rw [Nat.toDigits_of_base_le (by decide) (by omega), spelled, List.cons_append]

theorem natOf_toDigits (n : Nat) : Decimal.natOf 10 (Nat.toDigits 10 n) = n := by
  have same : ∀ (cs : List Char) (value : Nat), (∀ c ∈ cs, c.isDigit = true) →
      cs.foldl (fun n c => 10 * n + Decimal.digitValue c) value = Nat.ofDigitChars 10 cs value := by
    intro cs
    induction cs with
    | nil => intros; rfl
    | cons c cs ih =>
      intro value all
      have digit : Decimal.digitValue c = c.toNat - '0'.toNat := if_pos (all c List.mem_cons_self)
      rw [List.foldl_cons, Nat.ofDigitChars_cons, digit]
      exact ih _ fun c member => all c (List.mem_cons_of_mem _ member)
  rw [Decimal.natOf, same _ _ (isDigit_toDigits n), Nat.ofDigitChars_toDigits (by decide) (by decide)]

theorem follow_toDigits {n : Nat} {follow : List Char} (blank : StartsBlank follow) :
    ∃ state, Number.follow .start (Nat.toDigits 10 n ++ follow) = (Nat.toDigits 10 n, state) ∧
      (state = .integer ∨ state = .zero) := by
  rcases Nat.eq_zero_or_pos n with rfl | pos
  · obtain ⟨f, rest, rfl, blank⟩ := blank
    have stop : step .zero f = none := by rcases blank with rfl | rfl <;> decide
    refine ⟨.zero, ?_, .inr rfl⟩
    have first : step .start '0' = some .zero := rfl
    simp only [Nat.toDigits_zero, List.cons_append, List.nil_append, Number.follow, first, stop]
  · obtain ⟨c, digits, spelled, ne⟩ := head_toDigits pos
    have all : ∀ d ∈ c :: digits, d.isDigit = true := spelled ▸ isDigit_toDigits n
    have first : step .start c = some .integer := by
      simp only [step, if_neg ne, all c List.mem_cons_self, if_true]
    refine ⟨.integer, ?_, .inl rfl⟩
    rw [spelled]
    simp only [List.cons_append, Number.follow, first,
      follow_digits (fun d member => all d (List.mem_cons_of_mem _ member)) blank]

theorem read?_toDigits {pos : Position} {n : Nat} {follow : List Char}
    (small : n < 0x8000000000000000) (blank : StartsBlank follow) :
    read? pos (Nat.toDigits 10 n ++ follow) =
      some (.ok (Nat.toDigits 10 n).length (.number (.int (Int64.ofNat n)))) := by
  obtain ⟨state, followed, final⟩ := follow_toDigits (n := n) blank
  have started : starts (Nat.toDigits 10 n ++ follow) = true := by
    obtain ⟨c, digits, spelled, digit⟩ := exists_digit_toDigits n
    rw [spelled, List.cons_append]
    unfold starts
    split
    · next same =>
      obtain ⟨rfl, -⟩ := List.cons.inj same
      cases digit
    · next same =>
      obtain ⟨rfl, -⟩ := List.cons.inj same
      exact digit
    · next same => cases same
  have valued : value state (Nat.toDigits 10 n) pos = .ok (.int (Int64.ofNat n)) := by
    rcases final with rfl | rfl <;> simp only [value, integer, natOf_toDigits, if_pos small]
  simp only [read?, started, if_true, followed, valued]
  rfl

end Number

theorem startsName_of_isDigit {c : Char} (digit : c.isDigit = true) :
    Text.startsName c = false := by
  have range := Text.toNat_of_isDigit digit
  have ascii : c.toNat < 128 := by omega
  have alpha : c.isAlpha = false := by
    show (decide (c.val ≥ 'A'.val ∧ c.val ≤ 'Z'.val) ||
      decide (c.val ≥ 'a'.val) && decide (c.val ≤ 'z'.val)) = false
    simp only [ge_iff_le, UInt32.le_iff_toNat_le, Bool.or_eq_false_iff, Bool.and_eq_false_iff,
      decide_eq_false_iff_not]
    have same : c.val.toNat = c.toNat := rfl
    have letters : 'A'.val.toNat = 65 ∧ 'a'.val.toNat = 97 := by decide
    omega
  have score : c ≠ '_' := by
    rintro rfl
    exact absurd range (by decide)
  rw [Text.startsName, Text.isLetter, if_pos ascii, alpha, Bool.or_false]
  exact decide_eq_false score

/-! ### Punctuation -/

namespace Punct

theorem ofChars?_spelling (mark : Punct) : ofChars? mark.spelling.toList = some mark := by
  cases mark <;> decide

/-- A character that no punctuation is spelled with. -/
def IsForeign (c : Char) : Prop := ∀ mark : Punct, c ∉ mark.spelling.toList

theorem isForeign_of_blank {c : Char} (blank : c = ' ' ∨ c = '\n') : IsForeign c := by
  intro mark
  rcases blank with rfl | rfl <;> cases mark <;> decide

theorem ofChars?_of_foreign {text : List Char} {c : Char} (member : c ∈ text) (foreign : IsForeign c) :
    ofChars? text = none := by
  rw [ofChars?, List.find?_eq_none]
  intro mark _ same
  rw [beq_iff_eq] at same
  subst same
  exact foreign mark member

theorem longestMatch?_of_foreign (mark : Punct) {c : Char} (foreign : IsForeign c) (rest : List Char) :
    longestMatch? (mark.spelling.toList ++ c :: rest) = some mark := by
  have longer : ∀ k, mark.spelling.toList.length < k →
      ofChars? ((mark.spelling.toList ++ c :: rest).take k) = none := by
    intro k lt
    obtain ⟨more, rfl⟩ : ∃ more, k = mark.spelling.toList.length + (more + 1) := ⟨k - mark.spelling.toList.length - 1, by omega⟩
    apply ofChars?_of_foreign _ foreign
    rw [List.take_length_add_append, List.take_succ_cons]
    exact List.mem_append_right _ List.mem_cons_self
  have exact' : ofChars? ((mark.spelling.toList ++ c :: rest).take mark.spelling.toList.length) =
      some mark := by
    rw [List.take_left, ofChars?_spelling]
  have short : mark.spelling.toList.length = 1 ∨ mark.spelling.toList.length = 2 ∨
      mark.spelling.toList.length = 3 := by
    cases mark <;> decide
  simp only [longestMatch?, List.findSome?_cons, List.findSome?_nil]
  rcases short with length | length | length <;> rw [length] at longer exact'
  · rw [longer 3 (by decide), longer 2 (by decide), exact']
  · rw [longer 3 (by decide), exact']
  · rw [exact']

theorem longestMatch?_spelling (mark : Punct) {follow : List Char} (blank : StartsBlank follow) :
    longestMatch? (mark.spelling.toList ++ follow) = some mark := by
  obtain ⟨f, rest, rfl, blank⟩ := blank
  exact longestMatch?_of_foreign mark (isForeign_of_blank blank) rest

end Punct

/-! ### All tokens of an expression -/

/-- Whether the token is one of a printed expression. -/
def Token.Kind.isPrinted : Token.Kind → Bool
  | .identifier name => Name.isValid name
  | .keyword _ | .str _ | .bytes _ | .punct _ => true
  | .number value => value.isPlain && value.kind = .int
  | _ => false

namespace Lexer

variable {pos : Position} {follow : List Char}

theorem literal?_word {c : Char} {word : List Char} (starts : Text.startsName c = true)
    (all : word.all Text.continuesName = true)
    (allowed : reservedWords.contains (String.ofList (c :: word)) = false)
    (blank : StartsBlank follow) :
    literal? pos (c :: word ++ follow) =
      some (.ok (c :: word).length (Name.kind (String.ofList (c :: word)))) := by
  have clear : ∀ d ∈ c :: word, d ≠ '\'' ∧ d ≠ '"' := by
    intro d member
    apply Name.continuesName_not_quote
    rcases List.mem_cons.mp member with rfl | member
    · exact Name.continuesName_of_starts starts
    · exact List.all_eq_true.mp all d member
  rw [literal?, StringLiteral.read?_word (List.cons_ne_nil c word) clear blank,
    Name.read?_word starts all allowed blank]
  rfl

theorem literal?_keyword (word : Keyword) (blank : StartsBlank follow) :
    literal? pos (word.spelling.toList ++ follow) =
      some (.ok word.spelling.length (.keyword word)) := by
  obtain ⟨c, rest, spelled, starts, all⟩ : ∃ c rest, word.spelling.toList = c :: rest ∧
      Text.startsName c = true ∧ rest.all Text.continuesName = true := by
    cases word <;> exact ⟨_, _, rfl, by decide, by decide⟩
  have allowed : reservedWords.contains word.spelling = false := by cases word <;> decide
  have known : Name.kind word.spelling = .keyword word := by cases word <;> decide
  have whole : String.ofList (c :: rest) = word.spelling := by rw [← spelled, String.ofList_toList]
  have read : literal? pos (c :: rest ++ follow) = _ :=
    literal?_word starts all (by rwa [whole]) blank
  rwa [whole, known, ← spelled, String.length_toList] at read

theorem literal?_name {name : String} (valid : Name.isValid name = true)
    (blank : StartsBlank follow) :
    literal? pos (name.toList ++ follow) = some (.ok name.length (.identifier name)) := by
  unfold Name.isValid at valid
  split at valid
  · cases valid
  · next c rest spelled =>
    simp only [Bool.and_eq_true, Bool.not_eq_true', Option.isNone_iff_eq_none] at valid
    obtain ⟨⟨⟨starts, all⟩, unknown⟩, allowed⟩ := valid
    have whole : String.ofList (c :: rest) = name := by rw [← spelled, String.ofList_toList]
    have read : literal? pos (c :: rest ++ follow) = _ :=
      literal?_word starts all (by rwa [whole]) blank
    rwa [whole, ← spelled, String.length_toList, Name.kind, unknown] at read

theorem toList_text_int {n : Int64} (positive : 0 ≤ n) :
    (Value.int n).repr.toList = Nat.toDigits 10 n.toInt.toNat := by
  have nonneg : 0 ≤ n.toInt := by
    rw [Int64.le_iff_toInt_le] at positive
    exact positive
  show (toString n.toInt).toList = _
  rw [Int.toString_eq_repr, Int.repr_eq_if, if_pos nonneg, Nat.toList_repr]

theorem literal?_int {n : Int64} (positive : 0 ≤ n) (blank : StartsBlank follow) :
    literal? pos ((Value.int n).repr.toList ++ follow) =
      some (.ok (Value.int n).repr.length (.number (.int n))) := by
  have digits := Number.isDigit_toDigits n.toInt.toNat
  have clear : ∀ c ∈ Nat.toDigits 10 n.toInt.toNat, c ≠ '\'' ∧ c ≠ '"' := by
    intro c member
    constructor <;> (rintro rfl; exact absurd (digits _ member) (by decide))
  have small : n.toInt.toNat < 0x8000000000000000 := by
    have := n.toInt_lt
    omega
  have value : Int64.ofNat n.toInt.toNat = n := Int64.ofNat_toNatClampNeg n positive
  have noName : Name.read? pos (Nat.toDigits 10 n.toInt.toNat ++ follow) = none := by
    obtain ⟨c, rest, spelled, digit⟩ := Number.exists_digit_toDigits n.toInt.toNat
    rw [spelled]
    exact if_neg (by rw [startsName_of_isDigit digit]; decide)
  rw [← String.length_toList, toList_text_int positive, literal?,
    StringLiteral.read?_word Nat.toDigits_ne_nil clear blank, noName,
    Number.read?_toDigits small blank, value]
  rfl

theorem literal?_spelling {kind : Token.Kind} (printed : kind.isPrinted = true)
    (notPunct : ∀ mark, kind ≠ .punct mark) (blank : StartsBlank follow) :
    literal? pos (kind.spelling.toList ++ follow) = some (.ok kind.spelling.length kind) := by
  cases kind with
  | identifier name => exact literal?_name printed blank
  | keyword word => exact literal?_keyword word blank
  | number value =>
    simp only [Token.Kind.isPrinted, Bool.and_eq_true, decide_eq_true_eq] at printed
    cases value with
    | int n => exact literal?_int (by simpa [Value.isPlain] using printed.1) blank
    | _ => cases printed.2
  | str text =>
    have read : StringLiteral.read? pos (Text.quoteText text.toList ++ follow) = _ :=
      StringLiteral.read?_quoteText text.toList blank.clear
    rw [literal?, Token.Kind.spelling, Value.repr, String.toList_ofList, String.length_ofList, read,
      String.ofList_toList]
    rfl
  | bytes data =>
    have read : StringLiteral.read? pos ('b' :: Text.quoteBytes data ++ follow) = _ :=
      StringLiteral.read?_quoteBytes data blank.clear
    rw [literal?, Token.Kind.spelling, Value.repr, Value.text, String.toList_ofList,
      String.length_ofList, read]
    · rfl
    · simp
  | punct mark => exact absurd rfl (notPunct mark)
  | _ => cases printed

theorem literal?_punct (mark : Punct) (blank : StartsBlank follow) :
    literal? pos (mark.spelling.toList ++ follow) = none := by
  obtain ⟨c, rest, spelled, name⟩ : ∃ c rest, mark.spelling.toList = c :: rest ∧
      Text.startsName c = false := by
    cases mark <;> exact ⟨_, _, rfl, by decide⟩
  have clear : ∀ c ∈ mark.spelling.toList, c ≠ '\'' ∧ c ≠ '"' := by
    have plain : mark.spelling.toList.all (fun c => c != '\'' && c != '"') = true := by
      cases mark <;> rfl
    simpa using plain
  have noName : Name.read? pos (mark.spelling.toList ++ follow) = none := by
    rw [spelled]
    exact if_neg (by rw [name]; decide)
  have noNumber : Number.starts (mark.spelling.toList ++ follow) = false := by
    obtain ⟨f, rest, rfl, blank⟩ := blank
    rcases blank with rfl | rfl <;> cases mark <;> rfl
  rw [literal?, StringLiteral.read?_word (by rw [spelled]; exact List.cons_ne_nil c rest) clear blank,
    noName, Number.read?, noNumber]
  rfl

end Lexer

end Offside
