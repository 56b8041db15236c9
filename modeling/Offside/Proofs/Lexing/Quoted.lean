import Mathlib.Tactic.SplitIfs
import Offside.Lexer.StringLiteral
import Offside.Text.Quoted

/-!
# Quoted text is read back

`StringLiteral.read?_quoteText` and `StringLiteral.read?_quoteBytes` show that a quoted text or list
of bytes is read as one literal, whatever the text or the bytes are and whatever follows.
-/

namespace Offside

namespace Text

/-- Two digits in base sixteen spell every number below 256. -/
theorem hexDigits_two : ∀ n < 256, ∃ high low, hexDigits 2 n = [high, low] ∧
    Decimal.isDigit 16 high = true ∧ Decimal.isDigit 16 low = true ∧
    Decimal.natOf 16 [high, low] = n := by
  intro n lt
  have all : ∀ n : Fin 256, (hexDigits 2 n.val).length = 2 ∧
      (hexDigits 2 n.val).all (Decimal.isDigit 16) = true ∧
      Decimal.natOf 16 (hexDigits 2 n.val) = n.val := by decide +kernel
  obtain ⟨length, digits, value⟩ := all ⟨n, lt⟩
  obtain ⟨high, low, spelled⟩ : ∃ high low, hexDigits 2 n = [high, low] := by
    match hexDigits 2 n, length with
    | [high, low], _ => exact ⟨high, low, rfl⟩
  rw [spelled] at digits value
  simp only [List.all_cons, List.all_nil, Bool.and_true, Bool.and_eq_true] at digits
  exact ⟨high, low, spelled, digits.1, digits.2, value⟩

end Text

namespace StringLiteral

variable {form : Form} {quote : Char} {start : Position} {taken : Nat} {rest : List Char}

/-! ### Moves over a body -/

theorem body_quote (line : quote ≠ '\n') :
    body form quote start taken (quote :: rest) = .ok (taken + 1) [] := by
  rw [body.eq_def]
  simp only [if_neg line, if_true]

theorem body_plain {c : Char} (line : c ≠ '\n') (inside : c ≠ quote) (plain : c ≠ '\\')
    (ascii : (form.bytes && !isAscii c) = false) :
    body form quote start taken (c :: rest) =
      (body form quote start (taken + 1) rest).map (c :: ·) := by
  rw [body.eq_def]
  simp only [if_neg line, if_neg inside, if_neg plain, ascii, Bool.false_eq_true, if_false]

theorem body_escape {count : Nat} {decoded : List Char} (cooked : form.raw = false)
    (other : quote ≠ '\\')
    (read : escape form.bytes (start.right taken) rest = .ok count decoded) :
    body form quote start taken ('\\' :: rest) =
      (body form quote start (taken + 1 + count) (rest.drop count)).map (decoded ++ ·) := by
  have line : '\\' ≠ '\n' := by decide
  rw [body.eq_def]
  simp only [if_neg line, if_neg other.symm, if_true, cooked, Bool.false_eq_true, if_false, read,
    Reading.ok]

theorem escape_simple {bytes : Bool} {pos : Position} {c plain : Char}
    (known : simpleEscape? c = some plain) : escape bytes pos (c :: rest) = .ok 1 [plain] := by
  unfold escape
  split
  · cases ‹_ :: _ = []›
  · next same =>
    cases same
    cases known
  · next same =>
    cases same
    rw [known]

theorem escape_hex {bytes : Bool} {pos : Position} {n : Nat} (lt : n < 256) :
    escape bytes pos ('x' :: (Text.hexDigits 2 n ++ rest)) = .ok 3 [Char.ofNat n] := by
  obtain ⟨high, low, spelled, isHigh, isLow, value⟩ := Text.hexDigits_two n lt
  have valid : n.isValidChar := .inl (by omega)
  have digits : ((high :: low :: rest).take 2).takeWhile (Decimal.isDigit 16) = [high, low] := by
    simp only [List.take_succ_cons, List.take_zero, List.takeWhile_cons, isHigh, isLow, if_true,
      List.takeWhile_nil]
  have unfolded : escape bytes pos ('x' :: high :: low :: rest) =
      (let digits := ((high :: low :: rest).take 2).takeWhile (Decimal.isDigit 16)
      let value := Decimal.natOf 16 digits
      if digits.length = 2 ∧ value.isValidChar then .ok (1 + 2) [Char.ofNat value]
      else .error (1 + digits.length)
        (.invalidEscape (String.ofList ('\\' :: 'x' :: digits)) pos)) := rfl
  rw [spelled, List.cons_append, List.cons_append, List.nil_append, unfolded, digits]
  simp only [value]
  exact if_pos ⟨rfl, valid⟩

/-! ### Quoted characters -/

/-- The characters stand for `decoded` in a cooked body with this quote. -/
def Spells (form : Form) (quote : Char) (chars : List Char) (decoded : Char) : Prop :=
  ∀ start taken rest, body form quote start taken (chars ++ rest) =
    (body form quote start (taken + chars.length) rest).map (decoded :: ·)

theorem body_flatMap {spell : α → List Char} {decode : α → Char} (line : quote ≠ '\n')
    (spells : ∀ unit, Spells form quote (spell unit) (decode unit)) (units : List α) :
    body form quote start taken (units.flatMap spell ++ quote :: rest) =
      .ok (taken + (units.flatMap spell).length + 1) (units.map decode) := by
  induction units generalizing taken with
  | nil => exact body_quote line
  | cons unit units ih =>
    rw [List.flatMap_cons, List.append_assoc, spells unit, ih, List.length_append, ← Nat.add_assoc]
    rfl

theorem spells_hex {n : Nat} (lt : n < 256) (cooked : form.raw = false) (other : quote ≠ '\\') :
    Spells form quote ('\\' :: 'x' :: Text.hexDigits 2 n) (Char.ofNat n) := by
  intro start taken rest
  obtain ⟨high, low, spelled, -⟩ := Text.hexDigits_two n lt
  have read : body form quote start taken ('\\' :: 'x' :: (Text.hexDigits 2 n ++ rest)) = _ :=
    body_escape cooked other (escape_hex lt)
  rw [spelled] at read ⊢
  exact read

theorem spells_simple {c plain : Char} (cooked : form.raw = false) (other : quote ≠ '\\')
    (known : simpleEscape? c = some plain) : Spells form quote ['\\', c] plain := by
  intro start taken rest
  exact body_escape cooked other (escape_simple known)

theorem spells_plain {c : Char} (line : c ≠ '\n') (inside : c ≠ quote) (plain : c ≠ '\\')
    (ascii : (form.bytes && !isAscii c) = false) : Spells form quote [c] c := by
  intro start taken rest
  exact body_plain line inside plain ascii

theorem spells_quoteChar {c : Char} (cooked : form.raw = false) (marks : quote = '\'' ∨ quote = '"')
    (ascii : (form.bytes && !isAscii c) = false) :
    Spells form quote (Text.quoteChar quote c) c := by
  have other : quote ≠ '\\' := by rcases marks with rfl | rfl <;> decide
  unfold Text.quoteChar
  split_ifs with backslash feed ret tab same control
  · subst backslash
    exact spells_simple cooked other rfl
  · subst feed
    exact spells_simple cooked other rfl
  · subst ret
    exact spells_simple cooked other rfl
  · subst tab
    exact spells_simple cooked other rfl
  · subst same
    rcases marks with rfl | rfl <;> exact spells_simple cooked other rfl
  · have lt : c.toNat < 256 := by
      simp only [Text.isControl, Bool.or_eq_true, Bool.and_eq_true, decide_eq_true_eq] at control
      omega
    have spells := spells_hex lt cooked other
    rwa [Char.ofNat_toNat] at spells
  · exact spells_plain feed same backslash ascii

theorem toNat_ofNat_byte (byte : UInt8) : (Char.ofNat byte.toNat).toNat = byte.toNat := by
  have valid : byte.toNat.isValidChar := .inl (Nat.lt_trans byte.toNat_lt (by decide))
  rw [Char.ofNat, dif_pos valid]
  rfl

theorem spells_quoteByte {byte : UInt8} (marks : quote = '\'' ∨ quote = '"') :
    Spells { bytes := true } quote (Text.quoteByte quote byte) (Char.ofNat byte.toNat) := by
  have other : quote ≠ '\\' := by rcases marks with rfl | rfl <;> decide
  have lt : byte.toNat < 256 := byte.toNat_lt
  have value := toNat_ofNat_byte byte
  simp only [Text.quoteByte, value]
  split_ifs with small
  · apply spells_quoteChar rfl marks
    have ascii : isAscii (Char.ofNat byte.toNat) = true := decide_eq_true (by omega)
    rw [ascii]
    rfl
  · exact spells_hex lt rfl other

/-! ### Whole literals -/

theorem quoteFor_eq (hasSingle hasDouble : Bool) :
    Text.quoteFor hasSingle hasDouble = '\'' ∨ Text.quoteFor hasSingle hasDouble = '"' := by
  cases hasSingle <;> cases hasDouble <;> decide

theorem head_quoteChar (marks : quote = '\'' ∨ quote = '"') (c : Char) :
    ∃ first more, Text.quoteChar quote c = first :: more ∧ first ≠ quote := by
  have other : '\\' ≠ quote := by rcases marks with rfl | rfl <;> decide
  unfold Text.quoteChar
  split_ifs with backslash feed ret tab same control
  all_goals first
    | exact ⟨_, _, rfl, other⟩
    | exact ⟨_, _, rfl, same⟩

theorem head_quoteByte (marks : quote = '\'' ∨ quote = '"') (byte : UInt8) :
    ∃ first more, Text.quoteByte quote byte = first :: more ∧ first ≠ quote := by
  simp only [Text.quoteByte]
  split_ifs
  · exact head_quoteChar marks _
  · exact ⟨_, _, rfl, by rcases marks with rfl | rfl <;> decide⟩

theorem take_two_ne {spell : α → List Char} (units : List α)
    (heads : ∀ unit, ∃ first more, spell unit = first :: more ∧ first ≠ quote)
    (clear : rest.head? ≠ some quote) :
    (units.flatMap spell ++ quote :: rest).take 2 ≠ [quote, quote] := by
  intro same
  cases units with
  | nil =>
    cases rest with
    | nil => simp at same
    | cons c rest =>
      rw [List.flatMap_nil, List.nil_append, List.take_succ_cons, List.take_succ_cons] at same
      simp only [List.take_zero, List.cons.injEq, true_and, and_true] at same
      exact clear (by rw [same]; rfl)
  | cons unit units =>
    obtain ⟨first, more, spelled, ne⟩ := heads unit
    rw [List.flatMap_cons, spelled, List.append_assoc, List.cons_append, List.take_succ_cons] at same
    exact ne (List.cons.inj same).1

theorem read?_quoted (start : Position) (units : List α) (rest : List Char) {letters : List Char}
    {spell : α → List Char} {decode : α → Char}
    (prefixed : letters = [] ∧ form = {} ∨ letters = ['b'] ∧ form = { bytes := true })
    (marks : quote = '\'' ∨ quote = '"')
    (spells : ∀ unit, Spells form quote (spell unit) (decode unit))
    (heads : ∀ unit, ∃ first more, spell unit = first :: more ∧ first ≠ quote)
    (clear : rest.head? ≠ some quote) :
    read? start (letters ++ quote :: (units.flatMap spell ++ quote :: rest)) =
      some (.ok (letters ++ quote :: (units.flatMap spell ++ [quote])).length
        (form.kind (units.map decode))) := by
  have line : quote ≠ '\n' := by rcases marks with rfl | rfl <;> decide
  have noLetter : isPrefixLetter quote = false := by rcases marks with rfl | rfl <;> decide
  have single := take_two_ne units heads clear
  have decoded : body form quote start (letters.length + 1)
      (units.flatMap spell ++ quote :: rest) = _ := body_flatMap line spells units
  have length : letters.length + 1 + (units.flatMap spell).length + 1 =
      (letters ++ quote :: (units.flatMap spell ++ [quote])).length := by
    simp only [List.length_append, List.length_cons, List.length_nil]
    omega
  have isQuote : ¬(quote ≠ '\'' ∧ quote ≠ '"') := by
    rintro ⟨single, double⟩
    exact marks.elim single double
  rw [length] at decoded
  generalize units.flatMap spell ++ quote :: rest = chars at single decoded ⊢
  have found : ((letters ++ quote :: chars).take 2).takeWhile isPrefixLetter = letters := by
    rcases prefixed with ⟨rfl, -⟩ | ⟨rfl, -⟩
    · simp [noLetter]
    · simp [noLetter, show isPrefixLetter 'b' = true from rfl]
  have known : (letters.map Char.toLower).contains 'f' = false ∧
      Form.ofLetters? (letters.map Char.toLower) = some form := by
    rcases prefixed with ⟨rfl, rfl⟩ | ⟨rfl, rfl⟩ <;> decide
  unfold read?
  simp only [found, List.drop_left, if_neg isQuote, known, Bool.false_eq_true, if_false,
    Option.map_some, if_neg single, decoded]
  rfl

theorem read?_quoteText (units : List Char) (clear : ∀ c ∈ rest.head?, c ≠ '\'' ∧ c ≠ '"') :
    read? start (Text.quoteText units ++ rest) =
      some (.ok (Text.quoteText units).length (.str (String.ofList units))) := by
  have marks := quoteFor_eq (units.contains '\'') (units.contains '"')
  have read := read?_quoted start units rest (.inl ⟨rfl, rfl⟩) marks
    (fun _ => spells_quoteChar rfl marks rfl) (head_quoteChar marks) (by
      intro same
      exact marks.elim (clear _ same).1 (clear _ same).2)
  simpa [Text.quoteText, Form.kind] using read

theorem read?_quoteBytes (units : List UInt8) (clear : ∀ c ∈ rest.head?, c ≠ '\'' ∧ c ≠ '"') :
    read? start ('b' :: Text.quoteBytes units ++ rest) =
      some (.ok ('b' :: Text.quoteBytes units).length (.bytes units)) := by
  have marks := quoteFor_eq (units.contains 0x27) (units.contains 0x22)
  have read := read?_quoted start units rest (.inr ⟨rfl, rfl⟩) marks
    (fun _ => spells_quoteByte marks) (head_quoteByte marks) (by
      intro same
      exact marks.elim (clear _ same).1 (clear _ same).2)
  have bytes : (units.map fun byte => UInt8.ofNat (Char.ofNat byte.toNat).toNat) = units := by
    simp [toNat_ofNat_byte]
  simpa [Text.quoteBytes, Form.kind, Function.comp_def, bytes] using read

end StringLiteral

end Offside
