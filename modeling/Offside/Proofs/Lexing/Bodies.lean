import Offside.Proofs.Lexing.Located

/-!
# Raw and cooked bodies

A body ends at the first quote without a backslash before it, whether it is raw or its escapes are
decoded (`StringLiteral.body_ends`), and a raw body holds all characters up to there
(`StringLiteral.Within.body_raw`). So a text that a cooked literal takes is taken by the raw one too, which
`StringLiteral.raw_and_cooked_agree` states of whole literals.
-/

namespace Offside.StringLiteral

/-- The prefixes of the literals of a form. -/
def Form.prefixes (form : Form) : List (List Char) :=
  match form.bytes, form.raw with
  | false, false => [[], ['u'], ['U']]
  | false, true => [['r'], ['R']]
  | true, false => [['b'], ['B']]
  | true, true => [['r', 'b'], ['r', 'B'], ['R', 'b'], ['R', 'B'], ['b', 'r'], ['b', 'R'], ['B', 'r'],
      ['B', 'R']]

/-- The token holds the characters as they are, a bytes literal one byte for each. -/
def Holds (bytes : Bool) (text : List Char) : Token.Kind → Prop
  | .str held => bytes = false ∧ held.toList = text
  | .bytes data => bytes = true ∧ data.map UInt8.toNat = text.map Char.toNat
  | _ => False

variable {form : Form} {quote : Char} {start : Position} {taken count : Nat}
  {cs text rest decoded letters : List Char}

/-! ### Bodies -/

/-- The body goes up to a quote, and what it takes may stand in a body of either form. Raw characters and
those other than a backslash stand for themselves. -/
theorem body_ends (marks : quote = '\'' ∨ quote = '"')
    (read : body form quote start taken cs = .ok count decoded) :
    ∃ text rest, cs = text ++ quote :: rest ∧ taken + text.length + 1 = count ∧ Within quote text ∧
      (form.bytes = true → ∀ c ∈ text, isAscii c = true) ∧
      (form.raw = true ∨ '\\' ∉ text → decoded = text) := by
  fun_induction body form quote start taken cs generalizing decoded with
  | case3 taken rest =>
    cases read
    exact ⟨[], rest, rfl, rfl, .nil, fun _ => List.forall_mem_nil _, fun _ => rfl⟩
  | case6 taken raw next rest notFeed ascii line other ih =>
    obtain ⟨inner, readInner, rfl⟩ := Reading.map_eq_ok.mp read
    obtain ⟨text, later, rfl, length, within, all, same⟩ := ih readInner
    refine ⟨'\\' :: next :: text, later, rfl, ?_, .escaped notFeed within, fun isBytes => ?_, fun _ => ?_⟩
    · rw [List.length_cons, List.length_cons]
      omega
    · rw [isBytes] at ascii
      exact List.forall_mem_cons.mpr ⟨rfl, List.forall_mem_cons.mpr ⟨by simpa using ascii, all isBytes⟩⟩
    · rw [same (.inl raw)]
  | case9 taken rest cooked count plain readEscape line other ih =>
    obtain ⟨inner, readInner, rfl⟩ := Reading.map_eq_ok.mp read
    obtain ⟨c, digits, left, rfl, rfl, notFeed, isDigits, ascii⟩ := escape_chars readEscape
    rw [← List.cons_append, List.drop_left] at readInner ih
    obtain ⟨text, later, rfl, length, within, all, -⟩ := ih readInner
    refine ⟨'\\' :: c :: digits ++ text, later, by simp, ?_,
      (within_of_escape marks notFeed isDigits).append within, fun isBytes => ?_, fun plain => ?_⟩
    · rw [List.length_append, List.length_cons]
      omega
    · have escaped : ∀ d ∈ '\\' :: c :: digits, isAscii d = true :=
        List.forall_mem_cons.mpr ⟨rfl, List.forall_mem_cons.mpr
          ⟨ascii isBytes, fun d member => isAscii_of_isDigit (isDigits d member)⟩⟩
      exact List.forall_mem_append.mpr ⟨escaped, all isBytes⟩
    · exact absurd List.mem_cons_self (plain.resolve_left cooked)
  | case11 taken c rest line other plain ascii ih =>
    obtain ⟨inner, readInner, rfl⟩ := Reading.map_eq_ok.mp read
    obtain ⟨text, later, rfl, length, within, all, same⟩ := ih readInner
    refine ⟨c :: text, later, rfl, ?_, .plain other plain line within, fun isBytes => ?_, fun bare => ?_⟩
    · rw [List.length_cons]
      omega
    · rw [isBytes] at ascii
      exact List.forall_mem_cons.mpr ⟨by simpa using ascii, all isBytes⟩
    · rw [same (bare.imp_right fun none => mt (List.mem_cons_of_mem c) none)]
  | _ => cases read

/-- A raw body takes what may stand in a body, up to the quote behind it. -/
theorem Within.body_raw (within : Within quote text) (raw : form.raw = true)
    (marks : quote = '\'' ∨ quote = '"') (ascii : form.bytes = true → ∀ c ∈ text, isAscii c = true)
    (start : Position) (taken : Nat) (rest : List Char) :
    body form quote start taken (text ++ quote :: rest) = .ok (taken + text.length + 1) text := by
  have line : quote ≠ '\n' := by rcases marks with rfl | rfl <;> decide
  have other : quote ≠ '\\' := by rcases marks with rfl | rfl <;> decide
  have allowed : ∀ c ∈ text, (form.bytes && !isAscii c) = false := by
    intro c member
    cases isBytes : form.bytes with
    | false => rfl
    | true => rw [ascii isBytes c member, Bool.not_true, Bool.and_false]
  induction within generalizing taken with
  | nil => exact body_quote line
  | @plain c text inside plain feed _ ih =>
    obtain ⟨first, later⟩ := List.forall_mem_cons.mp allowed
    rw [List.cons_append, body_plain feed inside plain first,
      ih (fun isBytes => (List.forall_mem_cons.mp (ascii isBytes)).2) _ later, List.length_cons]
    simp only [Reading.map, Reading.ok, Except.map, Reading.mk.injEq, and_true]
    omega
  | @escaped c text feed _ ih =>
    obtain ⟨-, later⟩ := List.forall_mem_cons.mp allowed
    obtain ⟨first, later⟩ := List.forall_mem_cons.mp later
    have ascii' := fun isBytes => (List.forall_mem_cons.mp (List.forall_mem_cons.mp (ascii isBytes)).2).2
    rw [List.cons_append, List.cons_append, StringLiteral.body_raw raw other feed first,
      ih ascii' _ later, List.length_cons, List.length_cons]
    simp only [Reading.map, Reading.ok, Except.map, Reading.mk.injEq, and_true]
    omega

/-! ### Literals -/

theorem Form.ofLetters?_prefixes (known : letters ∈ form.prefixes) :
    (letters.map Char.toLower).contains 'f' = false ∧
      Form.ofLetters? (letters.map Char.toLower) = some form ∧ letters.length ≤ 2 ∧
      letters.all isPrefixLetter = true := by
  obtain ⟨raw, bytes⟩ := form
  have all : (Form.prefixes ⟨raw, bytes⟩).all (fun letters => decide
      ((letters.map Char.toLower).contains 'f' = false ∧
        Form.ofLetters? (letters.map Char.toLower) = some ⟨raw, bytes⟩ ∧ letters.length ≤ 2 ∧
        letters.all isPrefixLetter = true)) = true := by
    cases raw <;> cases bytes <;> decide
  exact of_decide_eq_true (List.all_eq_true.mp all letters known)

/-- The letters before a quote are all of the prefix. -/
theorem takeWhile_letters (few : letters.length ≤ 2) (all : letters.all isPrefixLetter = true)
    (stop : isPrefixLetter quote = false) :
    ((letters ++ quote :: cs).take 2).takeWhile isPrefixLetter = letters := by
  match letters with
  | [] => simp [stop]
  | [a] => simp_all
  | [a, b] => simp_all
  | a :: b :: c :: letters => simp at few

theorem read?_prefixed (known : letters ∈ form.prefixes) (marks : quote = '\'' ∨ quote = '"')
    (start : Position) (cs : List Char) :
    read? start (letters ++ quote :: cs) = some (if cs.take 2 = [quote, quote] then
      .error 0 (.tripleQuotedString start)
      else (body form quote start (letters.length + 1) cs).map form.kind) := by
  obtain ⟨unformatted, chosen, few, all⟩ := Form.ofLetters?_prefixes known
  have stop : isPrefixLetter quote = false := by rcases marks with rfl | rfl <;> decide
  have isQuote : ¬(quote ≠ '\'' ∧ quote ≠ '"') := fun other => marks.elim other.1 other.2
  unfold read?
  simp only [takeWhile_letters few all stop, List.drop_left, if_neg isQuote, unformatted, chosen,
    Bool.false_eq_true, if_false, Option.map_some]

theorem read?_prefixed_eq_ok {kind : Token.Kind} (known : letters ∈ form.prefixes)
    (marks : quote = '\'' ∨ quote = '"')
    (read : read? start (letters ++ quote :: cs) = some (.ok count kind)) :
    cs.take 2 ≠ [quote, quote] ∧ ∃ decoded,
      body form quote start (letters.length + 1) cs = .ok count decoded ∧ form.kind decoded = kind := by
  rw [read?_prefixed known marks] at read
  split at read
  · cases read
  · next single => exact ⟨single, Reading.map_eq_ok.mp (Option.some.inj read)⟩

theorem holds_kind (ascii : form.bytes = true → ∀ c ∈ text, isAscii c = true) :
    Holds form.bytes text (form.kind text) := by
  unfold Form.kind
  split
  · next isBytes =>
    refine ⟨isBytes, ?_⟩
    rw [List.map_map]
    refine List.map_congr_left fun c member => UInt8.toNat_ofNat_of_lt' ?_
    exact Nat.lt_trans (of_decide_eq_true (ascii isBytes c member)) (by decide)
  · next other => exact ⟨by simpa using other, String.toList_ofList⟩

/-- Where a cooked literal is read, the raw one with the same quote and the same characters behind it is
read up to the same quote, and holds all characters between the quotes; without a backslash among them both
hold the same. Every raw literal holds the characters between its quotes. -/
theorem raw_and_cooked_agree {bytes : Bool} (marks : quote = '\'' ∨ quote = '"')
    {letters letters' : List Char} (cooked : letters ∈ Form.prefixes { bytes })
    (raw : letters' ∈ Form.prefixes { raw := true, bytes }) (start start' : Position) (cs : List Char) :
    (∀ count kind, read? start (letters ++ quote :: cs) = some (.ok count kind) →
      ∃ text rest kind', cs = text ++ quote :: rest ∧
        count = (letters ++ quote :: (text ++ [quote])).length ∧
        read? start' (letters' ++ quote :: cs) =
          some (.ok (letters' ++ quote :: (text ++ [quote])).length kind') ∧
        Holds bytes text kind' ∧ ('\\' ∉ text → kind = kind')) ∧
    ∀ count kind, read? start' (letters' ++ quote :: cs) = some (.ok count kind) →
      ∃ text rest, cs = text ++ quote :: rest ∧
        count = (letters' ++ quote :: (text ++ [quote])).length ∧ Holds bytes text kind := by
  have whole : ∀ letters text : List Char, letters.length + 1 + text.length + 1 =
      (letters ++ quote :: (text ++ [quote])).length := by
    intro letters text
    simp only [List.length_append, List.length_cons, List.length_nil]
    omega
  let form : Form := { raw := true, bytes }
  have holds : ∀ text, (bytes = true → ∀ c ∈ text, isAscii c = true) → Holds bytes text (form.kind text) :=
    fun text ascii => holds_kind ascii
  refine ⟨fun count kind read => ?_, fun count kind read => ?_⟩
  · obtain ⟨single, decoded, readBody, rfl⟩ := read?_prefixed_eq_ok cooked marks read
    obtain ⟨text, rest, rfl, rfl, within, ascii, same⟩ := body_ends marks readBody
    refine ⟨text, rest, form.kind text, rfl, whole letters text, ?_, holds text ascii, fun plain => ?_⟩
    · have readRaw := within.body_raw (show form.raw = true from rfl) marks ascii
      rw [read?_prefixed raw marks, if_neg single, readRaw, whole]
      rfl
    · rw [same (.inr plain)]
      rfl
  · obtain ⟨-, decoded, readBody, rfl⟩ := read?_prefixed_eq_ok raw marks read
    obtain ⟨text, rest, rfl, rfl, -, ascii, same⟩ := body_ends marks readBody
    rw [same (.inl rfl)]
    exact ⟨text, rest, rfl, whole letters' text, holds text ascii⟩

/-- Escapes of two, four and three characters are all in the body before the quote that ends it. -/
theorem raw_and_cooked_agree_escapes : let pos : Position := ⟨1, 1⟩
    let cs := "\\'\\x41\\101\\q' + 1".toList
    ['u'] ∈ Form.prefixes { bytes := false } ∧ ['R'] ∈ Form.prefixes { raw := true, bytes := false } ∧
    read? pos (['u'] ++ '\'' :: cs) = some (.ok 15 (.str "'AA\\q")) ∧
    ∃ kind, read? pos (['R'] ++ '\'' :: cs) = some (.ok 15 kind) ∧
      Holds false "\\'\\x41\\101\\q".toList kind := by
  intro pos cs
  have cooked : ['u'] ∈ Form.prefixes { bytes := false } := by decide
  have raw : ['R'] ∈ Form.prefixes { raw := true, bytes := false } := by decide
  have read : read? pos (['u'] ++ '\'' :: cs) = some (.ok 15 (.str "'AA\\q")) :=
    Reading.eq_some_of_moved (r := some (.ok 15 (.str "'AA\\q"))) (by decide +kernel) rfl
  obtain ⟨text, rest, kind, split, length, again, holds, -⟩ :=
    (raw_and_cooked_agree (.inl rfl) cooked raw pos pos cs).1 _ _ read
  have twelve : text.length = 12 := by simpa using length.symm
  have inside : text = cs.take 12 := by rw [split, ← twelve, List.take_left]
  rw [inside] at again holds
  exact ⟨cooked, raw, read, kind, again, holds⟩

end Offside.StringLiteral
