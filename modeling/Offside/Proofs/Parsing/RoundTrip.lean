import Offside.Parser.Statement
import Offside.Proofs.Lexing.Line
import Offside.Proofs.Parsing.Completeness
import Offside.Proofs.Source.Lines

/-!
# Printed expressions are parsed back

The text of a printable expression is one line of nested tokens, so the lexer reads back what was
written, and by the grammar the parser finds the tree. `Parser.expression_text` puts this together.
-/

namespace Offside

/-! ### Printed tokens -/

theorem Value.isPrinted_token {value : Value} (plain : value.isPlain = true) :
    value.token.isPrinted = true := by
  cases value with
  | bool b => cases b <;> rfl
  | int n =>
    show (Value.isPlain (.int n) && decide (Value.kind (.int n) = .int)) = true
    rw [plain]
    rfl
  | float | complex => cases plain
  | _ => rfl

theorem Value.nest_token (value : Value) (opened : Nat) : nest opened value.token = some opened := by
  cases value with
  | bool b => cases b <;> rfl
  | _ => rfl

theorem BinaryOp.isPrinted_kinds (op : BinaryOp) : op.kinds.all Token.Kind.isPrinted = true := by
  cases op <;> rfl

theorem BinaryOp.nest_kinds (op : BinaryOp) (opened : Nat) :
    op.kinds.foldlM nest opened = some opened := by
  cases op <;> rfl

theorem UnaryOp.isPrinted_kind (op : UnaryOp) : op.kind.isPrinted = true := by cases op <;> rfl

theorem UnaryOp.nest_kind (op : UnaryOp) (opened : Nat) : nest opened op.kind = some opened := by
  cases op <;> rfl

theorem isPrinted_enclose {kinds : List Token.Kind} (needed : Bool)
    (h : kinds.all Token.Kind.isPrinted = true) :
    (enclose needed kinds).all Token.Kind.isPrinted = true := by
  cases needed with
  | false => exact h
  | true => simp only [enclose, if_true, List.all_cons, List.all_append, h]; rfl

theorem nest_enclose {kinds : List Token.Kind} (needed : Bool)
    (h : ∀ opened, kinds.foldlM nest opened = some opened) (opened : Nat) :
    (enclose needed kinds).foldlM nest opened = some opened := by
  cases needed with
  | false => exact h opened
  | true =>
    simp only [enclose, if_true, List.foldlM_cons, List.foldlM_append, nest, h, List.foldlM_nil,
      Option.bind_eq_bind, Option.bind_some]
    rfl

namespace Node

mutual

theorem isPrinted_kinds (node : Node) (printable : node.isPrintable = true) :
    node.kinds.all Token.Kind.isPrinted = true := by
  cases node with
  | literal value _ =>
    rw [kinds, List.all_cons, Value.isPrinted_token printable]
    rfl
  | identifier name _ =>
    rw [kinds, List.all_cons, show Token.Kind.isPrinted (.identifier name) = true from printable]
    rfl
  | unary op operand _ =>
    rw [kinds, List.all_cons, op.isPrinted_kind,
      isPrinted_enclose _ (isPrinted_kinds operand printable)]
    rfl
  | binary op left right _ =>
    rw [isPrintable, Bool.and_eq_true] at printable
    rw [kinds, List.all_append, List.all_append, op.isPrinted_kinds,
      isPrinted_enclose _ (isPrinted_kinds left printable.1),
      isPrinted_enclose _ (isPrinted_kinds right printable.2)]
    rfl
  | call callee arguments _ =>
    rw [isPrintable, Bool.and_eq_true] at printable
    rw [kinds, List.all_cons, List.all_cons, isPrinted_argumentKinds arguments printable.2,
      show Token.Kind.isPrinted (.identifier callee) = true from printable.1]
    rfl
  | _ => cases printable

theorem isPrinted_argumentKinds (nodes : List Node) (printable : arePrintable nodes = true) :
    (argumentKinds nodes).all Token.Kind.isPrinted = true := by
  match nodes with
  | [] => rfl
  | [node] =>
    rw [arePrintable, Bool.and_eq_true] at printable
    rw [argumentKinds, List.all_append, isPrinted_kinds node printable.1]
    rfl
  | node :: second :: nodes =>
    rw [arePrintable, Bool.and_eq_true] at printable
    rw [argumentKinds, List.all_append, isPrinted_kinds node printable.1, List.all_cons,
      isPrinted_argumentKinds (second :: nodes) printable.2]
    rfl

end

mutual

theorem nest_kinds (node : Node) (printable : node.isPrintable = true) (opened : Nat) :
    node.kinds.foldlM nest opened = some opened := by
  cases node with
  | literal value _ => rw [kinds, List.foldlM_cons, value.nest_token]; rfl
  | identifier => rfl
  | unary op operand _ =>
    rw [kinds, List.foldlM_cons, op.nest_kind]
    exact nest_enclose _ (nest_kinds operand printable) opened
  | binary op left right _ =>
    rw [isPrintable, Bool.and_eq_true] at printable
    rw [kinds, List.foldlM_append, nest_enclose _ (nest_kinds left printable.1)]
    simp only [Option.bind_eq_bind, Option.bind_some]
    rw [List.foldlM_append, op.nest_kinds]
    exact nest_enclose _ (nest_kinds right printable.2) opened
  | call callee arguments _ =>
    rw [isPrintable, Bool.and_eq_true] at printable
    rw [kinds, List.foldlM_cons]
    show List.foldlM nest opened (.punct .leftParen :: argumentKinds arguments) = some opened
    rw [List.foldlM_cons]
    exact nest_argumentKinds arguments printable.2 opened
  | _ => cases printable

theorem nest_argumentKinds (nodes : List Node) (printable : arePrintable nodes = true)
    (opened : Nat) : (argumentKinds nodes).foldlM nest (opened + 1) = some opened := by
  match nodes with
  | [] => rfl
  | [node] =>
    rw [arePrintable, Bool.and_eq_true] at printable
    rw [argumentKinds, List.foldlM_append, nest_kinds node printable.1]
    rfl
  | node :: second :: nodes =>
    rw [arePrintable, Bool.and_eq_true] at printable
    rw [argumentKinds, List.foldlM_append, nest_kinds node printable.1]
    simp only [Option.bind_eq_bind, Option.bind_some]
    rw [List.foldlM_cons]
    exact nest_argumentKinds (second :: nodes) printable.2 opened

end

theorem kinds_ne_nil (node : Node) (printable : node.isPrintable = true) : node.kinds ≠ [] := by
  cases node with
  | binary op left right _ =>
    cases op <;> simp [kinds, BinaryOp.kinds]
  | literal | identifier | unary | call => simp [kinds]
  | _ => cases printable

end Node

/-! ### Printed text -/

/-- A character that does not end a line. -/
def IsFlat (c : Char) : Prop := c ≠ '\n' ∧ c ≠ '\r'

theorem isFlat_name {c : Char} (h : Text.continuesName c = true) : IsFlat c := by
  constructor <;> (rintro rfl; exact absurd h (by decide))

theorem isFlat_digit {c : Char} (h : Decimal.isDigit 16 c = true) : IsFlat c := by
  constructor <;> (rintro rfl; exact absurd h (by decide))

theorem isFlat_of_all {cs : List Char} (plain : cs.all (fun c => c != '\n' && c != '\r') = true) :
    ∀ c ∈ cs, IsFlat c := by
  simpa [IsFlat] using plain

theorem isFlat_hex {n : Nat} (lt : n < 256) :
    ∀ c ∈ '\\' :: 'x' :: Text.hexDigits 2 n, IsFlat c := by
  obtain ⟨high, low, spelled, isHigh, isLow, -⟩ := Text.hexDigits_two n lt
  rw [spelled]
  simp only [List.forall_mem_cons, List.not_mem_nil, false_imp_iff, implies_true, and_true]
  exact ⟨by unfold IsFlat; decide, by unfold IsFlat; decide, isFlat_digit isHigh, isFlat_digit isLow⟩

theorem isFlat_quoteChar {quote c : Char} (marks : quote = '\'' ∨ quote = '"') :
    ∀ d ∈ Text.quoteChar quote c, IsFlat d := by
  unfold Text.quoteChar
  split_ifs with backslash feed ret tab same control
  · exact isFlat_of_all rfl
  · exact isFlat_of_all rfl
  · exact isFlat_of_all rfl
  · exact isFlat_of_all rfl
  · subst same
    rcases marks with rfl | rfl <;> exact isFlat_of_all rfl
  · have lt : c.toNat < 256 := by
      simp only [Text.isControl, Bool.or_eq_true, Bool.and_eq_true, decide_eq_true_eq] at control
      omega
    exact isFlat_hex lt
  · intro d member
    obtain rfl := List.mem_singleton.mp member
    exact ⟨feed, ret⟩

theorem isFlat_quoted {spell : α → List Char} {quote : Char} (marks : quote = '\'' ∨ quote = '"')
    (each : ∀ unit, ∀ c ∈ spell unit, IsFlat c) (units : List α) :
    ∀ c ∈ quote :: units.flatMap spell ++ [quote], IsFlat c := by
  have isQuote : IsFlat quote := by rcases marks with rfl | rfl <;> (unfold IsFlat; decide)
  intro c member
  rw [List.cons_append, List.mem_cons, List.mem_append, List.mem_flatMap,
    List.mem_singleton] at member
  rcases member with rfl | ⟨unit, _, inside⟩ | rfl
  · exact isQuote
  · exact each unit c inside
  · exact isQuote

theorem isFlat_quoteByte {quote : Char} (marks : quote = '\'' ∨ quote = '"') (byte : UInt8) :
    ∀ c ∈ Text.quoteByte quote byte, IsFlat c := by
  simp only [Text.quoteByte, StringLiteral.toNat_ofNat_byte]
  split_ifs
  · exact isFlat_quoteChar marks
  · exact isFlat_hex byte.toNat_lt

theorem isFlat_spelling {kind : Token.Kind} (printed : kind.isPrinted = true) :
    ∀ c ∈ kind.spelling.toList, IsFlat c := by
  cases kind with
  | identifier name =>
    simp only [Token.Kind.isPrinted, Name.isValid] at printed
    split at printed
    · cases printed
    · next c rest spelled =>
      simp only [Bool.and_eq_true] at printed
      rw [Token.Kind.spelling, spelled]
      intro d member
      apply isFlat_name
      rcases List.mem_cons.mp member with rfl | member
      · exact Name.continuesName_of_starts printed.1.1.1
      · exact List.all_eq_true.mp printed.1.1.2 d member
  | keyword word => cases word <;> exact isFlat_of_all rfl
  | number value =>
    simp only [Token.Kind.isPrinted, Bool.and_eq_true, decide_eq_true_eq] at printed
    cases value with
    | int n =>
      rw [Token.Kind.spelling, Lexer.toList_text_int (by simpa [Value.isPlain] using printed.1)]
      intro c member
      have digit := Number.isDigit_toDigits _ c member
      constructor <;> (rintro rfl; exact absurd digit (by decide))
    | _ => cases printed.2
  | str text =>
    have marks := StringLiteral.quoteFor_eq (text.toList.contains '\'') (text.toList.contains '"')
    rw [Token.Kind.spelling, Value.repr, String.toList_ofList]
    exact isFlat_quoted marks (fun _ => isFlat_quoteChar marks) _
  | bytes data =>
    have marks := StringLiteral.quoteFor_eq (data.contains 0x27) (data.contains 0x22)
    have spelled : (Token.Kind.bytes data).spelling.toList = 'b' :: Text.quoteBytes data :=
      String.toList_ofList
    rw [spelled]
    intro c member
    rcases List.mem_cons.mp member with rfl | member
    · unfold IsFlat; decide
    · exact isFlat_quoted marks (isFlat_quoteByte marks) _ c member
  | punct mark => cases mark <;> exact isFlat_of_all rfl
  | _ => cases printed

theorem toList_intercalate_spelling (kind : Token.Kind) (kinds : List Token.Kind) :
    (" ".intercalate ((kind :: kinds).map Token.Kind.spelling)).toList =
      kind.spelling.toList ++ spaced kinds := by
  induction kinds generalizing kind with
  | nil => simp [spaced]
  | cons next kinds ih =>
    rw [List.map_cons, List.map_cons, String.intercalate_cons_cons, ← List.map_cons,
      String.toList_append, ih next, String.toList_append]
    simp [spaced]

theorem length_le_spaced (kinds : List Token.Kind) : kinds.length ≤ (spaced kinds).length := by
  induction kinds with
  | nil => exact Nat.le_refl 0
  | cons kind kinds ih =>
    have length : (spaced (kind :: kinds)).length =
        kind.spelling.toList.length + 1 + (spaced kinds).length := by
      rw [spaced, List.flatMap_cons, List.length_append, List.length_cons]
      rfl
    rw [List.length_cons, length]
    omega

/-! ### From text to tree -/

namespace Lexer

/-- A printed line is read as the tokens that were written, a NEWLINE and the end marker. -/
theorem answers_ofText {kinds : List Token.Kind} {ending : String} (nonempty : kinds ≠ [])
    (printed : ∀ kind ∈ kinds, kind.isPrinted = true) (nested : kinds.foldlM nest 0 = some 0)
    (ends : ending = "" ∨ ending = "\n") (tabSize : UInt64) :
    let s := Lexer.ofText (" ".intercalate (kinds.map Token.Kind.spelling) ++ ending) tabSize
    ∃ (tokens : List Token) (newline last : Token) (t : Lexer),
      s.answers = (t.answers.after [newline, last]).after tokens ∧ tokens.map Token.kind = kinds ∧
      newline.kind = .newline ∧ last.kind = .endMarker ∧ 3 * kinds.length ≤ s.bound := by
  intro s
  obtain ⟨kind, kinds, rfl⟩ := List.exists_cons_of_ne_nil nonempty
  obtain ⟨c, more, spelled, starts⟩ := head_spelling (printed kind List.mem_cons_self)
  have chars := toList_intercalate_spelling kind kinds
  have flat : ∀ c ∈ (" ".intercalate ((kind :: kinds).map Token.Kind.spelling)).toList,
      c ≠ '\n' ∧ c ≠ '\r' := by
    rw [chars]
    intro c member
    rcases List.mem_append.mp member with member | member
    · exact isFlat_spelling (printed kind List.mem_cons_self) c member
    · obtain ⟨later, inside, member⟩ := List.mem_flatMap.mp member
      rcases List.mem_cons.mp member with rfl | member
      · decide
      · exact isFlat_spelling (printed later (List.mem_cons_of_mem _ inside)) c member
  have line : Source.lines (" ".intercalate ((kind :: kinds).map Token.Kind.spelling) ++ ending) =
      [c :: (more ++ (spaced kinds ++ ['\n']))] := by
    rw [Source.lines_of_flat flat (by rw [chars, spelled]; exact List.cons_ne_nil c _) ends, chars,
      spelled, List.append_assoc, List.cons_append]
  have first := printed kind List.mem_cons_self
  have typed : Typed (kind :: kinds) (c :: (more ++ (spaced kinds ++ ['\n']))) :=
    .cons first (readsAs_spelling first (startsBlank_spaced kinds))
      (typed_spaced fun kind member => printed kind (List.mem_cons_of_mem _ member))
      (.inl (by rw [spelled, List.cons_append]))
  obtain ⟨tokens, newline, last, t, told, same, isNewline, isLast⟩ :=
    answers_of_line line starts typed nested tabSize
  refine ⟨tokens, newline, last, t, told, same, isNewline, isLast, ?_⟩
  have := length_le_spaced kinds
  rw [bound, show s.cursor.lines = _ from line]
  simp only [List.flatten_singleton, List.length_cons, List.length_append]
  omega

end Lexer

/-- Parsing the text of a printable tree gives the tree back, up to its lines, and stops at the
NEWLINE that ends the text. -/
theorem Parser.expression_text (node : Node) (printable : node.isPrintable = true)
    (ending : String) (ends : ending = "" ∨ ending = "\n") (tabSize : UInt64) :
    ∃ (node' : Node) (p q r : Parser) (newline last : Token),
      Parser.expression.run (.ofText (node.text ++ ending) tabSize) = .ok node' p ∧
      node'.unlined = node.unlined ∧
      ParseM.advance p = .ok newline q ∧ newline.kind = .newline ∧
      ParseM.advance q = .ok last r ∧ last.kind = .endMarker := by
  obtain ⟨tokens, newline, last, t, answers, spelled, isNewline, isLast, fits⟩ :=
    Lexer.answers_ofText (node.kinds_ne_nil printable)
      (List.all_eq_true.mp (node.isPrinted_kinds printable)) (node.nest_kinds printable 0) ends
      tabSize
  obtain ⟨node', derives, unlined⟩ := node.derives printable tokens spelled
  have length : tokens.length = node.kinds.length := by rw [← spelled, List.length_map]
  let start := Parser.ofText (node.text ++ ending) tabSize
  have enough : Level.or.steps tokens ≤ start.budget := by
    have fits : 3 * node.kinds.length ≤ start.stream.lexer.bound := fits
    show 12 * tokens.length + 12 - 0 ≤ 16 * (0 + start.stream.lexer.bound + 2)
    omega
  have stops : Level.or.EndsBefore (t.answers.after [newline, last]) :=
    ⟨newline, rfl, by rw [isNewline]; rfl⟩
  obtain ⟨p, parsed, left, -⟩ := (derives.loosen (Nat.zero_le _)).reads start.budget _ enough stops
    start answers
  obtain ⟨q, moved, leftEnd, -⟩ := ParseM.Reads.advance newline (t.answers.after [last]) p left
  obtain ⟨r, movedEnd, -, -⟩ := ParseM.Reads.advance last t.answers q leftEnd
  exact ⟨node', p, q, r, newline, last, parsed, unlined, moved, isNewline, movedEnd, isLast⟩

theorem Parser.expression_text_of_is_not :
    let node : Node := .binary .identical (.identifier "a" 1)
      (.unary .not (.binary .pow (.unary .negate (.literal (.int 2) 1) 1)
        (.call "f" [.literal (.str "it's") 1] 1) 1) 1) 1
    node.text = "a is ( not ( - 2 ) ** f ( \"it's\" ) )" ∧ node.isPrintable = true ∧
      ∃ (node' : Node) (p q r : Parser) (newline last : Token),
        Parser.expression.run (.ofText (node.text ++ "\n") 8) = .ok node' p ∧
        node'.unlined = node.unlined ∧
        ParseM.advance p = .ok newline q ∧ newline.kind = .newline ∧
        ParseM.advance q = .ok last r ∧ last.kind = .endMarker := by
  intro node
  have printable : node.isPrintable = true := by decide
  have text : node.text = "a is ( not ( - 2 ) ** f ( \"it's\" ) )" := by decide
  exact ⟨text, printable, Parser.expression_text node printable "\n" (.inr rfl) 8⟩

end Offside
