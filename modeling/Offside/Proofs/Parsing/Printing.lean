import Offside.Lexer.Name
import Offside.Proofs.Parsing.Grammar
import Offside.Proofs.Tree.Lines
import Offside.Value.Text

/-!
# Printed expressions

`Node.kinds` writes an expression as tokens, with parentheses only where the levels of the operators
ask for them. `Node.derives` shows that the grammar gives the tree back.
-/

namespace Offside

/-- Whether a text is a name that a program may use. -/
def Name.isValid (name : String) : Bool :=
  match name.toList with
  | [] => false
  | c :: rest => Text.startsName c && rest.all Text.continuesName &&
      (Keyword.ofWord? name).isNone && !reservedWords.contains name

/-- Whether a literal token stands for the value: numbers with a sign and fractions are left out. -/
def Value.isPlain : Value → Bool
  | .none | .bool _ | .str _ | .bytes _ => true
  | .int n => 0 ≤ n
  | .float _ | .complex _ => false

namespace Node

mutual

/-- Whether the tree is an expression of plain values, valid names, operators and calls. -/
def isPrintable : Node → Bool
  | .literal value _ => value.isPlain
  | .identifier name _ => Name.isValid name
  | .unary _ operand _ => operand.isPrintable
  | .binary _ left right _ => left.isPrintable && right.isPrintable
  | .call callee arguments _ => Name.isValid callee && arePrintable arguments
  | _ => false

def arePrintable : List Node → Bool
  | [] => true
  | node :: rest => node.isPrintable && arePrintable rest

end

/-- The level that the tree's own operator stands at. -/
def level : Node → Level
  | .unary .. => .unary
  | .binary op .. => .ofBinary op
  | _ => .atom

end Node

/-- The level of a left operand: the power takes an atom. -/
def BinaryOp.leftLevel : BinaryOp → Level
  | .pow => .atom
  | op => .ofBinary op

/-- The level of a right operand: the power takes a unary expression. -/
def BinaryOp.rightLevel : BinaryOp → Level
  | .pow => .unary
  | op => (Level.ofBinary op).tighter

/-- The token of a literal. -/
def Value.token : Value → Token.Kind
  | .none => .keyword .noneWord
  | .bool true => .keyword .trueWord
  | .bool false => .keyword .falseWord
  | .str text => .str text
  | .bytes data => .bytes data
  | value => .number value

/-- Tokens in parentheses, if these are needed. -/
def enclose (needed : Bool) (kinds : List Token.Kind) : List Token.Kind :=
  if needed then .punct .leftParen :: (kinds ++ [.punct .rightParen]) else kinds

namespace Node

mutual

/-- The tokens of an expression. Apart from the levels, a right operand of `is` that starts with
`not` is put in parentheses. -/
def kinds : Node → List Token.Kind
  | .literal value _ => [value.token]
  | .identifier name _ => [.identifier name]
  | .unary op operand _ =>
    op.kind :: enclose (operand.level.rank < Level.unary.rank) operand.kinds
  | .binary op left right _ =>
    enclose (left.level.rank < op.leftLevel.rank) left.kinds ++ (op.kinds ++
      enclose (right.level.rank < op.rightLevel.rank ||
        (op = .identical && right.kinds.head? = some (.keyword .notWord))) right.kinds)
  | .call callee arguments _ => .identifier callee :: .punct .leftParen :: argumentKinds arguments
  | _ => []

/-- The arguments of a call up to the parenthesis that closes it. -/
def argumentKinds : List Node → List Token.Kind
  | [] => [.punct .rightParen]
  | node :: rest =>
    match rest with
    | [] => node.kinds ++ [.punct .rightParen]
    | _ :: _ => node.kinds ++ .punct .comma :: argumentKinds rest

end

end Node

/-- The text of a token, a literal as its `repr`. -/
def Token.Kind.spelling : Token.Kind → String
  | .identifier name => name
  | .keyword word => word.spelling
  | .number value => value.repr
  | .str text => (Value.str text).repr
  | .bytes data => (Value.bytes data).repr
  | .punct mark => mark.spelling
  | _ => ""

/-- The text of an expression, with a space between the tokens. -/
def Node.text (node : Node) : String := " ".intercalate (node.kinds.map Token.Kind.spelling)

/-! ### Printed tokens follow the grammar -/

theorem Level.eq_of_rank {first second : Level} (h : first.rank = second.rank) : first = second := by
  cases first <;> cases second <;> first | rfl | exact absurd h (by decide)

theorem Derives.loosen {loose tight : Level} {tokens : List Token} {node : Node}
    (le : loose.rank ≤ tight.rank) (h : Derives tight tokens node) : Derives loose tokens node := by
  generalize gap : tight.rank - loose.rank = steps
  induction steps generalizing loose with
  | zero =>
    obtain rfl := Level.eq_of_rank (show loose.rank = tight.rank by omega)
    exact h
  | succ steps ih =>
    have notAtom : loose ≠ .atom := by
      rintro rfl
      have := tight.rank_le
      have : Level.atom.rank = 11 := rfl
      omega
    have next := Level.rank_tighter notAtom
    exact .tighter (ih (by omega) (by omega))

/-- Tokens of an operand, in parentheses or not, spell it at the level that it is wanted at. -/
theorem Derives.of_enclose (wanted : Level) {own : Level} {needed : Bool} {kinds : List Token.Kind}
    {tokens : List Token} {node : Node} (spelled : tokens.map Token.kind = enclose needed kinds)
    (enough : needed = false → wanted.rank ≤ own.rank)
    (inner : ∀ tokens : List Token, tokens.map Token.kind = kinds →
      ∃ node', Derives own tokens node' ∧ node'.unlined = node.unlined) :
    ∃ node', Derives wanted tokens node' ∧ node'.unlined = node.unlined := by
  cases needed with
  | false =>
    obtain ⟨node', derives, same⟩ := inner tokens spelled
    exact ⟨node', derives.loosen (enough rfl), same⟩
  | true =>
    rw [enclose, if_pos rfl] at spelled
    obtain ⟨opening, rest, rfl, opened, spelledRest⟩ := List.map_eq_cons_iff.mp spelled
    obtain ⟨middle, last, rfl, spelledMiddle, spelledLast⟩ := List.map_eq_append_iff.mp spelledRest
    obtain ⟨closing, rfl, closed⟩ := List.map_eq_singleton_iff.mp spelledLast
    obtain ⟨node', derives, same⟩ := inner middle spelledMiddle
    have loosest : Level.or.rank ≤ own.rank := Nat.zero_le _
    have tightest : wanted.rank ≤ Level.atom.rank := wanted.rank_le
    exact ⟨node', .loosen tightest (.parenthesized opened closed (derives.loosen loosest)), same⟩

theorem Derives.of_literal {value : Value} {token : Token} (plain : value.isPlain = true)
    (spelled : token.kind = value.token) :
    Derives .atom [token] (.literal value token.pos.line) := by
  cases value with
  | none => exact .constant spelled rfl
  | bool b => cases b <;> exact .constant spelled rfl
  | int => exact .number spelled
  | str part => exact @Derives.text token [] part [] spelled rfl
  | bytes part => exact @Derives.bytes token [] part [] spelled rfl
  | float | complex => cases plain

theorem Derives.of_operands {op : BinaryOp} {left right : List Token} {a b : Node}
    {marks : List Token} (first : Derives op.leftLevel left a) (second : Derives op.rightLevel right b)
    (spelled : marks.map Token.kind = op.kinds)
    (clear : op = .identical → right.head?.map Token.kind ≠ some (.keyword .notWord)) :
    ∃ line, Derives (.ofBinary op) (left ++ (marks ++ right)) (.binary op a b line) := by
  cases marks with
  | nil => cases op <;> cases spelled
  | cons mark marks =>
    refine ⟨mark.pos.line, ?_⟩
    by_cases power : op = .pow
    · subst power
      obtain ⟨same, none⟩ := List.cons.inj spelled
      obtain rfl := List.map_eq_nil_iff.mp none
      exact .power same first second
    · have chained : op.leftLevel = .ofBinary op ∧ op.rightLevel = (Level.ofBinary op).tighter ∧
          (Level.ofBinary op).isChain = true := by
        cases op <;> first | exact absurd rfl power | decide
      rw [chained.1] at first
      rw [chained.2.1] at second
      exact .binary rfl chained.2.2 spelled clear first second

theorem head_enclose {kinds : List Token.Kind} {needed : Bool}
    (h : kinds.head? = some (.keyword .notWord) → needed = true) :
    (enclose needed kinds).head? ≠ some (.keyword .notWord) := by
  cases needed with
  | false => exact fun starts => absurd (h starts) (by decide)
  | true => simp [enclose]

namespace Node

mutual

/-- The tokens of a printable tree spell it. -/
theorem derives (node : Node) (printable : node.isPrintable = true) (tokens : List Token)
    (spelled : tokens.map Token.kind = node.kinds) :
    ∃ node', Derives node.level tokens node' ∧ node'.unlined = node.unlined := by
  cases node with
  | literal value _ =>
    obtain ⟨token, rfl, same⟩ := List.map_eq_singleton_iff.mp spelled
    exact ⟨_, .of_literal printable same, rfl⟩
  | identifier name _ =>
    obtain ⟨token, rfl, same⟩ := List.map_eq_singleton_iff.mp spelled
    exact ⟨_, .identifier same, rfl⟩
  | unary op operand _ =>
    obtain ⟨mark, rest, rfl, same, spelledRest⟩ := List.map_eq_cons_iff.mp spelled
    obtain ⟨operand', inner, unlined⟩ := Derives.of_enclose .unary spelledRest
      (fun enough => by simpa using enough) (derives operand printable)
    exact ⟨_, .unary same inner, by simp only [Node.unlined, mapLine] at unlined ⊢; rw [unlined]⟩
  | binary op left right _ =>
    rw [isPrintable, Bool.and_eq_true] at printable
    obtain ⟨first, rest, rfl, spelledFirst, spelledRest⟩ := List.map_eq_append_iff.mp spelled
    obtain ⟨marks, second, rfl, spelledMarks, spelledSecond⟩ :=
      List.map_eq_append_iff.mp spelledRest
    obtain ⟨left', derivesLeft, unlinedLeft⟩ := Derives.of_enclose op.leftLevel spelledFirst
      (fun enough => by simpa using enough) (derives left printable.1)
    obtain ⟨right', derivesRight, unlinedRight⟩ := Derives.of_enclose op.rightLevel
      spelledSecond
      (fun enough => by
        rw [Bool.or_eq_false_iff] at enough
        simpa using enough.1)
      (derives right printable.2)
    obtain ⟨line, whole⟩ := Derives.of_operands derivesLeft derivesRight spelledMarks (by
      rintro rfl
      rw [← List.head?_map, spelledSecond]
      exact head_enclose fun starts => by simp [starts])
    refine ⟨_, whole, ?_⟩
    simp only [Node.unlined, mapLine] at unlinedLeft unlinedRight ⊢
    rw [unlinedLeft, unlinedRight]
  | call callee arguments _ =>
    rw [isPrintable, Bool.and_eq_true] at printable
    obtain ⟨token, rest, rfl, same, spelledRest⟩ := List.map_eq_cons_iff.mp spelled
    obtain ⟨opening, rest, rfl, opened, spelledArguments⟩ := List.map_eq_cons_iff.mp spelledRest
    obtain ⟨items, separated, each, unlined⟩ :=
      argumentsDerive arguments printable.2 rest spelledArguments
    have lines : (items.map Prod.snd).map (mapLine fun _ => 0) =
        arguments.map (mapLine fun _ => 0) := List.map_map.trans unlined
    exact ⟨_, .call same opened separated each, by
      simp only [Node.unlined, mapLine, mapLines_eq_map, lines]⟩
  | _ => cases printable

theorem argumentsDerive (nodes : List Node) (printable : arePrintable nodes = true)
    (tokens : List Token) (spelled : tokens.map Token.kind = argumentKinds nodes) :
    ∃ items : List (List Token × Node), Separated .rightParen (items.map Prod.fst) tokens ∧
      (∀ item ∈ items, Derives .or item.1 item.2) ∧
      items.map (unlined ∘ Prod.snd) = nodes.map unlined := by
  match nodes with
  | [] =>
    obtain ⟨token, rfl, same⟩ := List.map_eq_singleton_iff.mp spelled
    exact ⟨[], .closed same, by simp, rfl⟩
  | [node] =>
    rw [arePrintable, Bool.and_eq_true] at printable
    obtain ⟨first, rest, rfl, spelledFirst, spelledRest⟩ := List.map_eq_append_iff.mp spelled
    obtain ⟨token, rfl, same⟩ := List.map_eq_singleton_iff.mp spelledRest
    obtain ⟨node', inner, unlined⟩ := derives node printable.1 first spelledFirst
    refine ⟨[(first, node')], .last same, ?_, by simp [unlined]⟩
    intro item member
    obtain rfl := List.mem_singleton.mp member
    exact inner.loosen (Nat.zero_le _)
  | node :: second :: nodes =>
    rw [arePrintable, Bool.and_eq_true] at printable
    obtain ⟨first, rest, rfl, spelledFirst, spelledRest⟩ := List.map_eq_append_iff.mp spelled
    obtain ⟨token, rest, rfl, same, spelledRest⟩ := List.map_eq_cons_iff.mp spelledRest
    obtain ⟨node', inner, unlined⟩ := derives node printable.1 first spelledFirst
    obtain ⟨items, separated, each, unlinedRest⟩ :=
      argumentsDerive (second :: nodes) printable.2 rest spelledRest
    refine ⟨(first, node') :: items, .more same separated, ?_, ?_⟩
    · intro item member
      rcases List.mem_cons.mp member with rfl | member
      · exact inner.loosen (Nat.zero_le _)
      · exact each item member
    · simp only [List.map_cons, Function.comp_apply, unlined] at unlinedRest ⊢
      rw [unlinedRest]

end

end Node

end Offside
