import Offside.Parser.Expression
import Offside.Proofs.Parsing.Answers

/-!
# The grammar of expressions

`Derives level tokens node` says that the tokens spell an expression of the level and that `node` is
its tree. The rules leave open how many parentheses there are, whether a comma follows the last
argument, and how a text is cut into adjacent literals.
-/

namespace Offside

namespace Level

/-- The place of a level, counted from the loosest. -/
def rank : Level → Nat
  | .or => 0
  | .and => 1
  | .comparison => 2
  | .bitOr => 3
  | .bitXor => 4
  | .bitAnd => 5
  | .shift => 6
  | .additive => 7
  | .multiplicative => 8
  | .unary => 9
  | .power => 10
  | .atom => 11

/-- Whether the level folds its operands to the left. -/
def isChain (level : Level) : Bool := level.rank < 9

theorem rank_le (level : Level) : level.rank ≤ 11 := by cases level <;> decide

theorem rank_tighter {level : Level} (h : level ≠ .atom) : level.tighter.rank = level.rank + 1 := by
  cases level <;> first | rfl | exact absurd rfl h

theorem rank_le_tighter (level : Level) : level.rank ≤ level.tighter.rank := by
  cases level <;> decide

/-- Whether an expression of the level ends before a token of this kind. -/
def endsBefore (level : Level) : Token.Kind → Bool
  | .str _ | .bytes _ | .punct .leftParen => false
  | .keyword .isWord | .keyword .notWord => Level.comparison.rank < level.rank
  | kind => kind.operator?.all fun op => (ofBinary op).rank < level.rank

/-- A level that fewer operators continue ends before more tokens. -/
theorem endsBefore_mono {loose tight : Level} {kind : Token.Kind}
    (le : ∀ op, (ofBinary op).rank < loose.rank → (ofBinary op).rank < tight.rank)
    (h : loose.endsBefore kind = true) : tight.endsBefore kind = true := by
  unfold endsBefore at h ⊢
  split at h
  · cases h
  · cases h
  · cases h
  · exact decide_eq_true (le .identical (of_decide_eq_true h))
  · exact decide_eq_true (le .identical (of_decide_eq_true h))
  · rw [Option.all_eq_true] at h ⊢
    intro op found
    exact decide_eq_true (le op (of_decide_eq_true (h op found)))

end Level

theorem ParseM.expressionAt_chain {level : Level} (chained : level.isChain = true) (steps : Nat) :
    expressionAt (steps + 1) level = (do
      let first ← expressionAt steps level.tighter
      chain (operatorAt level) (expressionAt steps level.tighter) steps first) := by
  cases level <;> first | rfl | cases chained

/-- The tokens that spell an operator between two operands. -/
def BinaryOp.kinds : BinaryOp → List Token.Kind
  | .add => [.punct .plus]
  | .sub => [.punct .minus]
  | .mul => [.punct .star]
  | .div => [.punct .slash]
  | .floorDiv => [.punct .doubleSlash]
  | .mod => [.punct .percent]
  | .pow => [.punct .doubleStar]
  | .shiftLeft => [.punct .leftShift]
  | .shiftRight => [.punct .rightShift]
  | .bitAnd => [.punct .ampersand]
  | .bitOr => [.punct .pipe]
  | .bitXor => [.punct .caret]
  | .less => [.punct .less]
  | .greater => [.punct .greater]
  | .lessEqual => [.punct .lessEqual]
  | .greaterEqual => [.punct .greaterEqual]
  | .equal => [.punct .equalEqual]
  | .notEqual => [.punct .notEqual]
  | .contained => [.keyword .inWord]
  | .notContained => [.keyword .notWord, .keyword .inWord]
  | .identical => [.keyword .isWord]
  | .notIdentical => [.keyword .isWord, .keyword .notWord]
  | .and => [.keyword .andWord]
  | .or => [.keyword .orWord]

/-- The token that spells an operator before an operand. -/
def UnaryOp.kind : UnaryOp → Token.Kind
  | .plus => .punct .plus
  | .negate => .punct .minus
  | .invert => .punct .tilde
  | .not => .keyword .notWord

/-- The value that a keyword stands for. -/
def Keyword.value? : Keyword → Option Value
  | .trueWord => some (.bool true)
  | .falseWord => some (.bool false)
  | .noneWord => some .none
  | _ => none

theorem unaryOp?_of_value? {word : Keyword} {value : Value} (known : word.value? = some value) :
    (Token.Kind.keyword word).unaryOp? = none := by
  cases word <;> first | rfl | exact absurd known (by simp [Keyword.value?])

/-- Tokens that list the items up to and including `closing`, a comma after each but the last, where
it may stand. -/
inductive Separated (closing : Punct) : List (List Token) → List Token → Prop
  | closed {token} : token.kind = .punct closing → Separated closing [] [token]
  | last {item token} : token.kind = .punct closing → Separated closing [item] (item ++ [token])
  | more {item items token tokens} : token.kind = .punct .comma → Separated closing items tokens →
      Separated closing (item :: items) (item ++ token :: tokens)

theorem Separated.length_le {closing : Punct} {items : List (List Token)} {tokens item : List Token}
    (h : Separated closing items tokens) (member : item ∈ items) :
    item.length + 1 ≤ tokens.length := by
  induction h with
  | closed => cases member
  | last =>
    obtain rfl := List.mem_singleton.mp member
    simp
  | more _ _ ih =>
    rw [List.length_append, List.length_cons]
    rcases List.mem_cons.mp member with rfl | member
    · omega
    · have := ih member
      omega

inductive Derives : Level → List Token → Node → Prop
  | tighter {level tokens node} : Derives level.tighter tokens node → Derives level tokens node
  /-- A right operand of `is` does not start with `not`, which would make another operator. -/
  | binary {level op left mark marks right a b} : Level.ofBinary op = level →
      level.isChain = true → (mark :: marks).map Token.kind = op.kinds →
      (op = .identical → right.head?.map Token.kind ≠ some (.keyword .notWord)) →
      Derives level left a → Derives level.tighter right b →
      Derives level (left ++ mark :: (marks ++ right)) (.binary op a b mark.pos.line)
  | power {left mark right a b} : mark.kind = .punct .doubleStar → Derives .atom left a →
      Derives .unary right b → Derives .power (left ++ mark :: right) (.binary .pow a b mark.pos.line)
  | unary {mark op operand a} : mark.kind = op.kind → Derives .unary operand a →
      Derives .unary (mark :: operand) (.unary op a mark.pos.line)
  | identifier {token name} : token.kind = .identifier name →
      Derives .atom [token] (.identifier name token.pos.line)
  | call {token name opening tokens} {items : List (List Token × Node)} :
      token.kind = .identifier name → opening.kind = .punct .leftParen →
      Separated .rightParen (items.map Prod.fst) tokens →
      (∀ item ∈ items, Derives .or item.1 item.2) →
      Derives .atom (token :: opening :: tokens) (.call name (items.map Prod.snd) token.pos.line)
  | number {token value} : token.kind = .number value →
      Derives .atom [token] (.literal value token.pos.line)
  | constant {token word value} : token.kind = .keyword word → word.value? = some value →
      Derives .atom [token] (.literal value token.pos.line)
  | text {token tokens part} {parts : List String} : token.kind = .str part →
      tokens.map Token.kind = parts.map .str →
      Derives .atom (token :: tokens) (.literal (.str (parts.foldl (· ++ ·) part)) token.pos.line)
  | bytes {token tokens part} {parts : List (List UInt8)} : token.kind = .bytes part →
      tokens.map Token.kind = parts.map .bytes →
      Derives .atom (token :: tokens) (.literal (.bytes (parts.foldl (· ++ ·) part)) token.pos.line)
  | parenthesized {opening tokens closing node} : opening.kind = .punct .leftParen →
      closing.kind = .punct .rightParen → Derives .or tokens node →
      Derives .atom (opening :: (tokens ++ [closing])) node

/-- Where the spelling of an expression may start: never at a closing bracket, and at an operator
only down to the level of unary operators. -/
theorem Derives.starts {level : Level} {tokens : List Token} {node : Node}
    (h : Derives level tokens node) : ∃ token rest, tokens = token :: rest ∧
      token.kind ≠ .punct .rightParen ∧ (9 < level.rank → token.kind.unaryOp? = none) := by
  induction h with
  | @tighter level tokens node _ ih =>
    obtain ⟨token, rest, rfl, open', unary⟩ := ih
    have := level.rank_le_tighter
    exact ⟨token, rest, rfl, open', fun lt => unary (by omega)⟩
  | @binary level op left mark marks right a b _ chain _ _ _ _ ih _ =>
    obtain ⟨token, rest, rfl, open', -⟩ := ih
    have := of_decide_eq_true chain
    exact ⟨token, _, rfl, open', fun lt => absurd lt (by omega)⟩
  | power _ _ _ ih _ =>
    obtain ⟨token, rest, rfl, open', unary⟩ := ih
    exact ⟨token, _, rfl, open', fun _ => unary (by decide)⟩
  | @unary mark op _ _ spelled _ _ =>
    refine ⟨mark, _, rfl, ?_, fun lt => absurd lt (by decide)⟩
    rw [spelled]
    cases op <;> decide
  | constant spelled known =>
    exact ⟨_, _, rfl, by rw [spelled]; simp, fun _ => by rw [spelled, unaryOp?_of_value? known]⟩
  | identifier spelled | call spelled | number spelled | text spelled | bytes spelled
  | parenthesized spelled =>
    exact ⟨_, _, rfl, by rw [spelled]; simp, fun _ => by rw [spelled]; rfl⟩

end Offside
