import Offside.Proofs.Parsing.TreeLines
import Offside.Proofs.Scope.Session

/-!
# Statements and expressions

Expressions and statements are trees of one type, and only the parser keeps them apart. `Node.parts` tells
what each part is to the tree that it is in, and `Node.WellSorted` that all parts are what they may be there.
So are the trees of every phrase (`Forms.fits`), hence all that are parsed (`parse_wellSorted`), and what is
evaluated for its value binds no name.
-/

namespace Offside

/-- Whether the value is no negative integer, which takes an operator to write. -/
def Value.isUnsigned : Value → Bool
  | .int n => 0 ≤ n
  | _ => true

def Token.Kind.isUnsigned : Token.Kind → Bool
  | .number value => value.isUnsigned
  | _ => true

/-- What a part is to the tree that it is in. -/
inductive Role where
  /-- An operand, an argument, a condition or an assigned value. -/
  | operand
  | body
  /-- What is run where a condition does not hold. -/
  | alternative
  /-- One of the statements of a block. -/
  | statement
  deriving DecidableEq

/-- Whether the tree may be such a part. -/
def Role.admits : Role → Node → Bool
  | .operand, node => node.isExpression
  | .body, .block .. => true
  | .body, _ => false
  | .alternative, .noOp _ | .alternative, .block .. | .alternative, .branch .. => true
  | .alternative, _ => false
  | .statement, .block .. => false
  | .statement, _ => true

namespace Node

def isUnsigned : Node → Bool
  | .literal value _ => value.isUnsigned
  | _ => true

def parts : Node → List (Role × Node)
  | .literal .. | .identifier .. | .noOp _ => []
  | .unary _ operand _ => [(.operand, operand)]
  | .binary _ left right _ => [(.operand, left), (.operand, right)]
  | .call _ arguments _ => arguments.map fun argument => (.operand, argument)
  | .assign _ value _ => [(.operand, value)]
  | .branch condition yes no _ => [(.operand, condition), (.body, yes), (.alternative, no)]
  | .loop condition body _ => [(.operand, condition), (.body, body)]
  | .block statements _ => statements.map fun statement => (.statement, statement)
  | .function _ _ body _ => [(.body, body)]

theorem children_eq (node : Node) : node.children = node.parts.map Prod.snd := by
  cases node with
  | call | block =>
    rw [parts, List.map_map]
    exact (List.map_id _).symm
  | _ => rfl

/-- In the tree and in all trees in it, the parts are what they may be there and no literal has a sign. -/
def WellSorted (node : Node) : Prop := ∀ m ∈ node.subtrees,
  m.isUnsigned = true ∧ ∀ part ∈ m.parts, part.1.admits part.2 = true

end Node

/-- The tree may be such a part, and all parts in it are what they may be. -/
structure Role.Fits (role : Role) (node : Node) : Prop where
  admitted : role.admits node = true
  sorted : node.WellSorted

namespace Node

variable {node : Node} {nodes : List Node} {line : Nat}

theorem wellSorted_iff : node.WellSorted ↔
    node.isUnsigned = true ∧ ∀ part ∈ node.parts, part.1.Fits part.2 := by
  refine forall_subtrees.trans ?_
  rw [children_eq, List.forall_mem_map]
  constructor
  · rintro ⟨⟨unsigned, admitted⟩, inside⟩
    exact ⟨unsigned, fun part member => ⟨admitted part member, inside part member⟩⟩
  · rintro ⟨unsigned, fits⟩
    exact ⟨⟨unsigned, fun part member => (fits part member).admitted⟩,
      fun part member => (fits part member).sorted⟩

theorem WellSorted.of_parts (unsigned : node.isUnsigned = true)
    (fits : node.parts.Forall fun part => part.1.Fits part.2) : node.WellSorted :=
  wellSorted_iff.mpr ⟨unsigned, List.forall_iff_forall_mem.mp fits⟩

theorem WellSorted.of_statements (each : ∀ node ∈ nodes, Role.statement.Fits node) :
    (block nodes line).WellSorted :=
  wellSorted_iff.mpr ⟨rfl, List.forall_mem_map.mpr each⟩

end Node

namespace Role

variable {node left right : Node} {nodes : List Node} {line : Nat}

theorem fits_unary {op : UnaryOp} (inner : operand.Fits node) : operand.Fits (.unary op node line) :=
  ⟨inner.admitted, Node.WellSorted.of_parts rfl inner⟩

theorem fits_binary {op : BinaryOp} (first : operand.Fits left) (second : operand.Fits right) :
    operand.Fits (.binary op left right line) :=
  ⟨Bool.and_eq_true_iff.mpr ⟨first.admitted, second.admitted⟩, Node.WellSorted.of_parts rfl ⟨first, second⟩⟩

theorem fits_call {name : String} (each : ∀ node ∈ nodes, operand.Fits node) :
    operand.Fits (.call name nodes line) :=
  ⟨Node.areExpressions_iff.mpr fun node member => (each node member).admitted,
    Node.wellSorted_iff.mpr ⟨rfl, List.forall_mem_map.mpr each⟩⟩

/-- An expression is no block, and may be a statement. -/
theorem Fits.statement (fits : operand.Fits node) : statement.Fits node := by
  refine ⟨?_, fits.sorted⟩
  have expression := fits.admitted
  cases node <;> first | rfl | cases expression

end Role

/-! ### Numbers -/

theorem Number.integer_unsigned {text : String} {pos : Position} {n : Nat} {value : Value}
    (read : integer text pos n = .ok value) : value.isUnsigned = true := by
  unfold integer at read
  split at read
  · next small =>
    cases read
    refine decide_eq_true (Int64.le_iff_toInt_le.mpr ?_)
    rw [Int64.toInt_ofNat_of_lt small]
    exact Int.natCast_nonneg n
  · cases read

theorem Number.value_unsigned {state : State} {chars : List Char} {pos : Position} {v : Value}
    (read : value state chars pos = .ok v) : v.isUnsigned = true := by
  unfold value at read
  dsimp only at read
  split at read
  · exact integer_unsigned read
  · exact integer_unsigned read
  · exact integer_unsigned read
  · exact integer_unsigned read
  · split at read <;> cases read
    rfl
  · split at read <;> cases read
    rfl
  · split at read <;> cases read
    rfl
  · cases read

theorem Number.read?_unsigned {pos : Position} {cs : List Char} {r : Reading Token.Kind}
    (read : read? pos cs = some r) : r.All fun _ kind => kind.isUnsigned = true := by
  unfold read? at read
  split at read
  · cases read
    exact .map (r := ⟨_, _⟩) fun _ => value_unsigned
  · cases read

theorem Name.read?_unsigned {pos : Position} {cs : List Char} {r : Reading Token.Kind}
    (read : read? pos cs = some r) : r.All fun _ kind => kind.isUnsigned = true := by
  unfold read? at read
  split at read
  · cases read
  · split at read
    · cases read
      split
      · exact .error
      · rintro _ ⟨⟩
        unfold kind
        split <;> rfl
    · cases read

theorem StringLiteral.read?_unsigned {start : Position} {cs : List Char} {r : Reading Token.Kind}
    (read : read? start cs = some r) : r.All fun _ kind => kind.isUnsigned = true := by
  unfold read? at read
  dsimp only at read
  split at read
  · split at read
    · cases read
    · split at read
      · cases read
        exact .error
      · obtain ⟨form, -, rfl⟩ := Option.map_eq_some_iff.mp read
        split
        · exact .error
        · refine .map fun _ _ => ?_
          unfold Form.kind
          split <;> rfl
  · cases read

namespace Lexer

variable {s t : Lexer} {tokens : List Token}

theorem lexeme?_unsigned {pos : Position} {cs : List Char} {taken : Nat} {kind : Token.Kind}
    (read : lexeme? pos cs = some (.ok taken kind)) : kind.isUnsigned = true := by
  have all : (Reading.ok taken kind).All fun _ kind => kind.isUnsigned = true := by
    rcases Option.or_eq_some_iff.mp read with read | ⟨-, read⟩
    · rcases Option.or_eq_some_iff.mp read with read | ⟨-, read⟩
      · rcases Option.or_eq_some_iff.mp read with read | ⟨-, read⟩
        · exact StringLiteral.read?_unsigned read
        · exact Name.read?_unsigned read
      · exact Number.read?_unsigned read
    · obtain ⟨mark, -, same⟩ := Option.map_eq_some_iff.mp read
      cases same
      rintro _ ⟨⟩
      rfl
  exact all kind rfl

theorem Turn.unsigned (turn : Turn s tokens t) :
    ∀ token ∈ tokens, token.kind.isUnsigned = true := by
  cases turn with
  | blank | fold | join => exact List.forall_mem_nil _
  | enter =>
    intro token member
    rcases (Indentation.mem_settle member).1 with kind | kind <;> rw [kind] <;> rfl
  | newline => exact List.forall_mem_singleton.mpr rfl
  | token _ _ _ read => exact List.forall_mem_singleton.mpr (lexeme?_unsigned read)

theorem Run.unsigned (run : Run s tokens t) : ∀ token ∈ tokens, token.kind.isUnsigned = true := by
  induction run with
  | refl => exact List.forall_mem_nil _
  | step turn _ ih => exact List.forall_mem_append.mpr ⟨turn.unsigned, ih⟩

end Lexer

theorem tokenize_unsigned {source : String} {tabSize : UInt64} {tokens : List Token}
    (done : tokenize source tabSize = .ok tokens) : ∀ token ∈ tokens, token.kind.isUnsigned = true := by
  obtain ⟨front, t, run, -, rfl⟩ := tokenize_eq_ok_iff.mp done
  refine List.forall_mem_append.mpr ⟨run.unsigned, fun token member => ?_⟩
  rcases (Lexer.mem_closing member).1 with kind | kind <;> rw [kind] <;> rfl

/-! ### Phrases -/

section

variable {tokens : List Token} {node : Node} {nodes : List Node}

/-- An expression takes its literals from tokens. -/
theorem Derives.fits {level : Level} (h : Derives level tokens node)
    (unsigned : ∀ token ∈ tokens, token.kind.isUnsigned = true) : Role.operand.Fits node := by
  induction h with
  | tighter _ ih => exact ih unsigned
  | binary _ _ _ _ _ _ ih ih' =>
    simp only [List.forall_mem_append, List.forall_mem_cons] at unsigned
    obtain ⟨first, -, -, second⟩ := unsigned
    exact Role.fits_binary (ih first) (ih' second)
  | power _ _ _ ih ih' =>
    simp only [List.forall_mem_append, List.forall_mem_cons] at unsigned
    obtain ⟨first, -, second⟩ := unsigned
    exact Role.fits_binary (ih first) (ih' second)
  | unary _ _ ih => exact Role.fits_unary (ih (List.forall_mem_cons.mp unsigned).2)
  | call _ _ separated _ ih =>
    simp only [List.forall_mem_cons] at unsigned
    refine Role.fits_call fun argument member => ?_
    obtain ⟨item, listed, rfl⟩ := List.mem_map.mp member
    have part := separated.subset (List.mem_map_of_mem listed)
    exact ih item listed fun token inside => unsigned.2.2 token (part inside)
  | identifier => exact ⟨rfl, Node.WellSorted.of_parts rfl trivial⟩
  | number spelled =>
    have literal := List.forall_mem_singleton.mp unsigned
    rw [spelled] at literal
    exact ⟨rfl, Node.WellSorted.of_parts literal trivial⟩
  | @constant _ word _ _ known =>
    refine ⟨rfl, Node.WellSorted.of_parts ?_ trivial⟩
    cases word <;> cases known <;> rfl
  | text | bytes => exact ⟨rfl, Node.WellSorted.of_parts rfl trivial⟩
  | parenthesized _ _ _ ih =>
    simp only [List.forall_mem_append, List.forall_mem_cons] at unsigned
    exact ih unsigned.2.1

theorem SimpleStatement.fits (h : SimpleStatement tokens node)
    (unsigned : ∀ token ∈ tokens, token.kind.isUnsigned = true) : Role.statement.Fits node := by
  cases h with
  | pass => exact ⟨rfl, Node.WellSorted.of_parts rfl trivial⟩
  | expression value => exact (value.fits unsigned).statement
  | assign _ _ value =>
    simp only [List.forall_mem_cons] at unsigned
    exact ⟨rfl, Node.WellSorted.of_parts rfl (value.fits unsigned.2.2)⟩
  | augment _ _ _ value =>
    simp only [List.forall_mem_cons] at unsigned
    have name : ∀ name line, Role.operand.Fits (.identifier name line) :=
      fun _ _ => ⟨rfl, Node.WellSorted.of_parts rfl trivial⟩
    exact ⟨rfl, Node.WellSorted.of_parts rfl (Role.fits_binary (name _ _) (value.fits unsigned.2.2))⟩

theorem LineRest.fits (h : LineRest tokens nodes)
    (unsigned : ∀ token ∈ tokens, token.kind.isUnsigned = true) :
    ∀ node ∈ nodes, Role.statement.Fits node := by
  induction h with
  | ended | dangling => exact List.forall_mem_nil _
  | more _ first _ ih =>
    simp only [List.forall_mem_append, List.forall_mem_cons] at unsigned
    obtain ⟨-, here, rest⟩ := unsigned
    exact List.forall_mem_cons.mpr ⟨first.fits here, ih rest⟩

theorem SimpleLine.fits (h : SimpleLine tokens nodes)
    (unsigned : ∀ token ∈ tokens, token.kind.isUnsigned = true) :
    ∀ node ∈ nodes, Role.statement.Fits node := by
  cases h with
  | simple first rest =>
    obtain ⟨here, later⟩ := List.forall_mem_append.mp unsigned
    exact List.forall_mem_cons.mpr ⟨first.fits here, rest.fits later⟩

/-- What the trees of a phrase may be to the tree that they are in. -/
def Phrase.roles : Phrase → List Role
  | .statement | .statements => [.statement]
  | .suite => [.body, .alternative]
  | .conditional _ => [.statement, .alternative]

theorem Phrase.fits_single {phrase : Phrase} (sorted : node.WellSorted)
    (admitted : (phrase.roles.all fun role => role.admits node) = true) :
    ∀ role ∈ phrase.roles, ∀ m ∈ [node], role.Fits m :=
  fun role member => List.forall_mem_singleton.mpr ⟨List.all_eq_true.mp admitted role member, sorted⟩

/-- The trees of a phrase may stand wherever the grammar has the phrase. -/
theorem Forms.fits {phrase : Phrase} (h : Forms phrase tokens nodes)
    (unsigned : ∀ token ∈ tokens, token.kind.isUnsigned = true) :
    ∀ role ∈ phrase.roles, ∀ node ∈ nodes, role.Fits node := by
  induction h with
  | nil => exact fun _ _ => List.forall_mem_nil _
  | cons _ _ ih ih' =>
    obtain ⟨first, rest⟩ := List.forall_mem_append.mp unsigned
    exact fun role member => List.forall_mem_append.mpr ⟨ih first role member, ih' rest role member⟩
  | line line => exact List.forall_mem_singleton.mpr (line.fits unsigned)
  | blank => exact Phrase.fits_single (.of_parts rfl trivial) rfl
  | conditional _ ih => exact List.forall_mem_singleton.mpr (ih unsigned .statement List.mem_cons_self)
  | loop _ test _ ih =>
    simp only [List.forall_mem_append, List.forall_mem_cons] at unsigned
    obtain ⟨-, condition, suite⟩ := unsigned
    have body := ih suite .body List.mem_cons_self _ List.mem_cons_self
    exact Phrase.fits_single (.of_parts rfl ⟨test.fits condition, body⟩) rfl
  | function _ _ _ _ _ _ _ ih =>
    simp only [List.forall_mem_append, List.forall_mem_cons] at unsigned
    have body := ih unsigned.2.2.2.2 .body List.mem_cons_self _ List.mem_cons_self
    exact Phrase.fits_single (.of_parts rfl body) rfl
  | inline _ line =>
    have statements := line.fits (List.forall_mem_cons.mp unsigned).2
    exact Phrase.fits_single (.of_statements statements) rfl
  | indented _ _ _ _ _ ih =>
    simp only [List.forall_mem_append, List.forall_mem_cons] at unsigned
    have statements := ih unsigned.2.2.2.1 .statement List.mem_cons_self
    exact Phrase.fits_single (.of_statements statements) rfl
  | only _ test _ ih =>
    simp only [List.forall_mem_append, List.forall_mem_cons] at unsigned
    obtain ⟨-, condition, suite⟩ := unsigned
    have yes := ih suite .body List.mem_cons_self _ List.mem_cons_self
    have nothing : ∀ line, Role.alternative.Fits (.noOp line) := fun _ => ⟨rfl, .of_parts rfl trivial⟩
    exact Phrase.fits_single (.of_parts rfl ⟨test.fits condition, yes, nothing _⟩) rfl
  | otherwise _ test _ _ _ ih ih' =>
    simp only [List.forall_mem_append, List.forall_mem_cons] at unsigned
    obtain ⟨-, condition, suite, -, other⟩ := unsigned
    have yes := ih suite .body List.mem_cons_self _ List.mem_cons_self
    have no := ih' other .alternative (List.mem_cons_of_mem _ List.mem_cons_self) _ List.mem_cons_self
    exact Phrase.fits_single (.of_parts rfl ⟨test.fits condition, yes, no⟩) rfl
  | chained _ test _ _ ih ih' =>
    simp only [List.forall_mem_append, List.forall_mem_cons] at unsigned
    obtain ⟨-, condition, suite, more⟩ := unsigned
    have yes := ih suite .body List.mem_cons_self _ List.mem_cons_self
    have no := ih' more .alternative (List.mem_cons_of_mem _ List.mem_cons_self) _ List.mem_cons_self
    exact Phrase.fits_single (.of_parts rfl ⟨test.fits condition, yes, no⟩) rfl

end

/-- What is evaluated for its value binds no name, whatever functions it calls and however it ends. -/
theorem Node.WellSorted.binds_nothing {node m operand : Node} (sorted : node.WellSorted)
    (inside : m ∈ node.subtrees) (part : (Role.operand, operand) ∈ m.parts) {s : Evaluator}
    (formed : s.WellFormed) (steps : Nat) (id : ScopeId) (name : String) :
    ((EvalM.eval steps operand).after s).arena.binding? id name = s.arena.binding? id name := by
  have expression : operand.isExpression = true := (sorted m inside).2 _ part
  exact (EvalM.keeps_eval steps operand s formed).binding (.inr (by rw [expression]; rfl)) name

/-- In a parsed tree the operands, arguments, conditions and assigned values are expressions and the bodies
are blocks, an alternative is a block, a conditional or nothing, and no block stands directly in another. So
what is evaluated for its value binds no name. -/
theorem parse_wellSorted {source : String} {tabSize : UInt64} {node : Node}
    (parsed : parse source tabSize = .ok node) :
    node.WellSorted ∧ ∀ m ∈ node.subtrees, ∀ operand, (Role.operand, operand) ∈ m.parts →
      ∀ s : Evaluator, s.WellFormed → ∀ steps id name,
        ((EvalM.eval steps operand).after s).arena.binding? id name = s.arena.binding? id name := by
  obtain ⟨statements, front, last, more, rfl, told, ended, extra, formed⟩ := parse_forms parsed
  have unsigned : ∀ token ∈ front ++ more, token.kind.isUnsigned = true := by
    refine List.forall_mem_append.mpr ⟨(List.forall_mem_append.mp (tokenize_unsigned told)).1, ?_⟩
    intro token member
    rw [extra token member, ended]
    rfl
  have sorted : (Node.block statements 1).WellSorted :=
    .of_statements (formed.fits unsigned .statement List.mem_cons_self)
  exact ⟨sorted, fun m inside operand part s formed steps id name =>
    sorted.binds_nothing inside part formed steps id name⟩

/-- Every kind of part, with calls of a function that binds names of its own. -/
theorem parse_wellSorted_calls :
    let source := "def f(a):\n  b = a\nwhile f(-1): pass\nif f(f(1)) < 2: c = f(2)\nelif x: y\nelse: z\n"
    ∃ program, parse source 8 = .ok program ∧ program.WellSorted ∧
      let s := (EvalM.eval 9 program).after (Evaluator.start {})
      s.WellFormed ∧ ∀ m ∈ program.subtrees, ∀ operand, (Role.operand, operand) ∈ m.parts →
        ∀ steps id name,
          ((EvalM.eval steps operand).after s).arena.binding? id name = s.arena.binding? id name := by
  intro source
  have done : (parse source 8).isOk = true := by decide +kernel
  cases parsed : parse source 8 with
  | error e =>
    rw [parsed] at done
    cases done
  | ok program =>
    obtain ⟨sorted, binds⟩ := parse_wellSorted parsed
    have started := (Evaluator.idle_start {}).wellFormed
    have formed := (EvalM.keeps_eval 9 program _ started).evaluator started
    exact ⟨program, rfl, sorted, formed, fun m inside operand part => binds m inside operand part _ formed⟩

end Offside
