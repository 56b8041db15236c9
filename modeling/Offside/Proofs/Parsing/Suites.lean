import Offside.Proofs.Lexing.Opening
import Offside.Proofs.Parsing.Outcome
import Offside.Proofs.Parsing.Reads
import Offside.Proofs.Tree.Subtrees

/-!
# Bodies are not empty

A body is empty where an INDENT is followed by a DEDENT at once, which the parser accepts:
`Forms.spaced_iff`. As the lexer does not put the two side by side but at the end of some sources,
`parse_filled_iff` says for which sources all bodies have a statement.
-/

namespace Offside

open Token (Spaced OpensLast spaced_append)

/-- No block in the tree is empty. -/
def Node.Filled (node : Node) : Prop := ∀ m ∈ node.subtrees, ∀ line, m ≠ .block [] line

theorem Node.filled_iff {node : Node} :
    node.Filled ↔ (∀ line, node ≠ .block [] line) ∧ ∀ child ∈ node.children, child.Filled :=
  forall_subtrees

theorem Node.filled_block {statements : List Node} {line : Nat} :
    (block statements line).Filled ↔ statements ≠ [] ∧ ∀ node ∈ statements, node.Filled := by
  rw [filled_iff]
  refine and_congr_left fun _ => ⟨fun other empty => other line (by rw [empty]), ?_⟩
  exact fun some line same => some (Node.block.inj same).1

theorem Node.filled_function {name : String} {params : List String} {body : Node} {line : Nat} :
    (function name params body line).Filled ↔ body.Filled := by
  rw [filled_iff, and_iff_right nofun]
  exact List.forall_mem_singleton

section

variable {condition : Node} (test : condition.Filled)

include test

theorem Node.filled_loop {body : Node} {line : Nat} :
    (loop condition body line).Filled ↔ body.Filled := by
  rw [filled_iff, and_iff_right nofun]
  refine List.forall_mem_cons.trans ((and_iff_right test).trans ?_)
  exact List.forall_mem_singleton

theorem Node.filled_branch {yes no : Node} {line : Nat} :
    (branch condition yes no line).Filled ↔ yes.Filled ∧ no.Filled := by
  rw [filled_iff, and_iff_right nofun]
  refine List.forall_mem_cons.trans ((and_iff_right test).trans ?_)
  exact List.forall_mem_cons.trans (and_congr_right fun _ => List.forall_mem_singleton)

end

section

variable {tokens first second : List Token} {node : Node} {nodes : List Node}

/-! ### Expressions and lines -/

theorem Derives.filled {level : Level} (h : Derives level tokens node) : node.Filled := by
  induction h with
  | tighter _ ih | parenthesized _ _ _ ih => exact ih
  | binary _ _ _ _ _ _ ih ih' | power _ _ _ ih ih' =>
    exact Node.filled_iff.mpr ⟨nofun, List.forall_mem_cons.mpr ⟨ih, List.forall_mem_singleton.mpr ih'⟩⟩
  | unary _ _ ih => exact Node.filled_iff.mpr ⟨nofun, List.forall_mem_singleton.mpr ih⟩
  | call _ _ _ _ ih =>
    refine Node.filled_iff.mpr ⟨nofun, fun argument member => ?_⟩
    obtain ⟨item, listed, rfl⟩ := List.mem_map.mp member
    exact ih item listed
  | identifier | number | constant | text | bytes =>
    exact Node.filled_iff.mpr ⟨nofun, List.forall_mem_nil _⟩

theorem filled_noOp (line : Nat) : (Node.noOp line).Filled :=
  Node.filled_iff.mpr ⟨nofun, List.forall_mem_nil _⟩

theorem SimpleStatement.filled (h : SimpleStatement tokens node) : node.Filled := by
  cases h with
  | pass => exact filled_noOp _
  | expression value => exact value.filled
  | assign _ _ value => exact Node.filled_iff.mpr ⟨nofun, List.forall_mem_singleton.mpr value.filled⟩
  | augment _ _ _ value =>
    refine Node.filled_iff.mpr ⟨nofun, List.forall_mem_singleton.mpr ?_⟩
    refine Node.filled_iff.mpr ⟨nofun, List.forall_mem_cons.mpr ⟨?_, ?_⟩⟩
    · exact Node.filled_iff.mpr ⟨nofun, List.forall_mem_nil _⟩
    · exact List.forall_mem_singleton.mpr value.filled

theorem LineRest.filled (h : LineRest tokens nodes) : ∀ node ∈ nodes, node.Filled := by
  induction h with
  | ended | dangling => exact List.forall_mem_nil _
  | more _ first _ ih => exact List.forall_mem_cons.mpr ⟨first.filled, ih⟩

theorem SimpleLine.filled (h : SimpleLine tokens nodes) : ∀ node ∈ nodes, node.Filled := by
  cases h with
  | simple first rest => exact List.forall_mem_cons.mpr ⟨first.filled, rest.filled⟩

/-! ### The ends of phrases -/

theorem opensLast_append : OpensLast (first ++ second) ↔
    OpensLast second ∨ second = [] ∧ OpensLast first := by
  induction second using List.reverseRecOn with
  | nil => simp [OpensLast]
  | append_singleton front token _ =>
    rw [← List.append_assoc, Token.opensLast_concat, Token.opensLast_concat]
    simp

theorem not_opensLast_of_flat (flat : ∀ token ∈ tokens, token.kind.isFlat = true) :
    ¬OpensLast tokens := by
  intro opens
  obtain ⟨token, last, kind⟩ := opens
  have flat := flat token (List.mem_of_mem_getLast? last)
  rw [kind] at flat
  cases flat

theorem spaced_of_flat (flat : ∀ token ∈ tokens, token.kind.isFlat = true) : Spaced tokens := by
  induction tokens with
  | nil => exact .nil
  | cons token tokens ih =>
    obtain ⟨here, rest⟩ := List.forall_mem_cons.mp flat
    refine List.isChain_cons.mpr ⟨fun _ _ opens => ?_, ih rest⟩
    rw [opens] at here
    cases here

theorem spaced_append_flat (flat : ∀ token ∈ first, token.kind.isFlat = true) :
    Spaced (first ++ second) ↔ Spaced second := by
  rw [spaced_append]
  exact ⟨fun apart => apart.2.1, fun spaced => ⟨spaced_of_flat flat, spaced,
    fun opens => absurd opens (not_opensLast_of_flat flat)⟩⟩

theorem spaced_cons_flat {token : Token} {kind : Token.Kind} (spelled : token.kind = kind)
    (flat : kind.isFlat = true) : Spaced (token :: tokens) ↔ Spaced tokens :=
  spaced_append_flat (kinds_single spelled flat)

/-- The first token does not close a block, and the last one does not open one. -/
structure Sealed (tokens : List Token) : Prop where
  head : ∀ token ∈ tokens.head?, token.kind ≠ .dedent
  last : ¬OpensLast tokens

theorem sealed_of_flat (flat : ∀ token ∈ tokens, token.kind.isFlat = true) : Sealed tokens := by
  refine ⟨fun token head closes => ?_, not_opensLast_of_flat flat⟩
  have here := flat token (List.mem_of_mem_head? head)
  rw [closes] at here
  cases here

theorem Sealed.append (h : Sealed first) (h' : Sealed second) : Sealed (first ++ second) := by
  constructor
  · intro token head
    rw [List.head?_append, Option.mem_def, Option.or_eq_some_iff] at head
    exact head.elim (h.head token) fun later => h'.head token later.2
  · rw [opensLast_append]
    exact fun opens => opens.elim h'.last fun earlier => h.last earlier.2

theorem Sealed.cons {token : Token} {kind : Token.Kind} (spelled : token.kind = kind)
    (flat : kind.isFlat = true) (h : Sealed tokens) : Sealed (token :: tokens) := by
  have single : Sealed [token] := sealed_of_flat (kinds_single spelled flat)
  exact single.append h

theorem Sealed.spaced_append (h : Sealed second) :
    Spaced (first ++ second) ↔ Spaced first ∧ Spaced second := by
  rw [Token.spaced_append]
  exact ⟨fun apart => ⟨apart.1, apart.2.1⟩, fun apart => ⟨apart.1, apart.2, fun _ => h.head⟩⟩

theorem Forms.sealed {phrase : Phrase} (h : Forms phrase tokens nodes) : Sealed tokens := by
  induction h with
  | nil => exact sealed_of_flat (List.forall_mem_nil _)
  | cons _ _ ih ih' => exact ih.append ih'
  | line line => exact sealed_of_flat line.flat
  | blank spelled => exact sealed_of_flat (kinds_single spelled rfl)
  | conditional _ ih => exact ih
  | loop spelled test _ ih | only spelled test _ ih =>
    exact .cons spelled rfl ((sealed_of_flat test.flat).append ih)
  | function spelled named opened listed each result _ ih =>
    have header := flat_of_words (kinds_append (words_parameters listed each) result.words)
    exact .cons spelled rfl (.cons named rfl (.cons opened rfl ((sealed_of_flat header).append ih)))
  | inline spelled line => exact sealed_of_flat (kinds_cons spelled rfl line.flat)
  | @indented colon newline indent dedent tokens _ spelled _ _ closes =>
    constructor
    · intro token head
      rw [← Option.some.inj head, spelled]
      exact nofun
    · have split : colon :: newline :: indent :: (tokens ++ [dedent]) =
          (colon :: newline :: indent :: tokens) ++ [dedent] := rfl
      rw [split, Token.opensLast_concat, closes]
      exact nofun
  | otherwise spelled test _ other _ ih ih' =>
    exact .cons spelled rfl ((sealed_of_flat test.flat).append (ih.append (.cons other rfl ih')))
  | chained spelled test _ _ ih ih' =>
    exact .cons spelled rfl ((sealed_of_flat test.flat).append (ih.append ih'))

/-! ### Bodies -/

theorem SimpleLine.nodes_ne_nil (h : SimpleLine tokens nodes) : nodes ≠ [] := by
  cases h with
  | simple => exact List.cons_ne_nil _ _

/-- Every phrase but statements one after the other stands for something. -/
theorem Forms.nodes_ne_nil {phrase : Phrase} (h : Forms phrase tokens nodes)
    (other : phrase ≠ .statements) : nodes ≠ [] := by
  induction h with
  | nil | cons => exact absurd rfl other
  | line line => exact line.nodes_ne_nil
  | conditional _ ih => exact ih nofun
  | _ => exact List.cons_ne_nil _ _

/-- Statements without a tree are statements without a token. -/
theorem Forms.eq_nil_iff (h : Forms .statements tokens nodes) : nodes = [] ↔ tokens = [] := by
  cases h with
  | nil => exact iff_of_true rfl rfl
  | cons first _ =>
    exact iff_of_false (List.append_ne_nil_of_left_ne_nil (first.nodes_ne_nil nofun) _)
      (List.append_ne_nil_of_left_ne_nil (first.ne_nil nofun) _)

theorem spaced_block {indent dedent : Token} (opens : indent.kind = .indent)
    (closes : dedent.kind = .dedent) (ends : Sealed tokens) :
    Spaced (indent :: (tokens ++ [dedent])) ↔ tokens ≠ [] ∧ Spaced tokens := by
  have rest : Spaced (tokens ++ [dedent]) ↔ Spaced tokens := by
    rw [spaced_append]
    exact ⟨fun apart => apart.1, fun spaced =>
      ⟨spaced, .singleton _, fun opens => absurd opens ends.last⟩⟩
  have start : (∀ next ∈ (tokens ++ [dedent]).head?, indent.kind = .indent → next.kind ≠ .dedent) ↔
      tokens ≠ [] := by
    cases tokens with
    | nil => exact iff_of_false (fun apart => apart dedent rfl opens closes) fun some => some rfl
    | cons => exact iff_of_true (fun next head _ => ends.head next head) (List.cons_ne_nil _ _)
  rw [Spaced, List.isChain_cons, start]
  exact and_congr_right fun _ => rest

/-- Bodies are empty exactly where an INDENT is followed by a DEDENT at once. -/
theorem Forms.spaced_iff {phrase : Phrase} (h : Forms phrase tokens nodes) :
    Spaced tokens ↔ ∀ node ∈ nodes, node.Filled := by
  induction h with
  | nil => exact iff_of_true .nil (List.forall_mem_nil _)
  | cons _ rest ih ih' => rw [rest.sealed.spaced_append, ih, ih', List.forall_mem_append]
  | line line => exact iff_of_true (spaced_of_flat line.flat) line.filled
  | blank spelled =>
    exact iff_of_true (.singleton _) (List.forall_mem_singleton.mpr (filled_noOp _))
  | conditional _ ih => exact ih
  | loop spelled test _ ih =>
    rw [spaced_cons_flat spelled rfl, spaced_append_flat test.flat, ih, List.forall_mem_singleton,
      List.forall_mem_singleton, Node.filled_loop test.filled]
  | function spelled named opened listed each result _ ih =>
    have header := flat_of_words (kinds_append (words_parameters listed each) result.words)
    rw [spaced_cons_flat spelled rfl, spaced_cons_flat named rfl, spaced_cons_flat opened rfl,
      spaced_append_flat header, ih, List.forall_mem_singleton, List.forall_mem_singleton,
      Node.filled_function]
  | inline spelled line =>
    exact iff_of_true (spaced_of_flat (kinds_cons spelled rfl line.flat))
      (List.forall_mem_singleton.mpr (Node.filled_block.mpr ⟨line.nodes_ne_nil, line.filled⟩))
  | indented spelled ended opens closes statements ih =>
    rw [spaced_cons_flat spelled rfl, spaced_cons_flat ended rfl,
      spaced_block opens closes statements.sealed, ih, List.forall_mem_singleton, Node.filled_block,
      ne_eq, ne_eq, statements.eq_nil_iff]
  | only spelled test _ ih =>
    rw [spaced_cons_flat spelled rfl, spaced_append_flat test.flat, ih, List.forall_mem_singleton,
      List.forall_mem_singleton, Node.filled_branch test.filled, and_iff_left (filled_noOp _)]
  | otherwise spelled test _ other suite ih ih' =>
    rw [spaced_cons_flat spelled rfl, spaced_append_flat test.flat,
      (suite.sealed.cons other rfl).spaced_append, spaced_cons_flat other rfl, ih, ih',
      List.forall_mem_singleton, List.forall_mem_singleton, List.forall_mem_singleton,
      Node.filled_branch test.filled]
  | chained spelled test _ more ih ih' =>
    rw [spaced_cons_flat spelled rfl, spaced_append_flat test.flat, more.sealed.spaced_append, ih, ih',
      List.forall_mem_singleton, List.forall_mem_singleton, List.forall_mem_singleton,
      Node.filled_branch test.filled]

theorem spaced_append_end (flat : ∀ token ∈ second, token.kind.isFlat = true) :
    Spaced (first ++ second) ↔ Spaced first :=
  (sealed_of_flat flat).spaced_append.trans (and_iff_left (spaced_of_flat flat))

end

/-- A line end behind the colon that is not followed by an INDENT is refused. -/
theorem ParseM.body_unindented {p : Parser} {newline token : Token}
    (found : p.answers.get 0 = .ok newline) (ended : newline.kind = .newline)
    (next : p.answers.get 1 = .ok token) (other : token.kind ≠ .indent)
    (statement : ParseM (List Node)) (steps line : Nat) :
    ∃ q, body statement steps line p = .error (.parse (.misplaced token (some .block))) q := by
  have first : p.answers = Answers.after (p.answers.drop 1) [newline] := Answers.drop_eq_cons found
  have second : p.answers.drop 1 = Answers.after (p.answers.drop 2) [token] := Answers.drop_eq_cons next
  obtain ⟨q, peeked, same, -⟩ := Reads.peek_head found p rfl
  obtain ⟨r, moved, left, -⟩ := Reads.advance newline (p.answers.drop 1) q (same.trans first)
  obtain ⟨t, moved', -, -⟩ := Reads.advance token (p.answers.drop 2) r (left.trans second)
  refine ⟨t, ?_⟩
  rw [body, bind_of_ok peeked, if_pos ended, bind_of_ok moved, bind_of_ok moved', if_neg other]
  rfl

/-- In a parsed tree all bodies have a statement if no INDENT of its tokens is followed by a DEDENT at
once, and not otherwise. -/
theorem parse_filled_iff_spaced {source : String} {tabSize : UInt64} {node : Node}
    (parsed : parse source tabSize = .ok node) : ∃ statements tokens,
    node = .block statements 1 ∧ tokenize source tabSize = .ok tokens ∧
      ((∀ statement ∈ statements, statement.Filled) ↔ Spaced tokens) := by
  obtain ⟨statements, front, last, more, rfl, told, ended, extra, formed⟩ := parse_forms parsed
  have flat : ∀ token ∈ [last], token.kind.isFlat = true := kinds_single ended rfl
  have flat' : ∀ token ∈ more, token.kind.isFlat = true :=
    fun token member => flat token (List.mem_singleton.mpr (extra token member))
  refine ⟨statements, _, rfl, told, ?_⟩
  rw [← formed.spaced_iff, spaced_append_end flat, spaced_append_end flat']

/-- All bodies in a parsed tree have a statement, unless the source ends with a backslash right behind
an INDENT. Then its last line is made of blanks and the backslash. A line end behind a colon is
refused unless an INDENT follows. -/
theorem parse_filled_iff (source : String) (tabSize : UInt64) :
    (∀ node, parse source tabSize = .ok node → ∃ statements, node = .block statements 1 ∧
      ((∀ statement ∈ statements, statement.Filled) ↔ ¬Lexer.EndsBare source tabSize)) ∧
    (Lexer.EndsBare source tabSize → ∃ line, (Source.lines source).getLast? = some line ∧
      line.dropWhile Indentation.isSpace = ['\\', '\n']) ∧
    ∀ (p : Parser) (newline token : Token), p.answers.get 0 = .ok newline → newline.kind = .newline →
      p.answers.get 1 = .ok token → token.kind ≠ .indent → ∀ statement steps line,
        ∃ q, ParseM.body statement steps line p =
          .error (.parse (.misplaced token (some .block))) q := by
  refine ⟨fun node parsed => ?_, Lexer.EndsBare.last_line, fun p newline token found ended next other =>
    ParseM.body_unindented found ended next other⟩
  obtain ⟨statements, tokens, rfl, told, filled⟩ := parse_filled_iff_spaced parsed
  exact ⟨statements, rfl, filled.trans (tokenize_spaced_iff told)⟩

/-- A body of blanks is refused, and one of a statement is not empty. -/
theorem parse_filled_iff_block : (parse "if x:\n    \n" 8).isOk = false ∧
    ∃ statements, parse "if x:\n    y\n" 8 = .ok (.block statements 1) ∧
      ∀ statement ∈ statements, statement.Filled := by
  refine ⟨by decide +kernel, ?_⟩
  have done : (parse "if x:\n    y\n" 8).isOk = true := by decide +kernel
  cases parsed : parse "if x:\n    y\n" 8 with
  | error e =>
    rw [parsed] at done
    cases done
  | ok node =>
    obtain ⟨filled, bare, -⟩ := parse_filled_iff "if x:\n    y\n" 8
    obtain ⟨statements, rfl, iff⟩ := filled node parsed
    refine ⟨statements, rfl, iff.mpr fun ends => ?_⟩
    obtain ⟨line, last, blank⟩ := bare ends
    have same : (Source.lines "if x:\n    y\n").getLast? = some "    y\n".toList := by decide +kernel
    rw [same] at last
    cases last
    exact absurd blank (by decide +kernel)

/-- With a backslash instead of a statement the body is empty. -/
theorem parse_empty_body : ∃ statements, parse "if x:\n    \\\n" 8 = .ok (.block statements 1) ∧
    ¬∀ statement ∈ statements, statement.Filled := by
  have done : (parse "if x:\n    \\\n" 8).isOk = true := by decide +kernel
  have read : tokenize "if x:\n    \\\n" 8 = .ok [
      ⟨.keyword .ifWord, "if", ⟨1, 1⟩⟩, ⟨.identifier "x", "x", ⟨1, 4⟩⟩, ⟨.punct .colon, ":", ⟨1, 5⟩⟩,
      ⟨.newline, "\n", ⟨1, 6⟩⟩, ⟨.indent, "", ⟨2, 5⟩⟩, ⟨.dedent, "", ⟨3, 1⟩⟩,
      ⟨.endMarker, "", ⟨3, 1⟩⟩] := by decide +kernel
  cases parsed : parse "if x:\n    \\\n" 8 with
  | error e =>
    rw [parsed] at done
    cases done
  | ok node =>
    obtain ⟨statements, tokens, rfl, told, filled⟩ := parse_filled_iff_spaced parsed
    rw [read] at told
    cases told
    refine ⟨statements, rfl, fun all => ?_⟩
    have spaced := filled.mp all
    unfold Spaced at spaced
    exact absurd spaced (by decide)

end Offside
