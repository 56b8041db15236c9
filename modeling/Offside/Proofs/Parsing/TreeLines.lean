import Offside.Proofs.Parsing.Outcome
import Offside.Proofs.Lexing.Closing
import Offside.Proofs.Tree.Subtrees

/-!
# The lines of parsed trees

Every tree that the parser makes takes its line from a token of the source: `Forms.onLines`. So all
lines in a parsed tree are lines of its source, which `parse_onLines` says.
-/

namespace Offside

/-- All trees in the tree are on lines of which `P` holds. -/
def Node.OnLines (P : Nat → Prop) (node : Node) : Prop := ∀ m ∈ node.subtrees, P m.line

section

variable {P : Nat → Prop} {tokens : List Token} {node : Node} {nodes : List Node}

namespace Node

theorem onLines_iff : node.OnLines P ↔ P node.line ∧ ∀ child ∈ node.children, child.OnLines P :=
  forall_subtrees

theorem OnLines.leaf (here : P node.line) (none : node.children = []) : node.OnLines P :=
  onLines_iff.mpr ⟨here, by rw [none]; exact List.forall_mem_nil _⟩

theorem OnLines.one {child : Node} (here : P node.line) (only : node.children = [child])
    (inside : child.OnLines P) : node.OnLines P :=
  onLines_iff.mpr ⟨here, by rw [only]; exact List.forall_mem_singleton.mpr inside⟩

theorem OnLines.two {first second : Node} (here : P node.line)
    (both : node.children = [first, second]) (inside : first.OnLines P) (inside' : second.OnLines P) :
    node.OnLines P := by
  refine onLines_iff.mpr ⟨here, ?_⟩
  rw [both]
  exact List.forall_mem_cons.mpr ⟨inside, List.forall_mem_singleton.mpr inside'⟩

theorem onLines_branch {condition yes no : Node} {line : Nat} (here : P line)
    (test : condition.OnLines P) (inside : yes.OnLines P) (inside' : no.OnLines P) :
    (branch condition yes no line).OnLines P :=
  onLines_iff.mpr ⟨here, List.forall_mem_cons.mpr
    ⟨test, List.forall_mem_cons.mpr ⟨inside, List.forall_mem_singleton.mpr inside'⟩⟩⟩

end Node

/-- The tokens that trees take their lines from are on lines of which `P` holds. -/
def Marked (P : Nat → Prop) (tokens : List Token) : Prop :=
  ∀ token ∈ tokens, token.kind.isWord = true ∨ token.kind = .newline → P token.pos.line

theorem Marked.words (marked : Marked P tokens) (words : ∀ token ∈ tokens, token.kind.isWord = true) :
    ∀ token ∈ tokens, P token.pos.line :=
  fun token member => marked token member (.inl (words token member))

theorem marked_append {first second : List Token} :
    Marked P (first ++ second) ↔ Marked P first ∧ Marked P second := List.forall_mem_append

theorem marked_cons {token : Token} : Marked P (token :: tokens) ↔
    (token.kind.isWord = true ∨ token.kind = .newline → P token.pos.line) ∧ Marked P tokens :=
  List.forall_mem_cons

theorem line_of_word {token : Token} {kind : Token.Kind}
    (marked : token.kind.isWord = true ∨ token.kind = .newline → P token.pos.line)
    (spelled : token.kind = kind) (word : kind.isWord = true) : P token.pos.line :=
  marked (.inl (by rw [spelled, word]))

theorem Separated.subset {closing : Punct} {items : List (List Token)} {item : List Token}
    (h : Separated closing items tokens) (member : item ∈ items) : item ⊆ tokens := by
  induction h with
  | closed => cases member
  | last =>
    rw [List.mem_singleton.mp member]
    exact List.subset_append_left _ _
  | more _ _ ih =>
    rcases List.mem_cons.mp member with rfl | member
    · exact List.subset_append_left _ _
    · exact List.subset_append_of_subset_right _ (List.subset_cons_of_subset _ (ih member))

theorem Derives.onLines {level : Level} (h : Derives level tokens node)
    (placed : ∀ token ∈ tokens, P token.pos.line) : node.OnLines P := by
  induction h with
  | tighter _ ih => exact ih placed
  | binary _ _ _ _ _ _ ih ih' =>
    simp only [List.forall_mem_append, List.forall_mem_cons] at placed
    obtain ⟨left, mark, -, right⟩ := placed
    exact .two mark rfl (ih left) (ih' right)
  | power _ _ _ ih ih' =>
    simp only [List.forall_mem_append, List.forall_mem_cons] at placed
    obtain ⟨left, mark, right⟩ := placed
    exact .two mark rfl (ih left) (ih' right)
  | unary _ _ ih =>
    obtain ⟨mark, operand⟩ := List.forall_mem_cons.mp placed
    exact .one mark rfl (ih operand)
  | call _ _ separated _ ih =>
    simp only [List.forall_mem_cons] at placed
    obtain ⟨name, -, arguments⟩ := placed
    refine Node.onLines_iff.mpr ⟨name, fun argument member => ?_⟩
    obtain ⟨item, listed, rfl⟩ := List.mem_map.mp member
    have part := separated.subset (List.mem_map_of_mem listed)
    exact ih item listed fun token inside => arguments token (part inside)
  | identifier | number | constant | text | bytes => exact .leaf (placed _ List.mem_cons_self) rfl
  | parenthesized _ _ _ ih =>
    exact ih fun token member =>
      placed token (List.mem_cons_of_mem _ (List.mem_append_left _ member))

theorem SimpleStatement.onLines (h : SimpleStatement tokens node) (marked : Marked P tokens) :
    node.OnLines P := by
  have placed := marked.words h.words
  cases h with
  | pass => exact .leaf (placed _ List.mem_cons_self) rfl
  | expression value => exact value.onLines placed
  | assign _ _ value =>
    simp only [List.forall_mem_cons] at placed
    obtain ⟨target, -, rest⟩ := placed
    exact .one target rfl (value.onLines rest)
  | augment _ _ _ value =>
    simp only [List.forall_mem_cons] at placed
    obtain ⟨target, mark, rest⟩ := placed
    exact .one target rfl (.two mark rfl (.leaf target rfl) (value.onLines rest))

theorem LineRest.onLines (h : LineRest tokens nodes) (marked : Marked P tokens) :
    ∀ node ∈ nodes, node.OnLines P := by
  induction h with
  | ended | dangling => exact List.forall_mem_nil _
  | more _ first _ ih =>
    simp only [marked_cons, marked_append] at marked
    obtain ⟨-, here, rest⟩ := marked
    exact List.forall_mem_cons.mpr ⟨first.onLines here, ih rest⟩

theorem SimpleLine.onLines (h : SimpleLine tokens nodes) (marked : Marked P tokens) :
    ∀ node ∈ nodes, node.OnLines P := by
  cases h with
  | simple first rest =>
    obtain ⟨here, later⟩ := marked_append.mp marked
    exact List.forall_mem_cons.mpr ⟨first.onLines here, rest.onLines later⟩

/-- The trees of a phrase are on the lines of its tokens. -/
theorem Forms.onLines {phrase : Phrase} (h : Forms phrase tokens nodes) (marked : Marked P tokens) :
    ∀ node ∈ nodes, node.OnLines P := by
  induction h with
  | nil => exact List.forall_mem_nil _
  | cons _ _ ih ih' =>
    obtain ⟨first, rest⟩ := marked_append.mp marked
    exact List.forall_mem_append.mpr ⟨ih first, ih' rest⟩
  | line line => exact line.onLines marked
  | blank spelled =>
    have here := marked _ List.mem_cons_self (.inr spelled)
    exact List.forall_mem_singleton.mpr (.leaf here rfl)
  | conditional _ ih => exact ih marked
  | loop spelled test _ ih =>
    simp only [marked_cons, marked_append] at marked
    obtain ⟨word, condition, suite⟩ := marked
    have body := List.forall_mem_singleton.mp (ih suite)
    have test := test.onLines (condition.words test.words)
    exact List.forall_mem_singleton.mpr (.two (line_of_word word spelled rfl) rfl test body)
  | function spelled _ _ _ _ _ _ ih =>
    simp only [marked_cons, marked_append] at marked
    obtain ⟨word, -, -, -, suite⟩ := marked
    have body := List.forall_mem_singleton.mp (ih suite)
    exact List.forall_mem_singleton.mpr (.one (line_of_word word spelled rfl) rfl body)
  | inline spelled line =>
    obtain ⟨colon, rest⟩ := marked_cons.mp marked
    have here := line_of_word colon spelled rfl
    exact List.forall_mem_singleton.mpr (Node.onLines_iff.mpr ⟨here, line.onLines rest⟩)
  | indented spelled _ _ _ _ ih =>
    simp only [marked_cons, marked_append] at marked
    obtain ⟨colon, -, -, rest, -⟩ := marked
    have here := line_of_word colon spelled rfl
    exact List.forall_mem_singleton.mpr (Node.onLines_iff.mpr ⟨here, ih rest⟩)
  | only spelled test _ ih =>
    simp only [marked_cons, marked_append] at marked
    obtain ⟨word, condition, yes⟩ := marked
    have here := line_of_word word spelled rfl
    have yes := List.forall_mem_singleton.mp (ih yes)
    have test := test.onLines (condition.words test.words)
    exact List.forall_mem_singleton.mpr (Node.onLines_branch here test yes (.leaf here rfl))
  | otherwise spelled test _ _ _ ih ih' =>
    simp only [marked_cons, marked_append] at marked
    obtain ⟨word, condition, yes, -, no⟩ := marked
    have yes := List.forall_mem_singleton.mp (ih yes)
    have no := List.forall_mem_singleton.mp (ih' no)
    have test := test.onLines (condition.words test.words)
    have here := line_of_word word spelled rfl
    exact List.forall_mem_singleton.mpr (Node.onLines_branch here test yes no)
  | chained spelled test _ _ ih ih' =>
    simp only [marked_cons, marked_append] at marked
    obtain ⟨word, condition, yes, no⟩ := marked
    have yes := List.forall_mem_singleton.mp (ih yes)
    have no := List.forall_mem_singleton.mp (ih' no)
    have test := test.onLines (condition.words test.words)
    have here := line_of_word word spelled rfl
    exact List.forall_mem_singleton.mpr (Node.onLines_branch here test yes no)

end

/-! ### The lines of a source -/

/-- The number of a physical line. -/
def Source.HasLine (lines : List (List Char)) (line : Nat) : Prop := 1 ≤ line ∧ line ≤ lines.length

theorem Source.hasLine_coordinate {lines : List (List Char)} {row : Nat} (lt : row < lines.length) :
    HasLine lines (Position.coordinate row) :=
  ⟨Nat.le_min.mpr ⟨Nat.succ_pos row, by decide⟩, Nat.le_trans (Nat.min_le_left _ _) lt⟩

namespace Lexer

open Source (HasLine hasLine_coordinate)

variable {s t : Lexer} {tokens : List Token} {lines : List (List Char)}

/-- The tokens of a turn are on lines of the source. -/
theorem Turn.hasLine (turn : Turn s tokens t) (here : AtRow lines s.cursor) :
    ∀ token ∈ tokens, HasLine lines token.pos.line := by
  cases turn with
  | blank | fold | join => exact List.forall_mem_nil _
  | enter _ more =>
    intro token member
    rw [Indentation.pos_of_mem_settle member]
    exact hasLine_coordinate (here.skipped.lt more)
  | newline _ more => exact List.forall_mem_singleton.mpr (hasLine_coordinate (here.lt more))
  | token _ more => exact List.forall_mem_singleton.mpr (hasLine_coordinate (here.lt more))

theorem Run.hasLine (run : Run s tokens t) (here : AtRow lines s.cursor) :
    ∀ token ∈ tokens, HasLine lines token.pos.line := by
  induction run with
  | refl => exact List.forall_mem_nil _
  | step turn _ ih => exact List.forall_mem_append.mpr ⟨turn.hasLine here, ih (turn.atRow here)⟩

end Lexer

/-- Trees take their lines from tokens on lines of the source. -/
theorem tokenize_marked {source : String} {tabSize : UInt64} {tokens : List Token}
    (done : tokenize source tabSize = .ok tokens) :
    Marked (Source.HasLine (Source.lines source)) tokens := by
  obtain ⟨front, t, run, -, rfl⟩ := tokenize_eq_ok_iff.mp done
  have placed : ∀ token ∈ front, Source.HasLine (Source.lines source) token.pos.line :=
    run.hasLine ⟨rfl, Nat.zero_le _⟩
  refine marked_append.mpr ⟨fun token member _ => placed token member, fun token member kind => ?_⟩
  rcases (Lexer.mem_closing member).1 with closes | closes <;>
    rw [closes] at kind <;> rcases kind with kind | kind <;> cases kind

/-- Parsed statements are on lines of the source. -/
theorem parse_onLines {source : String} {tabSize : UInt64} {node : Node}
    (parsed : parse source tabSize = .ok node) :
    ∃ statements, node = .block statements 1 ∧
      ∀ statement ∈ statements, statement.OnLines (Source.HasLine (Source.lines source)) := by
  obtain ⟨statements, front, last, more, rfl, told, ended, extra, formed⟩ := parse_forms parsed
  refine ⟨statements, rfl, formed.onLines (marked_append.mpr ⟨?_, fun token member kind => ?_⟩)⟩
  · exact (marked_append.mp (tokenize_marked told)).1
  · rw [extra token member, ended] at kind
    rcases kind with kind | kind <;> cases kind

end Offside
