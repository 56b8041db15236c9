import Offside.Parser.Statement
import Offside.Proofs.Parsing.Grammar
import Offside.Proofs.Parsing.Layout

/-!
# The grammar of statements

`Forms phrase tokens nodes` says that the tokens spell a part of a program and that `nodes` are its
trees. A phrase never starts with a DEDENT or ends with an INDENT, and it closes each block that it
opens.
-/

namespace Offside

open Token (occurrences occurrences_append)

/-- An expression behind a mark, or nothing. -/
inductive Trails (mark : Punct) : List Token → Prop
  | none : Trails mark []
  | some {token tokens node} : token.kind = .punct mark → Derives .or tokens node →
      Trails mark (token :: tokens)

/-- A parameter with its annotation and its default value. -/
inductive Parameter : List Token → String → Prop
  | named {token name note value} : token.kind = .identifier name → Trails .colon note →
      Trails .assign value → Parameter (token :: (note ++ value)) name

inductive SimpleStatement : List Token → Node → Prop
  | pass {token} : token.kind = .keyword .passWord →
      SimpleStatement [token] (.noOp token.pos.line)
  | expression {tokens node} : Derives .or tokens node → SimpleStatement tokens node
  | assign {target mark name tokens value} : target.kind = .identifier name →
      mark.kind = .punct .assign → Derives .or tokens value →
      SimpleStatement (target :: mark :: tokens) (.assign name value target.pos.line)
  | augment {target mark punct name op tokens value} : target.kind = .identifier name →
      mark.kind = .punct punct → punct.augmented? = some op → Derives .or tokens value →
      SimpleStatement (target :: mark :: tokens) (.assign name
        (.binary op (.identifier name target.pos.line) value mark.pos.line) target.pos.line)

/-- The end of a line, which the end of the source may stand for. -/
def Token.IsLineEnd (token : Token) : Prop := token.kind = .newline ∨ token.kind = .endMarker

/-- What follows a simple statement on its line. A last semicolon may stand alone. -/
inductive LineRest : List Token → List Node → Prop
  | ended {token} : token.IsLineEnd → LineRest [token] []
  | dangling {semicolon token} : semicolon.kind = .punct .semicolon → token.IsLineEnd →
      LineRest [semicolon, token] []
  | more {semicolon first rest node nodes} : semicolon.kind = .punct .semicolon →
      SimpleStatement first node → LineRest rest nodes →
      LineRest (semicolon :: (first ++ rest)) (node :: nodes)

inductive SimpleLine : List Token → List Node → Prop
  | simple {first rest node nodes} : SimpleStatement first node → LineRest rest nodes →
      SimpleLine (first ++ rest) (node :: nodes)

/-- A statement on a line of its own. -/
theorem SimpleStatement.line {tokens : List Token} {newline : Token} {node : Node}
    (simple : SimpleStatement tokens node) (ended : newline.kind = .newline) :
    SimpleLine (tokens ++ [newline]) [node] :=
  .simple simple (.ended (.inl ended))

inductive Phrase
  | statement
  /-- Statements one after the other. -/
  | statements
  /-- A colon and a body, which is the rest of the line or an indented block. -/
  | suite
  /-- What begins with `if` or `elif`. -/
  | conditional (word : Keyword)

/-- The tokens spell the phrase. -/
inductive Forms : Phrase → List Token → List Node → Prop
  | nil : Forms .statements [] []
  | cons {first rest nodes nodes'} : Forms .statement first nodes →
      Forms .statements rest nodes' → Forms .statements (first ++ rest) (nodes ++ nodes')
  | line {tokens nodes} : SimpleLine tokens nodes → Forms .statement tokens nodes
  | blank {token} : token.kind = .newline → Forms .statement [token] [.noOp token.pos.line]
  | conditional {tokens nodes} : Forms (.conditional .ifWord) tokens nodes →
      Forms .statement tokens nodes
  | loop {word test suite condition body} : word.kind = .keyword .whileWord →
      Derives .or test condition → Forms .suite suite [body] →
      Forms .statement (word :: (test ++ suite)) [.loop condition body word.pos.line]
  | function {word token opening name params result suite body}
      {items : List (List Token × String)} : word.kind = .keyword .defWord →
      token.kind = .identifier name → opening.kind = .punct .leftParen →
      Separated .rightParen (items.map Prod.fst) params →
      (∀ item ∈ items, Parameter item.1 item.2) → Trails .arrow result →
      Forms .suite suite [body] →
      Forms .statement (word :: token :: opening :: (params ++ result ++ suite))
        [.function name (items.map Prod.snd) body word.pos.line]
  | inline {colon tokens nodes} : colon.kind = .punct .colon → SimpleLine tokens nodes →
      Forms .suite (colon :: tokens) [.block nodes colon.pos.line]
  | indented {colon newline indent dedent tokens nodes} : colon.kind = .punct .colon →
      newline.kind = .newline → indent.kind = .indent → dedent.kind = .dedent →
      Forms .statements tokens nodes →
      Forms .suite (colon :: newline :: indent :: (tokens ++ [dedent]))
        [.block nodes colon.pos.line]
  | only {word keyword test suite condition yes} : word.kind = .keyword keyword →
      Derives .or test condition → Forms .suite suite [yes] →
      Forms (.conditional keyword) (word :: (test ++ suite))
        [.branch condition yes (.noOp word.pos.line) word.pos.line]
  | otherwise {word keyword test suite other suite' condition yes no} :
      word.kind = .keyword keyword → Derives .or test condition → Forms .suite suite [yes] →
      other.kind = .keyword .elseWord → Forms .suite suite' [no] →
      Forms (.conditional keyword) (word :: (test ++ (suite ++ other :: suite')))
        [.branch condition yes no word.pos.line]
  | chained {word keyword test suite more condition yes no} : word.kind = .keyword keyword →
      Derives .or test condition → Forms .suite suite [yes] →
      Forms (.conditional .elifWord) more [no] →
      Forms (.conditional keyword) (word :: (test ++ (suite ++ more)))
        [.branch condition yes no word.pos.line]

theorem Forms.append {first second : List Token} {nodes nodes' : List Node}
    (formed : Forms .statements first nodes) (formed' : Forms .statements second nodes') :
    Forms .statements (first ++ second) (nodes ++ nodes') := by
  generalize known : Phrase.statements = phrase at formed
  induction formed with
  | nil => exact formed'
  | cons here _ _ ih =>
    rw [List.append_assoc, List.append_assoc]
    exact here.cons (ih known)
  | _ => cases known

/-! ### Kinds of tokens -/

/-- Whether the token is one of those that an expression or a simple statement is written with. -/
def Token.Kind.isWord : Token.Kind → Bool
  | .newline | .indent | .dedent | .endMarker => false
  | _ => true

section

variable {p : Token.Kind → Bool}

theorem kinds_of_map {tokens : List Token} {kinds : List Token.Kind}
    (spelled : tokens.map Token.kind = kinds) (each : ∀ kind ∈ kinds, p kind = true) :
    ∀ token ∈ tokens, p token.kind = true := by
  intro token member
  apply each
  rw [← spelled]
  exact List.mem_map_of_mem member

theorem kinds_cons {token : Token} {tokens : List Token} {kind : Token.Kind}
    (spelled : token.kind = kind) (first : p kind = true)
    (rest : ∀ token ∈ tokens, p token.kind = true) : ∀ other ∈ token :: tokens, p other.kind = true :=
  List.forall_mem_cons.mpr ⟨by rw [spelled, first], rest⟩

theorem kinds_single {token : Token} {kind : Token.Kind} (spelled : token.kind = kind)
    (first : p kind = true) : ∀ other ∈ [token], p other.kind = true :=
  kinds_cons spelled first (List.forall_mem_nil _)

theorem kinds_append {first second : List Token} (each : ∀ token ∈ first, p token.kind = true)
    (each' : ∀ token ∈ second, p token.kind = true) :
    ∀ token ∈ first ++ second, p token.kind = true :=
  List.forall_mem_append.mpr ⟨each, each'⟩

theorem Separated.kinds {closing : Punct} {items : List (List Token)} {tokens : List Token}
    (h : Separated closing items tokens) (comma : p (.punct .comma) = true)
    (last : p (.punct closing) = true) (each : ∀ item ∈ items, ∀ token ∈ item, p token.kind = true) :
    ∀ token ∈ tokens, p token.kind = true := by
  induction h with
  | closed closed => exact kinds_single closed last
  | last closed => exact kinds_append (List.forall_mem_singleton.mp each) (kinds_single closed last)
  | more isComma _ ih =>
    obtain ⟨first, rest⟩ := List.forall_mem_cons.mp each
    exact kinds_append first (kinds_cons isComma comma (ih rest))

end

theorem flat_of_words {tokens : List Token} (words : ∀ token ∈ tokens, token.kind.isWord = true) :
    ∀ token ∈ tokens, token.kind.isFlat = true := by
  intro token member
  have word := words token member
  cases known : token.kind <;> rw [known] at word <;> first | rfl | cases word

/-- An expression is written in words. -/
theorem Derives.words {level : Level} {tokens : List Token} {node : Node}
    (h : Derives level tokens node) : ∀ token ∈ tokens, token.kind.isWord = true := by
  induction h with
  | tighter _ ih => exact ih
  | @binary level op left mark marks right a b _ _ spelled _ _ _ ihLeft ihRight =>
    have operator : ∀ token ∈ mark :: marks, token.kind.isWord = true :=
      kinds_of_map spelled (by cases op <;> decide)
    exact kinds_append ihLeft (kinds_append operator ihRight)
  | power spelled _ _ ihBase ihExponent =>
    exact kinds_append ihBase (kinds_cons spelled rfl ihExponent)
  | @unary mark op operand a spelled _ ih =>
    exact kinds_cons spelled (by cases op <;> rfl) ih
  | call spelled opened separated _ ih =>
    refine kinds_cons spelled rfl (kinds_cons opened rfl ?_)
    refine separated.kinds rfl rfl fun item member => ?_
    obtain ⟨part, inside, rfl⟩ := List.mem_map.mp member
    exact ih part inside
  | identifier spelled | number spelled | constant spelled => exact kinds_single spelled rfl
  | text spelled adjacent =>
    exact kinds_cons spelled rfl (kinds_of_map adjacent (by simp [Token.Kind.isWord]))
  | bytes spelled adjacent =>
    exact kinds_cons spelled rfl (kinds_of_map adjacent (by simp [Token.Kind.isWord]))
  | parenthesized opened closed _ ih =>
    exact kinds_cons opened rfl (kinds_append ih (kinds_single closed rfl))

/-- An expression neither opens nor closes a block. -/
theorem Derives.flat {level : Level} {tokens : List Token} {node : Node}
    (h : Derives level tokens node) : ∀ token ∈ tokens, token.kind.isFlat = true :=
  flat_of_words h.words

variable {mark : Punct} {tokens : List Token} {nodes : List Node} {node : Node}

theorem Trails.words (h : Trails mark tokens) : ∀ token ∈ tokens, token.kind.isWord = true := by
  cases h with
  | none => exact List.forall_mem_nil _
  | some spelled value => exact kinds_cons spelled rfl value.words

theorem Parameter.words {name : String} (h : Parameter tokens name) :
    ∀ token ∈ tokens, token.kind.isWord = true := by
  cases h with
  | named spelled note value => exact kinds_cons spelled rfl (kinds_append note.words value.words)

theorem words_parameters {items : List (List Token × String)}
    (listed : Separated .rightParen (items.map Prod.fst) tokens)
    (each : ∀ item ∈ items, Parameter item.1 item.2) :
    ∀ token ∈ tokens, token.kind.isWord = true := by
  refine listed.kinds rfl rfl fun item member => ?_
  obtain ⟨part, inside, rfl⟩ := List.mem_map.mp member
  exact (each part inside).words

theorem SimpleStatement.words (h : SimpleStatement tokens node) :
    ∀ token ∈ tokens, token.kind.isWord = true := by
  cases h with
  | pass spelled => exact kinds_single spelled rfl
  | expression value => exact value.words
  | assign target spelled value | augment target spelled _ value =>
    exact kinds_cons target rfl (kinds_cons spelled rfl value.words)

theorem Token.IsLineEnd.isFlat {token : Token} (ends : token.IsLineEnd) :
    token.kind.isFlat = true := by
  rcases ends with ends | ends <;> rw [ends] <;> rfl

theorem LineRest.flat (h : LineRest tokens nodes) :
    ∀ token ∈ tokens, token.kind.isFlat = true := by
  induction h with
  | ended ends => exact kinds_single rfl ends.isFlat
  | dangling spelled ends => exact kinds_cons spelled rfl (kinds_single rfl ends.isFlat)
  | more spelled first _ ih =>
    exact kinds_cons spelled rfl (kinds_append (flat_of_words first.words) ih)

theorem SimpleLine.flat (h : SimpleLine tokens nodes) :
    ∀ token ∈ tokens, token.kind.isFlat = true := by
  cases h with
  | simple first rest => exact kinds_append (flat_of_words first.words) rest.flat

/-! ### Blocks -/

theorem Paired.append {first second : List Token} (paired : Paired first)
    (paired' : Paired second) : Paired (first ++ second) := by
  rw [Paired, occurrences_append, occurrences_append, paired, paired']

theorem Paired.cons {token : Token} {kind : Token.Kind} (spelled : token.kind = kind)
    (flat : kind.isFlat = true) (paired : Paired tokens) : Paired (token :: tokens) := by
  have single : Paired [token] := paired_of_flat (kinds_single spelled flat)
  exact single.append paired

theorem Paired.enclosed {indent dedent : Token} (opens : indent.kind = .indent)
    (closes : dedent.kind = .dedent) (paired : Paired tokens) :
    Paired (indent :: (tokens ++ [dedent])) := by
  unfold Paired at paired ⊢
  simp only [occurrences, List.countP_cons, List.countP_append, List.countP_nil, opens, closes]
    at paired ⊢
  simp only [paired]
  rfl

/-- A phrase closes the blocks that it opens and no others. -/
theorem Forms.paired {phrase : Phrase} (h : Forms phrase tokens nodes) : Paired tokens := by
  induction h with
  | nil => rfl
  | cons _ _ ih ih' => exact ih.append ih'
  | line line => exact paired_of_flat line.flat
  | blank spelled => exact paired_of_flat (kinds_single spelled rfl)
  | conditional _ ih => exact ih
  | loop spelled test _ ih => exact .cons spelled rfl ((paired_of_flat test.flat).append ih)
  | function spelled named opened listed each result _ ih =>
    have header := flat_of_words (kinds_append (words_parameters listed each) result.words)
    exact .cons spelled rfl (.cons named rfl (.cons opened rfl ((paired_of_flat header).append ih)))
  | inline spelled line => exact paired_of_flat (kinds_cons spelled rfl line.flat)
  | indented spelled ended opens closes _ ih =>
    exact .cons spelled rfl (.cons ended rfl (ih.enclosed opens closes))
  | only spelled test _ ih => exact .cons spelled rfl ((paired_of_flat test.flat).append ih)
  | otherwise spelled test _ other _ ih ih' =>
    exact .cons spelled rfl ((paired_of_flat test.flat).append (ih.append (.cons other rfl ih')))
  | chained spelled test _ _ ih ih' =>
    exact .cons spelled rfl ((paired_of_flat test.flat).append (ih.append ih'))

theorem SimpleStatement.ne_nil (h : SimpleStatement tokens node) : tokens ≠ [] := by
  cases h with
  | expression value =>
    obtain ⟨_, _, rfl, -⟩ := value.starts
    exact List.cons_ne_nil _ _
  | _ => exact List.cons_ne_nil _ _

/-- Statements alone may be made of no tokens. -/
theorem Forms.ne_nil {phrase : Phrase} (h : Forms phrase tokens nodes)
    (other : phrase ≠ .statements) : tokens ≠ [] := by
  induction h with
  | nil | cons => exact absurd rfl other
  | line line =>
    cases line with
    | simple first => exact List.append_ne_nil_of_left_ne_nil first.ne_nil _
  | conditional _ ih => exact ih nofun
  | _ => exact List.cons_ne_nil _ _

end Offside
