import Offside.Proofs.Parsing.Alike
import Offside.Proofs.Parsing.Consumption

/-!
# Augmented assignments

An augmented assignment is parsed without going through the levels of expressions. `augmented_expands`
shows that its tree is nevertheless that of the assignment written out, with the value in parentheses.
-/

namespace Offside

/-- The tokens of `x op= E NEWLINE`, and the lines of the name, which stands for two, of the operator and
of the value. -/
inductive Augmented (name : String) (mark : Punct) (kinds : List Token.Kind) :
    List Token → List Nat → Prop
  | intro {target assign newline : Token} {value : List Token} : target.kind = .identifier name →
      assign.kind = .punct mark → value.map Token.kind = kinds → newline.kind = .newline →
      Augmented name mark kinds (target :: assign :: (value ++ [newline]))
        (target.pos.line :: target.pos.line :: assign.pos.line :: value.map (·.pos.line))

/-- The tokens of `x = x op ( E ) NEWLINE`, and the lines of the names, of the operator and of the
value. -/
inductive Expanded (name : String) (op : BinaryOp) (kinds : List Token.Kind) :
    List Token → List Nat → Prop
  | intro {target equal copy operator opening closing newline : Token} {value : List Token} :
      target.kind = .identifier name → equal.kind = .punct .assign → copy.kind = .identifier name →
      op.kinds = [operator.kind] → opening.kind = .punct .leftParen → value.map Token.kind = kinds →
      closing.kind = .punct .rightParen → newline.kind = .newline →
      Expanded name op kinds
        (target :: equal :: copy :: operator :: opening :: (value ++ [closing, newline]))
        (target.pos.line :: copy.pos.line :: operator.pos.line :: value.map (·.pos.line))

/-- The tree of an augmented assignment, with the lines of its two names and of its operator. -/
def Node.augmented (name : String) (op : BinaryOp) (value : Node) (first second third : Nat) : Node :=
  .assign name (.binary op (.identifier name second) value third) first

section

variable {name : String} {mark : Punct} {op : BinaryOp} {kinds : List Token.Kind}
  {tokens value : List Token} {node : Node}

theorem augmented_level (augments : mark.augmented? = some op) :
    op = .pow ∨ (Level.ofBinary op).isChain = true ∧ op ≠ .identical := by
  cases mark <;> cases augments <;> first | exact .inl rfl | exact .inr ⟨rfl, nofun⟩

/-- An expression in parentheses is an operand of every operator. -/
theorem Derives.operation (level : op = .pow ∨ (Level.ofBinary op).isChain = true ∧ op ≠ .identical)
    {left operator opening closing : Token} (named : left.kind = .identifier name)
    (spelled : op.kinds = [operator.kind]) (opened : opening.kind = .punct .leftParen)
    (closed : closing.kind = .punct .rightParen) (derives : Derives .or value node) :
    Derives .or (left :: operator :: opening :: (value ++ [closing]))
      (.binary op (.identifier name left.pos.line) node operator.pos.line) := by
  have first : Derives .atom [left] (.identifier name left.pos.line) := .identifier named
  have second : Derives .atom (opening :: (value ++ [closing])) node :=
    .parenthesized opened closed derives
  rcases level with rfl | ⟨chained, other⟩
  · have power : operator.kind = .punct .doubleStar := (List.cons.inj spelled).1.symm
    exact (Derives.power power first (second.loosen (by decide))).loosen (by decide)
  · have whole : Derives (Level.ofBinary op) ([left] ++ operator :: ([] ++ opening :: (value ++ [closing])))
        (.binary op (.identifier name left.pos.line) node operator.pos.line) :=
      .binary rfl chained spelled.symm (fun isIs => absurd isIs other)
        (first.loosen (Level.rank_le _)) (second.loosen (Level.rank_le _))
    exact whole.loosen (Nat.zero_le _)

theorem Node.eq_of_resembles {node' : Node} (same : node.Resembles (fun line => line) node') :
    node' = node := by
  rw [Resembles, mapLine_id, mapLine_id] at same
  exact same

end

variable {source source' : String} {tabSize tabSize' : UInt64} {p p' : Parser} {later later' : Answers}

/-- An augmented assignment and the assignment written out parse to the same tree up to lines, and to the
same tree where names, operators and values are on the same lines: that of an operation between the name
and the tree which the value has by itself. -/
theorem augmented_expands {value : List Token} {node : Node} (taken : TakenForExpression value node)
    {name : String} {mark : Punct} {op : BinaryOp} (augments : mark.augmented? = some op)
    {short long : List Token} {lines lines' : List Nat}
    (isShort : Augmented name mark (value.map Token.kind) short lines)
    (isLong : Expanded name op (value.map Token.kind) long lines')
    (reached : p.Reached source tabSize) (here : p.answers = later.after short)
    (reached' : p'.Reached source' tabSize') (here' : p'.answers = later'.after long) :
    ∃ tree tree' q q', Parser.statement p = .ok [tree] q ∧ q.answers = later ∧
      Parser.statement p' = .ok [tree'] q' ∧ q'.answers = later' ∧
      tree.unlined = (Node.augmented name op node 0 0 0).unlined ∧ tree'.unlined = tree.unlined ∧
      (lines' = lines → tree' = tree) := by
  have derives := taken.derives
  cases isShort with
  | @intro target assign newline first named marked kinds ended =>
  cases isLong with
  | @intro target' equal copy operator opening closing newline' second named' isEqual named'' spelled
      opened kinds' closed ended' =>
  obtain ⟨a, derives₁, same₁⟩ := derives.alike (.of_kinds kinds)
  -- The tree of the assignment written out, for each tree of its value.
  have written : ∀ {b}, Derives .or second b → ∃ q', Parser.statement p' =
      .ok [.augmented name op b target'.pos.line copy.pos.line operator.pos.line] q' ∧
        q'.answers = later' := by
    intro b derives₂
    have operation := derives₂.operation (augmented_level augments) named'' spelled opened closed
    have simple := (SimpleStatement.assign named' isEqual operation).line ended'
    simp only [List.cons_append, List.append_assoc, List.nil_append] at simple
    obtain ⟨q', run', left', -⟩ := reached'.line here' simple
    exact ⟨q', run', left'⟩
  obtain ⟨b, derives₂, same₂⟩ := derives.alike (.of_kinds kinds')
  obtain ⟨q, run, left, -⟩ :=
    reached.line here ((SimpleStatement.augment named marked augments derives₁).line ended)
  obtain ⟨q', run', left'⟩ := written derives₂
  have flat : ∀ {c first second third}, node.Resembles (fun _ => 0) c →
      (Node.augmented name op c first second third).unlined =
        (Node.augmented name op node 0 0 0).unlined := by
    intro c first second third same
    simp only [Node.augmented, Node.unlined, Node.mapLine, show c.mapLine _ = _ from same]
  refine ⟨_, _, q, q', run, left, run', left', flat same₁, (flat same₂).trans (flat same₁).symm, ?_⟩
  intro together
  obtain ⟨here₁, here₂, here₃, inside⟩ : target'.pos.line = target.pos.line ∧
      copy.pos.line = target.pos.line ∧ operator.pos.line = assign.pos.line ∧
      second.map (·.pos.line) = first.map (·.pos.line) := by simpa using together
  obtain ⟨c, derives₃, same₃⟩ := derives₁.alike (.of_lines (kinds'.trans kinds.symm) inside)
  obtain ⟨_, run'', -⟩ := written derives₃
  rw [run'] at run''
  cases run''
  rw [here₁, here₂, here₃, Node.eq_of_resembles same₃]
  rfl

/-- The value binds looser than the power that it is the exponent of. -/
theorem augmented_expands_power :
    ∃ tree q q', Parser.statement (.ofText "x **= a or b\n" 8) = .ok [tree] q ∧
      Parser.statement (.ofText "x = x ** ( a or b )\n" 8) = .ok [tree] q' := by
  have alone : tokenize "a or b\n" 8 = .ok [
      ⟨.identifier "a", "a", ⟨1, 1⟩⟩, ⟨.keyword .orWord, "or", ⟨1, 3⟩⟩, ⟨.identifier "b", "b", ⟨1, 6⟩⟩,
      ⟨.newline, "\n", ⟨1, 7⟩⟩, ⟨.endMarker, "", ⟨2, 1⟩⟩] := by decide +kernel
  have short : tokenize "x **= a or b\n" 8 = .ok [
      ⟨.identifier "x", "x", ⟨1, 1⟩⟩, ⟨.punct .doubleStarAssign, "**=", ⟨1, 3⟩⟩,
      ⟨.identifier "a", "a", ⟨1, 7⟩⟩, ⟨.keyword .orWord, "or", ⟨1, 9⟩⟩,
      ⟨.identifier "b", "b", ⟨1, 12⟩⟩, ⟨.newline, "\n", ⟨1, 13⟩⟩, ⟨.endMarker, "", ⟨2, 1⟩⟩] := by
    decide +kernel
  have long : tokenize "x = x ** ( a or b )\n" 8 = .ok [
      ⟨.identifier "x", "x", ⟨1, 1⟩⟩, ⟨.punct .assign, "=", ⟨1, 3⟩⟩, ⟨.identifier "x", "x", ⟨1, 5⟩⟩,
      ⟨.punct .doubleStar, "**", ⟨1, 7⟩⟩, ⟨.punct .leftParen, "(", ⟨1, 10⟩⟩,
      ⟨.identifier "a", "a", ⟨1, 12⟩⟩, ⟨.keyword .orWord, "or", ⟨1, 14⟩⟩,
      ⟨.identifier "b", "b", ⟨1, 17⟩⟩, ⟨.punct .rightParen, ")", ⟨1, 19⟩⟩,
      ⟨.newline, "\n", ⟨1, 20⟩⟩, ⟨.endMarker, "", ⟨2, 1⟩⟩] := by
    decide +kernel
  have operand : ∀ {token : Token} {name : String} {level : Level}, token.kind = .identifier name →
      Derives level [token] (.identifier name token.pos.line) :=
    fun named => (Derives.identifier named).loosen (Level.rank_le _)
  have first : Derives .or [⟨.identifier "a", "a", ⟨1, 1⟩⟩] (.identifier "a" 1) := operand rfl
  have second : Derives .and [⟨.identifier "b", "b", ⟨1, 6⟩⟩] (.identifier "b" 1) := operand rfl
  have derives : Derives .or ([⟨.identifier "a", "a", ⟨1, 1⟩⟩] ++ ⟨.keyword .orWord, "or", ⟨1, 3⟩⟩ ::
      ([] ++ [⟨.identifier "b", "b", ⟨1, 6⟩⟩])) (.binary .or (.identifier "a" 1) (.identifier "b" 1) 1) :=
    .binary rfl rfl rfl (by decide) first second
  have taken := TakenForExpression.of_source
    (show tokenize _ 8 = .ok ([_, _, _] ++ [_] ++ [_]) from alone) rfl derives
  obtain ⟨later, -, here⟩ :=
    Parser.answers_of_tokenize (show tokenize _ 8 = .ok ([_, _, _, _, _, _] ++ [_]) from short)
  obtain ⟨later', -, here'⟩ :=
    Parser.answers_of_tokenize (show tokenize _ 8 = .ok ([_, _, _, _, _, _, _, _, _, _] ++ [_]) from long)
  have here : _ = later.after (_ :: _ :: ([_, _, _] ++ [_])) := here
  have here' : _ = later'.after (_ :: _ :: _ :: _ :: _ :: ([_, _, _] ++ [_, _])) := here'
  have augments : Punct.augmented? .doubleStarAssign = some .pow := rfl
  obtain ⟨tree, tree', q, q', run, -, run', -, -, -, same⟩ :=
    augmented_expands taken augments (by exact .intro rfl rfl rfl rfl)
      (by exact .intro rfl rfl rfl rfl rfl rfl rfl rfl) .fresh here .fresh here'
  rw [same rfl] at run'
  exact ⟨tree, q, q', run, run'⟩

end Offside
