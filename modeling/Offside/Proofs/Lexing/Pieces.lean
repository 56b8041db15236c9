import Offside.Proofs.Lexing.Shape

/-!
# The pieces of a source

A source is its tokens with spaces, comments, joins and line ends between them. `Lossless` says that of a
list of tokens, and that the tokens stand where they say, in order; `Piece.lossless` gets the latter from
the pieces alone.
-/

namespace Offside

/-! ### Places in a text -/

namespace Position

def next (pos : Position) (c : Char) : Position :=
  if c = '\n' then ⟨pos.line + 1, 1⟩ else ⟨pos.line, pos.column + 1⟩

/-- The place after a text. -/
def after (text : List Char) : Position := text.foldl next ⟨1, 1⟩

theorem foldl_next_flat {chars : List Char} (flat : '\n' ∉ chars) (pos : Position) :
    chars.foldl next pos = ⟨pos.line, pos.column + chars.length⟩ := by
  induction chars generalizing pos with
  | nil => rfl
  | cons c chars ih =>
    rw [List.mem_cons, not_or] at flat
    rw [List.foldl_cons, ih flat.2, next, if_neg (Ne.symm flat.1), List.length_cons]
    simp only [Position.mk.injEq, true_and]
    omega

theorem foldl_next_line {body : List Char} (flat : '\n' ∉ body) (pos : Position) :
    (body ++ ['\n']).foldl next pos = ⟨pos.line + 1, 1⟩ := by
  rw [List.foldl_concat, foldl_next_flat flat]
  rfl

theorem foldl_next_cases (chars : List Char) (pos : Position) :
    chars.foldl next pos = ⟨pos.line, pos.column + chars.length⟩ ∨
      pos.line < (chars.foldl next pos).line := by
  induction chars generalizing pos with
  | nil => exact .inl rfl
  | cons c chars ih =>
    rw [List.foldl_cons, List.length_cons]
    by_cases feed : c = '\n'
    · right
      rw [next, if_pos feed]
      rcases ih ⟨pos.line + 1, 1⟩ with same | later
      · rw [same]
        exact Nat.lt_succ_self _
      · exact Nat.lt_of_succ_lt later
    · rw [next, if_neg feed]
      rcases ih ⟨pos.line, pos.column + 1⟩ with same | later
      · left
        rw [same, Nat.add_assoc, Nat.add_comm 1]
      · exact .inr later

end Position

namespace Source

/-- The text from a place on. -/
def textFrom (lines : List (List Char)) (pos : Position) : List Char :=
  (lines.drop (pos.line - 1)).flatten.drop (pos.column - 1)

variable {lines : List (List Char)}

/-- All lines end with their only line feed. -/
def AreWhole (lines : List (List Char)) : Prop :=
  ∀ line ∈ lines, ∃ body, line = body ++ ['\n'] ∧ '\n' ∉ body

theorem areWhole_lines (text : String) : AreWhole (Source.lines text) := fun _ => mem_splitLines

theorem foldl_next_lines (whole : AreWhole lines) (row : Nat) :
    lines.flatten.foldl Position.next ⟨row, 1⟩ = ⟨row + lines.length, 1⟩ := by
  induction lines generalizing row with
  | nil => rfl
  | cons line lines ih =>
    obtain ⟨body, rfl, flat⟩ := whole line List.mem_cons_self
    rw [List.flatten_cons, List.foldl_append, Position.foldl_next_line flat,
      ih fun line member => whole line (List.mem_cons_of_mem _ member), List.length_cons]
    simp only [Position.mk.injEq, and_true]
    omega

theorem drop_of_foldl_next (whole : AreWhole lines) {front back : List Char}
    (split : lines.flatten = front ++ back) (row : Nat) :
    (lines.drop ((front.foldl Position.next ⟨row, 1⟩).line - row)).flatten.drop
      ((front.foldl Position.next ⟨row, 1⟩).column - 1) = back := by
  induction lines generalizing row front with
  | nil =>
    obtain ⟨rfl, rfl⟩ := List.append_eq_nil_iff.mp split.symm
    simp
  | cons line lines ih =>
    obtain ⟨body, rfl, flat⟩ := whole line List.mem_cons_self
    have later : AreWhole lines := fun line member => whole line (List.mem_cons_of_mem _ member)
    rw [List.flatten_cons] at split
    rcases List.append_eq_append_iff.mp split with ⟨extra, rfl, rest⟩ | ⟨extra, whole, rfl⟩
    · -- The front goes past the first line.
      have passed := ih later rest (row + 1)
      have line : row + 1 ≤ (extra.foldl Position.next ⟨row + 1, 1⟩).line := by
        rcases Position.foldl_next_cases extra ⟨row + 1, 1⟩ with same | later
        · rw [same]
        · exact Nat.le_of_lt later
      rw [List.foldl_append, Position.foldl_next_line flat]
      obtain ⟨count, lines⟩ := Nat.exists_eq_add_of_le line
      rw [lines, Nat.add_sub_cancel_left] at passed
      rw [lines, Nat.add_assoc, Nat.add_sub_cancel_left, Nat.add_comm 1, List.drop_succ_cons]
      exact passed
    · -- The front ends on the first line, or right after it.
      rcases List.eq_nil_or_concat extra with rfl | ⟨extra, last, rfl⟩
      · rw [List.append_nil] at whole
        rw [← whole, Position.foldl_next_line flat, Nat.add_sub_cancel_left]
        rfl
      · rw [List.concat_eq_append, ← List.append_assoc] at whole
        obtain ⟨rfl, -⟩ := List.append_inj' whole rfl
        have flat' : '\n' ∉ front := fun member => flat (List.mem_append_left extra member)
        rw [Position.foldl_next_flat flat', Nat.sub_self, List.drop_zero, List.flatten_cons, whole,
          List.append_assoc, List.append_assoc]
        simp

theorem textFrom_after (whole : AreWhole lines) {front back : List Char}
    (split : lines.flatten = front ++ back) : textFrom lines (Position.after front) = back :=
  drop_of_foldl_next whole split 1

end Source

/-! ### Pieces of a source -/

/-- Whether the token is made of characters of the source. -/
def Token.Kind.isSpelled : Token.Kind → Bool
  | .indent | .dedent | .endMarker => false
  | _ => true

def Token.spelled (tokens : List Token) : List Token := tokens.filter (·.kind.isSpelled)

/-- A token, or a part of a source that is no token. -/
inductive Piece
  | token (token : Token)
  | space (c : Char)
  | comment (body : List Char)
  /-- A backslash that joins its line to the next. -/
  | join
  /-- A line end that ends no logical line. -/
  | feed

namespace Piece

def chars : Piece → List Char
  | .token word => word.text.toList
  | .space c => [c]
  | .comment body => '#' :: body
  | .join => ['\\', '\n']
  | .feed => ['\n']

def token? : Piece → Option Token
  | .token word => some word
  | _ => none

/-- Whether the piece may stand on an empty line. -/
def isBlank : Piece → Bool
  | .space _ | .comment _ => true
  | _ => false

def text (pieces : List Piece) : List Char := pieces.flatMap chars

def tokens (pieces : List Piece) : List Token := pieces.filterMap token?

/-- No line is begun after the pieces. -/
def AtStart (pieces : List Piece) : Prop := text pieces = [] ∨ ['\n'] <:+ text pieces

/-- There is nothing on the line so far. -/
def OnEmptyLine (pieces : List Piece) : Prop :=
  ∃ front line, pieces = front ++ line ∧ AtStart front ∧ ∀ piece ∈ line, piece.isBlank = true

/-- A bracket of the tokens is still open. -/
def InBracket (pieces : List Piece) : Prop :=
  ∃ opening stack, Opened (Token.brackets (tokens pieces)) (opening :: stack)

/-- What holds of a piece of `source` that comes after those of `before`. -/
def Fits (source : List Char) (before : List Piece) : Piece → Prop
  | .token word => word.pos = Position.after (text before) ∧ word.text ≠ ""
  | .space c => Indentation.isSpace c = true
  | .comment body => '\n' ∉ body ∧ text before ++ '#' :: body ++ ['\n'] <+: source
  | .join => True
  | .feed => OnEmptyLine before ∨ InBracket before

variable {source : List Char} {pieces : List Piece}

theorem text_append (first second : List Piece) : text (first ++ second) = text first ++ text second :=
  List.flatMap_append

theorem text_concat (piece : Piece) : text (pieces ++ [piece]) = text pieces ++ piece.chars := by
  rw [text_append]
  exact congrArg (text pieces ++ ·) (List.flatMap_singleton chars piece)

theorem tokens_append (first second : List Piece) :
    tokens (first ++ second) = tokens first ++ tokens second := List.filterMap_append

end Piece

/-- Where the tokens of a source stand, and what there is between them. -/
structure Lossless (source : String) (tokens : List Token) : Prop where
  /-- A token has the characters of the source from its place on. -/
  located : ∀ token ∈ Token.spelled tokens,
    token.text ≠ "" ∧ token.text.toList <+: Source.textFrom (Source.lines source) token.pos
  /-- A token ends before the next one begins. -/
  ordered : (Token.spelled tokens).Pairwise fun first second => first.pos.line < second.pos.line ∨
    first.pos.line = second.pos.line ∧ first.pos.column + first.text.length ≤ second.pos.column
  /-- The source is its tokens, with spaces, comments, joins and line ends between them. -/
  covered : ∃ pieces, Piece.text pieces = Source.completed source ∧
    Piece.tokens pieces = Token.spelled tokens ∧ InTurn (Piece.Fits (Source.completed source)) pieces

namespace Piece

theorem tokens_of_blank (blank : ∀ piece ∈ pieces, piece.isBlank = true) : tokens pieces = [] := by
  refine List.filterMap_eq_nil_iff.mpr fun piece member => ?_
  have isBlank := blank piece member
  cases piece <;> first | rfl | cases isBlank

theorem eq_token {piece : Piece} {word : Token} (same : piece.token? = some word) :
    piece = .token word := by
  cases piece <;> cases same
  rfl

theorem pairwise_of_split {R : α → α → Prop} {xs : List α}
    (h : ∀ front x between y back, xs = front ++ x :: (between ++ y :: back) → R x y) :
    xs.Pairwise R := by
  induction xs with
  | nil => exact .nil
  | cons x xs ih =>
    refine List.pairwise_cons.mpr ⟨fun y member => ?_, ih fun front x between y back split => ?_⟩
    · obtain ⟨between, back, rfl⟩ := List.append_of_mem member
      exact h [] x between y back rfl
    · exact h (_ :: front) x between y back (by rw [split]; rfl)

/-- Tokens that are pieces of a source in turn are where they say, and in order. -/
theorem lossless {source : String} {tokens : List Token} {pieces : List Piece}
    (all : text pieces = Source.completed source) (same : Piece.tokens pieces = Token.spelled tokens)
    (fits : InTurn (Fits (Source.completed source)) pieces) : Lossless source tokens := by
  refine ⟨fun word member => ?_, ?_, pieces, all, same, fits⟩
  · rw [← same] at member
    obtain ⟨piece, inside, isToken⟩ := List.mem_filterMap.mp member
    obtain ⟨front, back, split⟩ := List.append_of_mem inside
    obtain ⟨pos, some⟩ : Fits _ front (.token word) :=
      eq_token isToken ▸ fits front piece back split
    rw [eq_token isToken] at split
    have cut : (Source.lines source).flatten = text front ++ (word.text.toList ++ text back) := by
      rw [Source.flatten_lines, ← all, split, text_append]
      rfl
    rw [pos, Source.textFrom_after (Source.areWhole_lines source) cut]
    exact ⟨some, List.prefix_append _ _⟩
  · rw [← same, Piece.tokens, List.pairwise_filterMap]
    refine pairwise_of_split fun front x between y back split first isFirst second isSecond => ?_
    rw [eq_token isFirst, eq_token isSecond] at split
    have here : first.pos = Position.after (text front) := (fits front _ _ split).1
    rw [← List.cons_append, ← List.append_assoc] at split
    have there : second.pos = Position.after (text (front ++ .token first :: between)) :=
      (fits _ _ back split).1
    have passed : second.pos = (first.text.toList ++ text between).foldl Position.next first.pos := by
      rw [there, here, Position.after, text_append, List.foldl_append]
      rfl
    rw [passed]
    rcases Position.foldl_next_cases (first.text.toList ++ text between) first.pos with same | later
    · rw [same, List.length_append, String.length_toList]
      exact .inr ⟨rfl, Nat.add_le_add_left (Nat.le_add_right _ _) _⟩
    · exact .inl later

end Piece

end Offside
