import Offside.Proofs.Lexing.Failures
import Offside.Proofs.Lexing.Nesting

/-!
# The indentation of a source

`Indented` follows the tokens of a source line by line: where a logical line begins, which INDENT or
DEDENTs stand before it, and where it ends. `tokenize_indented` shows that the tokens of every source
are so, up to the first line whose width fits no open level or to another error.
-/

namespace Offside

/-- The blanks in front of a line. -/
def Source.blanks (line : List Char) : List Char := line.takeWhile Indentation.isSpace

open Source (blanks)
open Indentation (Line Nests Misfits Follows Holds exactWidth toNat_width)

/-- The first of the lines from `row` on that is not empty. -/
structure FirstFilled (lines : List (List Char)) (row first : Nat) (line : List Char) : Prop where
  le : row ≤ first
  found : lines[first]? = some line
  filled : Indentation.isEmptyLine line = false
  between : ∀ i other, row ≤ i → i < first → lines[i]? = some other →
    Indentation.isEmptyLine other = true

def NoneFilled (lines : List (List Char)) (row : Nat) : Prop :=
  ∀ i line, row ≤ i → lines[i]? = some line → Indentation.isEmptyLine line = true

/-- Sixty-four bits hold the widths of all lines that are not empty. -/
def AllHold (tabSize : Nat) (lines : List (List Char)) : Prop :=
  ∀ line ∈ lines, Indentation.isEmptyLine line = false → Holds tabSize (blanks line)

theorem AllHold.of_filled {tabSize : Nat} {lines : List (List Char)} {row first : Nat}
    {line : List Char} (holds : AllHold tabSize lines)
    (filled : FirstFilled lines row first line) : Holds tabSize (blanks line) :=
  holds line (List.mem_of_getElem? filled.found) filled.filled

/-- Tokens of the physical lines before or at a row, with the logical lines that have begun, the last
one first. Inside a logical line the brackets are given that are open in it, between two there are
none. -/
inductive Indented (tabSize : Nat) (lines : List (List Char)) :
    List Line → Option (List Char) → Nat → List Token → Prop
  | start : Indented tabSize lines [⟨0, 0⟩] none 0 []
  | begin {history : List Line} {row first depth : Nat} {line : List Char}
      {tokens layout : List Token} : Indented tabSize lines history none row tokens →
      FirstFilled lines row first line →
      Nests history (exactWidth tabSize (blanks line)) depth (layout.map Token.kind) →
      (∀ token ∈ layout, token.pos =
        ⟨Position.coordinate first, Position.coordinate (blanks line).length⟩) →
      Indented tabSize lines (⟨exactWidth tabSize (blanks line), depth⟩ :: history) (some []) first
        (tokens ++ layout)
  | word {history : List Line} {stack stack' : List Char} {row : Nat} {tokens : List Token}
      {token : Token} : Indented tabSize lines history (some stack) row tokens →
      row < lines.length → token.pos.line = Position.coordinate row →
      token.kind.isLayout = false → token.kind ≠ .endMarker →
      token.kind.nesting stack = some stack' →
      Indented tabSize lines history (some stack') row (tokens ++ [token])
  /-- A line goes on on the next one inside brackets or after a backslash. -/
  | join {history : List Line} {stack line : List Char} {row : Nat} {tokens : List Token} :
      Indented tabSize lines history (some stack) row tokens → lines[row]? = some line →
      stack ≠ [] ∨ ['\\', '\n'] <:+ line →
      Indented tabSize lines history (some stack) (row + 1) tokens
  | newline {history : List Line} {row : Nat} {tokens : List Token} {newline : Token} :
      Indented tabSize lines history (some []) row tokens → row < lines.length →
      newline.kind = .newline → newline.pos.line = Position.coordinate row →
      Indented tabSize lines history none (row + 1) (tokens ++ [newline])

theorem Indentation.pos_of_mem_settle {levels : List UInt64} {width : UInt64} {pos : Position}
    {token : Token} (member : token ∈ (settle levels width pos).tokens) : token.pos = pos := by
  rcases settle_cases levels width pos with ⟨-, tokens⟩ | ⟨closed, -, tokens⟩
  · rw [tokens] at member
    rw [List.mem_singleton.mp member]
  · rw [tokens] at member
    obtain ⟨_, -, rfl⟩ := List.mem_map.mp member
    rfl

namespace Lexer

variable {s t : Lexer} {tabSize : UInt64} {lines : List (List Char)} {before tokens : List Token}

/-! ### Where lines begin -/

/-- The lines that are left are those from the row of the cursor on. -/
structure AtRow (lines : List (List Char)) (c : Cursor) : Prop where
  left : c.lines = lines.drop c.row
  le : c.row ≤ lines.length

theorem AtRow.get {c : Cursor} (here : AtRow lines c) (k : Nat) :
    c.lines[k]? = lines[c.row + k]? := by
  rw [here.left, List.getElem?_drop]

theorem AtRow.head {c : Cursor} {line : List Char} {later : List (List Char)}
    (here : AtRow lines c) (split : c.lines = line :: later) : lines[c.row]? = some line := by
  rw [← Nat.add_zero c.row, ← here.get, split]
  rfl

theorem AtRow.lt {c : Cursor} (here : AtRow lines c) (more : c.lines ≠ []) :
    c.row < lines.length := by
  by_contra beyond
  rw [here.left] at more
  exact more (List.drop_eq_nil_of_le (Nat.le_of_not_lt beyond))

theorem AtRow.skipLines {c : Cursor} (here : AtRow lines c) {count : Nat}
    (le : count ≤ c.lines.length) : AtRow lines (c.skipLines count) := by
  have length := congrArg List.length here.left
  rw [List.length_drop] at length
  have := here.le
  constructor
  · show c.lines.drop count = lines.drop (c.row + count)
    rw [here.left, List.drop_drop]
  · show c.row + count ≤ lines.length
    omega

theorem AtRow.nextLine {c : Cursor} (here : AtRow lines c) (more : c.lines ≠ []) :
    AtRow lines c.nextLine := here.skipLines (List.length_pos_iff.mpr more)

theorem AtRow.skipped (here : AtRow lines s.cursor) : AtRow lines s.skipped.cursor :=
  here.skipLines (List.takeWhile_sublist _).length_le

theorem Turn.atRow (turn : Turn s tokens t) (here : AtRow lines s.cursor) :
    AtRow lines t.cursor := by
  cases turn with
  | blank => exact here.skipped
  | enter => exact ⟨here.skipped.left, here.skipped.le⟩
  | newline _ more | fold _ more | join _ more => exact here.nextLine more
  | token => exact ⟨here.left, here.le⟩

theorem of_lt_length_takeWhile {p : α → Bool} {xs : List α} {k : Nat} {x : α}
    (lt : k < (xs.takeWhile p).length) (found : xs[k]? = some x) : p x = true := by
  rw [← List.takeWhile_append_dropWhile (p := p) (l := xs), List.getElem?_append_left lt] at found
  exact List.mem_takeWhile_imp (List.mem_of_getElem? found)

theorem AtRow.firstFilled (here : AtRow lines s.cursor) {line : List Char}
    {later : List (List Char)} (split : s.skipped.cursor.lines = line :: later) :
    FirstFilled lines s.cursor.row s.skipped.cursor.row line := by
  refine ⟨Nat.le_add_right _ _, here.skipped.head split, ?_, fun i other le lt found => ?_⟩
  · have head := List.head?_dropWhile_not Indentation.isEmptyLine s.cursor.lines
    rw [← lines_skipped, split] at head
    exact head
  · obtain ⟨k, rfl⟩ := Nat.exists_eq_add_of_le le
    rw [← here.get] at found
    exact of_lt_length_takeWhile (Nat.lt_of_add_lt_add_left lt) found

theorem AtRow.noneFilled (here : AtRow lines s.cursor) (ended : s.skipped.cursor.lines = []) :
    NoneFilled lines s.cursor.row := by
  intro i line le found
  obtain ⟨k, rfl⟩ := Nat.exists_eq_add_of_le le
  rw [← here.get] at found
  rw [lines_skipped] at ended
  exact List.dropWhile_eq_nil_iff.mp ended line (List.mem_of_getElem? found)

/-! ### Turns -/

/-- The tokens handed out so far and the lexer after them. At the end of a source it is past its
empty lines. -/
structure InLine (tabSize : UInt64) (lines : List (List Char)) (history : List Line)
    (tokens : List Token) (s : Lexer) : Prop where
  tabs : s.tabSize = tabSize
  here : AtRow lines s.cursor
  follows : Follows history s.levels
  line : s.lineStart = true ∧ Indented tabSize.toNat lines history none s.cursor.row tokens ∨
    s.lineStart = false ∧
      Indented tabSize.toNat lines history (some (s.brackets.map (·.bracket))) s.cursor.row tokens ∨
    s.lineStart = false ∧ s.cursor.lines = [] ∧ s.brackets = [] ∧
      ∃ row, Indented tabSize.toNat lines history none row tokens ∧ NoneFilled lines row

variable {history : List Line}

theorem InLine.start (inLine : InLine tabSize lines history before s) (start : s.lineStart = true) :
    Indented tabSize.toNat lines history none s.cursor.row before := by
  rcases inLine.line with ⟨-, indented⟩ | ⟨inside, -⟩ | ⟨inside, -⟩
  · exact indented
  · rw [inside] at start
    cases start
  · rw [inside] at start
    cases start

theorem InLine.inside (inLine : InLine tabSize lines history before s)
    (inside : s.lineStart = false) (more : s.cursor.lines ≠ []) :
    Indented tabSize.toNat lines history (some (s.brackets.map (·.bracket))) s.cursor.row
      before := by
  rcases inLine.line with ⟨start, -⟩ | ⟨-, indented⟩ | ⟨-, ended, -⟩
  · rw [inside] at start
    cases start
  · exact indented
  · exact absurd ended more

theorem rest_skipped {line : List Char} {later : List (List Char)}
    (split : s.skipped.cursor.lines = line :: later) : s.skipped.cursor.rest = line := by
  show (s.skipped.cursor.lines.headD []).drop 0 = line
  rw [split]
  rfl

theorem settled_skipped (tabs : s.tabSize = tabSize) {line : List Char} {later : List (List Char)}
    (split : s.skipped.cursor.lines = line :: later) :
    s.skipped.settled = Indentation.settle s.levels (Indentation.width tabSize (blanks line))
      ⟨Position.coordinate s.skipped.cursor.row, Position.coordinate (blanks line).length⟩ := by
  have column : s.skipped.unspaced.cursor.position = ⟨Position.coordinate s.skipped.cursor.row,
      Position.coordinate (0 + (s.skipped.cursor.rest.takeWhile Indentation.isSpace).length)⟩ := rfl
  rw [Nat.zero_add, rest_skipped split] at column
  rw [Lexer.settled, column, rest_skipped split, ← tabs]
  rfl

theorem Turn.inLine (holds : AllHold tabSize.toNat lines) (turn : Turn s tokens t)
    (steady : s.Steady) (inLine : InLine tabSize lines history before s) :
    ∃ history', InLine tabSize lines history' (before ++ tokens) t := by
  have unended := turn.unended
  have here := turn.atRow inLine.here
  cases turn with
  | blank start ended =>
    refine ⟨history, inLine.tabs, here, inLine.follows,
      .inr (.inr ⟨rfl, ended, (steady.start start).1, ?_⟩)⟩
    rw [List.append_nil]
    exact ⟨_, inLine.start start, inLine.here.noneFilled ended⟩
  | enter start more fits =>
    obtain ⟨line, later, split⟩ := List.exists_cons_of_ne_nil more
    have settled := settled_skipped inLine.tabs split
    have filled := inLine.here.firstFilled split
    have width := toNat_width (holds.of_filled filled)
    rw [settled] at fits ⊢
    obtain ⟨level, nests, follows⟩ := inLine.follows.settle fits
    rw [width] at level nests
    refine ⟨_, inLine.tabs, here, follows, .inr (.inl ⟨rfl, ?_⟩)⟩
    rw [level]
    have closed : s.skipped.brackets = [] := (steady.start start).1
    show Indented _ _ _ (some (s.skipped.brackets.map (·.bracket))) s.skipped.cursor.row _
    rw [closed]
    exact .begin (inLine.start start) filled nests fun token => Indentation.pos_of_mem_settle
  | newline inside more _ closed =>
    have indented := inLine.inside inside more
    rw [closed] at indented
    exact ⟨history, inLine.tabs, here, inLine.follows,
      .inl ⟨rfl, .newline indented (inLine.here.lt more) rfl rfl⟩⟩
  | fold inside more _ open' =>
    obtain ⟨line, later, split⟩ := List.exists_cons_of_ne_nil more
    have some : s.brackets.map (·.bracket) ≠ [] := fun none => open' (List.map_eq_nil_iff.mp none)
    rw [List.append_nil]
    exact ⟨history, inLine.tabs, here, inLine.follows, .inr (.inl ⟨inside,
      .join (inLine.inside inside more) (inLine.here.head split) (.inl some)⟩)⟩
  | join inside more found =>
    obtain ⟨line, later, split⟩ := List.exists_cons_of_ne_nil more
    rw [List.append_nil]
    refine ⟨history, inLine.tabs, here, inLine.follows, .inr (.inl ⟨inside,
      .join (inLine.inside inside more) (inLine.here.head split) (.inr ?_)⟩)⟩
    exact steady.ahead_join more found ▸ ahead_suffix_of_cons split
  | @token taken kind brackets inside more starts read opened =>
    obtain ⟨_, _, _, _, lexeme⟩ := lexeme_of_read read
    have goes := nesting_of_bracketed opened
    exact ⟨history, inLine.tabs, here, inLine.follows,
      .inr (.inl ⟨inside, .word (inLine.inside inside more) (inLine.here.lt more) rfl
        lexeme.not_layout (unended _ (List.mem_singleton.mpr rfl)) goes⟩)⟩

theorem Run.inLine (holds : AllHold tabSize.toNat lines) (run : Run s tokens t)
    (steady : s.Steady) (inLine : InLine tabSize lines history before s) :
    ∃ history', InLine tabSize lines history' (before ++ tokens) t := by
  induction run generalizing before history with
  | refl =>
    rw [List.append_nil]
    exact ⟨history, inLine⟩
  | step turn _ ih =>
    obtain ⟨history', inLine'⟩ := turn.inLine holds steady inLine
    rw [← List.append_assoc]
    exact ih (turn.steady steady) inLine'

/-- The tokens of a source end between two lines or behind a last one without its end. -/
theorem InLine.finished (inLine : InLine tabSize lines history before s) (ended : s.Ended) :
    ∃ inside row, Indented tabSize.toNat lines history inside row before ∧
      (inside = none ∧ NoneFilled lines row ∨ inside = some [] ∧ row = lines.length) := by
  rcases inLine.line with ⟨start, -⟩ | ⟨-, indented⟩ | ⟨-, -, -, row, indented, rest⟩
  · rw [ended.inside] at start
    cases start
  · rw [ended.closed] at indented
    have none := inLine.here.left
    rw [ended.ended] at none
    have all := Nat.le_antisymm inLine.here.le (List.drop_eq_nil_iff.mp none.symm)
    exact ⟨some [], _, indented, .inr ⟨rfl, all⟩⟩
  · exact ⟨none, row, indented, .inl ⟨rfl, rest⟩⟩

/-- The last line's levels are closed, one DEDENT for each. -/
theorem InLine.closing (inLine : InLine tabSize lines history before s) :
    ∃ last dedents ending, history.head? = some last ∧ s.closing = dedents ++ [ending] ∧
      dedents.map Token.kind = List.replicate last.depth .dedent ∧ ending.kind = .endMarker := by
  refine ⟨_, s.dedents, s.endMarker, inLine.follows.last, rfl, ?_, rfl⟩
  rw [dedents, List.map_map]
  exact List.map_const'

theorem InLine.misfit (holds : AllHold tabSize.toNat lines)
    (inLine : InLine tabSize lines history before s) {e : LexError}
    (failed : s.openLine = .error e t) :
    ∃ first line width expected, FirstFilled lines s.cursor.row first line ∧
      Misfits history width.toNat expected.toNat ∧
      width.toNat = exactWidth tabSize.toNat (blanks line) ∧
      e = .inconsistentDedent width expected (Position.coordinate first) := by
  obtain ⟨more, outer, mismatch, rfl, -⟩ := openLine_error failed
  obtain ⟨line, later, split⟩ := List.exists_cons_of_ne_nil more
  have filled := inLine.here.firstFilled split
  rw [settled_skipped inLine.tabs split] at mismatch
  refine ⟨_, line, _, outer, filled, inLine.follows.mismatch mismatch,
    toNat_width (holds.of_filled filled), ?_⟩
  rw [rest_skipped split, ← inLine.tabs]
  rfl

end Lexer

end Offside
