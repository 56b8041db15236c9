import Mathlib.Data.List.DropRight
import Offside.Parser.Statement
import Offside.Proofs.Lexing.Indented

/-!
# What stands before the closing tokens

Blocks and the source are closed after a NEWLINE, with one exception: nothing closes the last line if
a backslash joins it to a next one. `tokenize_closing` says so of all sources.
-/

namespace Offside

namespace Token

variable {tokens later : List Token}

/-- The token closes a block or the source. -/
def Closes (token : Token) : Prop := token.kind = .dedent ∨ token.kind = .endMarker

/-- The last token that is no DEDENT is a NEWLINE, if there is one. -/
def AfterLine (tokens : List Token) : Prop := EndLine (tokens.rdropWhile (·.kind = .dedent))

theorem EndLine.afterLine (ends : EndLine tokens) : AfterLine tokens := by
  rcases ends with rfl | ⟨front, newline, rfl, kind⟩
  · exact .inl rfl
  · have kept : ¬newline.kind = .dedent := by
      rw [kind]
      exact nofun
    rw [AfterLine, List.rdropWhile_concat_neg _ _ _ (by simpa using kept)]
    exact .inr ⟨front, newline, rfl, kind⟩

theorem AfterLine.dedents (after : AfterLine tokens) (kinds : ∀ token ∈ later, token.kind = .dedent) :
    AfterLine (tokens ++ later) := by
  induction later using List.reverseRecOn with
  | nil =>
    rw [List.append_nil]
    exact after
  | append_singleton later token ih =>
    have kind := kinds token (by simp)
    rw [← List.append_assoc, AfterLine, List.rdropWhile_concat_pos _ _ _ (by simpa using kind)]
    exact ih fun token member => kinds token (List.mem_append_left _ member)

end Token

namespace Lexer

open Token

variable {s t : Lexer} {source : String} {tabSize : UInt64} {lines : List (List Char)}
  {before tokens : List Token}

/-- The lexer comes to a backslash at the end of the last line, and the line that it joins to a next one
has tokens. -/
def EndsJoined (source : String) (tabSize : UInt64) : Prop :=
  ∃ before s, Run (.ofText source tabSize) before s ∧ s.lineStart = false ∧
    s.ahead = ['\\', '\n'] ∧ s.cursor.nextLine.lines = [] ∧ ¬AfterLine before

/-- The tokens handed out so far and the lexer after them. Where the source ends with its brackets
closed, a line has ended too. -/
structure Lined (source : String) (tabSize : UInt64) (before : List Token) (s : Lexer) : Prop where
  run : Run (.ofText source tabSize) before s
  dedents : InTurn (fun front token => token.kind = .dedent → AfterLine front) before
  ended : s.cursor.lines = [] → AfterLine before ∨ s.brackets ≠ [] ∨ EndsJoined source tabSize

theorem lined_ofText (source : String) (tabSize : UInt64) :
    Lined source tabSize [] (ofText source tabSize) :=
  ⟨.refl _, .nil, fun _ => .inl (EndLine.afterLine (.inl rfl))⟩

/-- A line opens one level, or it closes levels. -/
theorem settled_cases (s : Lexer) :
    (∃ indent : Token, s.settled.tokens = [indent] ∧ indent.kind = .indent) ∨
      ∀ token ∈ s.settled.tokens, token.kind = .dedent := by
  rcases Indentation.settle_cases s.levels (Indentation.width s.tabSize
    (s.cursor.rest.takeWhile Indentation.isSpace)) s.unspaced.cursor.position
    with ⟨-, indent⟩ | ⟨closed, -, dedents⟩
  · exact .inl ⟨_, indent, rfl⟩
  · right
    have dedents : s.settled.tokens = _ := dedents
    rw [dedents]
    intro token member
    obtain ⟨_, -, rfl⟩ := List.mem_map.mp member
    rfl

theorem settled_dedents (s : Lexer) (ends : EndLine before) :
    InTurn (fun front token => token.kind = .dedent → AfterLine (before ++ front))
      s.settled.tokens := by
  intro front token later split kind
  rcases s.settled_cases with ⟨indent, single, other⟩ | dedents
  · have member : token ∈ s.settled.tokens := by
      rw [split]
      exact List.mem_append_cons_self
    rw [single, List.mem_singleton] at member
    rw [← member, kind] at other
    cases other
  · refine (EndLine.afterLine ends).dedents fun earlier member => dedents earlier ?_
    rw [split]
    exact List.mem_append_left _ member

theorem Turn.lined (turn : Turn s tokens t) (lined : Lined source tabSize before s) :
    Lined source tabSize (before ++ tokens) t := by
  have steady := lined.run.steady (steady_ofText source tabSize)
  have shaped := lined.run.shaped (steady_ofText source tabSize) (shaped_ofText source tabSize)
  have run := lined.run.concat turn
  cases turn with
  | blank start =>
    rw [List.append_nil] at run ⊢
    exact ⟨run, lined.dedents, fun _ => .inl (shaped.start start).afterLine⟩
  | enter start more =>
    exact ⟨run, lined.dedents.append (s.skipped.settled_dedents (shaped.start start)),
      fun ended => absurd ended more⟩
  | newline =>
    exact ⟨run, lined.dedents.concat nofun,
      fun _ => .inl (EndLine.afterLine (.inr ⟨before, _, rfl, rfl⟩))⟩
  | fold _ _ _ open' =>
    rw [List.append_nil] at run ⊢
    exact ⟨run, lined.dedents, fun _ => .inr (.inl open')⟩
  | join inside more found =>
    rw [List.append_nil] at run ⊢
    refine ⟨run, lined.dedents, fun ended => ?_⟩
    by_cases after : AfterLine before
    · exact .inl after
    · exact .inr (.inr ⟨before, s, lined.run, inside, steady.ahead_join more found, ended, after⟩)
  | @token taken kind _ _ more _ read =>
    obtain ⟨_, _, _, _, lexeme⟩ := lexeme_of_read read
    have layout := lexeme.not_layout
    refine ⟨run, lined.dedents.concat fun dedent => ?_, fun ended => absurd ended more⟩
    obtain rfl : kind = .dedent := dedent
    cases layout

theorem Run.lined (run : Run s tokens t) (lined : Lined source tabSize before s) :
    Lined source tabSize (before ++ tokens) t := by
  induction run generalizing before with
  | refl =>
    rw [List.append_nil]
    exact lined
  | step turn _ ih =>
    rw [← List.append_assoc]
    exact ih (turn.lined lined)

/-- The tokens that close a source come after a line, or all after the one that goes on. -/
theorem Lined.closing {front later : List Token} {token : Token}
    (lined : Lined source tabSize before t) (ended : t.Ended)
    (split : before ++ t.closing = front ++ token :: later) (closes : token.Closes) :
    AfterLine front ∨ EndsJoined source tabSize ∧ ∀ other ∈ later, other.Closes := by
  have last : ∀ between, t.closing = between ++ token :: later →
      AfterLine (before ++ between) ∨
        EndsJoined source tabSize ∧ ∀ other ∈ later, other.Closes := by
    intro between split
    have part : between <+: t.dedents := by
      have short : between.length < t.closing.length := by
        rw [split, List.length_append, List.length_cons]
        omega
      refine (List.prefix_concat_iff.mp ⟨token :: later, split.symm⟩).resolve_left fun same => ?_
      exact absurd (congrArg List.length same) (Nat.ne_of_lt short)
    rcases lined.ended ended.ended with after | open' | joined
    · exact .inl (after.dedents fun other member => (mem_dedents (part.subset member)).1)
    · exact absurd ended.closed open'
    · refine .inr ⟨joined, fun other member => (mem_closing (s := t) ?_).1⟩
      rw [split]
      exact List.mem_append_right _ (List.mem_cons_of_mem _ member)
  rcases List.append_eq_append_iff.mp split with ⟨between, rfl, tail⟩ | ⟨between, rfl, tail⟩
  · exact last between tail
  · cases between with
    | nil =>
      have here := last [] tail.symm
      rwa [List.append_nil, List.append_nil] at here
    | cons _ between =>
      obtain ⟨rfl, rfl⟩ := List.cons.inj tail
      have kind : token.kind = .dedent :=
        closes.resolve_right (lined.run.unended token List.mem_append_cons_self)
      exact .inl (lined.dedents front token between rfl kind)

theorem Run.atRow (run : Run s tokens t) (here : AtRow lines s.cursor) : AtRow lines t.cursor := by
  induction run with
  | refl => exact here
  | step turn _ ih => exact ih (turn.atRow here)

theorem more_of_ahead (some : s.ahead ≠ []) : s.cursor.lines ≠ [] := by
  intro ended
  apply some
  rw [Lexer.ahead, Cursor.rest, ended, List.headD_nil, List.drop_nil]
  rfl

/-- A line that no other follows is the last line of the source. -/
theorem last_line_of_run (run : Run (.ofText source tabSize) before s) (more : s.cursor.lines ≠ [])
    (ended : s.cursor.nextLine.lines = []) :
    ∃ line, s.cursor.lines = [line] ∧ (Source.lines source).getLast? = some line := by
  have here : AtRow (Source.lines source) s.cursor := run.atRow ⟨rfl, Nat.zero_le _⟩
  obtain ⟨line, later, split⟩ := List.exists_cons_of_ne_nil more
  have none : later = [] := by
    rw [Cursor.nextLine, Cursor.skipLines, split] at ended
    exact ended
  rw [none] at split
  have last : s.cursor.lines.getLast? = some line := by
    rw [split, List.getLast?_singleton]
  rw [here.left, List.getLast?_drop, if_neg (Nat.not_le_of_lt (here.lt more))] at last
  exact ⟨line, split, last⟩

/-- A source that ends so ends with a backslash, maybe before a line end. -/
theorem EndsJoined.last_line (joined : EndsJoined source tabSize) :
    ∃ line, (Source.lines source).getLast? = some line ∧ ['\\', '\n'] <:+ line := by
  obtain ⟨before, s, run, -, ahead, ended, -⟩ := joined
  obtain ⟨line, split, last⟩ := last_line_of_run run (more_of_ahead (by rw [ahead]; exact nofun)) ended
  exact ⟨line, last, ahead ▸ ahead_suffix_of_cons split⟩

/-- At the end of a source with open brackets there are no tokens. -/
theorem closed_of_done (run : Run (.ofText source tabSize) before t) (inside : t.lineStart = false)
    (ended : t.cursor.lines = []) (done : tokenize source tabSize = .ok tokens) : t.Ended := by
  have steady := run.steady (steady_ofText source tabSize)
  cases stepped : t.step with
  | error e u =>
    rw [tokenize_of_failed run stepped] at done
    cases done
  | ok _ u =>
    cases move_of_step stepped with
    | openLine start => exact absurd (inside.symm.trans start) nofun
    | finish _ _ closed => exact ⟨inside, ended, closed⟩
    | endLine _ more | comment _ more | join _ more | literal _ more | punct _ more =>
      exact absurd ended more

/-- Nothing closes a line that goes on after the end of the source. -/
theorem EndsJoined.exposed (joined : EndsJoined source tabSize)
    (done : tokenize source tabSize = .ok tokens) :
    ∃ front token later, tokens = front ++ token :: later ∧ token.Closes ∧ ¬AfterLine front := by
  obtain ⟨before, s, run, inside, ahead, ended, loose⟩ := joined
  have more : s.cursor.lines ≠ [] := more_of_ahead (by rw [ahead]; exact nofun)
  have joins := run.concat (.join inside more ahead)
  rw [List.append_nil] at joins
  have whole := closed_of_done joins inside ended done
  have same := tokenize_eq_ok_iff.mpr ⟨before, _, joins, whole, rfl⟩
  rw [done] at same
  cases closing : ({ s with cursor := s.cursor.nextLine } : Lexer).closing with
  | nil => exact absurd closing (List.concat_ne_nil _ _)
  | cons token later =>
    rw [closing] at same
    refine ⟨before, token, later, Except.ok.inj same, ?_, loose⟩
    exact (mem_closing (closing ▸ List.mem_cons_self)).1

end Lexer

/-- The last token before a DEDENT or the end marker that is no DEDENT is a NEWLINE, if there is one,
unless a backslash joins the last line of the source to a next one. Then the tokens that close the
source come after that line. A source reads the same with and without its last line end. -/
theorem tokenize_closing {source : String} {tabSize : UInt64} {tokens : List Token}
    (done : tokenize source tabSize = .ok tokens) :
    (∀ front token later, tokens = front ++ token :: later → token.Closes →
      Token.AfterLine front ∨ Lexer.EndsJoined source tabSize ∧ ∀ other ∈ later, other.Closes) ∧
    (Lexer.EndsJoined source tabSize →
      (∃ front token later, tokens = front ++ token :: later ∧ token.Closes ∧
        ¬Token.AfterLine front) ∧
      ∃ line, (Source.lines source).getLast? = some line ∧ ['\\', '\n'] <:+ line) ∧
    ∀ c, source.toList.getLast? = some c → c ≠ '\n' ∧ c ≠ '\r' →
      ∀ ending ∈ ["\n", "\r\n", "\r"], tokenize (source ++ ending) tabSize = .ok tokens ∧
        parse (source ++ ending) tabSize = parse source tabSize := by
  refine ⟨?_, fun joined => ⟨joined.exposed done, joined.last_line⟩, ?_⟩
  · intro front token later split closes
    obtain ⟨before, t, run, ended, rfl⟩ := tokenize_eq_ok_iff.mp done
    have lined := run.lined (Lexer.lined_ofText source tabSize)
    rw [List.nil_append] at lined
    exact lined.closing ended split closes
  · intro c last plain ending ends
    have same : Lexer.ofText (source ++ ending) tabSize = Lexer.ofText source tabSize := by
      rw [Lexer.ofText, Cursor.ofText, Source.lines_append_ending last plain ends]
      rfl
    constructor
    · rw [← done, tokenize, same]
      rfl
    · have parser : Parser.ofText (source ++ ending) tabSize = Parser.ofText source tabSize := by
        rw [Parser.ofText, Stream.ofText, same]
        rfl
      rw [parse, parser]
      rfl

/-- A block at the end of a source, whose last line has no line end. -/
theorem tokenize_closing_block : ∃ tokens, tokenize "if x:\n  y" 8 = .ok tokens ∧
    (∀ front token later, tokens = front ++ token :: later → token.Closes → Token.AfterLine front) ∧
    parse ("if x:\n  y" ++ "\r\n") 8 = parse "if x:\n  y" 8 := by
  have done : tokenize "if x:\n  y" 8 = .ok [
      ⟨.keyword .ifWord, "if", ⟨1, 1⟩⟩, ⟨.identifier "x", "x", ⟨1, 4⟩⟩, ⟨.punct .colon, ":", ⟨1, 5⟩⟩,
      ⟨.newline, "\n", ⟨1, 6⟩⟩, ⟨.indent, "", ⟨2, 3⟩⟩, ⟨.identifier "y", "y", ⟨2, 3⟩⟩,
      ⟨.newline, "\n", ⟨2, 4⟩⟩, ⟨.dedent, "", ⟨3, 1⟩⟩, ⟨.endMarker, "", ⟨3, 1⟩⟩] := by decide +kernel
  obtain ⟨closing, joined, ended⟩ := tokenize_closing done
  refine ⟨_, done, fun front token later split closes => ?_, ?_⟩
  · refine (closing front token later split closes).resolve_right fun ⟨ends, _⟩ => ?_
    obtain ⟨line, last, suffix⟩ := (joined ends).2
    have same : (Source.lines "if x:\n  y").getLast? = some [' ', ' ', 'y', '\n'] := by decide +kernel
    rw [same] at last
    cases last
    exact absurd suffix (by decide)
  · exact (ended 'y' (by decide +kernel) (by decide) "\r\n" (by decide)).2

/-- A backslash at the end of a source leaves its last line open, and the block around it cannot be
parsed. -/
theorem tokenize_open_line :
    (∃ tokens, tokenize "if x:\n    y \\" 8 = .ok tokens ∧
      ¬∀ front token later, tokens = front ++ token :: later → token.Closes →
        Token.AfterLine front) ∧
    (parse "if x:\n    y \\" 8).isOk = false ∧ (parse "if x:\n    y" 8).isOk = true := by
  let line : List Token := [⟨.keyword .ifWord, "if", ⟨1, 1⟩⟩, ⟨.identifier "x", "x", ⟨1, 4⟩⟩,
    ⟨.punct .colon, ":", ⟨1, 5⟩⟩, ⟨.newline, "\n", ⟨1, 6⟩⟩, ⟨.indent, "", ⟨2, 5⟩⟩]
  let name : Token := ⟨.identifier "y", "y", ⟨2, 5⟩⟩
  have done : tokenize "if x:\n    y \\" 8 =
      .ok (line ++ [name] ++ [⟨.dedent, "", ⟨3, 1⟩⟩, ⟨.endMarker, "", ⟨3, 1⟩⟩]) := by decide +kernel
  refine ⟨⟨_, done, fun after => ?_⟩, by decide +kernel, by decide +kernel⟩
  have ends : Token.EndLine (line ++ [name]) := after (line ++ [name]) _ _ rfl (.inl rfl)
  rcases ends with none | ⟨front, newline, split, kind⟩
  · exact List.concat_ne_nil name line none
  · obtain ⟨-, same⟩ := List.append_inj' split rfl
    rw [← (List.cons.inj same).1] at kind
    cases kind

end Offside
