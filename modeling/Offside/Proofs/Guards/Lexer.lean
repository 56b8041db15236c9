import Offside.Proofs.Guards.Numbers
import Offside.Proofs.Guards.Strings
import Offside.Proofs.Lexing.Asked
import Offside.Proofs.Lexing.Failures

/-!
# The lexer with guards

The moves of the lexer made of guarded operations, with the open levels on their stack. A move that comes
through is the move of the lexer (`step_ok`), and as long as words hold the widths of the lines that are
left every move comes through (`step_eq`). So do the calls of the lexer (`next_eq`), whatever the earlier
ones answered, and `tokenize_eq` for a whole source.
-/

namespace Offside

namespace Lexer

/-- The widths on the stack of the lexer. -/
def stack (s : Lexer) : List UInt64 := s.levels ++ [0]

/-- The lines that are measured at the start of a logical line: the empty ones, and the one behind them. -/
def measured (s : Lexer) : List (List Char) :=
  s.cursor.lines.takeWhile Indentation.isEmptyLine ++ s.skipped.cursor.lines.take 1

theorem measured_subset (s : Lexer) : s.measured ⊆ s.cursor.lines :=
  List.append_subset.mpr ⟨(List.takeWhile_sublist _).subset,
    ((List.take_sublist 1 _).trans (List.drop_sublist _ _)).subset⟩

/-- The second lexer has the tab size of the first, and its lines are left of those of the first. -/
structure Onward (s t : Lexer) : Prop where
  tabs : t.tabSize = s.tabSize
  left : t.cursor.lines <:+ s.cursor.lines

/-- Sixty-four bits hold the widths of all lines that are left. -/
structure Narrow (s : Lexer) : Prop where
  tabs : 0 < s.tabSize
  holds : ∀ line ∈ s.cursor.lines,
    Indentation.Holds s.tabSize.toNat (line.takeWhile Indentation.isSpace)

variable {s t u : Lexer} {e : LexError} {handed : List Token} {count : Nat}

namespace Onward

theorem trans (first : s.Onward t) (second : t.Onward u) : s.Onward u :=
  ⟨second.tabs.trans first.tabs, second.left.trans first.left⟩

theorem skipped (s : Lexer) : s.Onward s.skipped := ⟨rfl, List.drop_suffix _ _⟩

theorem endLine (s : Lexer) : s.Onward s.endLine := by
  unfold Lexer.endLine
  dsimp only
  split
  · exact ⟨rfl, List.drop_suffix 1 _⟩
  · exact ⟨rfl, List.drop_suffix 1 _⟩

theorem of_move (move : Move s t) : s.Onward t := by
  cases move with
  | openLine _ opened =>
    obtain ⟨-, rfl⟩ | ⟨-, entered⟩ := openLine_eq_ok_iff.mp opened
    · exact skipped s
    · obtain ⟨-, rfl⟩ := enterLine_eq_ok_iff.mp entered
      exact (skipped s).trans ⟨rfl, List.suffix_rfl⟩
  | endLine => exact trans (t := s.unspaced) ⟨rfl, List.suffix_rfl⟩ (endLine _)
  | comment => exact trans (t := s.unspaced.skip _) ⟨rfl, List.suffix_rfl⟩ (endLine _)
  | join => exact ⟨rfl, List.drop_suffix 1 _⟩
  | finish | literal | punct => exact ⟨rfl, List.suffix_rfl⟩

theorem of_failure (failure : Failure s e handed t) : s.Onward t := by
  cases failure with
  | misfit => exact (skipped s).trans ⟨rfl, List.suffix_rfl⟩
  | _ => exact ⟨rfl, List.suffix_rfl⟩

theorem of_calls {answer : Except LexError Token} (calls : Calls s count answer t) : s.Onward t := by
  induction calls with
  | ready | finished => exact ⟨rfl, List.suffix_rfl⟩
  | failed _ _ stopped =>
    obtain ⟨handed, u, rfl, failure⟩ := failure_of_step stopped
    exact (of_failure failure).trans ⟨rfl, List.suffix_rfl⟩
  | moved _ _ stepped _ ih => exact (of_move (move_of_step stepped)).trans ih

theorem ask (s : Lexer) : s.Onward s.ask.2 := by
  obtain ⟨count, -, calls⟩ := s.calls_ask
  exact of_calls calls

theorem asked (s : Lexer) (count : Nat) : s.Onward (s.asked count) := by
  induction count with
  | zero => exact ⟨rfl, List.suffix_rfl⟩
  | succ count ih => exact ih.trans (ask _)

end Onward

namespace Narrow

theorem onward (narrow : s.Narrow) (onward : s.Onward t) : t.Narrow := by
  constructor
  · rw [onward.tabs]
    exact narrow.tabs
  · rw [onward.tabs]
    exact fun line member => narrow.holds line (onward.left.mem member)

theorem moved (narrow : s.Narrow) (move : Move s t) : t.Narrow := narrow.onward (.of_move move)

theorem ask (narrow : s.Narrow) : s.ask.2.Narrow := narrow.onward (.ask s)

theorem asked (narrow : s.Narrow) (count : Nat) : (s.asked count).Narrow :=
  narrow.onward (.asked s count)

end Narrow

theorem tabSize_ofText_pos (source : String) (tabSize : UInt64) : 0 < (ofText source tabSize).tabSize := by
  change 0 < max tabSize 1
  rw [UInt64.lt_iff_toNat_lt, UInt64.toNat_max]
  exact lt_max_of_lt_right (by decide)

/-- Tabs up to 2 to the power of 32 and lines of up to 2 to the power of 31 characters are narrow. -/
theorem narrow_ofText {source : String} {tabSize : UInt64} (tabs : tabSize.toNat ≤ 2 ^ 32)
    (short : ∀ line ∈ Source.lines source, line.length ≤ 2 ^ 31) : (ofText source tabSize).Narrow := by
  have positive := tabSize_ofText_pos source tabSize
  have few : (ofText source tabSize).tabSize.toNat ≤ 2 ^ 32 := by
    change (max tabSize 1).toNat ≤ _
    rw [UInt64.toNat_max]
    exact max_le tabs (by decide)
  refine ⟨positive, fun line member => Indentation.holds_of_lt (UInt64.lt_iff_toNat_lt.mp positive) ?_⟩
  have spaces := (List.takeWhile_sublist Indentation.isSpace (l := line)).length_le
  calc (ofText source tabSize).tabSize.toNat * (line.takeWhile Indentation.isSpace).length
      ≤ 2 ^ 32 * 2 ^ 31 := Nat.mul_le_mul few (spaces.trans (short line member))
    _ < UInt64.size := by decide

end Lexer

namespace Guarded

variable {s t : Lexer} {e : LexError}

/-! ### Moves -/

/-- The lexer with these widths on its stack. -/
def restack (s : Lexer) (stack : List UInt64) : Guarded Lexer :=
  if stack.getLast? = some 0 then .ok { s with levels := stack.dropLast } else .error .level

def enterLine (s : Lexer) : Guarded (Lexer.Outcome Unit) := do
  let spaces := s.cursor.rest.takeWhile Indentation.isSpace
  let width ← measure s.tabSize spaces
  let cursor := s.cursor.advance spaces.length
  let settled ← settle s.stack width cursor.position
  let entered ← restack { s with cursor } settled.levels
  return match settled.mismatch with
  | none => .ok () (entered.queue settled.tokens)
  | some outer =>
    .error (.inconsistentDedent width outer cursor.position.line) (entered.queue settled.tokens)

/-- Goes to the next line that is not empty, and settles its indentation. Empty lines are measured too. -/
def openLine (s : Lexer) : Guarded (Lexer.Outcome Unit) := do
  let empty := s.cursor.lines.takeWhile Indentation.isEmptyLine
  let _ ← empty.mapM fun line => measure s.tabSize (line.takeWhile Indentation.isSpace)
  let opened := { s with cursor := s.cursor.skipLines empty.length, lineStart := false }
  if opened.cursor.atEnd then return .ok () opened else enterLine opened

def finish (s : Lexer) : Guarded (Lexer.Outcome Unit) :=
  match s.brackets with
  | opened :: _ => .ok (.error (.unclosedBracket opened.bracket opened.line) s)
  | [] => do
    let (left, dedents) ← unwindAll { s.endMarker with kind := .dedent } s.stack
    let closed ← restack { s with finished := true } left
    return .ok () (closed.queue (dedents ++ [s.endMarker]))

def readPunct (s : Lexer) : Guarded (Lexer.Outcome Unit) :=
  match s.cursor.rest with
  | [] => .error .punctuation
  | c :: _ => .ok (s.readPunct c)

def readToken (s : Lexer) : Guarded (Lexer.Outcome Unit) := do
  let pos := s.cursor.position
  let rest := s.cursor.rest
  match ← string? pos rest with
  | some reading => return s.take reading
  | none =>
    match Name.read? pos rest with
    | some reading => return s.take reading
    | none =>
      match ← number? pos rest with
      | some reading => return s.take reading
      | none => readPunct s

def step (s : Lexer) : Guarded (Lexer.Outcome Unit) :=
  if s.lineStart then openLine s
  else if s.cursor.atEnd then finish s
  else
    let s := s.skip Indentation.isSpace
    match s.cursor.rest with
    | [] | '\n' :: _ => .ok (.ok () s.endLine)
    | '#' :: _ => .ok (.ok () (s.skip (· ≠ '\n')).endLine)
    | '\\' :: '\n' :: _ => .ok (.ok () { s with cursor := s.cursor.nextLine })
    | '\\' :: _ => .ok (.error (.invalidCharacter '\\' s.cursor.position) s)
    | _ :: _ => readToken s

theorem restack_eq (s : Lexer) (levels : List UInt64) :
    restack s (levels ++ [0]) = .ok { s with levels } := by
  rw [restack, List.getLast?_concat, if_pos rfl, List.dropLast_concat]

theorem enterLine_eq {width : UInt64} (measured : measure s.tabSize
    (s.cursor.rest.takeWhile Indentation.isSpace) = .ok width) : enterLine s = .ok s.enterLine := by
  unfold enterLine Lexer.enterLine
  dsimp only
  rw [measured, ok_bind, Lexer.stack, settle_eq, ok_bind, restack_eq, measure_ok measured]
  rfl

theorem exists_of_enterLine {o : Lexer.Outcome Unit} (entered : enterLine s = .ok o) :
    ∃ width, measure s.tabSize (s.cursor.rest.takeWhile Indentation.isSpace) = .ok width := by
  unfold enterLine at entered
  dsimp only at entered
  cases measured : measure s.tabSize (s.cursor.rest.takeWhile Indentation.isSpace) with
  | error breach =>
    rw [measured] at entered
    cases entered
  | ok width => exact ⟨width, rfl⟩

theorem enterLine_ok {o : Lexer.Outcome Unit} (entered : enterLine s = .ok o) : o = s.enterLine := by
  obtain ⟨width, measured⟩ := exists_of_enterLine entered
  exact Except.ok.inj (entered.symm.trans (enterLine_eq measured))

/-- The empty lines come through, and then the line behind them. -/
theorem exists_of_openLine {o : Lexer.Outcome Unit} (opened : openLine s = .ok o) :
    (∃ widths, (s.cursor.lines.takeWhile Indentation.isEmptyLine).mapM (fun line =>
      measure s.tabSize (line.takeWhile Indentation.isSpace)) = .ok widths) ∧
      (if s.skipped.cursor.atEnd then .ok (.ok () s.skipped) else enterLine s.skipped) = .ok o := by
  unfold openLine at opened
  dsimp only at opened
  cases measured : (s.cursor.lines.takeWhile Indentation.isEmptyLine).mapM fun line =>
      measure s.tabSize (line.takeWhile Indentation.isSpace) with
  | error breach =>
    rw [measured] at opened
    cases opened
  | ok widths =>
    rw [measured, ok_bind] at opened
    exact ⟨⟨widths, rfl⟩, opened⟩

theorem openLine_ok {o : Lexer.Outcome Unit} (opened : openLine s = .ok o) : o = s.openLine := by
  obtain ⟨-, opened⟩ := exists_of_openLine opened
  change o = if s.skipped.cursor.atEnd then .ok () s.skipped else s.skipped.enterLine
  split at opened
  · next ended =>
    rw [if_pos ended]
    exact (Except.ok.inj opened).symm
  · next more =>
    rw [if_neg more]
    exact enterLine_ok opened

theorem openLine_eq (positive : 0 < s.tabSize) (holds : ∀ line ∈ s.measured,
    Indentation.Holds s.tabSize.toNat (line.takeWhile Indentation.isSpace)) :
    openLine s = .ok s.openLine := by
  have widths : ∀ line ∈ s.measured, measure s.tabSize (line.takeWhile Indentation.isSpace) =
      .ok (Indentation.width s.tabSize (line.takeWhile Indentation.isSpace)) :=
    fun line member => measure_eq positive (holds line member)
  unfold openLine Lexer.openLine
  dsimp only
  rw [mapM_eq fun line member => widths line (List.mem_append_left _ member), ok_bind]
  split
  · rfl
  · next more =>
    obtain ⟨line, later, left⟩ := List.exists_cons_of_ne_nil (mt List.isEmpty_iff.mpr more)
    have next : line ∈ s.skipped.cursor.lines.take 1 := left ▸ List.mem_cons_self
    have measured := widths line (List.mem_append_right _ next)
    rw [← Lexer.rest_skipped left] at measured
    exact enterLine_eq (s := s.skipped) measured

theorem finish_eq (s : Lexer) : finish s = .ok s.finish := by
  unfold finish Lexer.finish
  cases s.brackets with
  | cons opened outer => rfl
  | nil =>
    dsimp only
    rw [Lexer.stack, unwindAll_eq, ok_bind]
    dsimp only
    rw [← List.nil_append [0], restack_eq]
    rfl

theorem readToken_eq {c : Char} {rest : List Char} (found : s.cursor.rest = c :: rest) :
    readToken s = .ok (s.readToken c) := by
  unfold readToken Lexer.readToken
  dsimp only
  rw [string?_eq, ok_bind]
  cases StringLiteral.read? s.cursor.position s.cursor.rest with
  | some reading => rfl
  | none =>
    cases Name.read? s.cursor.position s.cursor.rest with
    | some reading => rfl
    | none =>
      dsimp only
      rw [number?_eq, ok_bind]
      cases Number.read? s.cursor.position s.cursor.rest with
      | some reading => rfl
      | none =>
        dsimp only
        rw [readPunct, found]
        rfl

/-- Behind the start of a line no move depends on its width. -/
theorem step_inside_eq (inside : s.lineStart = false) : step s = .ok s.step := by
  have notStart : ¬ s.lineStart = true := by rw [inside]; decide
  rw [step, if_neg notStart, Lexer.step, if_neg notStart]
  split
  · exact finish_eq s
  · dsimp only
    split
    -- The same arm is taken on both sides.
    · simp only [*]
    · simp only [*]
    · simp only [*]
    · simp only [*]
    · simp only [*]
    · next found => simp only [readToken_eq found, *]

theorem step_ok {o : Lexer.Outcome Unit} (moved : step s = .ok o) : o = s.step := by
  cases start : s.lineStart with
  | true =>
    rw [step, if_pos start] at moved
    rw [Lexer.step, if_pos start]
    exact openLine_ok moved
  | false => exact Except.ok.inj (moved.symm.trans (step_inside_eq start))

theorem step_eq (narrow : s.Narrow) : step s = .ok s.step := by
  cases start : s.lineStart with
  | true =>
    rw [step, if_pos start, Lexer.step, if_pos start]
    exact openLine_eq narrow.tabs fun line member => narrow.holds line (s.measured_subset member)
  | false => exact step_inside_eq start

/-! ### Calls -/

/-- Moves until a token is ready. -/
def scan (s : Lexer) : Guarded (Lexer.Outcome Unit) :=
  match _h : step s with
  | .error breach => .error breach
  | .ok (.error e s') => .ok (.error e s')
  | .ok (.ok _ s') => if _hp : s'.pending = [] then scan s' else .ok (.ok () s')
termination_by s.measure
decreasing_by exact Lexer.measure_step (step_ok _h).symm _hp

/-- Hands out the first of the tokens that are ready. -/
def handOut : Lexer.Outcome Unit → Guarded (Lexer.Outcome Token)
  | .error e s => .ok (.error e s)
  | .ok _ s =>
    match s.pending with
    | [] => .error .token
    | token :: later => .ok (.ok token { s with pending := later })

def next (s : Lexer) : Guarded (Lexer.Outcome Token) :=
  match s.pending with
  | [] => if s.finished then .ok (.ok s.endMarker s) else scan s >>= handOut
  | _ :: _ => handOut (.ok () s)

/-- The tokens up to the end marker or the first error, `limit` of them at most. -/
def trace (s : Lexer) : Nat → Guarded (List Token × Option LexError)
  | 0 => .ok ([], none)
  | limit + 1 => do
    match ← next s with
    | .error e _ => return ([], some e)
    | .ok token s' =>
      if token.kind = .endMarker then return ([token], none)
      else
        let (tokens, e) ← trace s' limit
        return (token :: tokens, e)

def tokenize (source : String) (tabSize : UInt64) : Guarded (Except LexError (List Token)) := do
  let s := Lexer.ofText source tabSize
  match ← trace s s.bound with
  | (tokens, none) => return .ok tokens
  | (_, some e) => return .error e

theorem scan_of_error (failed : step s = .ok (.error e t)) : scan s = .ok (.error e t) := by
  rw [scan.eq_def]
  split
  · next other => cases failed.symm.trans other
  · next same =>
    cases failed.symm.trans same
    rfl
  · next other => cases failed.symm.trans other

theorem scan_of_ok {u : Unit} (moved : step s = .ok (.ok u t)) :
    scan s = if t.pending = [] then scan t else .ok (.ok () t) := by
  rw [scan.eq_def]
  split
  · next other => cases moved.symm.trans other
  · next other => cases moved.symm.trans other
  · next same =>
    cases moved.symm.trans same
    rfl

theorem scan_eq (narrow : s.Narrow) : (scan s >>= handOut) = .ok s.scan := by
  induction size : s.measure using Nat.strong_induction_on generalizing s with
  | h n ih =>
    subst size
    have stepped := step_eq narrow
    rw [Lexer.scan.eq_def]
    split
    · next failed =>
      rw [failed] at stepped
      rw [scan_of_error stepped]
      rfl
    · next t moved =>
      rw [moved] at stepped
      rw [scan_of_ok stepped]
      split
      · next idle =>
        split
        · exact ih _ (Lexer.measure_step moved idle) (narrow.moved (Lexer.move_of_step moved)) rfl
        · next ready => cases idle.symm.trans ready
      · next more =>
        split
        · next idle => exact absurd idle more
        · next ready => rw [ok_bind, handOut, ready]

theorem next_eq (narrow : s.Narrow) : next s = .ok s.next := by
  unfold next Lexer.next
  cases ready : s.pending with
  | cons token later =>
    dsimp only
    rw [handOut, ready]
  | nil =>
    dsimp only
    split
    · rfl
    · exact scan_eq narrow

theorem trace_eq (narrow : s.Narrow) (limit : Nat) : trace s limit = .ok (s.trace limit) := by
  induction limit generalizing s with
  | zero => rfl
  | succ limit ih =>
    have further := narrow.ask
    rw [Lexer.ask] at further
    rw [trace, next_eq narrow, ok_bind, Lexer.trace]
    cases asked : s.next with
    | error e t => rfl
    | ok token t =>
      rw [asked] at further
      dsimp only
      split
      · rfl
      · rw [ih further]
        rfl

theorem tokenize_eq {source : String} {tabSize : UInt64} (narrow : (Lexer.ofText source tabSize).Narrow) :
    tokenize source tabSize = .ok (Offside.tokenize source tabSize) := by
  unfold tokenize Offside.tokenize
  dsimp only
  rw [trace_eq narrow, ok_bind]
  rcases (Lexer.ofText source tabSize).trace _ with ⟨tokens, _ | e⟩
  · rfl
  · rfl

end Guarded

end Offside
