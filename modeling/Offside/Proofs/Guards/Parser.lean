import Offside.Proofs.Guards.Lexer
import Offside.Proofs.Parsing.Termination

/-!
# The parser with guards

A stream with guards finds the tokens that it has read (`peek_eq`, `advance_eq`). `ParseM.Passes` says of
a run of the parser that every move of it comes through its guards, and that no block is closed that was
not opened; every program passes from every state whose lexer measures its lines (`Prolongs.passes`). With
the lexer this is `guards_never_fail`, for all calls on a source one after another.
-/

namespace Offside

namespace Guarded

variable {s : Stream}

/-! ### Streams -/

def read (s : Stream) : Nat → Guarded (Stream.Outcome Unit)
  | 0 => .ok (.ok () s)
  | count + 1 => do
    match ← next s.lexer with
    | .error e lexer => return .error e { s with lexer }
    | .ok token lexer => read { lexer, buffer := s.buffer ++ [token] } count

/-- The token `ahead` places after the next one, which has been read. -/
def peek (s : Stream) (ahead : Nat) : Guarded (Stream.Outcome Token) := do
  match ← read s (ahead + 1 - s.buffer.length) with
  | .error e s => return .error e s
  | .ok _ s =>
    match s.buffer[ahead]? with
    | none => .error (.ahead ahead)
    | some token => .ok (.ok token s)

def advance (s : Stream) : Guarded (Stream.Outcome Token) := do
  match ← read s (1 - s.buffer.length) with
  | .error e s => return .error e s
  | .ok _ s =>
    match s.buffer with
    | [] => .error .token
    | token :: later => .ok (.ok token { s with buffer := later })

theorem read_eq (narrow : s.lexer.Narrow) (count : Nat) : read s count = .ok (s.read count) := by
  induction count generalizing s with
  | zero => rfl
  | succ count ih =>
    have further := narrow.ask
    rw [Lexer.ask] at further
    rw [read, next_eq narrow, ok_bind, Stream.read]
    cases asked : s.lexer.next with
    | error e lexer => rfl
    | ok token lexer =>
      rw [asked] at further
      exact ih further

theorem peek_eq (narrow : s.lexer.Narrow) (ahead : Nat) : peek s ahead = .ok (s.peek ahead) := by
  rw [peek, read_eq narrow, ok_bind, Stream.peek]
  cases filled : s.read (ahead + 1 - s.buffer.length) with
  | error e t => rfl
  | ok u t =>
    have length := (Stream.read_ok filled).2
    have found : t.buffer[ahead]? = some (t.buffer.getD ahead t.lexer.endMarker) := by
      rw [List.getD_eq_getElem?_getD, List.getElem?_eq_getElem (by omega)]
      rfl
    dsimp only
    rw [found]

theorem advance_eq (narrow : s.lexer.Narrow) : advance s = .ok s.advance := by
  rw [advance, read_eq narrow, ok_bind]
  obtain ⟨lexer, buffer⟩ := s
  cases buffer with
  | cons token later =>
    have none : 1 - (token :: later).length = 0 := Nat.sub_eq_zero_of_le (Nat.le_add_left 1 _)
    dsimp only
    rw [none]
    rfl
  | nil =>
    have one : 1 - ([] : List Token).length = 1 := rfl
    dsimp only
    rw [one, Stream.read, Stream.advance]
    cases lexer.next <;> rfl

/-! ### Runs of the parser -/

/-- Closes a block. -/
def leave (p : Parser) : Guarded Parser :=
  if 0 < p.depth then .ok { p with depth := p.depth - 1 } else .error .block

theorem leave_ok {p q : Parser} (left : leave p = .ok q) : 0 < p.depth := by
  unfold leave at left
  split at left
  · assumption
  · cases left

end Guarded

namespace ParseM

/-- Every move that the program makes from the state comes through its guards. A program sees of the
blocks only whether one is open, and only to fail, so that none comes through by closing a block that is
not open (`Passes.not_closed`). -/
inductive Passes : {α : Type} → ParseM α → Parser → Prop
  | pure {α : Type} (a : α) (p : Parser) : Passes (pure a) p
  | throw {α : Type} (e : SourceError) (p : Parser) : Passes (throw e : ParseM α) p
  | peek {ahead : Nat} {p : Parser} : Guarded.peek p.stream ahead = .ok (p.stream.peek ahead) →
      Passes (ParseM.peek ahead) p
  | advance {p : Parser} : Guarded.advance p.stream = .ok p.stream.advance → Passes ParseM.advance p
  | bind {α β : Type} {m : ParseM α} {f : α → ParseM β} {p : Parser} : Passes m p →
      (∀ a q, m p = .ok a q → Passes (f a) q) → Passes (m >>= f) p
  | indented {α β : Type} {m : ParseM α} {f : α → β} {p : Parser} :
      Passes m { p with depth := p.depth + 1 } →
      (∀ a q, m { p with depth := p.depth + 1 } = .ok a q →
        Guarded.leave q = .ok { q with depth := q.depth - 1 }) →
      Passes (ParseM.indented m f) p
  | enclosed {α : Type} {e : ParseError} {m : ParseM α} {p : Parser} : (p.depth ≠ 0 → Passes m p) →
      Passes (ParseM.enclosed e m) p
  | budgeted {α : Type} {program : Nat → ParseM α} {p : Parser} : Passes (program p.budget) p →
      Passes (ParseM.budgeted program) p

namespace Passes

variable {m : ParseM α} {p q : Parser} {a : α}

theorem shift_onStream {move : Stream → Stream.Outcome α} (run : onStream move p = .ok a q)
    (more : Nat) : onStream move { p with depth := p.depth + more } =
      .ok a { q with depth := q.depth + more } := by
  unfold onStream at run ⊢
  dsimp only
  split at run
  · cases run
    rfl
  · cases run

/-- What comes through does the same inside of more blocks. -/
theorem shift (passes : Passes m p) (run : m p = .ok a q) (more : Nat) :
    m { p with depth := p.depth + more } = .ok a { q with depth := q.depth + more } := by
  induction passes generalizing q with
  | pure b p =>
    obtain ⟨rfl, rfl⟩ := pure_ok run
    rfl
  | throw => cases run
  | peek | advance => exact shift_onStream run more
  | bind _ _ ih ih' =>
    obtain ⟨b, r, first, second⟩ := bind_ok run
    rw [bind_of_ok (ih first)]
    exact ih' b r first second
  | @indented _ _ m f p _ guard ih =>
    obtain ⟨b, r, inside, rfl, rfl⟩ := indented_ok run
    have opened := Guarded.leave_ok (guard b r inside)
    have shifted := ih inside
    rw [Nat.add_right_comm] at shifted
    rw [indented_of_ok shifted, Nat.sub_add_comm opened]
  | enclosed _ ih =>
    rw [enclosed_eq] at run ⊢
    split at run
    · cases run
    · next open' =>
      dsimp only
      rw [if_neg (by omega)]
      exact ih open' run
  | budgeted _ ih => exact ih run

/-- A block that is not open is not closed. -/
theorem not_closed (outside : p.depth = 0) :
    ¬Passes (modify fun p => { p with depth := p.depth - 1 }) p := by
  intro passes
  have shifted := passes.shift rfl 1
  have depth := congrArg (fun outcome => (leaves outcome).depth) shifted
  change p.depth + 1 - 1 = p.depth - 1 + 1 at depth
  omega

end Passes

/-- Every program of the parser comes through, also where it fails or runs out of steps. -/
theorem Prolongs.passes {m m' : ParseM α} {p : Parser} (prolongs : Prolongs True m m')
    (narrow : p.stream.lexer.Narrow) : Passes m p := by
  induction prolongs generalizing p with
  | exhausted => exact .throw _ p
  | pure a => exact .pure a p
  | fail e => exact .throw _ p
  | peek ahead => exact .peek (Guarded.peek_eq narrow ahead)
  | advance => exact .advance (Guarded.advance_eq narrow)
  | bind first _ ih ih' =>
    refine .bind (ih narrow) fun a q run => ih' a ?_
    obtain ⟨calls, asked⟩ := first.asks p
    rw [run] at asked
    exact asked ▸ narrow.asked calls
  | indented f inner ih =>
    refine .indented (ih narrow) fun a q run => if_pos ?_
    rw [inner.keeps_depth run]
    exact Nat.succ_pos p.depth
  | enclosed e _ _ ih => exact .enclosed fun _ => ih narrow

end ParseM

/-- For every source whose lines and tabs are short enough to be measured, no guard of the lexer and of
the parser ever fails: not for its list of tokens, not in a call of the lexer or of a stream, and not in a
parse, whatever was called before and whatever that answered. -/
theorem guards_never_fail {source : String} {tabSize : UInt64} (tabs : tabSize.toNat ≤ 2 ^ 32)
    (short : ∀ line ∈ Source.lines source, line.length ≤ 2 ^ 31) :
    Guarded.tokenize source tabSize = .ok (tokenize source tabSize) ∧
    (∀ count, Guarded.next ((Lexer.ofText source tabSize).asked count) =
      .ok ((Lexer.ofText source tabSize).asked count).next) ∧
    ∀ p : Parser, p.Reached source tabSize →
      (∀ ahead, Guarded.peek p.stream ahead = .ok (p.stream.peek ahead)) ∧
      Guarded.advance p.stream = .ok p.stream.advance ∧
      Parser.program.Passes p ∧ Parser.statement.Passes p ∧ Parser.expression.Passes p := by
  have narrow := Lexer.narrow_ofText tabs short
  refine ⟨Guarded.tokenize_eq narrow, fun count => Guarded.next_eq (narrow.asked count),
    fun p reached => ?_⟩
  obtain ⟨calls, here⟩ := reached.asked
  have narrow : p.stream.lexer.Narrow := here ▸ narrow.asked calls
  refine ⟨Guarded.peek_eq narrow, Guarded.advance_eq narrow, ?_, ?_, ?_⟩
  · rw [Parser.program_eq]
    exact .budgeted ((Parser.prolongs_program (Nat.le_refl p.budget)).passes narrow)
  · exact .budgeted ((ParseM.prolongs_statement (Nat.le_refl p.budget)).passes narrow)
  · exact .budgeted ((ParseM.prolongs_expressionAt (Nat.le_refl p.budget) .or).passes narrow)

/-- A block behind a tab, with a number that has a marked base and a byte that is an escape. -/
theorem guards_never_fail_in_block :
    let source := "if a:\n\tb = 0x1f\n\tc = b'\\377'\n"
    (8 : UInt64).toNat ≤ 2 ^ 32 ∧ (∀ line ∈ Source.lines source, line.length ≤ 2 ^ 31) ∧
      Guarded.tokenize source 8 = .ok (tokenize source 8) ∧
      Guarded.next (Lexer.ofText source 8) = .ok (Lexer.ofText source 8).next ∧
      Guarded.peek (Stream.ofText source 8) 1 = .ok ((Stream.ofText source 8).peek 1) ∧
      Parser.program.Passes (.ofText source 8) := by
  intro source
  have tabs : (8 : UInt64).toNat ≤ 2 ^ 32 := by decide
  have short : ∀ line ∈ Source.lines source, line.length ≤ 2 ^ 31 := by decide
  obtain ⟨told, asked, parsed⟩ := guards_never_fail tabs short
  obtain ⟨looked, -, passes, -⟩ := parsed _ .fresh
  exact ⟨tabs, short, told, asked 0, looked 1, passes⟩

end Offside
