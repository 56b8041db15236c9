import Mathlib.Data.Stream.Init
import Offside.Parser.Basic
import Offside.Proofs.Result

/-!
# Answers

What a lexer answers when it is asked again and again, be it with tokens or with errors. A parser
sees nothing else of its source: `Parser.peek_ok` and `Parser.advance_ok` say what its two moves
tell about the answers, `Parser.peek_of_answers` and `Parser.advance_of_answers` what the answers
tell about them.
-/

namespace Offside

/-- The answers to one question after another. -/
abbrev Answers := Stream' (Except LexError Token)

namespace Answers

/-- Some tokens, and then the answers `later`. -/
def after (later : Answers) : List Token → Answers
  | [] => later
  | token :: tokens => .cons (.ok token) (later.after tokens)

theorem after_append (later : Answers) (first second : List Token) :
    later.after (first ++ second) = (later.after second).after first := by
  induction first with
  | nil => rfl
  | cons token first ih => simp only [List.cons_append, after, ih]

theorem get_after_lt {later : Answers} {tokens : List Token} {i : Nat} (h : i < tokens.length) :
    (later.after tokens).get i = .ok tokens[i] := by
  induction tokens generalizing i with
  | nil => simp at h
  | cons token tokens ih =>
    cases i with
    | zero => rfl
    | succ i => exact ih (by simpa using h)

theorem get_after_add (later : Answers) (tokens : List Token) (i : Nat) :
    (later.after tokens).get (tokens.length + i) = later.get i := by
  induction tokens with
  | nil => simp [after]
  | cons token tokens ih =>
    rw [List.length_cons, Nat.add_right_comm]
    exact ih

theorem drop_after (later : Answers) (tokens : List Token) :
    (later.after tokens).drop tokens.length = later := by
  apply Stream'.ext
  intro i
  rw [Stream'.get_drop, get_after_add]

variable {answers later : Answers} {i : Nat} {t : Token} {e : LexError}

theorem drop_eq_cons (found : answers.get i = .ok t) :
    answers.drop i = .cons (.ok t) (answers.drop (i + 1)) := by
  rw [← found, ← Stream'.tail_drop', ← Stream'.head_drop, Stream'.eta]

theorem get_of_drop_eq (split : answers.drop i = .cons (.ok t) later) : answers.get i = .ok t := by
  have head := congrArg (Stream'.get · 0) split
  simpa [Stream'.get_drop] using head

/-- There are only tokens before this place. -/
def Sound (answers : Answers) (i : Nat) : Prop := ∀ j < i, ∃ t, answers.get j = .ok t

theorem sound_zero (answers : Answers) : answers.Sound 0 :=
  fun _ lt => absurd lt (Nat.not_lt_zero _)

theorem Sound.succ (sound : answers.Sound i) (found : answers.get i = .ok t) :
    answers.Sound (i + 1) := by
  intro j lt
  rcases Nat.lt_or_eq_of_le (Nat.le_of_lt_succ lt) with lt | rfl
  · exact sound j lt
  · exact ⟨t, found⟩

/-- The error is the first one among the answers. -/
def Fails (answers : Answers) (e : LexError) : Prop :=
  ∃ i, answers.Sound i ∧ answers.get i = .error e

theorem Fails.cons (failed : later.Fails e) (t : Token) :
    Fails (Stream'.cons (.ok t) later) e := by
  obtain ⟨i, sound, found⟩ := failed
  refine ⟨i + 1, fun j lt => ?_, found⟩
  cases j with
  | zero => exact ⟨t, rfl⟩
  | succ j => exact sound j (Nat.lt_of_succ_lt_succ lt)

theorem Fails.after (failed : later.Fails e) (tokens : List Token) :
    (later.after tokens).Fails e := by
  induction tokens with
  | nil => exact failed
  | cons token tokens ih => exact ih.cons token

theorem Fails.of_drop (sound : answers.Sound i) (failed : Fails (answers.drop i) e) :
    answers.Fails e := by
  obtain ⟨k, soundLater, found⟩ := failed
  refine ⟨i + k, fun j lt => ?_, by rwa [Stream'.get_drop] at found⟩
  by_cases before : j < i
  · exact sound j before
  · obtain ⟨l, rfl⟩ := Nat.exists_eq_add_of_le (Nat.le_of_not_lt before)
    obtain ⟨t, found⟩ := soundLater l (by omega)
    exact ⟨t, by rwa [Stream'.get_drop] at found⟩

theorem Fails.unique {e' : LexError} (first : answers.Fails e) (second : answers.Fails e') :
    e = e' := by
  obtain ⟨i, sound, found⟩ := first
  obtain ⟨j, sound', found'⟩ := second
  rcases Nat.lt_trichotomy i j with lt | rfl | lt
  · obtain ⟨t, found''⟩ := sound' i lt
    rw [found] at found''
    cases found''
  · rw [found] at found'
    cases found'
    rfl
  · obtain ⟨t, found''⟩ := sound j lt
    rw [found'] at found''
    cases found''

end Answers

namespace Lexer

/-- The next answer, and the lexer after it. -/
def ask (s : Lexer) : Except LexError Token × Lexer :=
  match s.next with
  | .ok token t => (.ok token, t)
  | .error e t => (.error e, t)

def answers : Lexer → Answers := Stream'.corec' ask

variable {s t : Lexer}

theorem answers_eq (s : Lexer) : s.answers = .cons s.ask.1 s.ask.2.answers :=
  Stream'.corec'_eq ask s

theorem answers_of_ok {token : Token} (h : s.next = .ok token t) :
    s.answers = .cons (.ok token) t.answers := by
  rw [answers_eq, ask, h]

theorem answers_of_error {e : LexError} (h : s.next = .error e t) :
    s.answers = .cons (.error e) t.answers := by
  rw [answers_eq, ask, h]

theorem answers_congr (h : s.next = t.next) : s.answers = t.answers := by
  rw [answers_eq s, answers_eq t, ask, ask, h]

end Lexer

namespace Stream

def answers (s : Stream) : Answers := s.lexer.answers.after s.buffer

variable {s t : Stream}

theorem read_ok {count : Nat} (h : s.read count = .ok () t) :
    t.answers = s.answers ∧ t.buffer.length = s.buffer.length + count := by
  induction count generalizing s with
  | zero => cases h; exact ⟨rfl, rfl⟩
  | succ count ih =>
    unfold read at h
    split at h
    · cases h
    · next token lexer asked =>
      obtain ⟨same, length⟩ := ih h
      refine ⟨?_, by simpa [Nat.add_assoc, Nat.add_comm 1] using length⟩
      rw [same, answers, answers, Answers.after_append, Lexer.answers_of_ok asked]
      rfl

theorem read_of_answers {count : Nat}
    (h : ∀ i < count, ∃ token, s.lexer.answers.get i = .ok token) :
    ∃ t, s.read count = .ok () t := by
  induction count generalizing s with
  | zero => exact ⟨s, rfl⟩
  | succ count ih =>
    obtain ⟨token, found⟩ := h 0 (Nat.succ_pos _)
    unfold read
    split
    · next e lexer asked =>
      rw [Lexer.answers_of_error asked] at found
      cases found
    · next token' lexer asked =>
      apply ih
      intro i lt
      obtain ⟨token'', found'⟩ := h (i + 1) (Nat.succ_lt_succ lt)
      rw [Lexer.answers_of_ok asked] at found'
      exact ⟨token'', found'⟩

theorem peek_ok {ahead : Nat} {token : Token} (h : s.peek ahead = .ok token t) :
    t.answers = s.answers ∧ (∀ i ≤ ahead, ∃ token, s.answers.get i = .ok token) ∧
      s.answers.get ahead = .ok token := by
  unfold peek at h
  split at h
  · cases h
  · next u done =>
    cases h
    obtain ⟨same, length⟩ := read_ok done
    have long : ahead < t.buffer.length := by omega
    have found : ∀ i (_ : i < t.buffer.length), s.answers.get i = .ok t.buffer[i] := by
      intro i lt
      rw [← same, answers, Answers.get_after_lt lt]
    refine ⟨same, fun i le => ⟨_, found i (by omega)⟩, ?_⟩
    rw [found _ long, List.getD_eq_getElem?_getD, List.getElem?_eq_getElem long]
    rfl

theorem peek_of_answers {ahead : Nat} (h : ∀ i ≤ ahead, ∃ token, s.answers.get i = .ok token) :
    ∃ token t, s.peek ahead = .ok token t := by
  have ready : ∃ t, s.read (ahead + 1 - s.buffer.length) = .ok () t := by
    apply read_of_answers
    intro i lt
    obtain ⟨token, found⟩ := h (s.buffer.length + i) (by omega)
    rw [answers, Answers.get_after_add] at found
    exact ⟨token, found⟩
  obtain ⟨t, ready⟩ := ready
  unfold peek
  rw [ready]
  exact ⟨_, _, rfl⟩

theorem read_error {count : Nat} {e : LexError} (h : s.read count = .error e t) :
    s.lexer.answers.Fails e := by
  induction count generalizing s with
  | zero => cases h
  | succ count ih =>
    unfold read at h
    split at h
    · next asked =>
      cases h
      exact ⟨0, Answers.sound_zero _, by rw [Lexer.answers_of_error asked]; rfl⟩
    · next token lexer asked =>
      rw [Lexer.answers_of_ok asked]
      exact (ih h).cons token

theorem peek_error {ahead : Nat} {e : LexError} (h : s.peek ahead = .error e t) :
    s.answers.Fails e := by
  unfold peek at h
  split at h
  · next failed =>
    cases h
    exact (read_error failed).after s.buffer
  · cases h

theorem advance_ok {token : Token} (h : s.advance = .ok token t) :
    s.answers = .cons (.ok token) t.answers := by
  unfold advance at h
  split at h
  · next buffered =>
    cases h
    rw [answers, buffered]
    rfl
  · next empty =>
    split at h
    · cases h
    · next asked =>
      cases h
      rw [answers, answers, empty]
      exact Lexer.answers_of_ok asked

theorem advance_error {e : LexError} (h : s.advance = .error e t) : s.answers.Fails e := by
  unfold advance at h
  split at h
  · cases h
  · next empty =>
    split at h
    · next asked =>
      cases h
      rw [answers, empty]
      exact ⟨0, Answers.sound_zero _, by rw [Lexer.answers_of_error asked]; rfl⟩
    · cases h

theorem advance_of_answers {token : Token} (h : s.answers.get 0 = .ok token) :
    ∃ t, s.advance = .ok token t := by
  unfold advance
  split
  · next buffered =>
    rw [answers, buffered] at h
    cases h
    exact ⟨_, rfl⟩
  · next empty =>
    rw [answers, empty] at h
    change s.lexer.answers.get 0 = _ at h
    split
    · next asked =>
      rw [Lexer.answers_of_error asked] at h
      cases h
    · next asked =>
      rw [Lexer.answers_of_ok asked] at h
      cases h
      exact ⟨_, rfl⟩

end Stream

namespace Parser

def answers (p : Parser) : Answers := p.stream.answers

variable {p q : Parser}

theorem onStream_ok {move : Stream → Stream.Outcome α} {a : α}
    (h : ParseM.onStream move p = .ok a q) :
    move p.stream = .ok a q.stream ∧ q.depth = p.depth := by
  unfold ParseM.onStream at h
  split at h
  · next moved =>
    cases h
    exact ⟨moved, rfl⟩
  · cases h

theorem onStream_of_ok {move : Stream → Stream.Outcome α} {a : α} {t : Stream}
    (h : move p.stream = .ok a t) : ParseM.onStream move p = .ok a { p with stream := t } := by
  simp only [ParseM.onStream, h]

theorem onStream_error {move : Stream → Stream.Outcome α} {e : SourceError}
    (h : ParseM.onStream move p = .error e q) :
    ∃ e', e = .lex e' ∧ move p.stream = .error e' q.stream := by
  unfold ParseM.onStream at h
  split at h
  · cases h
  · next e' t moved =>
    cases h
    exact ⟨e', rfl, moved⟩

theorem peek_ok {ahead : Nat} {token : Token} (h : ParseM.peek ahead p = .ok token q) :
    q.answers = p.answers ∧ q.depth = p.depth ∧
      (∀ i ≤ ahead, ∃ token, p.answers.get i = .ok token) ∧ p.answers.get ahead = .ok token := by
  obtain ⟨peeked, depth⟩ := onStream_ok h
  obtain ⟨same, before, found⟩ := Stream.peek_ok peeked
  exact ⟨same, depth, before, found⟩

theorem peek_of_answers {ahead : Nat} (h : ∀ i ≤ ahead, ∃ token, p.answers.get i = .ok token) :
    ∃ token q, ParseM.peek ahead p = .ok token q := by
  obtain ⟨token, t, peeked⟩ := Stream.peek_of_answers h
  exact ⟨token, _, onStream_of_ok peeked⟩

theorem peek_error {ahead : Nat} {e : SourceError} (h : ParseM.peek ahead p = .error e q) :
    ∃ e', e = .lex e' ∧ p.answers.Fails e' := by
  obtain ⟨e', same, failed⟩ := onStream_error h
  exact ⟨e', same, Stream.peek_error failed⟩

theorem advance_ok {token : Token} (h : ParseM.advance p = .ok token q) :
    p.answers = .cons (.ok token) q.answers ∧ q.depth = p.depth := by
  obtain ⟨moved, depth⟩ := onStream_ok h
  exact ⟨Stream.advance_ok moved, depth⟩

theorem advance_error {e : SourceError} (h : ParseM.advance p = .error e q) :
    ∃ e', e = .lex e' ∧ p.answers.Fails e' := by
  obtain ⟨e', same, failed⟩ := onStream_error h
  exact ⟨e', same, Stream.advance_error failed⟩

theorem advance_of_answers {token : Token} (h : p.answers.get 0 = .ok token) :
    ∃ q, ParseM.advance p = .ok token q := by
  obtain ⟨t, moved⟩ := Stream.advance_of_answers h
  exact ⟨_, onStream_of_ok moved⟩

end Parser

end Offside
