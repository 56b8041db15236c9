import Offside.Lexer.Step

/-!
# Progress of the lexer

`Lexer.measure` counts what is left to move over. `measure_step` shows that a move makes a token
ready or lowers it.
-/

namespace Offside.Lexer

/-- What is left to move over before a token is ready. -/
def measure (s : Lexer) : Nat := 2 * s.cursor.lines.length + if s.lineStart then 1 else 0

theorem measure_enterLine {s s' : Lexer} {u : Unit} (h : s.enterLine = .ok u s') :
    s'.measure = s.measure := by
  unfold enterLine at h
  simp only at h
  split at h
  · cases h; rfl
  · cases h

theorem measure_openLine {s s' : Lexer} {u : Unit} (hs : s.lineStart = true)
    (h : s.openLine = .ok u s') : s'.measure < s.measure := by
  have hopened : ∀ n, { s with cursor := s.cursor.skipLines n, lineStart := false }.measure
      < s.measure := by
    intro n
    simp only [measure, hs, Cursor.skipLines, List.length_drop, Bool.false_eq_true, if_false,
      if_true]
    omega
  unfold openLine at h
  simp only at h
  split at h
  · cases h; exact hopened _
  · rw [measure_enterLine h]; exact hopened _

theorem pending_take {s s' : Lexer} {u : Unit} {reading : Reading Token.Kind}
    (h : s.take reading = .ok u s') : s'.pending ≠ [] := by
  unfold take at h
  split at h
  · cases h
  · cases h; simp [queue]

theorem pending_readToken {s s' : Lexer} {u : Unit} {c : Char}
    (h : s.readToken c = .ok u s') : s'.pending ≠ [] := by
  unfold readToken at h
  simp only at h
  split at h
  · exact pending_take h
  · unfold readPunct at h
    split at h
    · cases h
    · split at h
      · cases h
      · exact pending_take h

theorem measure_nextLine {s : Lexer} (hs : s.lineStart = false) (hend : s.cursor.atEnd = false) :
    { s with cursor := s.cursor.nextLine }.measure < s.measure := by
  have : s.cursor.lines ≠ [] := by simpa [Cursor.atEnd] using hend
  have := List.length_pos_iff.mpr this
  simp only [measure, hs, Cursor.nextLine, Cursor.skipLines, List.length_drop, Bool.false_eq_true,
    if_false]
  omega

theorem measure_endLine {s : Lexer} (hs : s.lineStart = false) (hend : s.cursor.atEnd = false)
    (h : s.endLine.pending = []) : s.endLine.measure < s.measure := by
  unfold endLine at h ⊢
  by_cases hb : s.brackets.isEmpty
  · simp [hb, queue] at h
  · simp only [hb]; exact measure_nextLine hs hend

/-- A move that makes no token ready leaves less to move over. -/
theorem measure_step {s s' : Lexer} {u : Unit} (h : s.step = .ok u s') (hp : s'.pending = []) :
    s'.measure < s.measure := by
  unfold step at h
  split at h
  · exact measure_openLine ‹_› h
  · have hs : s.lineStart = false := by simpa using ‹¬s.lineStart = true›
    split at h
    · unfold finish at h
      split at h
      · cases h
      · cases h; simp [queue] at hp
    · have hend : s.cursor.atEnd = false := by simpa using ‹¬s.cursor.atEnd = true›
      have hskip : ∀ (t : Lexer) p, (t.skip p).measure = t.measure := fun t p => rfl
      simp only at h
      split at h
      · cases h; exact measure_endLine (s := s.skip _) hs hend hp
      · cases h; exact measure_endLine (s := s.skip _) hs hend hp
      · cases h; exact measure_endLine (s := (s.skip _).skip _) hs hend hp
      · cases h; exact measure_nextLine (s := s.skip _) hs hend
      · cases h
      · exact absurd hp (pending_readToken h)

end Offside.Lexer
