import Offside.Proofs.Lexing.Shape
import Offside.Proofs.Lexing.Written

/-!
# Failing moves of the lexer

A move may fail when part of it is done. `Lexer.Failure` lists what is left ready and where the lexer
stands then, and `Lexer.failure_of_step` shows that it lists all of it. A failure keeps what a turn
keeps, and if it passes nothing it comes again (`Lexer.Failure.less_or_again`).
-/

namespace Offside

/-! ### What a reading takes -/

namespace Reading

variable {r : Reading α} {taken : Nat} {cs : List Char}

/-- What is taken beyond the first `taken` characters stands on the line, before its end. -/
def Flat (r : Reading α) (taken : Nat) (cs : List Char) : Prop :=
  ∃ chars rest, cs = chars ++ rest ∧ r.taken = taken + chars.length ∧ '\n' ∉ chars

theorem Flat.nothing {outcome : Except LexError α} : Flat ⟨taken, outcome⟩ taken cs :=
  ⟨[], cs, rfl, rfl, List.not_mem_nil⟩

theorem Flat.append {front : List Char} (flat : '\n' ∉ front)
    (later : r.Flat (taken + front.length) cs) : r.Flat taken (front ++ cs) := by
  obtain ⟨chars, rest, rfl, count, flat'⟩ := later
  refine ⟨front ++ chars, rest, (List.append_assoc ..).symm, ?_, fun member => ?_⟩
  · rw [count, List.length_append, Nat.add_assoc]
  · exact (List.mem_append.mp member).elim flat flat'

theorem Flat.cons {c : Char} (plain : c ≠ '\n') (later : r.Flat (taken + 1) cs) :
    r.Flat taken (c :: cs) := by
  have single : '\n' ∉ [c] := fun feed => plain (List.mem_singleton.mp feed).symm
  exact .append single later

theorem Flat.map {f : α → β} (flat : r.Flat taken cs) : (r.map f).Flat taken cs := flat

end Reading

namespace StringLiteral

theorem escape_flat (bytes : Bool) (pos : Position) (cs : List Char) :
    (escape bytes pos cs).Flat 0 cs := by
  unfold escape
  split
  · exact .nothing
  · exact .nothing
  · next c rest plain =>
    have digits : ∀ p : Char → Bool, p '\n' = false → ∀ n,
        ∃ later, c :: rest = c :: (rest.take n).takeWhile p ++ later ∧
          '\n' ∉ c :: (rest.take n).takeWhile p := by
      intro p stops n
      obtain ⟨later, split, -⟩ := takeWhile_take_respelled p n rest
      refine ⟨later, congrArg (c :: ·) split, fun member => ?_⟩
      rcases List.mem_cons.mp member with same | member
      · exact plain same.symm
      · exact feed_not_mem_takeWhile stops _ member
    split
    · exact .cons plain .nothing
    · split
      · obtain ⟨later, split, flat⟩ := digits (Decimal.isDigit 8) (by decide) 2
        exact ⟨_, later, split, (Nat.zero_add _).symm, flat⟩
      · split
        · next length _ =>
          obtain ⟨later, split, flat⟩ := digits (Decimal.isDigit 16) (by decide) length
          dsimp only
          split
          · next whole =>
            refine ⟨_, later, split, ?_, flat⟩
            rw [List.length_cons, whole.1, Nat.zero_add, Nat.add_comm]
            rfl
          · refine ⟨_, later, split, ?_, flat⟩
            rw [List.length_cons, Nat.zero_add, Nat.add_comm]
            rfl
        · split
          · exact .cons plain .nothing
          · exact .cons plain .nothing

theorem body_flat (form : Form) (quote : Char) (start : Position) (taken : Nat) (cs : List Char) :
    (body form quote start taken cs).Flat taken cs := by
  have backslash : '\\' ≠ '\n' := by decide
  -- An escape is passed as a whole, also where something is wrong with it.
  have escaped : ∀ {taken count : Nat} {rest : List Char} {outcome : Except LexError (List Char)},
      escape form.bytes (start.right taken) rest = ⟨count, outcome⟩ →
        ∃ chars later, rest = chars ++ later ∧ count = chars.length ∧ '\n' ∉ chars := by
    intro taken count rest outcome read
    obtain ⟨chars, later, split, same, flat⟩ := escape_flat form.bytes (start.right taken) rest
    rw [read, Nat.zero_add] at same
    exact ⟨chars, later, split, same, flat⟩
  fun_induction body form quote start taken cs with
  | case1 => exact .nothing
  | case2 => exact .nothing
  | case3 _ _ plain => exact .cons plain .nothing
  | case4 => exact .cons backslash .nothing
  | case5 => exact .cons backslash .nothing
  | case6 _ _ _ _ plain _ _ _ ih => exact .cons backslash (.cons plain ih)
  | case7 => exact .cons backslash .nothing
  | case8 _ _ _ _ _ read =>
    obtain ⟨chars, later, rfl, rfl, flat⟩ := escaped read
    exact .cons backslash (.append flat .nothing)
  | case9 _ _ _ _ _ read _ _ ih =>
    obtain ⟨chars, later, rfl, rfl, flat⟩ := escaped read
    rw [List.drop_left] at ih ⊢
    exact .cons backslash (.append flat ih)
  | case10 => exact .nothing
  | case11 _ _ _ plain _ _ _ ih => exact .cons plain ih

theorem read?_flat {start : Position} {cs : List Char} {r : Reading Token.Kind}
    (read : read? start cs = some r) : r.Flat 0 cs := by
  obtain ⟨after, split, -⟩ := takeWhile_take_respelled isPrefixLetter 2 cs
  have flat : '\n' ∉ (cs.take 2).takeWhile isPrefixLetter := feed_not_mem_takeWhile (by decide) _
  unfold read? at read
  dsimp only at read
  generalize (cs.take 2).takeWhile isPrefixLetter = letters at read split flat
  subst split
  rw [List.drop_left] at read
  split at read
  · next quote rest =>
    split at read
    · cases read
    · next isQuote =>
      have plain : quote ≠ '\n' := by
        rintro rfl
        exact isQuote (by decide)
      split at read
      · cases read
        exact .nothing
      · obtain ⟨form, -, rfl⟩ := Option.map_eq_some_iff.mp read
        split
        · exact .nothing
        · refine .append flat (.cons plain (.map ?_))
          rw [Nat.zero_add]
          exact body_flat form quote start (letters.length + 1) rest
  · cases read

end StringLiteral

theorem Name.read?_flat {pos : Position} {cs : List Char} {r : Reading Token.Kind}
    (read : read? pos cs = some r) : r.Flat 0 cs := by
  unfold read? at read
  split at read
  · cases read
  · next c rest =>
    split at read
    · cases read
      refine ⟨_, _, List.takeWhile_append_dropWhile.symm, ?_,
        feed_not_mem_takeWhile (p := Text.continuesName) (by decide) (c :: rest)⟩
      rw [Nat.zero_add]
      split <;> rfl
    · cases read

theorem Number.read?_flat {pos : Position} {cs : List Char} {r : Reading Token.Kind}
    (read : read? pos cs = some r) : r.Flat 0 cs := by
  obtain ⟨rest, split, native, -⟩ := follow_respelled .start cs
  unfold read? at read
  split at read
  · cases read
    exact ⟨_, rest, split, (Nat.zero_add _).symm, fun feed => native _ feed (by decide)⟩
  · cases read

namespace Lexer

variable {s t u : Lexer} {handed before : List Token} {e : LexError}

theorem literal?_flat {pos : Position} {cs : List Char} {r : Reading Token.Kind}
    (read : literal? pos cs = some r) : r.Flat 0 cs := by
  unfold literal? at read
  rcases Option.or_eq_some_iff.mp read with read | ⟨-, read⟩
  · rcases Option.or_eq_some_iff.mp read with read | ⟨-, read⟩
    · exact StringLiteral.read?_flat read
    · exact Name.read?_flat read
  · exact Number.read?_flat read

/-! ### Failures -/

/-- What a failing move leaves ready, and where the lexer stands after it. -/
inductive Failure (s : Lexer) : LexError → List Token → Lexer → Prop
  | misfit {outer} : s.lineStart = true → s.skipped.cursor.lines ≠ [] →
      s.skipped.settled.mismatch = some outer →
      Failure s
        (.inconsistentDedent (Indentation.width s.tabSize
          (s.skipped.cursor.rest.takeWhile Indentation.isSpace)) outer
          (Position.coordinate s.skipped.cursor.row))
        s.skipped.settled.tokens { s.skipped.unspaced with levels := s.skipped.settled.levels }
  | unclosed {opened outer} : s.lineStart = false → s.cursor.lines = [] →
      s.brackets = opened :: outer → Failure s (.unclosedBracket opened.bracket opened.line) [] s
  | backslash {rest} : s.lineStart = false → s.cursor.lines ≠ [] → s.ahead = '\\' :: rest →
      rest.head? ≠ some '\n' →
      Failure s (.invalidCharacter '\\' s.unspaced.cursor.position) [] s.unspaced
  | literal {taken e} : s.lineStart = false → s.cursor.lines ≠ [] → StartsToken s.ahead →
      literal? s.unspaced.cursor.position s.ahead = some (.error taken e) →
      Failure s e [] { s.unspaced with cursor := s.unspaced.cursor.advance taken }
  | unknown {c rest} : s.lineStart = false → s.cursor.lines ≠ [] → StartsToken s.ahead →
      s.ahead = c :: rest → literal? s.unspaced.cursor.position s.ahead = none →
      Punct.longestMatch? s.ahead = none →
      Failure s (.invalidCharacter c s.unspaced.cursor.position) [] s.unspaced
  | bracket {mark e} : s.lineStart = false → s.cursor.lines ≠ [] → StartsToken s.ahead →
      literal? s.unspaced.cursor.position s.ahead = none →
      Punct.longestMatch? s.ahead = some mark → s.unspaced.bracket mark = .error e →
      Failure s e [] s.unspaced

theorem queue_nil (s : Lexer) : s.queue [] = s := by
  rw [queue, List.append_nil]

/-- At the start of a line only its width can be wrong. -/
theorem openLine_error (failed : s.openLine = .error e u) :
    s.skipped.cursor.lines ≠ [] ∧ ∃ outer, s.skipped.settled.mismatch = some outer ∧
      e = .inconsistentDedent (Indentation.width s.tabSize
        (s.skipped.cursor.rest.takeWhile Indentation.isSpace)) outer
        (Position.coordinate s.skipped.cursor.row) ∧ u = s.skipped.entered := by
  have eq : s.openLine =
      if s.skipped.cursor.atEnd then .ok () s.skipped else s.skipped.enterLine := rfl
  rw [eq, Cursor.atEnd] at failed
  cases lines : s.skipped.cursor.lines with
  | nil =>
    rw [lines] at failed
    cases failed
  | cons line later =>
    rw [lines] at failed
    have failed : s.skipped.enterLine = .error e u := failed
    unfold enterLine at failed
    dsimp only at failed
    split at failed
    · cases failed
    · next outer mismatch =>
      cases failed
      exact ⟨List.cons_ne_nil line later, outer, mismatch, rfl, rfl⟩

theorem failure_of_readToken {c : Char} {rest : List Char} (inside : s.lineStart = false)
    (more : s.cursor.lines ≠ []) (starts : StartsToken s.ahead) (found : s.ahead = c :: rest)
    (failed : s.unspaced.readToken c = .error e u) : Failure s e [] u := by
  cases read : literal? s.unspaced.cursor.position s.unspaced.cursor.rest with
  | some r =>
    rw [readToken_literal read, take] at failed
    obtain ⟨taken, outcome⟩ := r
    rw [rest_unspaced] at read
    cases outcome with
    | error e' =>
      cases failed
      exact .literal inside more starts read
    | ok kind => cases failed
  | none =>
    rw [readToken_punct read, readPunct] at failed
    rw [rest_unspaced] at read failed
    split at failed
    · next unknown =>
      cases failed
      exact .unknown inside more starts found read unknown
    · next mark known =>
      split at failed
      · next wrong =>
        cases failed
        exact .bracket inside more starts read known wrong
      · cases failed

theorem failure_of_step (failed : s.step = .error e u) :
    ∃ handed t, u = t.queue handed ∧ Failure s e handed t := by
  cases inside : s.lineStart with
  | true =>
    rw [step, if_pos inside] at failed
    obtain ⟨more, outer, mismatch, rfl, rfl⟩ := openLine_error failed
    exact ⟨_, _, rfl, .misfit inside more mismatch⟩
  | false =>
    by_cases ended : s.cursor.lines = []
    · have atEnd : s.cursor.atEnd = true := by rw [Cursor.atEnd, ended]; rfl
      rw [step, if_neg (by rw [inside]; decide), if_pos atEnd, finish] at failed
      split at failed
      · next opened outer open' =>
        cases failed
        exact ⟨[], s, s.queue_nil.symm, .unclosed inside ended open'⟩
      · cases failed
    · refine ⟨[], u, u.queue_nil.symm, ?_⟩
      rw [step_inside inside ended] at failed
      split at failed
      · cases failed
      · cases failed
      · cases failed
      · cases failed
      · next rest notJoin found =>
        cases failed
        refine .backslash inside ended found fun feed => ?_
        obtain ⟨later, rfl⟩ := List.head?_eq_some_iff.mp feed
        exact notJoin later rfl
      · next c rest notFeed notComment _ notJoin found =>
        exact failure_of_readToken inside ended ⟨c, rest, found, notFeed, notComment, notJoin⟩ found
          failed

/-! ### What a failure keeps -/

theorem Steady.unspaced (steady : s.Steady) (inside : s.lineStart = false) : s.unspaced.Steady := by
  by_cases more : s.cursor.lines = []
  · have none : s.cursor.rest = [] := by
      rw [Cursor.rest, more]
      exact List.drop_nil
    rw [Lexer.unspaced, skip, none]
    exact steady
  · exact steady.advanced inside more (List.nil_append s.ahead).symm List.not_mem_nil s.brackets

theorem Failure.steady (failure : Failure s e handed t) (steady : s.Steady) : t.Steady := by
  cases failure with
  | misfit _ more => exact steady.entered more
  | unclosed => exact steady
  | literal inside more _ read =>
    obtain ⟨chars, rest, split, taken, flat⟩ := literal?_flat read
    obtain rfl : _ = chars.length := taken.trans (Nat.zero_add _)
    exact steady.advanced inside more split flat s.brackets
  | backslash inside | unknown inside | bracket inside => exact steady.unspaced inside

theorem Failure.shaped (failure : Failure s e handed t) (steady : s.Steady)
    (shaped : s.Shaped before) : t.Shaped (before ++ handed) := by
  cases failure with
  | misfit start => exact shaped.entered steady start
  | unclosed | backslash | literal | unknown | bracket =>
    rw [List.append_nil]
    exact ⟨shaped.fits, shaped.opened, shaped.levels, shaped.start⟩

theorem unspaced_unspaced (s : Lexer) : s.unspaced.unspaced = s.unspaced := by
  have none : s.unspaced.cursor.rest.takeWhile Indentation.isSpace = [] := by
    have split := List.takeWhile_append_dropWhile (p := Indentation.isSpace) (l := s.ahead)
    have same : s.ahead.dropWhile Indentation.isSpace = s.ahead := List.dropWhile_idempotent ..
    rw [same] at split
    rw [rest_unspaced]
    exact List.append_left_eq_self.mp split
  rw [Lexer.unspaced, skip, none]
  rfl

theorem step_unspaced (inside : s.lineStart = false) (more : s.cursor.lines ≠ []) :
    s.unspaced.step = s.step := by
  rw [step_inside (s := s.unspaced) inside more, step_inside inside more, ahead_unspaced,
    unspaced_unspaced]
  rfl

/-- A failure has passed something, or else it comes again. -/
theorem Failure.less_or_again (failure : Failure s e handed t) (steady : s.Steady)
    (failed : s.step = .error e (t.queue handed)) :
    handed.length + t.allowance < s.allowance ∨ handed = [] ∧ t.step = .error e t := by
  have unspaced : s.lineStart = false → s.cursor.lines ≠ [] → s.step = .error e (s.unspaced.queue []) →
      s.unspaced.step = .error e s.unspaced := by
    intro inside more failed
    rw [step_unspaced inside more, failed, queue_nil]
  cases failure with
  | misfit start => exact .inl (steady.allowance_entered start)
  | unclosed =>
    rw [queue_nil] at failed
    exact .inr ⟨rfl, failed⟩
  | literal inside more _ read =>
    obtain ⟨chars, rest, split, taken, -⟩ := literal?_flat read
    obtain rfl : _ = chars.length := taken.trans (Nat.zero_add _)
    by_cases none : chars = []
    · subst none
      exact .inr ⟨rfl, unspaced inside more failed⟩
    · have less := allowance_advanced inside split none s.brackets
      exact .inl (Nat.lt_of_le_of_lt (Nat.add_le_add_right (Nat.zero_le 1) _) less)
  | backslash inside more | unknown inside more | bracket inside more =>
    exact .inr ⟨rfl, unspaced inside more failed⟩

end Lexer

end Offside
