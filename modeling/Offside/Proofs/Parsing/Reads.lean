import Offside.Parser.Expression
import Offside.Proofs.Parsing.Answers

/-!
# What a parsing program reads

`ParseM.Reads` says what a program makes of some answers and what it leaves of them, in whatever
state the tokens are asked for. The rules follow the moves a parser is made of.
-/

namespace Offside.ParseM

/-- On the answers `before` the program gives `a` and leaves the answers `later`. -/
def Reads (m : ParseM α) (before : Answers) (a : α) (later : Answers) : Prop :=
  ∀ p : Parser, p.answers = before →
    ∃ q : Parser, m p = .ok a q ∧ q.answers = later ∧ q.depth = p.depth

namespace Reads

variable {before middle later : Answers} {token : Token}

theorem pure (a : α) (later : Answers) : (pure a : ParseM α).Reads later a later :=
  fun p same => ⟨p, rfl, same, rfl⟩

theorem bind {m : ParseM α} {f : α → ParseM β} {a : α} {b : β} (first : m.Reads before a middle)
    (second : (f a).Reads middle b later) : (m >>= f).Reads before b later := by
  intro p same
  obtain ⟨q, run, left, depth⟩ := first p same
  obtain ⟨r, run', left', depth'⟩ := second q left
  exact ⟨r, (bind_of_ok run).trans run', left', depth'.trans depth⟩

theorem peek {ahead : Nat} (before : ∀ i ≤ ahead, ∃ token, later.get i = .ok token)
    (found : later.get ahead = .ok token) : (ParseM.peek ahead).Reads later token later := by
  rintro p rfl
  obtain ⟨token', q, peeked⟩ := Parser.peek_of_answers before
  obtain ⟨same, depth, -, found'⟩ := Parser.peek_ok peeked
  rw [found] at found'
  cases found'
  exact ⟨q, peeked, same, depth⟩

theorem peek_head (found : later.get 0 = .ok token) :
    (ParseM.peek 0).Reads later token later := by
  apply peek _ found
  intro i le
  obtain rfl := Nat.le_zero.mp le
  exact ⟨token, found⟩

theorem advance (token : Token) (later : Answers) :
    ParseM.advance.Reads (later.after [token]) token later := by
  intro p same
  have found : p.answers.get 0 = .ok token := by rw [same]; rfl
  obtain ⟨q, moved⟩ := Parser.advance_of_answers found
  obtain ⟨split, depth⟩ := Parser.advance_ok moved
  rw [same] at split
  exact ⟨q, moved, (Stream'.cons_injective_right _ split).symm, depth⟩

theorem eat_of_eq {kind : Token.Kind} (same : token.kind = kind) :
    (eat kind).Reads (later.after [token]) true later := by
  apply (peek_head rfl).bind
  rw [if_pos same]
  exact (advance token later).bind (pure true later)

theorem eat_of_ne {kind : Token.Kind} (found : later.get 0 = .ok token) (other : token.kind ≠ kind) :
    (eat kind).Reads later false later := by
  apply (peek_head found).bind
  rw [if_neg other]
  exact pure false later

theorem expect {mark : Punct} (same : token.kind = .punct mark) :
    (expect mark).Reads (later.after [token]) token later := by
  apply (advance token later).bind
  rw [if_pos same]
  exact pure token later

end Reads

end Offside.ParseM
