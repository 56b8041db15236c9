import Offside.Proofs.Lexing.Shape

/-!
# Unclosed brackets

`Token.Unclosed` says which opening brackets of some tokens none of them closes. Tokens have one such
list only (`Token.Unclosed.unique`), and the brackets that a lexer has open are that list after a turn
if they were before (`Lexer.Turn.unclosed`).
-/

namespace Offside

/-! ### Nested words -/

/-- The number of opening brackets. -/
def openings (word : List Char) : Nat := word.countP fun c => (Punct.closingFor? c).isSome

theorem openings_append (first second : List Char) :
    openings (first ++ second) = openings first + openings second := List.countP_append

theorem openings_cons_of_opening {c closing : Char} (opens : Punct.closingFor? c = some closing)
    (word : List Char) : openings (c :: word) = openings word + 1 :=
  List.countP_cons_of_pos (by rw [opens]; rfl)

theorem openings_closing {c closing : Char} (opens : Punct.closingFor? c = some closing) :
    openings [closing] = 0 := by
  unfold Punct.closingFor? at opens
  split at opens <;> cases opens <;> rfl

namespace Nested

variable {word later : List Char}

theorem two_openings (nested : Nested word) : 2 * openings word = word.length := by
  induction nested with
  | nil => rfl
  | enclose opens _ ih =>
    rw [List.cons_append, openings_cons_of_opening opens, openings_append, openings_closing opens,
      List.length_cons, List.length_append, List.length_singleton]
    omega
  | append _ _ first second =>
    rw [openings_append, List.length_append]
    omega

/-- What a nested word ends with opens no more brackets than it closes. -/
theorem two_openings_le (nested : Nested word) (ends : later <:+ word) :
    2 * openings later ≤ later.length := by
  induction nested generalizing later with
  | nil =>
    rw [List.suffix_nil.mp ends]
    exact Nat.le_refl 0
  | @enclose opening closing inner opens nested ih =>
    rcases List.suffix_cons_iff.mp ends with rfl | ends
    · exact Nat.le_of_eq (Nested.enclose opens nested).two_openings
    · rcases List.suffix_concat_iff.mp ends with rfl | ⟨part, rfl, inside⟩
      · exact Nat.le_refl 0
      · have le := ih inside
        rw [openings_append, openings_closing opens, List.length_append]
        omega
  | append _ second ihFirst ihSecond =>
    obtain ⟨front, split⟩ := ends
    rcases List.append_eq_append_iff.mp split with ⟨part, rfl, rfl⟩ | ⟨part, rfl, rfl⟩
    · have le := ihFirst (List.suffix_append front part)
      have same := second.two_openings
      rw [openings_append, List.length_append]
      omega
    · exact ihSecond (List.suffix_append part later)

end Nested

/-! ### Unclosed brackets -/

namespace Token

/-- The bracket that a token opens. -/
def Kind.opens? : Kind → Option Char
  | .punct mark => mark.opens?
  | _ => none

/-- The opening brackets of the tokens that none of them closes, the innermost first. -/
inductive Unclosed : List Token → List OpenBracket → Prop
  | closed {tokens : List Token} : Nested (brackets tokens) → Unclosed tokens []
  | within {before inner : List Token} {stack : List OpenBracket} {token : Token} {opening : Char} :
      Unclosed before stack → token.kind.opens? = some opening → Nested (brackets inner) →
        Unclosed (before ++ token :: inner) (⟨opening, token.pos.line⟩ :: stack)

theorem closingFor?_of_opens? {kind : Kind} {opening : Char} (opens : kind.opens? = some opening) :
    kind.bracket? = some opening ∧ ∃ closing, Punct.closingFor? opening = some closing := by
  cases kind with
  | punct mark =>
    have mark' : mark.opens? = some opening := opens
    refine ⟨by rw [Kind.bracket?, mark']; rfl, ?_⟩
    unfold Punct.opens? at mark'
    split at mark' <;> cases mark' <;> exact ⟨_, rfl⟩
  | _ => cases opens

theorem brackets_cons {token : Token} {bracket : Char} (writes : token.kind.bracket? = some bracket)
    (tokens : List Token) : brackets (token :: tokens) = bracket :: brackets tokens :=
  List.filterMap_cons_some writes

/-- In a nested word no bracket stays open. -/
theorem not_nested_of_opens {before inner : List Token} {token : Token} {opening : Char}
    (opens : token.kind.opens? = some opening) (nested : Nested (brackets inner)) :
    ¬Nested (brackets (before ++ token :: inner)) := by
  intro whole
  obtain ⟨bracket, closing, goes⟩ := closingFor?_of_opens? opens
  have word : brackets (before ++ token :: inner) =
      brackets before ++ opening :: brackets inner := by
    rw [brackets_append, brackets_cons bracket]
  rw [word] at whole
  have le := whole.two_openings_le (List.suffix_append _ _)
  have same := nested.two_openings
  rw [openings_cons_of_opening goes, List.length_cons] at le
  omega

namespace Unclosed

variable {tokens later : List Token} {stack stack' : List OpenBracket}

theorem append (h : Unclosed tokens stack) (more : Nested (brackets later)) :
    Unclosed (tokens ++ later) stack := by
  cases h with
  | closed nested =>
    refine .closed ?_
    rw [brackets_append]
    exact nested.append more
  | @within before inner stack token opening outer opens nested =>
    rw [List.append_assoc, List.cons_append]
    refine .within outer opens ?_
    rw [brackets_append]
    exact nested.append more

theorem silent (h : Unclosed tokens stack) (none : ∀ token ∈ later, token.kind.bracket? = none) :
    Unclosed (tokens ++ later) stack := by
  refine h.append ?_
  rw [brackets_of_silent none]
  exact .nil

theorem concat {token : Token} (h : Unclosed tokens stack) (none : token.kind.bracket? = none) :
    Unclosed (tokens ++ [token]) stack := by
  refine h.silent fun other member => ?_
  rw [List.mem_singleton.mp member]
  exact none

theorem close {token : Token} {opened : OpenBracket} {closing : Char}
    (h : Unclosed tokens (opened :: stack)) (closes : token.kind.bracket? = some closing)
    (goes : Punct.closingFor? opened.bracket = some closing) :
    Unclosed (tokens ++ [token]) stack := by
  cases h with
  | @within before inner stack opener opening outer opens nested =>
    rw [List.append_assoc, List.cons_append]
    refine outer.append ?_
    obtain ⟨bracket, -⟩ := closingFor?_of_opens? opens
    have word : brackets (opener :: (inner ++ [token])) = opening :: brackets inner ++ [closing] := by
      rw [brackets_cons bracket, brackets_append, brackets_cons closes]
      rfl
    rw [word]
    exact .enclose goes nested

/-- Tokens leave one list of brackets open. -/
theorem unique (first : Unclosed tokens stack) (second : Unclosed tokens stack') :
    stack = stack' := by
  induction first generalizing stack' with
  | closed nested =>
    cases second with
    | closed => rfl
    | within _ opens inner => exact absurd nested (not_nested_of_opens opens inner)
  | @within before inner stack token opening outer opens nested ih =>
    generalize same : before ++ token :: inner = tokens at second
    cases second with
    | closed nested' => exact absurd (same ▸ nested') (not_nested_of_opens opens nested)
    | @within before' inner' stack' token' opening' outer' opens' nested' =>
      -- If the splits differ, then one of the two brackets is inside a nested word.
      rcases List.append_eq_append_iff.mp same with ⟨between, rfl, tail⟩ | ⟨between, rfl, tail⟩
      · cases between with
        | nil =>
          obtain ⟨rfl, rfl⟩ := List.cons.inj tail
          rw [List.append_nil] at outer'
          rw [ih outer', Option.some.inj (opens.symm.trans opens')]
        | cons _ between =>
          obtain ⟨rfl, rfl⟩ := List.cons.inj tail
          exact absurd nested (not_nested_of_opens opens' nested')
      · cases between with
        | nil =>
          obtain ⟨rfl, rfl⟩ := List.cons.inj tail
          rw [List.append_nil] at ih
          rw [ih outer', Option.some.inj (opens.symm.trans opens')]
        | cons _ between =>
          obtain ⟨rfl, rfl⟩ := List.cons.inj tail
          exact absurd nested' (not_nested_of_opens opens nested)

end Unclosed

end Token

/-! ### Turns -/

namespace Lexer

open Token

variable {s t : Lexer} {before tokens : List Token}

theorem unclosed_bracketed {kind : Token.Kind} {text : String} {brackets : List OpenBracket}
    (unclosed : Unclosed before s.brackets) (done : s.bracketed kind = .ok brackets) :
    Unclosed (before ++ [{ kind, text, pos := s.cursor.position }]) brackets := by
  have plain : kind.bracket? = none → brackets = s.brackets →
      Unclosed (before ++ [{ kind, text, pos := s.cursor.position }]) brackets := by
    rintro none rfl
    exact unclosed.concat none
  cases kind with
  | punct mark =>
    have done : s.bracket mark = .ok brackets := done
    unfold Lexer.bracket at done
    split at done
    · next opening opens =>
      cases done
      exact .within unclosed opens .nil
    · next opens closes =>
      cases done
      exact plain (by rw [Kind.bracket?, opens, closes]; rfl) rfl
    · next closing opens closes =>
      dsimp only at done
      split at done
      · next pairs =>
        cases done
        cases stack : s.brackets with
        | nil =>
          rw [stack] at pairs
          cases pairs
        | cons opened outer =>
          rw [stack] at pairs unclosed
          exact unclosed.close (by rw [Kind.bracket?, opens, closes]; rfl) pairs
      · cases done
  | _ =>
    cases done
    exact plain rfl rfl

theorem silent_settled (s : Lexer) : ∀ token ∈ s.settled.tokens, token.kind.bracket? = none := by
  intro token member
  rcases (Indentation.mem_settle member).1 with kind | kind
  · rw [kind]
    rfl
  · rw [kind]
    rfl

theorem Turn.unclosed (turn : Turn s tokens t) (unclosed : Unclosed before s.brackets) :
    Unclosed (before ++ tokens) t.brackets := by
  cases turn with
  | blank | fold | join =>
    rw [List.append_nil]
    exact unclosed
  | enter => exact unclosed.silent s.skipped.silent_settled
  | newline => exact unclosed.concat rfl
  | token _ _ _ _ done => exact unclosed_bracketed (s := s.unspaced) unclosed done

end Lexer

end Offside
