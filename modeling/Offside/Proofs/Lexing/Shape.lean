import Mathlib.Data.List.Induction
import Offside.Proofs.Lexing.Runs

/-!
# The shape of a token list

`WellShaped` says how brackets, NEWLINEs, INDENTs and DEDENTs stand in the tokens of a source:
`tokenize_wellShaped` for every source that has tokens. `Lexer.Shaped` is what holds of the tokens
handed out so far, beside the lexer after them.
-/

namespace Offside

/-- Each element fits after those before it. -/
def InTurn (fits : List α → α → Prop) (xs : List α) : Prop :=
  ∀ front x later, xs = front ++ x :: later → fits front x

namespace InTurn

variable {fits : List α → α → Prop} {xs : List α}

theorem nil : InTurn fits [] := by
  intro front x later split
  simp at split

theorem concat {x : α} (h : InTurn fits xs) (next : fits xs x) : InTurn fits (xs ++ [x]) := by
  intro front y later split
  rcases List.eq_nil_or_concat later with rfl | ⟨later, z, rfl⟩
  · obtain ⟨rfl, same⟩ := List.append_inj' split rfl
    cases same
    exact next
  · rw [List.concat_eq_append, ← List.cons_append, ← List.append_assoc] at split
    exact h front y later (List.append_inj' split rfl).1

theorem append {ys : List α} (h : InTurn fits xs)
    (next : InTurn (fun front y => fits (xs ++ front) y) ys) : InTurn fits (xs ++ ys) := by
  intro front y later split
  rcases List.append_eq_append_iff.mp split with ⟨between, rfl, rfl⟩ | ⟨between, rfl, tail⟩
  · exact next between y later rfl
  · cases between with
    | nil =>
      have here := next [] y later tail.symm
      rwa [List.append_nil, List.append_nil] at here
    | cons _ between =>
      obtain ⟨rfl, rfl⟩ := List.cons.inj tail
      exact h front y between rfl

end InTurn

/-- A correctly nested word of brackets. -/
inductive Nested : List Char → Prop
  | nil : Nested []
  | enclose {opening closing : Char} {inner : List Char} :
      Punct.closingFor? opening = some closing → Nested inner →
        Nested (opening :: inner ++ [closing])
  | append {first second : List Char} : Nested first → Nested second → Nested (first ++ second)

/-- A word of brackets of which those of the stack, the innermost first, are open. -/
inductive Opened : List Char → List Char → Prop
  | closed {word : List Char} : Nested word → Opened word []
  | within {word inner stack : List Char} {opening : Char} : Opened word stack → Nested inner →
      Opened (word ++ opening :: inner) (opening :: stack)

namespace Opened

variable {word stack inner : List Char} {opening closing : Char}

theorem nested (h : Opened word []) : Nested word := by
  cases h
  assumption

theorem append (h : Opened word stack) (more : Nested inner) : Opened (word ++ inner) stack := by
  cases h with
  | closed nested => exact .closed (nested.append more)
  | within outer nested =>
    rw [List.append_assoc, List.cons_append]
    exact .within outer (nested.append more)

theorem close (h : Opened word (opening :: stack)) (goes : Punct.closingFor? opening = some closing) :
    Opened (word ++ [closing]) stack := by
  cases h with
  | within outer nested =>
    rw [List.append_assoc]
    exact outer.append (.enclose goes nested)

end Opened

namespace Token

/-- The bracket that a token writes. -/
def Kind.bracket? : Kind → Option Char
  | .punct mark => mark.opens?.or mark.closes?
  | _ => none

/-- Whether the token comes from the cut of the source into lines. -/
def Kind.isLayout : Kind → Bool
  | .newline | .indent | .dedent => true
  | _ => false

def brackets (tokens : List Token) : List Char := tokens.filterMap (·.kind.bracket?)

def occurrences (kind : Kind) (tokens : List Token) : Nat := tokens.countP (·.kind = kind)

/-- There are no tokens, or the last one is a NEWLINE. -/
def EndLine (tokens : List Token) : Prop :=
  tokens = [] ∨ ∃ front newline, tokens = front ++ [newline] ∧ newline.kind = .newline

theorem brackets_append (first second : List Token) :
    brackets (first ++ second) = brackets first ++ brackets second := List.filterMap_append

theorem occurrences_append (kind : Kind) (first second : List Token) :
    occurrences kind (first ++ second) = occurrences kind first + occurrences kind second :=
  List.countP_append

theorem brackets_singleton (token : Token) : brackets [token] = token.kind.bracket?.toList := by
  unfold brackets
  cases found : token.kind.bracket? <;> simp [found]

theorem brackets_of_silent {tokens : List Token}
    (silent : ∀ token ∈ tokens, token.kind.bracket? = none) : brackets tokens = [] :=
  List.filterMap_eq_nil_iff.mpr silent

theorem occurrences_of_all {kind : Kind} {tokens : List Token}
    (all : ∀ token ∈ tokens, token.kind = kind) : occurrences kind tokens = tokens.length :=
  List.countP_eq_length.mpr fun token member => decide_eq_true (all token member)

theorem occurrences_of_none {kind : Kind} {tokens : List Token}
    (none : ∀ token ∈ tokens, token.kind ≠ kind) : occurrences kind tokens = 0 :=
  List.countP_eq_zero.mpr fun token member same => none token member (of_decide_eq_true same)

theorem opened_nesting {kind : Kind} {word stack stack' : List Char} (opened : Opened word stack)
    (goes : kind.nesting stack = some stack') : Opened (word ++ kind.bracket?.toList) stack' := by
  cases kind with
  | punct mark =>
    rw [Kind.nesting] at goes
    show Opened (word ++ (mark.opens?.or mark.closes?).toList) stack'
    cases opens : mark.opens? with
    | some opening =>
      rw [opens] at goes
      cases goes
      exact .within opened .nil
    | none =>
      cases closes : mark.closes? with
      | none =>
        rw [opens, closes] at goes
        cases goes
        exact opened.append .nil
      | some closing =>
        simp only [opens, closes] at goes
        split at goes
        · next pairs =>
          cases goes
          cases opened with
          | closed => cases pairs
          | within outer nested => exact (Opened.within outer nested).close pairs
        · cases goes
  | _ =>
    cases goes
    exact opened.append .nil

/-- Where a token may stand, after the tokens before it. -/
structure Fits (front : List Token) (token : Token) : Prop where
  /-- No bracket is open where the brackets before are nested themselves. -/
  outside : token.kind.isLayout = true → Nested (brackets front)
  indent : token.kind = .indent → EndLine front
  dedent : token.kind = .dedent → occurrences .dedent front < occurrences .indent front

/-- How brackets, NEWLINEs, INDENTs and DEDENTs stand in all tokens of a source. -/
structure WellShaped (tokens : List Token) : Prop where
  ended : ∃ front last, tokens = front ++ [last] ∧ last.kind = .endMarker ∧
    ∀ token ∈ front, token.kind ≠ .endMarker
  nested : Nested (brackets tokens)
  outside : InTurn (fun front token => token.kind.isLayout = true → Nested (brackets front)) tokens
  indents : InTurn (fun front token => token.kind = .indent → EndLine front) tokens
  depth : ∀ front, front <+: tokens → occurrences .dedent front ≤ occurrences .indent front
  balanced : occurrences .dedent tokens = occurrences .indent tokens

end Token

namespace Lexer

open Token

variable {s t : Lexer} {before tokens : List Token}

/-- What holds of the tokens handed out so far, and the lexer after them. -/
structure Shaped (before : List Token) (s : Lexer) : Prop where
  fits : InTurn Fits before
  opened : Opened (Token.brackets before) (s.brackets.map (·.bracket))
  levels : occurrences .dedent before + s.levels.length = occurrences .indent before
  start : s.lineStart = true → EndLine before

theorem shaped_ofText (source : String) (tabSize : UInt64) : Shaped [] (ofText source tabSize) :=
  ⟨.nil, .closed .nil, rfl, fun _ => .inl rfl⟩

theorem fits_dedents {dedents : List Token} (fits : InTurn Fits before)
    (nested : Nested (Token.brackets before)) (kinds : ∀ token ∈ dedents, token.kind = .dedent)
    (enough : occurrences .dedent before + dedents.length ≤ occurrences .indent before) :
    InTurn Fits (before ++ dedents) := by
  induction dedents generalizing before with
  | nil =>
    rw [List.append_nil]
    exact fits
  | cons token dedents ih =>
    have kind := kinds token List.mem_cons_self
    have more : occurrences .dedent (before ++ [token]) = occurrences .dedent before + 1 ∧
        occurrences .indent (before ++ [token]) = occurrences .indent before := by
      rw [occurrences_append, occurrences_append]
      simp [occurrences, kind]
    have silent : Token.brackets (before ++ [token]) = Token.brackets before := by
      rw [brackets_append, brackets_singleton, kind]
      exact List.append_nil _
    rw [List.length_cons] at enough
    rw [← List.singleton_append, ← List.append_assoc]
    refine ih (fits.concat ⟨fun _ => nested, fun same => ?_, fun _ => by omega⟩) ?_
      (fun token member => kinds token (List.mem_cons_of_mem _ member)) (by omega)
    · rw [kind] at same
      cases same
    · rw [silent]
      exact nested

theorem Shaped.nested (shaped : s.Shaped before) (closed : s.brackets = []) :
    Nested (Token.brackets before) := by
  have opened := shaped.opened
  rw [closed] at opened
  exact opened.nested

theorem Shaped.dedents {closed left : List UInt64} {dedents : List Token}
    (shaped : s.Shaped before) (outside : s.brackets = []) (split : s.levels = closed ++ left)
    (length : dedents.length = closed.length) (kinds : ∀ token ∈ dedents, token.kind = .dedent)
    (levels : t.levels = left) (brackets : t.brackets = []) (inside : t.lineStart = false) :
    t.Shaped (before ++ dedents) := by
  have count := shaped.levels
  have same := occurrences_of_all kinds
  have none : occurrences .indent dedents = 0 := occurrences_of_none fun token member other => by
    rw [kinds token member] at other
    cases other
  have silent : Token.brackets dedents = [] := brackets_of_silent fun token member => by
    rw [kinds token member]
    rfl
  rw [split, List.length_append] at count
  refine ⟨fits_dedents shaped.fits (shaped.nested outside) kinds (by omega), ?_, ?_, fun start => ?_⟩
  · rw [brackets, brackets_append, silent, List.append_nil]
    exact .closed (shaped.nested outside)
  · rw [levels, occurrences_append, occurrences_append]
    omega
  · rw [inside] at start
    cases start

theorem Shaped.concat {token : Token} (shaped : s.Shaped before) (fits : Fits before token)
    (level : token.kind ≠ .indent ∧ token.kind ≠ .dedent)
    (opened : Opened (Token.brackets before ++ token.kind.bracket?.toList) (t.brackets.map (·.bracket)))
    (levels : t.levels = s.levels) (start : t.lineStart = true → token.kind = .newline) :
    t.Shaped (before ++ [token]) := by
  have indents : occurrences .indent [token] = 0 := occurrences_of_none (by simpa using level.1)
  have dedents : occurrences .dedent [token] = 0 := occurrences_of_none (by simpa using level.2)
  refine ⟨shaped.fits.concat fits, ?_, ?_, fun begun => .inr ⟨before, token, rfl, start begun⟩⟩
  · rw [brackets_append, brackets_singleton]
    exact opened
  · rw [occurrences_append, occurrences_append, indents, dedents, levels]
    exact shaped.levels

theorem IsLexeme.not_layout {chars : List Char} {kind : Token.Kind} (lexeme : IsLexeme chars kind) :
    kind.isLayout = false := by
  obtain literal | ⟨mark, rfl⟩ := lexeme.spelled
  · cases kind <;> first | rfl | cases literal
  · rfl

theorem Shaped.entered (shaped : s.Shaped before) (steady : s.Steady) (start : s.lineStart = true) :
    ({ s.skipped.unspaced with levels := s.skipped.settled.levels } : Lexer).Shaped
      (before ++ s.skipped.settled.tokens) := by
  obtain ⟨closed, -⟩ := steady.start start
  have nested := shaped.nested closed
  rcases Indentation.settle_cases s.levels
      (Indentation.width s.tabSize (s.skipped.cursor.rest.takeWhile Indentation.isSpace))
      s.skipped.unspaced.cursor.position with ⟨levels, indent⟩ | ⟨outer, split, dedents⟩
  · have tokens : s.skipped.settled.tokens = _ := indent
    rw [tokens]
    refine ⟨shaped.fits.concat ⟨fun _ => nested, fun _ => shaped.start start, nofun⟩, ?_, ?_, nofun⟩
    · rw [brackets_append, brackets_singleton]
      exact shaped.opened.append .nil
    · have left : s.skipped.settled.levels = _ := levels
      have count := shaped.levels
      rw [occurrences_append, occurrences_append, left, List.length_cons]
      simp only [occurrences, List.countP_singleton] at count ⊢
      simp
      omega
  · have tokens : s.skipped.settled.tokens = _ := dedents
    rw [tokens]
    refine shaped.dedents closed split (List.length_map _) (fun token member => ?_) rfl closed rfl
    obtain ⟨_, -, rfl⟩ := List.mem_map.mp member
    rfl

theorem Turn.shaped (turn : Turn s tokens t) (steady : s.Steady) (shaped : s.Shaped before) :
    t.Shaped (before ++ tokens) := by
  have outside : s.lineStart = false → ∀ front : List Token, s.lineStart = true → EndLine front :=
    fun inside _ start => absurd (inside.symm.trans start) nofun
  cases turn with
  | blank =>
    rw [List.append_nil]
    exact ⟨shaped.fits, shaped.opened, shaped.levels, nofun⟩
  | enter start => exact shaped.entered steady start
  | newline inside more ends closed =>
    exact shaped.concat ⟨fun _ => shaped.nested closed, nofun, nofun⟩ ⟨nofun, nofun⟩
      (shaped.opened.append .nil) rfl fun _ => rfl
  | fold inside =>
    rw [List.append_nil]
    exact ⟨shaped.fits, shaped.opened, shaped.levels, outside inside _⟩
  | join inside =>
    rw [List.append_nil]
    exact ⟨shaped.fits, shaped.opened, shaped.levels, outside inside _⟩
  | @token taken kind brackets inside more _ read done =>
    obtain ⟨_, _, _, _, lexeme⟩ := lexeme_of_read read
    have spelled := lexeme.not_layout
    have level : kind ≠ .indent ∧ kind ≠ .dedent := by
      constructor <;> (rintro rfl; cases spelled)
    refine shaped.concat ⟨fun layout => ?_, fun same => absurd same level.1,
      fun same => absurd same level.2⟩ level ?_ rfl fun start => absurd (inside.symm.trans start) nofun
    · exact absurd (spelled.symm.trans layout) nofun
    · exact opened_nesting shaped.opened (nesting_of_bracketed (s := s.unspaced) done)

theorem Run.shaped (run : Run s tokens t) (steady : s.Steady) (shaped : s.Shaped before) :
    t.Shaped (before ++ tokens) := by
  induction run generalizing before with
  | refl =>
    rw [List.append_nil]
    exact shaped
  | step turn _ ih =>
    rw [← List.append_assoc]
    exact ih (turn.steady steady) (turn.shaped steady shaped)

theorem dedents_le_indents (fits : InTurn Fits tokens) {front : List Token} (part : front <+: tokens) :
    occurrences .dedent front ≤ occurrences .indent front := by
  obtain ⟨later, rfl⟩ := part
  induction front using List.reverseRecOn generalizing later with
  | nil => exact Nat.le_refl 0
  | append_singleton front token ih =>
    rw [List.append_assoc, List.singleton_append] at fits
    have le := ih _ fits
    have less := (fits front token later rfl).dedent
    rw [occurrences_append, occurrences_append]
    by_cases dedent : token.kind = .dedent
    · have one : occurrences .dedent [token] = 1 := occurrences_of_all (by simpa using dedent)
      have lt := less dedent
      omega
    · have none : occurrences .dedent [token] = 0 := occurrences_of_none (by simpa using dedent)
      omega

theorem Ended.shaped (ended : t.Ended) (shaped : t.Shaped before) :
    ({ t with levels := [] } : Lexer).Shaped (before ++ t.closing) := by
  have kinds : ∀ token ∈ t.dedents, token.kind = .dedent := fun _ member => (mem_dedents member).1
  have outside : ({ t with levels := [] } : Lexer).Shaped (before ++ t.dedents) :=
    shaped.dedents ended.closed (List.append_nil _).symm t.length_dedents kinds rfl ended.closed
      ended.inside
  have split : before ++ t.closing = before ++ t.dedents ++ [t.endMarker] :=
    (List.append_assoc ..).symm
  rw [split]
  exact outside.concat ⟨nofun, nofun, nofun⟩ ⟨nofun, nofun⟩ (outside.opened.append .nil) rfl
    fun start => absurd (ended.inside.symm.trans start) nofun

theorem Ended.wellShaped (ended : t.Ended) (shaped : t.Shaped before)
    (unended : ∀ token ∈ before, token.kind ≠ .endMarker) : WellShaped (before ++ t.closing) := by
  have whole := ended.shaped shaped
  refine ⟨⟨before ++ t.dedents, t.endMarker, (List.append_assoc ..).symm, rfl, fun token member => ?_⟩,
    whole.nested ended.closed,
    fun front token later split => (whole.fits front token later split).outside,
    fun front token later split => (whole.fits front token later split).indent,
    fun _ => dedents_le_indents whole.fits, whole.levels⟩
  rcases List.mem_append.mp member with member | member
  · exact unended token member
  · rw [(mem_dedents member).1]
    exact nofun

end Lexer

/-- The tokens of every source are well shaped. -/
theorem tokenize_wellShaped {source : String} {tabSize : UInt64} {tokens : List Token}
    (done : tokenize source tabSize = .ok tokens) : Token.WellShaped tokens := by
  obtain ⟨front, t, run, ended, rfl⟩ := tokenize_eq_ok_iff.mp done
  have shaped := run.shaped (Lexer.steady_ofText source tabSize) (Lexer.shaped_ofText source tabSize)
  exact ended.wellShaped shaped run.unended

/-- A condition over two lines, and a block. -/
theorem tokenize_wellShaped_block : ∃ tokens, tokenize "if f(\n  x):\n  y\n" 8 = .ok tokens ∧
    tokens.length = 12 ∧ Token.WellShaped tokens := by
  have done : tokenize "if f(\n  x):\n  y\n" 8 = .ok [
      ⟨.keyword .ifWord, "if", ⟨1, 1⟩⟩, ⟨.identifier "f", "f", ⟨1, 4⟩⟩,
      ⟨.punct .leftParen, "(", ⟨1, 5⟩⟩, ⟨.identifier "x", "x", ⟨2, 3⟩⟩,
      ⟨.punct .rightParen, ")", ⟨2, 4⟩⟩, ⟨.punct .colon, ":", ⟨2, 5⟩⟩, ⟨.newline, "\n", ⟨2, 6⟩⟩,
      ⟨.indent, "", ⟨3, 3⟩⟩, ⟨.identifier "y", "y", ⟨3, 3⟩⟩, ⟨.newline, "\n", ⟨3, 4⟩⟩,
      ⟨.dedent, "", ⟨4, 1⟩⟩, ⟨.endMarker, "", ⟨4, 1⟩⟩] := by decide +kernel
  exact ⟨_, done, rfl, tokenize_wellShaped done⟩

end Offside
