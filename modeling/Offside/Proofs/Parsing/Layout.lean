import Offside.Proofs.Lexing.Shape
import Offside.Proofs.Parsing.Ends

/-!
# Blocks in the answers of a source

`Lexer.answers_laid` says what a lexer answers for a source: its tokens up to the first error or to
the end marker, which is then repeated. `Answers.Balanced i depth` counts the blocks open at a place,
and `Answers.Laid.deep` and `Answers.Laid.outside` say that the next DEDENT and the end marker agree
with that count.
-/

namespace Offside

open Token (occurrences occurrences_append occurrences_of_none)

/-- Whether the token neither opens nor closes a block. -/
def Token.Kind.isFlat : Token.Kind → Bool
  | .indent | .dedent => false
  | _ => true

/-- As many blocks are closed as are opened. -/
def Paired (tokens : List Token) : Prop := occurrences .indent tokens = occurrences .dedent tokens

theorem paired_of_flat {tokens : List Token} (flat : ∀ token ∈ tokens, token.kind.isFlat = true) :
    Paired tokens := by
  have none : ∀ kind : Token.Kind, kind.isFlat = false → occurrences kind tokens = 0 := by
    intro kind different
    apply occurrences_of_none
    intro token member eq
    rw [← eq, flat token member] at different
    cases different
  rw [Paired, none .indent rfl, none .dedent rfl]

namespace Answers

variable {answers : Answers} {i j depth : Nat} {token : Token} {tokens later : List Token}

theorem drop_add_of_after {rest : Answers} (split : answers.drop i = rest.after tokens) :
    answers.drop (i + tokens.length) = rest := by
  rw [← Stream'.drop_drop, split, drop_after]

theorem Spans.of_drop {rest : Answers} (split : answers.drop i = rest.after tokens) :
    answers.Spans i tokens (i + tokens.length) :=
  ⟨rfl, by rw [drop_add_of_after split, split]⟩

theorem Spans.of_after {rest : Answers} (split : answers = rest.after tokens) :
    answers.Spans 0 tokens tokens.length := by
  have spans : answers.Spans 0 tokens (0 + tokens.length) := .of_drop split
  rwa [Nat.zero_add] at spans

theorem Spans.sound (spans : answers.Spans i tokens j) (sound : answers.Sound i) :
    answers.Sound j := by
  intro k lt
  by_cases before : k < i
  · exact sound k before
  · obtain ⟨n, rfl⟩ := Nat.exists_eq_add_of_le (Nat.le_of_not_lt before)
    have place := spans.place
    exact ⟨tokens[n], spans.get (by omega)⟩

theorem Spans.extends {k : Nat} (first : answers.Spans i tokens j) (whole : answers.Spans i later k)
    (le : j ≤ k) : ∃ more, later = tokens ++ more ∧ answers.Spans j more k := by
  have place := first.place
  have place' := whole.place
  have agree : later.take tokens.length = tokens := by
    apply List.ext_getElem
    · rw [List.length_take]
      omega
    · intro n lt lt'
      have found := whole.get (n := n) (by omega)
      rw [first.get lt'] at found
      rw [List.getElem_take]
      exact (Except.ok.inj found).symm
  have split : later = tokens ++ later.drop tokens.length := by
    nth_rewrite 1 [← List.take_append_drop tokens.length later]
    rw [agree]
  refine ⟨later.drop tokens.length, split, ?_, ?_⟩
  · rw [List.length_drop]
    omega
  · have drop := congrArg (Stream'.drop tokens.length) whole.drop
    rw [Stream'.drop_drop, ← place] at drop
    rw [drop]
    nth_rewrite 1 [split]
    rw [after_append]
    exact drop_after _ _

/-! ### The answers of a source -/

/-- After the tokens in front come an error, or else the end marker and nothing but it. -/
structure Laid (answers : Answers) (front : List Token) (next : Except LexError Token) : Prop where
  spans : answers.Spans 0 front front.length
  get : answers.get front.length = next
  unended : ∀ token ∈ front, token.kind ≠ .endMarker
  depth : ∀ part, part <+: front → occurrences .dedent part ≤ occurrences .indent part
  last : ∀ last, next = .ok last → last.kind = .endMarker ∧
    (∀ i, front.length ≤ i → answers.get i = .ok last) ∧
    occurrences .dedent front = occurrences .indent front

namespace Laid

variable {front : List Token} {next : Except LexError Token}

/-- Beyond the tokens in front there is only the end marker. -/
theorem beyond (laid : answers.Laid front next) (found : answers.Finds i token)
    (le : front.length ≤ i) : next = .ok token ∧ token.kind = .endMarker := by
  have reached : ∃ last, answers.get front.length = .ok last := by
    rcases Nat.lt_or_eq_of_le le with lt | eq
    · exact found.sound _ lt
    · exact ⟨token, eq ▸ found.get⟩
  obtain ⟨last, get⟩ := reached
  rw [laid.get] at get
  obtain ⟨ended, all, -⟩ := laid.last last get
  obtain rfl := found.eq (all i le)
  exact ⟨get, ended⟩

theorem bounded (laid : answers.Laid front next) : answers.Bounded front.length := by
  intro i token found unended
  by_contra beyond
  exact unended (laid.beyond found (Nat.le_of_not_lt beyond)).2

theorem mem (laid : answers.Laid front next) (found : answers.Finds i token) :
    token ∈ front ∨ next = .ok token := by
  by_cases within : i < front.length
  · have get := laid.spans.get within
    rw [Nat.zero_add] at get
    obtain rfl := found.eq get
    exact .inl (List.getElem_mem within)
  · exact .inr (laid.beyond found (Nat.le_of_not_lt within)).1

theorem ends (laid : answers.Laid front next) (found : answers.Finds i token)
    (ended : token.kind = .endMarker) : next = .ok token :=
  (laid.mem found).resolve_left fun member => laid.unended token member ended

theorem fails {e : LexError} (laid : answers.Laid front next) :
    answers.Fails e ↔ next = .error e := by
  have failed : ∀ {e}, next = .error e → answers.Fails e := by
    intro e error
    refine ⟨front.length, fun i lt => ⟨front[i], ?_⟩, laid.get.trans error⟩
    have get := laid.spans.get lt
    rwa [Nat.zero_add] at get
  refine ⟨fun fails => ?_, failed⟩
  cases next with
  | error e' => rw [fails.unique (failed rfl)]
  | ok last =>
    obtain ⟨i, -, get⟩ := fails
    by_cases within : i < front.length
    · have get' := laid.spans.get within
      rw [Nat.zero_add, get] at get'
      cases get'
    · rw [(laid.last last rfl).2.1 i (Nat.le_of_not_lt within)] at get
      cases get

end Laid

/-! ### Open blocks -/

/-- So many more INDENTs than DEDENTs are there before the place. -/
def Balanced (answers : Answers) (i depth : Nat) : Prop :=
  ∃ tokens, answers.Spans 0 tokens i ∧
    occurrences .indent tokens = occurrences .dedent tokens + depth

/-- No block is opened or closed between the places. -/
def Flat (answers : Answers) (i j : Nat) : Prop :=
  ∃ tokens, answers.Spans i tokens j ∧ ∀ token ∈ tokens, token.kind.isFlat = true

theorem balanced_zero (answers : Answers) : answers.Balanced 0 0 := ⟨[], .nil answers 0, rfl⟩

theorem Balanced.paired (balanced : answers.Balanced i depth) (spans : answers.Spans i tokens j)
    (paired : Paired tokens) : answers.Balanced j depth := by
  obtain ⟨before, spans', count⟩ := balanced
  refine ⟨before ++ tokens, spans'.append spans, ?_⟩
  rw [occurrences_append, occurrences_append, count, paired]
  omega

theorem Balanced.flat (balanced : answers.Balanced i depth) (flat : answers.Flat i j) :
    answers.Balanced j depth := by
  obtain ⟨tokens, spans, all⟩ := flat
  exact balanced.paired spans (paired_of_flat all)

theorem Balanced.indent (balanced : answers.Balanced i depth) (found : answers.Finds i token)
    (opens : token.kind = .indent) : answers.Balanced (i + 1) (depth + 1) := by
  obtain ⟨tokens, spans, count⟩ := balanced
  refine ⟨tokens ++ [token], spans.concat found.get, ?_⟩
  have one : occurrences .indent [token] = 1 := by simp [occurrences, opens]
  have none : occurrences .dedent [token] = 0 := by simp [occurrences, opens]
  rw [occurrences_append, occurrences_append, one, none]
  omega

theorem Balanced.dedent (balanced : answers.Balanced i (depth + 1)) (found : answers.Finds i token)
    (closes : token.kind = .dedent) : answers.Balanced (i + 1) depth := by
  obtain ⟨tokens, spans, count⟩ := balanced
  refine ⟨tokens ++ [token], spans.concat found.get, ?_⟩
  have one : occurrences .dedent [token] = 1 := by simp [occurrences, closes]
  have none : occurrences .indent [token] = 0 := by simp [occurrences, closes]
  rw [occurrences_append, occurrences_append, one, none]
  omega

theorem Flat.single (found : answers.Finds i token) (flat : token.kind.isFlat = true) :
    answers.Flat i (i + 1) :=
  ⟨[token], .single found.get, List.forall_mem_singleton.mpr flat⟩

namespace Laid

variable {front : List Token} {next : Except LexError Token}

/-- A DEDENT closes a block that is open. -/
theorem deep (laid : answers.Laid front next) (found : answers.Finds i token)
    (closes : token.kind = .dedent) (balanced : answers.Balanced i depth) : 0 < depth := by
  obtain ⟨tokens, spans, count⟩ := balanced
  by_cases within : i < front.length
  · obtain ⟨more, split, rest⟩ := spans.extends laid.spans (Nat.le_of_lt within)
    cases more with
    | nil =>
      have := rest.place
      exact absurd this (by simp; omega)
    | cons token' more =>
      obtain rfl := found.eq rest.head
      have part : tokens ++ [token'] <+: front := ⟨more, by rw [split, List.append_assoc]; rfl⟩
      have enough := laid.depth _ part
      have one : occurrences .dedent [token'] = 1 := by simp [occurrences, closes]
      have none : occurrences .indent [token'] = 0 := by simp [occurrences, closes]
      rw [occurrences_append, occurrences_append, one, none] at enough
      omega
  · rw [(laid.beyond found (Nat.le_of_not_lt within)).2] at closes
    cases closes

/-- Before the end marker every INDENT has its DEDENT. -/
theorem even (laid : answers.Laid front next) (found : answers.Finds i token)
    (ended : token.kind = .endMarker) (spans : answers.Spans 0 tokens i) :
    occurrences .dedent tokens = occurrences .indent tokens := by
  obtain ⟨-, all, equal⟩ := laid.last token (laid.ends found ended)
  have le : front.length ≤ i := by
    by_contra within
    have get := laid.spans.get (Nat.lt_of_not_le within)
    rw [Nat.zero_add] at get
    obtain rfl := found.eq get
    exact laid.unended _ (List.getElem_mem _) ended
  obtain ⟨more, rfl, rest⟩ := laid.spans.extends spans le
  have none : ∀ kind, kind ≠ .endMarker → occurrences kind more = 0 := by
    intro kind different
    apply occurrences_of_none
    intro other member eq
    obtain ⟨n, lt, rfl⟩ := List.mem_iff_getElem.mp member
    have get := rest.get lt
    rw [all _ (by omega)] at get
    rw [← Except.ok.inj get, ended] at eq
    exact different eq.symm
  rw [occurrences_append, occurrences_append, none .indent nofun, none .dedent nofun, equal]

theorem outside (laid : answers.Laid front next) (found : answers.Finds i token)
    (ended : token.kind = .endMarker) (balanced : answers.Balanced i depth) : depth = 0 := by
  obtain ⟨tokens, spans, count⟩ := balanced
  have := laid.even found ended spans
  omega

end Laid

end Answers

namespace Lexer

theorem answers_of_finished {s : Lexer} (idle : s.pending = []) (finished : s.finished = true) :
    ∀ i, s.answers.get i = .ok s.endMarker := by
  have asked := answers_of_ok (next_of_finished idle finished)
  intro i
  induction i with
  | zero =>
    rw [asked]
    rfl
  | succ i ih =>
    rw [asked]
    exact ih

section

variable {source : String} {tabSize : UInt64} {front : List Token} {t : Lexer}

theorem laid_of_failed {e : LexError} {u : Lexer} (run : Run (ofText source tabSize) front t)
    (failed : t.step = .error e u) :
    (ofText source tabSize).answers.Laid front (.error e) := by
  have steady := steady_ofText source tabSize
  have steady' := run.steady steady
  have shaped := run.shaped steady (shaped_ofText source tabSize)
  rw [List.nil_append] at shaped
  refine ⟨.of_after (run.answers steady), ?_, run.unended, fun _ => dedents_le_indents shaped.fits,
    nofun⟩
  have next := answers_of_error (next_of_error steady'.idle steady'.unfinished failed)
  rw [run.answers steady, ← Nat.add_zero front.length, Answers.get_after_add, next]
  rfl

theorem laid_of_ended (run : Run (ofText source tabSize) front t) (ended : t.Ended) :
    (ofText source tabSize).answers.Laid (front ++ t.dedents) (.ok t.endMarker) := by
  have steady := steady_ofText source tabSize
  have steady' := run.steady steady
  have shaped := run.shaped steady (shaped_ofText source tabSize)
  rw [List.nil_append] at shaped
  have whole := ended.wellShaped shaped run.unended
  rw [closing, ← List.append_assoc] at whole
  have repeated := answers_of_finished (s := { t with levels := [], finished := true }) steady'.idle rfl
  have split := (run.answers steady).trans (congrArg (Answers.after · front) (answers_of_ended
    steady'.idle steady'.unfinished ended.inside ended.ended ended.closed))
  rw [← Answers.after_append, ← dedents, ← List.append_assoc] at split
  have beyond : ∀ i, (front ++ t.dedents).length ≤ i →
      (ofText source tabSize).answers.get i = .ok t.endMarker := by
    intro i le
    obtain ⟨n, rfl⟩ := Nat.exists_eq_add_of_le le
    rw [split, Answers.after_append, Answers.get_after_add]
    cases n with
    | zero => rfl
    | succ n => exact repeated n
  refine ⟨.of_after (split.trans (Answers.after_append ..)), beyond _ (Nat.le_refl _), ?_,
    fun part earlier => whole.depth part (earlier.trans (List.prefix_append _ _)), ?_⟩
  · intro token member
    rcases List.mem_append.mp member with member | member
    · exact run.unended token member
    · rw [(mem_dedents member).1]
      decide
  · intro last is
    cases is
    have balanced := whole.balanced
    rw [occurrences_append, occurrences_append .indent] at balanced
    exact ⟨rfl, beyond, balanced⟩

end

/-- The answers for a source: they tell what the tokens of the source are, or its first error. -/
theorem answers_laid (source : String) (tabSize : UInt64) : ∃ front next,
    (ofText source tabSize).answers.Laid front next ∧
      tokenize source tabSize = next.map (fun last => front ++ [last]) ∧
      front.length < (ofText source tabSize).bound := by
  have enough := allowance_ofText source tabSize
  obtain ⟨front, t, run, ended | ⟨e, u, failed⟩⟩ := exists_run (steady_ofText source tabSize)
  · have few := run.allowance (steady_ofText source tabSize)
    refine ⟨front ++ t.dedents, .ok t.endMarker, laid_of_ended run ended, ?_, ?_⟩
    · rw [tokenize_eq_ok_iff.mpr ⟨front, t, run, ended, rfl⟩, closing, ← List.append_assoc]
      rfl
    · rw [List.length_append, length_dedents]
      rw [allowance] at few
      omega
  · have few := run.allowance (steady_ofText source tabSize)
    exact ⟨front, .error e, laid_of_failed run failed, tokenize_of_failed run failed, by omega⟩

end Lexer

end Offside
