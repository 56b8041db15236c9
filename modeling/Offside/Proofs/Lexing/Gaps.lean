import Offside.Proofs.Lexing.Lexemes

/-!
# Where a gap opens

No token but a string goes on past a space, a line feed or a comment. `UpToGap` relates texts that are the
same up to such a place. A token that ends before it is read from either (`Lexer.lexeme?_up_to_gap`),
whatever else is the case behind the gap.
-/

namespace Offside

/-- The character stands between tokens: a space, a line feed or the start of a comment. -/
def opensGap (c : Char) : Bool := Indentation.isSpace c || c = '\n' || c = '#'

theorem opensGap_cases {c : Char} (gap : opensGap c = true) :
    c = ' ' ∨ c = '\t' ∨ c = '\x0c' ∨ c = '\n' ∨ c = '#' := by
  simpa [opensGap, Indentation.isSpace, or_assoc] using gap

/-- The texts are the same up to where a gap opens in both, or all the way. -/
inductive UpToGap : List Char → List Char → Prop
  | refl (cs : List Char) : UpToGap cs cs
  | gap {c d : Char} {cs ds : List Char} : opensGap c = true → opensGap d = true →
      UpToGap (c :: cs) (d :: ds)
  | cons (c : Char) {cs ds : List Char} : UpToGap cs ds → UpToGap (c :: cs) (c :: ds)

namespace UpToGap

variable {cs ds : List Char}

theorem symm (same : UpToGap cs ds) : UpToGap ds cs := by
  induction same with
  | refl cs => exact .refl cs
  | gap first second => exact .gap second first
  | cons c _ ih => exact .cons c ih

theorem append (same : UpToGap cs ds) (chars : List Char) : UpToGap (chars ++ cs) (chars ++ ds) := by
  induction chars with
  | nil => exact same
  | cons c chars ih => exact .cons c ih

theorem nil (same : UpToGap [] ds) : ds = [] := by
  cases same
  rfl

/-- A text that starts with no gap starts as the other one does. -/
theorem head {c : Char} (same : UpToGap (c :: cs) ds) (clear : opensGap c = false) :
    ∃ rest, ds = c :: rest ∧ UpToGap cs rest := by
  cases same with
  | refl => exact ⟨cs, rfl, .refl cs⟩
  | gap gap =>
    rw [clear] at gap
    cases gap
  | cons _ same => exact ⟨_, rfl, same⟩

theorem take (same : UpToGap cs ds) {text : List Char} {n : Nat}
    (clear : ∀ c ∈ text, opensGap c = false) (taken : cs.take n = text) : ds.take n = text := by
  induction same generalizing n text with
  | refl => exact taken
  | gap gap =>
    cases n with
    | zero => exact taken
    | succ n =>
      rw [← taken, List.take_succ_cons] at clear
      rw [clear _ List.mem_cons_self] at gap
      cases gap
  | cons c _ ih =>
    cases n with
    | zero => exact taken
    | succ n =>
      rw [← taken, List.take_succ_cons] at clear ⊢
      rw [List.take_succ_cons, ih (List.forall_mem_cons.mp clear).2 rfl]

/-- What ends where a gap opens is as long in both texts. -/
theorem takeWhile_take (same : UpToGap cs ds) {p : Char → Bool}
    (stops : ∀ c, opensGap c = true → p c = false) (n : Nat) :
    ∃ rest rest', UpToGap rest rest' ∧ cs = (cs.take n).takeWhile p ++ rest ∧
      ds = (cs.take n).takeWhile p ++ rest' ∧ (ds.take n).takeWhile p = (cs.take n).takeWhile p := by
  induction same generalizing n with
  | refl cs =>
    obtain ⟨rest, split, -⟩ := takeWhile_take_respelled p n cs
    exact ⟨rest, rest, .refl rest, split, split, rfl⟩
  | gap first second =>
    cases n with
    | zero => exact ⟨_, _, .gap first second, rfl, rfl, rfl⟩
    | succ n =>
      rw [List.take_succ_cons, List.take_succ_cons, List.takeWhile_cons, List.takeWhile_cons,
        stops _ first, stops _ second]
      exact ⟨_, _, .gap first second, rfl, rfl, rfl⟩
  | @cons c cs ds same ih =>
    cases n with
    | zero => exact ⟨_, _, .cons c same, rfl, rfl, rfl⟩
    | succ n =>
      rw [List.take_succ_cons, List.take_succ_cons, List.takeWhile_cons, List.takeWhile_cons]
      cases p c with
      | false => exact ⟨_, _, .cons c same, rfl, rfl, rfl⟩
      | true =>
        obtain ⟨rest, rest', same', split, split', taken⟩ := ih n
        exact ⟨rest, rest', same', congrArg (c :: ·) split, congrArg (c :: ·) split',
          congrArg (c :: ·) taken⟩

theorem takeWhile (same : UpToGap cs ds) {p : Char → Bool}
    (stops : ∀ c, opensGap c = true → p c = false) : cs.takeWhile p = ds.takeWhile p := by
  induction same with
  | refl => rfl
  | gap first second =>
    rw [List.takeWhile_cons, List.takeWhile_cons, stops _ first, stops _ second]
    rfl
  | cons c _ ih => rw [List.takeWhile_cons, List.takeWhile_cons, ih]

/-- As far as the first line feed the texts are still the same up to a gap. -/
theorem line {body body' later later' : List Char}
    (same : UpToGap (body ++ '\n' :: later) (body' ++ '\n' :: later')) (flat : '\n' ∉ body)
    (flat' : '\n' ∉ body') : UpToGap (body ++ ['\n']) (body' ++ ['\n']) := by
  induction body generalizing body' with
  | nil =>
    cases body' with
    | nil => exact .refl _
    | cons d body' =>
      cases same with
      | refl => exact absurd List.mem_cons_self flat'
      | gap first second => exact .gap first second
      | cons => exact absurd List.mem_cons_self flat'
  | cons c body ih =>
    rw [List.mem_cons, not_or] at flat
    cases body' with
    | nil =>
      cases same with
      | refl => exact absurd rfl flat.1
      | gap first second => exact .gap first second
      | cons => exact absurd rfl flat.1
    | cons d body' =>
      rw [List.mem_cons, not_or] at flat'
      generalize whole : c :: body ++ '\n' :: later = text at same
      generalize whole' : d :: body' ++ '\n' :: later' = text' at same
      cases same with
      | refl =>
        obtain ⟨rfl, rest⟩ := List.cons.inj (whole.trans whole'.symm)
        have same : UpToGap (body ++ '\n' :: later) (body' ++ '\n' :: later') := by
          rw [show body ++ '\n' :: later = body' ++ '\n' :: later' from rest]
          exact .refl _
        exact .cons c (ih same flat.2 flat'.2)
      | gap first second =>
        obtain ⟨rfl, -⟩ := List.cons.inj whole
        obtain ⟨rfl, -⟩ := List.cons.inj whole'
        exact .gap first second
      | cons e same =>
        obtain ⟨rfl, rfl⟩ := List.cons.inj whole
        obtain ⟨rfl, rfl⟩ := List.cons.inj whole'
        exact .cons _ (ih same flat.2 flat'.2)

/-! ### Readings -/

variable {pos : Position}

theorem read?_name (same : UpToGap cs ds) : Name.read? pos cs = Name.read? pos ds := by
  have stops : ∀ c, opensGap c = true →
      Text.startsName c = false ∧ Text.continuesName c = false := by
    intro c gap
    rcases opensGap_cases gap with rfl | rfl | rfl | rfl | rfl <;> decide
  have taken := same.takeWhile fun c gap => (stops c gap).2
  cases same with
  | refl => rfl
  | gap first second =>
    rw [Name.read?_eq_none.mpr (stops _ first).1, Name.read?_eq_none.mpr (stops _ second).1]
  | cons c _ => rw [Name.read?, Name.read?, taken]

theorem follow_number (same : UpToGap cs ds) (state : Number.State) :
    Number.follow state cs = Number.follow state ds := by
  have stops : ∀ (state : Number.State) c, opensGap c = true → Number.step state c = none := by
    intro state c gap
    rcases opensGap_cases gap with rfl | rfl | rfl | rfl | rfl <;> cases state with
    | radixMark radix | radixDigits radix => cases radix <;> decide
    | _ => decide
  induction same generalizing state with
  | refl => rfl
  | gap first second =>
    rw [Number.follow_stop (stops state _ first), Number.follow_stop (stops state _ second)]
  | cons c _ ih =>
    cases more : Number.step state c with
    | none => rw [Number.follow_stop more, Number.follow_stop more]
    | some next => rw [Number.follow_step more, Number.follow_step more, ih]

theorem starts_number (same : UpToGap cs ds) : Number.starts cs = Number.starts ds := by
  have stops : ∀ c, opensGap c = true → c.isDigit = false ∧ c ≠ '.' := by
    intro c gap
    rcases opensGap_cases gap with rfl | rfl | rfl | rfl | rfl <;> decide
  have plain : ∀ {c : Char}, c ≠ '.' → ∀ rest, Number.starts (c :: rest) = c.isDigit := by
    intro c other rest
    unfold Number.starts
    split
    · next same => exact absurd (List.cons.inj same).1 other
    · next same => rw [(List.cons.inj same).1]
    · next same => cases same
  cases same with
  | refl => rfl
  | gap first second =>
    rw [plain (stops _ first).2, plain (stops _ second).2, (stops _ first).1, (stops _ second).1]
  | @cons c cs ds same =>
    by_cases point : c = '.'
    · subst point
      cases same with
      | refl => rfl
      | gap first second =>
        show Char.isDigit _ = Char.isDigit _
        rw [(stops _ first).1, (stops _ second).1]
      | cons => rfl
    · rw [plain point, plain point]

theorem read?_number (same : UpToGap cs ds) : Number.read? pos cs = Number.read? pos ds := by
  rw [Number.read?, Number.read?, same.starts_number, same.follow_number]

theorem longestMatch? (same : UpToGap cs ds) : Punct.longestMatch? cs = Punct.longestMatch? ds := by
  have clear : ∀ mark : Punct, ∀ c ∈ mark.spelling.toList, opensGap c = false := by
    intro mark c member
    have none : mark.spelling.toList.all (fun c => !opensGap c) = true := by cases mark <;> decide
    simpa using List.all_eq_true.mp none c member
  have agree : ∀ n, Punct.ofChars? (cs.take n) = Punct.ofChars? (ds.take n) := by
    intro n
    refine Option.ext fun mark => ⟨fun found => ?_, fun found => ?_⟩
    · rwa [same.take (clear mark) (Punct.spelling_of_ofChars? found).symm,
        Punct.spelling_of_ofChars? found]
    · rwa [same.symm.take (clear mark) (Punct.spelling_of_ofChars? found).symm,
        Punct.spelling_of_ofChars? found]
  simp only [Punct.longestMatch?, agree]

/-- Whether a literal starts is clear before a gap opens. -/
theorem read?_literal_eq_none (same : UpToGap cs ds) (unread : StringLiteral.read? pos cs = none) :
    StringLiteral.read? pos ds = none := by
  have stops : ∀ c, opensGap c = true →
      StringLiteral.isPrefixLetter c = false ∧ c ≠ '\'' ∧ c ≠ '"' := by
    intro c gap
    rcases opensGap_cases gap with rfl | rfl | rfl | rfl | rfl <;> decide
  obtain ⟨rest, rest', same', split, split', letters⟩ :=
    same.takeWhile_take (fun c gap => (stops c gap).1) 2
  rw [StringLiteral.read?] at unread ⊢
  rw [letters]
  generalize (cs.take 2).takeWhile StringLiteral.isPrefixLetter = letters at unread split split'
  subst split split'
  rw [List.drop_left] at unread ⊢
  cases same' with
  | refl => exact unread
  | gap _ second => exact if_pos (stops _ second).2
  | cons c same' =>
    dsimp only at unread ⊢
    split at unread
    · next other => exact if_pos other
    · next quote =>
      rw [if_neg quote]
      split at unread
      · cases unread
      · next plain =>
        rw [if_neg plain]
        exact Option.map_eq_none_iff.mpr (Option.map_eq_none_iff.mp unread)

end UpToGap

namespace StringLiteral

theorem read?_up_to_gap {pos pos' : Position} {chars follow follow' : List Char} {kind : Token.Kind}
    (read : read? pos (chars ++ follow) = some (.ok chars.length kind))
    (same : UpToGap follow follow') :
    read? pos' (chars ++ follow') = some (.ok chars.length kind) := by
  obtain ⟨letters, quote, body, rest, split, length, mark, -, -, single, again⟩ := read?_eq_ok read
  have split' : chars ++ follow = (letters ++ quote :: body) ++ rest := by
    rw [split, List.append_assoc, List.cons_append]
  obtain ⟨rfl, rfl⟩ := List.append_inj split' length.symm
  have clear : ∀ c ∈ [quote, quote], opensGap c = false := by
    intro c member
    obtain rfl : c = quote := by simpa using member
    rcases mark with rfl | rfl <;> rfl
  have single' : (body ++ follow').take 2 ≠ [quote, quote] := fun taken =>
    single ((same.append body).symm.take clear taken)
  rw [List.append_assoc, List.cons_append]
  exact again pos' follow' single'

end StringLiteral

namespace Lexer

/-- A token that ends before a gap opens is read whatever the gap is and whatever comes behind it. -/
theorem lexeme?_up_to_gap {pos pos' : Position} {chars follow follow' : List Char} {kind : Token.Kind}
    (read : lexeme? pos (chars ++ follow) = some (.ok chars.length kind))
    (same : UpToGap follow follow') :
    lexeme? pos' (chars ++ follow') = some (.ok chars.length kind) := by
  have whole := same.append chars
  have literal : literal? pos (chars ++ follow) = some (.ok chars.length kind) →
      literal? pos (chars ++ follow') = some (.ok chars.length kind) := by
    intro read
    rcases Option.or_eq_some_iff.mp read with found | ⟨unread, found⟩
    · rcases Option.or_eq_some_iff.mp found with found | ⟨unread, found⟩
      · rw [literal?, StringLiteral.read?_up_to_gap found same]
        rfl
      · rw [literal?, whole.read?_literal_eq_none unread, ← whole.read?_name, found]
        rfl
    · obtain ⟨noLiteral, noName⟩ := Option.or_eq_none_iff.mp unread
      rw [literal?, whole.read?_literal_eq_none noLiteral, ← whole.read?_name, noName,
        ← whole.read?_number, found]
      rfl
  rcases Option.or_eq_some_iff.mp read with found | ⟨unread, found⟩
  · rw [lexeme?, literal?_some_moved pos' (literal found)]
    rfl
  · have unread' : literal? pos (chars ++ follow') = none := by
      obtain ⟨noLiteral, noNumber⟩ := Option.or_eq_none_iff.mp unread
      obtain ⟨noLiteral, noName⟩ := Option.or_eq_none_iff.mp noLiteral
      rw [literal?, whole.read?_literal_eq_none noLiteral, ← whole.read?_name, noName,
        ← whole.read?_number, noNumber]
      rfl
    rw [lexeme?, literal?_none_moved pos' unread', ← whole.longestMatch?]
    exact found

end Lexer

end Offside
