import Mathlib.Data.List.TakeWhile
import Offside.Proofs.Lexing.Readings

/-!
# Lexemes

A lexeme is the characters of a token. `Lexer.lexeme_of_read` shows that they alone say which token
it is: they are read in the same way wherever a blank comes after them, whatever came after them
where they were found.
-/

namespace Offside

namespace Reading

theorem map_eq_ok {f : α → β} {r : Reading α} {taken : Nat} {value : β} :
    r.map f = .ok taken value ↔ ∃ a, r = .ok taken a ∧ f a = value := by
  obtain ⟨count, outcome⟩ := r
  cases outcome <;> simp [Reading.map, Reading.ok, Except.map]

end Reading

/-- At most `n` characters are taken, and the same ones before anything that starts as the rest. -/
theorem takeWhile_take_respelled (p : Char → Bool) (n : Nat) (cs : List Char) :
    ∃ rest, cs = (cs.take n).takeWhile p ++ rest ∧ ∀ follow, follow.head? = rest.head? →
      (((cs.take n).takeWhile p ++ follow).take n).takeWhile p = (cs.take n).takeWhile p := by
  induction n generalizing cs with
  | zero => exact ⟨cs, rfl, fun _ _ => rfl⟩
  | succ n ih =>
    cases cs with
    | nil =>
      refine ⟨[], rfl, fun follow same => ?_⟩
      rw [List.head?_eq_none_iff.mp same]
      rfl
    | cons c cs =>
      by_cases more : p c = true
      · obtain ⟨rest, split, again⟩ := ih cs
        rw [List.take_succ_cons, List.takeWhile_cons_of_pos more]
        refine ⟨rest, by rw [List.cons_append, ← split], fun follow same => ?_⟩
        rw [List.cons_append, List.take_succ_cons, List.takeWhile_cons_of_pos more, again follow same]
      · rw [List.take_succ_cons, List.takeWhile_cons_of_neg more]
        refine ⟨c :: cs, rfl, fun follow same => ?_⟩
        obtain ⟨follow, rfl⟩ := List.head?_eq_some_iff.mp same
        rw [List.nil_append, List.take_succ_cons, List.takeWhile_cons_of_neg more]

/-- Whether the token is a literal or a word. -/
def Token.Kind.isLiteral : Token.Kind → Bool
  | .identifier _ | .keyword _ | .number _ | .str _ | .bytes _ => true
  | _ => false

/-- The characters are read as this literal wherever a blank comes after them. -/
structure Respells (read : Position → List Char → Option (Reading Token.Kind)) (chars : List Char)
    (kind : Token.Kind) : Prop where
  nonempty : chars ≠ []
  flat : '\n' ∉ chars
  literal : kind.isLiteral = true
  again : ∀ pos follow, StartsBlank follow →
    read pos (chars ++ follow) = some (.ok chars.length kind)

theorem feed_not_mem_takeWhile {p : Char → Bool} (stops : p '\n' = false) (cs : List Char) :
    '\n' ∉ cs.takeWhile p := by
  intro member
  have taken := List.mem_takeWhile_imp member
  rw [stops] at taken
  cases taken

/-! ### Literals -/

namespace StringLiteral

theorem escape_respelled {bytes : Bool} {pos : Position} {cs : List Char} {count : Nat}
    {decoded : List Char} (read : escape bytes pos cs = .ok count decoded) :
    ∃ chars rest, cs = chars ++ rest ∧ chars.length = count ∧ '\n' ∉ chars ∧
      ∀ pos' follow, follow.head? = rest.head? →
        escape bytes pos' (chars ++ follow) = .ok count decoded := by
  unfold escape at read
  split at read
  · cases read
  · cases read
  · next c rest notFeed =>
    have flat : ∀ {digits : List Char}, '\n' ∉ digits → '\n' ∉ c :: digits := by
      intro digits flat member
      rcases List.mem_cons.mp member with same | member
      · exact notFeed same.symm
      · exact flat member
    split at read
    · next plain known =>
      cases read
      exact ⟨[c], rest, rfl, rfl, flat List.not_mem_nil, fun _ _ _ => escape_simple known⟩
    · next unknown =>
      split at read
      · next octal =>
        obtain ⟨later, split, again⟩ := takeWhile_take_respelled (Decimal.isDigit 8) 2 rest
        cases read
        refine ⟨_, later, congrArg (c :: ·) split, rfl,
          flat (feed_not_mem_takeWhile (by decide) _), fun pos' follow same => ?_⟩
        rw [List.cons_append, escape, unknown]
        · simp only [octal, if_true, again follow same]
        · exact notFeed
      · next notOctal =>
        split at read
        · next length known =>
          obtain ⟨later, split, again⟩ := takeWhile_take_respelled (Decimal.isDigit 16) length rest
          dsimp only at read
          split at read
          · next whole =>
            cases read
            refine ⟨c :: (rest.take length).takeWhile (Decimal.isDigit 16), later,
              congrArg (c :: ·) split, ?_, flat (feed_not_mem_takeWhile (by decide) _),
              fun pos' follow same => ?_⟩
            · rw [List.length_cons, whole.1, Nat.add_comm]
            · rw [List.cons_append, escape, unknown]
              · simp only [notOctal, Bool.false_eq_true, if_false, known, again follow same]
                exact if_pos whole
              · exact notFeed
          · cases read
        · next unmarked =>
          split at read
          · cases read
          · next ascii =>
            cases read
            refine ⟨[c], rest, rfl, rfl, flat List.not_mem_nil, fun pos' follow _ => ?_⟩
            rw [List.cons_append, escape, unknown]
            · simp only [notOctal, Bool.false_eq_true, if_false, unmarked]
              exact if_neg ascii
            · exact notFeed

theorem body_raw {form : Form} {quote : Char} {start : Position} {taken : Nat} {next : Char}
    {rest : List Char} (raw : form.raw = true) (other : quote ≠ '\\') (notFeed : next ≠ '\n')
    (ascii : (form.bytes && !isAscii next) = false) :
    body form quote start taken ('\\' :: next :: rest) =
      (body form quote start (taken + 2) rest).map ('\\' :: next :: ·) := by
  have line : '\\' ≠ '\n' := by decide
  rw [body.eq_def]
  simp only [if_neg line, if_neg other.symm, if_true, raw, if_neg notFeed, ascii,
    Bool.false_eq_true, if_false]

/-- What a body takes is read in the same way whatever comes after its quote. -/
theorem body_respelled {form : Form} {quote : Char} {start : Position} {taken count : Nat}
    {cs decoded : List Char} (read : body form quote start taken cs = .ok count decoded) :
    ∃ chars rest, cs = chars ++ rest ∧ chars ≠ [] ∧ '\n' ∉ chars ∧ taken + chars.length = count ∧
      ∀ start' follow, body form quote start' taken (chars ++ follow) = .ok count decoded := by
  fun_induction body form quote start taken cs generalizing decoded with
  | case3 taken rest line =>
    cases read
    refine ⟨[quote], rest, rfl, List.cons_ne_nil _ _, ?_, rfl, fun _ _ => body_quote line⟩
    simpa using fun same => line same.symm
  | case6 taken raw next rest notFeed ascii line other ih =>
    obtain ⟨inner, readInner, rfl⟩ := Reading.map_eq_ok.mp read
    obtain ⟨chars, later, rfl, -, flat, length, again⟩ := ih readInner
    refine ⟨'\\' :: next :: chars, later, rfl, List.cons_ne_nil _ _, ?_, ?_, fun start' follow => ?_⟩
    · simpa [flat] using fun same => notFeed same.symm
    · rw [List.length_cons, List.length_cons]
      omega
    · rw [List.cons_append, List.cons_append, body_raw raw (Ne.symm other) notFeed
        (by simpa using ascii), again]
      rfl
  | case9 taken rest cooked count plain readEscape line other ih =>
    obtain ⟨inner, readInner, rfl⟩ := Reading.map_eq_ok.mp read
    obtain ⟨escaped, left, rfl, rfl, flat, againEscape⟩ := escape_respelled readEscape
    rw [List.drop_left] at readInner ih
    obtain ⟨chars, later, rfl, some, flat', length, again⟩ := ih readInner
    refine ⟨'\\' :: (escaped ++ chars), later, by simp, List.cons_ne_nil _ _, ?_, ?_,
      fun start' follow => ?_⟩
    · simp [flat, flat']
    · rw [List.length_cons, List.length_append]
      omega
    · have same : (chars ++ follow).head? = (chars ++ later).head? := by
        rw [List.head?_append_of_ne_nil _ some, List.head?_append_of_ne_nil _ some]
      have escapes := againEscape (start'.right taken) (chars ++ follow) same
      rw [List.cons_append, List.append_assoc, body_escape (by simpa using cooked) (Ne.symm other)
        escapes, List.drop_left, again]
      rfl
  | case11 taken c rest line other plain ascii ih =>
    obtain ⟨inner, readInner, rfl⟩ := Reading.map_eq_ok.mp read
    obtain ⟨chars, later, rfl, -, flat, length, again⟩ := ih readInner
    refine ⟨c :: chars, later, rfl, List.cons_ne_nil _ _, ?_, ?_, fun start' follow => ?_⟩
    · simpa [flat] using fun same => line same.symm
    · rw [List.length_cons]
      omega
    · rw [List.cons_append, body_plain line other plain (by simpa using ascii), again]
      rfl
  | _ => cases read

theorem single_of_blank {quote : Char} {chars later follow : List Char}
    (isQuote : quote = '\'' ∨ quote = '"') (single : (chars ++ later).take 2 ≠ [quote, quote])
    (blank : StartsBlank follow) : (chars ++ follow).take 2 ≠ [quote, quote] := by
  obtain ⟨f, follow, rfl, blank⟩ := blank
  have other : f ≠ quote := by rcases isQuote with rfl | rfl <;> rcases blank with rfl | rfl <;> decide
  intro same
  match chars with
  | [] => exact other (List.cons.inj same).1
  | [_] => exact other (List.cons.inj (List.cons.inj same).2).1
  | _ :: _ :: _ => exact single same

/-- A literal is read in the same way whatever comes after it, unless that makes three quotes. -/
theorem read?_eq_ok {start : Position} {cs : List Char} {taken : Nat} {kind : Token.Kind}
    (read : read? start cs = some (.ok taken kind)) :
    ∃ letters quote chars rest, cs = letters ++ quote :: (chars ++ rest) ∧
      (letters ++ quote :: chars).length = taken ∧ (quote = '\'' ∨ quote = '"') ∧
      '\n' ∉ letters ++ quote :: chars ∧ kind.isLiteral = true ∧
      (chars ++ rest).take 2 ≠ [quote, quote] ∧
      ∀ start' follow, (chars ++ follow).take 2 ≠ [quote, quote] →
        read? start' (letters ++ quote :: (chars ++ follow)) = some (.ok taken kind) := by
  obtain ⟨after, split, again⟩ := takeWhile_take_respelled isPrefixLetter 2 cs
  have flat : '\n' ∉ (cs.take 2).takeWhile isPrefixLetter := feed_not_mem_takeWhile (by decide) _
  unfold read? at read
  dsimp only at read
  generalize (cs.take 2).takeWhile isPrefixLetter = letters at read split again flat
  subst split
  rw [List.drop_left] at read
  split at read
  · next quote rest =>
    split at read
    · cases read
    · next isQuote =>
      have mark : quote = '\'' ∨ quote = '"' := by
        by_contra neither
        exact isQuote (not_or.mp neither)
      split at read
      · cases read
      · next formatted =>
        obtain ⟨form, known, read⟩ := Option.map_eq_some_iff.mp read
        split at read
        · cases read
        · next single =>
          obtain ⟨decoded, readBody, rfl⟩ := Reading.map_eq_ok.mp read
          obtain ⟨chars, later, rfl, -, flat', length, again'⟩ := body_respelled readBody
          have notFeed : '\n' ≠ quote := by rcases mark with rfl | rfl <;> decide
          refine ⟨letters, quote, chars, later, rfl, ?_, mark, by simp [flat, flat', notFeed], ?_, single,
            fun start' follow single' => ?_⟩
          · rw [List.length_append, List.length_cons]
            omega
          · unfold Form.kind
            split <;> rfl
          · have found := again (quote :: (chars ++ follow)) rfl
            rw [read?]
            simp only [found, List.drop_left, if_neg isQuote, formatted, known, Option.map_some,
              if_neg single', again', Bool.false_eq_true, if_false]
            rfl
  · cases read

theorem read?_respelled {start : Position} {cs : List Char} {taken : Nat} {kind : Token.Kind}
    (read : read? start cs = some (.ok taken kind)) :
    ∃ chars rest, cs = chars ++ rest ∧ chars.length = taken ∧ Respells read? chars kind := by
  obtain ⟨letters, quote, chars, rest, rfl, length, mark, flat, literal, single, again⟩ :=
    read?_eq_ok read
  refine ⟨letters ++ quote :: chars, rest, by simp, length, by simp, flat, literal,
    fun start' follow blank => ?_⟩
  rw [length, List.append_assoc, List.cons_append]
  exact again start' follow (single_of_blank mark single blank)

end StringLiteral

/-! ### Words -/

namespace Name

theorem read?_respelled {pos : Position} {cs : List Char} {taken : Nat} {kind : Token.Kind}
    (read : read? pos cs = some (.ok taken kind)) :
    ∃ chars rest, cs = chars ++ rest ∧ chars.length = taken ∧ (∀ c ∈ chars, c ≠ '\'' ∧ c ≠ '"') ∧
      Respells read? chars kind := by
  unfold read? at read
  split at read
  · cases read
  · next c cs =>
    split at read
    · next starts =>
      have continues := continuesName_of_starts starts
      have split := List.takeWhile_append_dropWhile (p := Text.continuesName) (l := cs)
      rw [List.takeWhile_cons_of_pos continues] at read
      dsimp only at read
      split at read
      · cases read
      · next allowed =>
        cases read
        have all : (cs.takeWhile Text.continuesName).all Text.continuesName = true :=
          List.all_takeWhile
        refine ⟨c :: cs.takeWhile Text.continuesName, cs.dropWhile Text.continuesName,
          congrArg (c :: ·) split.symm, rfl, ?_, List.cons_ne_nil _ _, ?_, ?_,
          fun pos' follow blank => read?_word starts all (by simpa using allowed) blank⟩
        · intro d member
          rw [← List.takeWhile_cons_of_pos continues] at member
          exact continuesName_not_quote (List.mem_takeWhile_imp member)
        · rw [← List.takeWhile_cons_of_pos continues]
          exact feed_not_mem_takeWhile (by decide) _
        · unfold Name.kind
          split <;> rfl
    · cases read

theorem read?_eq_none {pos : Position} {c : Char} {cs : List Char} :
    read? pos (c :: cs) = none ↔ Text.startsName c = false := by
  unfold read?
  split
  · next same => cases same
  · next same =>
    obtain ⟨rfl, rfl⟩ := List.cons.inj same
    split <;> simp_all

end Name

/-! ### Numbers -/

namespace Number

/-- Characters that stand in no number. -/
theorem step_foreign (state : State) {c : Char} (foreign : c ∈ [' ', '\n', '\'', '"']) :
    step state c = none := by
  simp only [List.mem_cons, List.not_mem_nil, or_false] at foreign
  rcases foreign with rfl | rfl | rfl | rfl <;> cases state with
  | radixMark radix | radixDigits radix => cases radix <;> decide
  | _ => decide

theorem step_blank (state : State) {c : Char} (blank : c = ' ' ∨ c = '\n') :
    step state c = none :=
  step_foreign state (by rcases blank with rfl | rfl <;> decide)

theorem follow_stop {state : State} {c : Char} {cs : List Char} (stop : step state c = none) :
    Number.follow state (c :: cs) = ([], state) := by
  simp only [Number.follow, stop]

theorem follow_step {state next : State} {c : Char} {cs : List Char}
    (more : step state c = some next) : Number.follow state (c :: cs) =
      (c :: (Number.follow next cs).1, (Number.follow next cs).2) := by
  simp only [Number.follow, more]

theorem follow_respelled (state : State) (cs : List Char) :
    ∃ rest, cs = (Number.follow state cs).1 ++ rest ∧
      (∀ c ∈ (Number.follow state cs).1, c ∉ [' ', '\n', '\'', '"']) ∧ ∀ follow, StartsBlank follow →
        Number.follow state ((Number.follow state cs).1 ++ follow) = Number.follow state cs := by
  induction cs generalizing state with
  | nil =>
    refine ⟨[], rfl, fun _ member => absurd member List.not_mem_nil, ?_⟩
    rintro _ ⟨f, follow, rfl, blank⟩
    exact follow_stop (step_blank state blank)
  | cons c cs ih =>
    cases more : step state c with
    | none =>
      rw [follow_stop more]
      refine ⟨c :: cs, rfl, fun _ member => absurd member List.not_mem_nil, ?_⟩
      rintro _ ⟨f, follow, rfl, blank⟩
      exact follow_stop (step_blank state blank)
    | some next =>
      obtain ⟨rest, split, native, again⟩ := ih next
      rw [follow_step more]
      refine ⟨rest, congrArg (c :: ·) split, fun d member foreign => ?_, fun follow blank => ?_⟩
      · rcases List.mem_cons.mp member with rfl | member
        · rw [step_foreign state foreign] at more
          cases more
        · exact native d member foreign
      · rw [List.cons_append, follow_step more, again follow blank]

theorem starts_of_isDigit {c : Char} (digit : c.isDigit = true) (cs : List Char) :
    starts (c :: cs) = true := by
  unfold starts
  split
  · next same =>
    obtain ⟨rfl, -⟩ := List.cons.inj same
    cases digit
  · next same =>
    obtain ⟨rfl, -⟩ := List.cons.inj same
    exact digit
  · next same => cases same

theorem starts_respelled {cs : List Char} (number : starts cs = true) (follow : List Char) :
    starts ((Number.follow .start cs).1 ++ follow) = true := by
  obtain ⟨d, cs, next, rfl, more⟩ := step_start number
  rw [follow_step more, List.cons_append]
  unfold starts at number
  split at number
  · next c cs same =>
    obtain ⟨rfl, rfl⟩ := List.cons.inj same
    obtain rfl : State.point = next := Option.some.inj more
    have digit : step .point c = some .fraction := if_pos number
    rw [follow_step digit]
    exact number
  · next same =>
    obtain ⟨rfl, -⟩ := List.cons.inj same
    exact starts_of_isDigit number _
  · cases number

theorem read?_respelled {pos : Position} {cs : List Char} {taken : Nat} {kind : Token.Kind}
    (read : read? pos cs = some (.ok taken kind)) :
    ∃ chars rest, cs = chars ++ rest ∧ chars.length = taken ∧ (∀ c ∈ chars, c ≠ '\'' ∧ c ≠ '"') ∧
      Respells read? chars kind := by
  have here := read
  unfold read? at read
  split at read
  · next number =>
    obtain ⟨rest, split, native, again⟩ := follow_respelled .start cs
    have length : (Number.follow .start cs).1.length = taken :=
      congrArg Reading.taken (Option.some.inj read)
    refine ⟨_, rest, split, length, ?_, ?_, ?_, ?_, fun pos' follow blank => ?_⟩
    · intro c member
      constructor <;> (rintro rfl; exact native _ member (by decide))
    · obtain ⟨c, cs, next, rfl, more⟩ := step_start number
      rw [follow_step more]
      exact List.cons_ne_nil _ _
    · exact fun member => native _ member (by decide)
    · have mapped : Reading.map Token.Kind.number ⟨_, value _ _ pos⟩ = .ok taken kind :=
        Option.some.inj read
      obtain ⟨value, -, rfl⟩ := Reading.map_eq_ok.mp mapped
      rfl
    · have same : read? pos' ((Number.follow .start cs).1 ++ follow) = read? pos' cs := by
        simp only [read?, number, starts_respelled number follow, again follow blank]
      rw [same, length]
      exact Reading.eq_some_of_moved (read?_moved pos pos' cs) here
  · cases read

end Number

/-! ### Punctuation -/

namespace Punct

theorem spelling_of_ofChars? {text : List Char} {mark : Punct} (found : ofChars? text = some mark) :
    mark.spelling.toList = text := by
  simpa using List.find?_some found

theorem longestMatch?_prefix {cs : List Char} {mark : Punct}
    (found : longestMatch? cs = some mark) : mark.spelling.toList <+: cs := by
  obtain ⟨count, -, found⟩ := List.exists_of_findSome?_eq_some found
  rw [spelling_of_ofChars? found]
  exact List.take_prefix count cs

theorem spelling_flat (mark : Punct) : mark.spelling.toList ≠ [] ∧ '\n' ∉ mark.spelling.toList := by
  cases mark <;> decide

end Punct

/-! ### All lexemes -/

namespace Lexer

/-- What the characters start with: a literal or a word, or else punctuation. -/
def lexeme? (pos : Position) (cs : List Char) : Option (Reading Token.Kind) :=
  (literal? pos cs).or
    ((Punct.longestMatch? cs).map fun mark => .ok mark.spelling.length (.punct mark))

theorem literal?_respelled {pos : Position} {cs : List Char} {taken : Nat} {kind : Token.Kind}
    (read : literal? pos cs = some (.ok taken kind)) :
    ∃ chars rest, cs = chars ++ rest ∧ chars.length = taken ∧ Respells literal? chars kind := by
  unfold literal? at read
  rcases Option.or_eq_some_iff.mp read with read | ⟨unnamed, read⟩
  · rcases Option.or_eq_some_iff.mp read with read | ⟨-, read⟩
    · obtain ⟨chars, rest, split, length, respells⟩ := StringLiteral.read?_respelled read
      refine ⟨chars, rest, split, length, respells.nonempty, respells.flat, respells.literal, ?_⟩
      intro pos' follow blank
      rw [literal?, respells.again pos' follow blank]
      rfl
    · obtain ⟨chars, rest, split, length, clear, respells⟩ := Name.read?_respelled read
      refine ⟨chars, rest, split, length, respells.nonempty, respells.flat, respells.literal, ?_⟩
      intro pos' follow blank
      rw [literal?, StringLiteral.read?_word respells.nonempty clear blank,
        respells.again pos' follow blank]
      rfl
  · obtain ⟨chars, rest, rfl, length, clear, respells⟩ := Number.read?_respelled read
    refine ⟨chars, rest, rfl, length, respells.nonempty, respells.flat, respells.literal, ?_⟩
    intro pos' follow blank
    obtain ⟨c, chars, rfl⟩ := List.exists_cons_of_ne_nil respells.nonempty
    have noName : Text.startsName c = false := Name.read?_eq_none.mp (Option.or_eq_none_iff.mp unnamed).2
    have unread : Name.read? pos' (c :: chars ++ follow) = none := Name.read?_eq_none.mpr noName
    rw [literal?, StringLiteral.read?_word respells.nonempty clear blank, unread,
      respells.again pos' follow blank]
    rfl

/-- The characters are read as this token wherever a blank comes after them. -/
structure IsLexeme (chars : List Char) (kind : Token.Kind) : Prop where
  nonempty : chars ≠ []
  flat : '\n' ∉ chars
  spelled : kind.isLiteral = true ∨ ∃ mark, kind = .punct mark
  read : ∀ pos follow, StartsBlank follow →
    lexeme? pos (chars ++ follow) = some (.ok chars.length kind)

theorem lexeme_of_read {pos : Position} {cs : List Char} {taken : Nat} {kind : Token.Kind}
    (read : lexeme? pos cs = some (.ok taken kind)) :
    ∃ chars rest, cs = chars ++ rest ∧ chars.length = taken ∧ IsLexeme chars kind := by
  rcases Option.or_eq_some_iff.mp read with read | ⟨-, read⟩
  · obtain ⟨chars, rest, split, length, respells⟩ := literal?_respelled read
    refine ⟨chars, rest, split, length, respells.nonempty, respells.flat, .inl respells.literal, ?_⟩
    intro pos' follow blank
    rw [lexeme?, respells.again pos' follow blank]
    rfl
  · obtain ⟨mark, found, same⟩ := Option.map_eq_some_iff.mp read
    cases same
    obtain ⟨rest, split⟩ := Punct.longestMatch?_prefix found
    obtain ⟨nonempty, flat⟩ := mark.spelling_flat
    refine ⟨_, rest, split.symm, String.length_toList, nonempty, flat, .inr ⟨mark, rfl⟩, ?_⟩
    intro pos' follow blank
    rw [lexeme?, literal?_punct mark blank, Punct.longestMatch?_spelling mark blank,
      String.length_toList]
    rfl

/-- The characters of a lexeme are those of no other token. -/
theorem IsLexeme.kind_eq {chars : List Char} {kind kind' : Token.Kind} (lexeme : IsLexeme chars kind)
    (lexeme' : IsLexeme chars kind') : kind = kind' := by
  have read := lexeme.read ⟨1, 1⟩ [' '] ⟨' ', [], rfl, .inl rfl⟩
  rw [lexeme'.read ⟨1, 1⟩ [' '] ⟨' ', [], rfl, .inl rfl⟩] at read
  cases read
  rfl

end Lexer

end Offside
