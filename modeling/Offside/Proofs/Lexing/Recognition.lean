import Offside.Proofs.Lexing.Lexemes
import Offside.Proofs.Lexing.Numerals

/-!
# Recognition of numerals

The automaton accepts the numerals (`spells_iff`), and goes on as long as a numeral may still come of the
characters (`begins_iff`). The value of what it accepts is the one that the text alone decides
(`value_eq_convert`).
-/

namespace Offside.Number

variable {chars digits front tail : List Char} {state next : State} {c : Char}

/-! ### States -/

/-- The state after all the characters, if each of them leads on. -/
def run (state : State) (chars : List Char) : Option State := chars.foldlM step state

/-- Whether the characters so far are digits. -/
def State.isWhole : State → Bool
  | .integer | .zero | .zeros | .padded => true
  | _ => false

/-- Whether an exponent or the imaginary unit may come next. -/
def State.isSignificand : State → Bool
  | .fraction => true
  | state => state.isWhole

/-- Whether the characters so far are a numeral. -/
def State.accepts : State → Bool
  | .integer | .zero | .zeros | .fraction | .exponent | .imaginary | .radixDigits _ => true
  | _ => false

theorem run_append (state : State) (first second : List Char) :
    run state (first ++ second) = (run state first).bind (run · second) :=
  List.foldlM_append

theorem run_cons (state : State) (c : Char) (chars : List Char) :
    run state (c :: chars) = (step state c).bind (run · chars) :=
  List.foldlM_cons

theorem run_follow (state : State) (cs : List Char) :
    run state (Number.follow state cs).1 = some (Number.follow state cs).2 := by
  induction cs generalizing state with
  | nil => rfl
  | cons c cs ih =>
    cases more : step state c with
    | none =>
      rw [follow_stop more]
      rfl
    | some next =>
      rw [follow_step more, run_cons, more]
      exact ih next

theorem follow_longest {cs : List Char} (front : chars <+: cs) (going : (run state chars).isSome = true) :
    chars.length ≤ (Number.follow state cs).1.length := by
  induction chars generalizing state cs with
  | nil => exact Nat.zero_le _
  | cons c chars ih =>
    obtain ⟨rest, rfl⟩ := front
    rw [run_cons] at going
    cases more : step state c with
    | none =>
      rw [more] at going
      cases going
    | some next =>
      rw [more] at going
      rw [List.cons_append, follow_step more]
      exact Nat.succ_le_succ (ih (List.prefix_append chars rest) going)

theorem run_digits {p : Char → Prop} (loops : ∀ c, p c → step state c = some state)
    (all : ∀ c ∈ digits, p c) : run state digits = some state := by
  induction digits with
  | nil => rfl
  | cons c digits ih =>
    rw [run_cons, loops c (all c List.mem_cons_self)]
    exact ih fun c member => all c (List.mem_cons_of_mem _ member)

theorem step_whole (whole : state.isWhole = true) (digit : c.isDigit = true) :
    ∃ next, step state c = some next ∧ next.isWhole = true := by
  cases state <;> cases whole
  · exact ⟨_, if_pos digit, rfl⟩
  · by_cases zero : c = '0'
    · exact ⟨_, if_pos zero, rfl⟩
    · exact ⟨.padded, by rw [step, if_neg zero, if_pos digit], rfl⟩
  · by_cases zero : c = '0'
    · exact ⟨_, if_pos zero, rfl⟩
    · exact ⟨.padded, by rw [step, if_neg zero, if_pos digit], rfl⟩
  · exact ⟨_, if_pos digit, rfl⟩

theorem run_whole (whole : state.isWhole = true) (all : AllDigits digits) :
    ∃ next, run state digits = some next ∧ next.isWhole = true := by
  induction digits generalizing state with
  | nil => exact ⟨state, rfl, whole⟩
  | cons c digits ih =>
    obtain ⟨next, more, whole⟩ := step_whole whole (all c List.mem_cons_self)
    rw [run_cons, more]
    exact ih whole fun c member => all c (List.mem_cons_of_mem _ member)

theorem step_start_digit (digit : c.isDigit = true) :
    step .start c = some (if c = '0' then .zero else .integer) := by
  by_cases zero : c = '0'
  · rw [step, if_pos zero, if_pos zero]
  · rw [step, if_neg zero, if_neg zero, if_pos digit]

theorem run_start_digits (nonempty : digits ≠ []) (all : AllDigits digits) :
    ∃ next, run .start digits = some next ∧ next.isWhole = true := by
  obtain ⟨c, digits, rfl⟩ := List.exists_cons_of_ne_nil nonempty
  rw [run_cons, step_start_digit (all c List.mem_cons_self)]
  refine run_whole ?_ fun c member => all c (List.mem_cons_of_mem _ member)
  split <;> rfl

theorem step_mark (significand : state.isSignificand = true) (mark : IsExponentMark c) :
    step state c = some .exponentMark := by
  rcases mark with rfl | rfl <;> cases state <;> cases significand <;> rfl

theorem step_unit (ready : state.isSignificand = true ∨ state = .exponent) (unit : IsUnit c) :
    step state c = some .imaginary := by
  rcases ready with significand | rfl
  · rcases unit with rfl | rfl <;> cases state <;> cases significand <;> rfl
  · rcases unit with rfl | rfl <;> rfl

theorem step_point (whole : state.isWhole = true) : step state '.' = some .fraction := by
  cases state <;> cases whole <;> rfl

theorem run_fraction (all : AllDigits digits) : run .fraction digits = some .fraction :=
  run_digits (p := (·.isDigit = true)) (fun _ digit => if_pos digit) all

theorem run_exponent (all : AllDigits digits) : run .exponent digits = some .exponent :=
  run_digits (p := (·.isDigit = true)) (fun _ digit => if_pos digit) all

/-! ### Numerals are recognised -/

theorem Significand.run {number places : Nat} (significand : Significand front number places) :
    ∃ state, run .start front = some state ∧ state.isSignificand = true ∧
      (¬ AllDigits front → state = .fraction) := by
  cases significand with
  | whole nonempty all =>
    obtain ⟨state, reached, whole⟩ := run_start_digits nonempty all
    exact ⟨state, reached, by cases state <;> cases whole <;> rfl, fun other => absurd all other⟩
  | @pointed before after nonempty allBefore allAfter =>
    refine ⟨.fraction, ?_, rfl, fun _ => rfl⟩
    rw [run_append]
    cases before with
    | nil =>
      obtain ⟨c, after, rfl⟩ := List.exists_cons_of_ne_nil nonempty
      have first : step .point c = some .fraction := if_pos (allAfter c List.mem_cons_self)
      show (run .point (c :: after)) = _
      rw [run_cons, first]
      exact run_fraction fun c member => allAfter c (List.mem_cons_of_mem _ member)
    | cons c before =>
      obtain ⟨state, reached, whole⟩ := run_start_digits (List.cons_ne_nil c before) allBefore
      rw [reached, Option.bind_some, run_cons, step_point whole]
      exact run_fraction allAfter

theorem Exponent.run {e : Int} (exponent : Exponent tail e) (significand : state.isSignificand = true) :
    run state tail = some (if tail = [] then state else .exponent) := by
  -- From the mark on, a sign may come before the first digit.
  have first : ∀ {state : State} {digits : List Char}, state = .exponentMark ∨ state = .exponentSign →
      digits ≠ [] → AllDigits digits → Number.run state digits = some .exponent := by
    intro state digits marked nonempty all
    obtain ⟨c, digits, rfl⟩ := List.exists_cons_of_ne_nil nonempty
    have more : step state c = some .exponent := by
      rcases marked with rfl | rfl <;> exact if_pos (all c List.mem_cons_self)
    rw [run_cons, more]
    exact run_exponent fun c member => all c (List.mem_cons_of_mem _ member)
  cases exponent with
  | absent => rfl
  | @marked mark sign factor digits isMark hasSign nonempty all =>
    rw [run_cons, step_mark significand isMark]
    cases hasSign with
    | none => exact first (.inl rfl) nonempty all
    | plus | minus =>
      show Number.run .exponentSign digits = _
      exact first (.inr rfl) nonempty all

theorem run_zeros (more : Nat) : ∃ state, run .start (List.replicate (more + 1) '0') = some state ∧
    (state = .zero ∨ state = .zeros) := by
  cases more with
  | zero => exact ⟨.zero, rfl, .inl rfl⟩
  | succ more =>
    refine ⟨.zeros, ?_, .inr rfl⟩
    show run .zeros (List.replicate more '0') = _
    exact run_digits (p := (· = '0')) (fun _ zero => if_pos zero) fun c => List.eq_of_mem_replicate

theorem run_integer {first : Char} (nonzero : first ≠ '0') (digit : first.isDigit = true)
    (all : AllDigits digits) : run .start (first :: digits) = some .integer := by
  rw [run_cons, step_start_digit digit, if_neg nonzero]
  exact run_digits (p := (·.isDigit = true)) (fun _ digit => if_pos digit) all

theorem run_marked {mark : Char} {radix : Radix} (marks : Radix.ofMark? mark = some radix)
    (nonempty : digits ≠ []) (all : ∀ c ∈ digits, Decimal.isDigit radix.base c = true) :
    run .start ('0' :: mark :: digits) = some (.radixDigits radix) := by
  have marked : step .zero mark = some (.radixMark radix) := by
    unfold Radix.ofMark? at marks
    split at marks <;> cases marks <;> rfl
  obtain ⟨c, digits, rfl⟩ := List.exists_cons_of_ne_nil nonempty
  have first : step (.radixMark radix) c = some (.radixDigits radix) :=
    if_pos (all c List.mem_cons_self)
  show (step .zero mark).bind (run · (c :: digits)) = _
  rw [marked, Option.bind_some, run_cons, first]
  exact run_digits (p := (Decimal.isDigit radix.base · = true)) (fun _ digit => if_pos digit)
    fun c member => all c (List.mem_cons_of_mem _ member)

/-- A numeral takes the automaton to a state that accepts it, and comes to what it stands for. -/
theorem Spells.value_eq {meaning : Meaning} (spells : Spells chars meaning) :
    ∃ state, run .start chars = some state ∧ state.accepts = true ∧
      ∀ pos, value state chars pos = meaning.outcome chars pos := by
  cases spells with
  | integer nonzero digit all =>
    refine ⟨_, run_integer nonzero digit all, rfl, fun pos => ?_⟩
    rw [← natOf_eq]
    exact integer_eq ..
  | zeros more =>
    obtain ⟨state, reached, zero⟩ := run_zeros more
    refine ⟨state, reached, by rcases zero with rfl | rfl <;> rfl, fun pos => ?_⟩
    rw [← integer_eq, ← natOf_zeros 10 (more + 1)]
    rcases zero with rfl | rfl <;> rfl
  | marked marks nonempty all =>
    refine ⟨_, run_marked marks nonempty all, rfl, fun pos => ?_⟩
    rw [← natOf_eq]
    exact integer_eq ..
  | @decimal front tail number places e significand exponent other =>
    obtain ⟨state, reached, isSignificand, pointed⟩ := significand.run
    have read := unsignedFloat?_eq significand exponent
    have final : (if tail = [] then state else .exponent) = .fraction ∨
        (if tail = [] then state else .exponent) = .exponent := by
      split
      · next none =>
        rw [none, List.append_nil] at other
        exact .inl (pointed other)
      · exact .inr rfl
    refine ⟨_, by rw [run_append, reached]; exact exponent.run isSignificand, ?_, fun pos => ?_⟩
    · rcases final with final | final <;> rw [final] <;> rfl
    · rcases final with final | final <;> rw [final] <;> simp only [value, read] <;> rfl
  | imaginary significand exponent unit =>
    obtain ⟨state, reached, isSignificand, -⟩ := significand.run
    have read := unsignedFloat?_eq significand exponent
    refine ⟨.imaginary, ?_, rfl, fun pos => ?_⟩
    · rw [run_append, run_append, reached, Option.bind_some, exponent.run isSignificand,
        Option.bind_some, run_cons, step_unit _ unit]
      · rfl
      · split
        · exact .inl isSignificand
        · exact .inr rfl
    · simp only [value, List.dropLast_concat, read]
      rfl

/-! ### Only numerals are recognised -/

/-- What the characters are when they lead to a state. -/
inductive Reached : State → List Char → Prop
  | start : Reached .start []
  | integer {first digits} : first ≠ '0' → first.isDigit = true → AllDigits digits →
      Reached .integer (first :: digits)
  | zero : Reached .zero ['0']
  | zeros (more : Nat) : Reached .zeros (List.replicate (more + 2) '0')
  | padded {first digits} : AllDigits (first :: digits) → Reached .padded (first :: digits)
  | point : Reached .point ['.']
  | fraction {chars digits places} : Significand chars digits places → ¬ AllDigits chars →
      Reached .fraction chars
  | exponentMark {front mark digits places} : Significand front digits places → IsExponentMark mark →
      Reached .exponentMark (front ++ [mark])
  | exponentSign {front mark sign factor digits places} : Significand front digits places →
      IsExponentMark mark → Sign [sign] factor → Reached .exponentSign (front ++ [mark, sign])
  | exponent {front tail digits places exponent} : Significand front digits places →
      Exponent tail exponent → tail ≠ [] → Reached .exponent (front ++ tail)
  | imaginary {front tail unit digits places exponent} : Significand front digits places →
      Exponent tail exponent → IsUnit unit → Reached .imaginary (front ++ tail ++ [unit])
  | radixMark {mark radix} : Radix.ofMark? mark = some radix → Reached (.radixMark radix) ['0', mark]
  | radixDigits {mark radix digits} : Radix.ofMark? mark = some radix → digits ≠ [] →
      (∀ c ∈ digits, Decimal.isDigit radix.base c = true) →
      Reached (.radixDigits radix) ('0' :: mark :: digits)

theorem AllDigits.concat (all : AllDigits digits) (digit : c.isDigit = true) :
    AllDigits (digits ++ [c]) :=
  all.append (.cons digit .nil)

theorem afterDigits_eq_some (more : afterDigits c = some next) :
    c = '.' ∧ next = .fraction ∨ IsExponentMark c ∧ next = .exponentMark ∨
      IsUnit c ∧ next = .imaginary := by
  unfold afterDigits at more
  split at more
  · exact .inl ⟨‹_›, (Option.some.inj more).symm⟩
  · split at more
    · exact .inr (.inl ⟨‹_›, (Option.some.inj more).symm⟩)
    · split at more
      · exact .inr (.inr ⟨‹_›, (Option.some.inj more).symm⟩)
      · cases more

theorem Reached.ofSignificand {number places : Nat} (significand : Significand chars number places)
    (noPoint : c ≠ '.') (more : afterDigits c = some next) : Reached next (chars ++ [c]) := by
  rcases afterDigits_eq_some more with ⟨point, -⟩ | ⟨mark, rfl⟩ | ⟨unit, rfl⟩
  · exact absurd point noPoint
  · exact .exponentMark significand mark
  · rw [← List.append_nil chars]
    exact .imaginary significand .absent unit

theorem Reached.ofDigits (nonempty : digits ≠ []) (all : AllDigits digits)
    (more : afterDigits c = some next) : Reached next (digits ++ [c]) := by
  by_cases point : c = '.'
  · subst point
    obtain rfl : State.fraction = next := Option.some.inj more
    refine .fraction (.pointed (by rwa [List.append_nil]) all .nil) fun all => ?_
    exact absurd (all '.' (List.mem_append_right _ List.mem_cons_self)) (by decide)
  · exact .ofSignificand (.whole nonempty all) point more

theorem Significand.digit {number places : Nat} (significand : Significand chars number places)
    (pointed : ¬ AllDigits chars) (digit : c.isDigit = true) :
    ∃ number places, Significand (chars ++ [c]) number places := by
  cases significand with
  | whole nonempty all => exact absurd all pointed
  | @pointed before after nonempty allBefore allAfter =>
    rw [List.append_assoc, List.cons_append]
    refine ⟨_, _, .pointed ?_ allBefore (allAfter.concat digit)⟩
    rw [← List.append_assoc]
    exact List.append_ne_nil_of_right_ne_nil _ (List.cons_ne_nil c [])

theorem Exponent.digit {e : Int} (exponent : Exponent tail e) (isMarked : tail ≠ [])
    (digit : c.isDigit = true) : ∃ e, Exponent (tail ++ [c]) e := by
  cases exponent with
  | absent => exact absurd rfl isMarked
  | @marked mark sign factor digits isMark hasSign _ all =>
    have nonempty : digits ++ [c] ≠ [] :=
      List.append_ne_nil_of_right_ne_nil digits (List.cons_ne_nil c [])
    rw [List.cons_append, List.append_assoc]
    exact ⟨_, .marked isMark hasSign nonempty (all.concat digit)⟩

theorem Exponent.ofDigit {mark : Char} {sign : List Char} {factor : Int} (isMark : IsExponentMark mark)
    (hasSign : Sign sign factor) (digit : c.isDigit = true) : ∃ e, Exponent (mark :: (sign ++ [c])) e :=
  ⟨_, .marked isMark hasSign (List.cons_ne_nil c []) (.cons digit .nil)⟩

/-- One more character: a case for each state. -/
theorem Reached.step (reached : Reached state chars) (more : step state c = some next) :
    Reached next (chars ++ [c]) := by
  cases reached with
  | start =>
    by_cases digit : c.isDigit = true
    · rw [step_start_digit digit] at more
      cases more
      split
      · next zero => exact zero ▸ .zero
      · next nonzero => exact .integer nonzero digit .nil
    · have nonzero : c ≠ '0' := fun zero => digit (zero ▸ rfl)
      rw [Number.step, if_neg nonzero, if_neg digit] at more
      split at more
      · next point =>
        cases more
        exact point ▸ .point
      · cases more
  | @integer first digits nonzero firstDigit all =>
    rw [Number.step] at more
    split at more
    · next digit =>
      cases more
      exact .integer nonzero firstDigit (all.concat digit)
    · exact .ofDigits (List.cons_ne_nil _ _) (.cons firstDigit all) more
  | zero =>
    have all : AllDigits ['0'] := .cons rfl .nil
    rw [Number.step] at more
    split at more
    · next zero =>
      cases more
      exact zero ▸ .zeros 0
    · split at more
      · next digit =>
        cases more
        exact .padded (all.concat digit)
      · rcases Option.or_eq_some_iff.mp more with more | ⟨-, more⟩
        · exact .ofDigits (List.cons_ne_nil _ _) all more
        · obtain ⟨radix, marks, rfl⟩ := Option.map_eq_some_iff.mp more
          exact .radixMark marks
  | zeros count =>
    have all : AllDigits (List.replicate (count + 2) '0') := fun d member =>
      List.eq_of_mem_replicate member ▸ rfl
    rw [Number.step] at more
    split at more
    · next zero =>
      cases more
      rw [zero, ← List.replicate_succ']
      exact .zeros (count + 1)
    · split at more
      · next digit =>
        cases more
        exact .padded (all.concat digit)
      · exact .ofDigits (List.cons_ne_nil _ _) all more
  | padded all =>
    rw [Number.step] at more
    split at more
    · next digit =>
      cases more
      exact .padded (all.concat digit)
    · exact .ofDigits (List.cons_ne_nil _ _) all more
  | point =>
    rw [Number.step] at more
    split at more
    · next digit =>
      cases more
      have pointed : Significand ([] ++ '.' :: [c]) (positional 10 ([] ++ [c])) [c].length :=
        .pointed (List.cons_ne_nil c []) .nil (.cons digit .nil)
      refine .fraction pointed fun all => ?_
      exact absurd (all '.' List.mem_cons_self) (by decide)
    · cases more
  | fraction significand pointed =>
    rw [Number.step] at more
    split at more
    · next digit =>
      cases more
      obtain ⟨number, places, significand⟩ := significand.digit pointed digit
      exact .fraction significand fun all => pointed fun d member =>
        all d (List.mem_append_left _ member)
    · split at more
      · cases more
      · exact .ofSignificand significand ‹_› more
  | @exponentMark front mark _ _ significand isMark =>
    rw [Number.step] at more
    rw [List.append_assoc]
    split at more
    · next digit =>
      cases more
      obtain ⟨e, exponent⟩ := Exponent.ofDigit isMark .none digit
      exact .exponent significand exponent (List.cons_ne_nil _ _)
    · split at more
      · next sign =>
        cases more
        rcases sign with rfl | rfl
        · exact .exponentSign significand isMark .plus
        · exact .exponentSign significand isMark .minus
      · cases more
  | exponentSign significand isMark hasSign =>
    rw [Number.step] at more
    rw [List.append_assoc]
    split at more
    · next digit =>
      cases more
      obtain ⟨e, exponent⟩ := Exponent.ofDigit isMark hasSign digit
      exact .exponent significand exponent (List.cons_ne_nil _ _)
    · cases more
  | exponent significand exponent marked =>
    rw [Number.step] at more
    split at more
    · next digit =>
      cases more
      obtain ⟨e, exponent⟩ := exponent.digit marked digit
      rw [List.append_assoc]
      exact .exponent significand exponent (List.append_ne_nil_of_left_ne_nil marked _)
    · split at more
      · next unit =>
        cases more
        exact .imaginary significand exponent unit
      · cases more
  | imaginary significand exponent unit => cases more
  | radixMark marks =>
    rw [Number.step] at more
    split at more
    · next digit =>
      cases more
      exact .radixDigits marks (List.cons_ne_nil c []) fun _ member =>
        List.mem_singleton.mp member ▸ digit
    · cases more
  | @radixDigits mark radix digits marks nonempty all =>
    rw [Number.step] at more
    split at more
    · next digit =>
      cases more
      refine .radixDigits marks (List.append_ne_nil_of_left_ne_nil nonempty _) fun d member => ?_
      rcases List.mem_append.mp member with member | member
      · exact all d member
      · exact List.mem_singleton.mp member ▸ digit
    · cases more

theorem reached_of_run (ran : run .start chars = some state) : Reached state chars := by
  induction chars using List.reverseRecOn generalizing state with
  | nil =>
    cases ran
    exact .start
  | append_singleton chars c ih =>
    rw [run_append] at ran
    obtain ⟨before, ran, more⟩ := Option.bind_eq_some_iff.mp ran
    rw [run_cons] at more
    obtain ⟨after, more, same⟩ := Option.bind_eq_some_iff.mp more
    cases same
    exact (ih ran).step more

theorem Reached.spells (reached : Reached state chars) (accepted : state.accepts = true) :
    ∃ meaning, Spells chars meaning := by
  cases reached with
  | start | padded | point | exponentMark | exponentSign | radixMark => cases accepted
  | integer nonzero digit all => exact ⟨_, .integer nonzero digit all⟩
  | zero => exact ⟨_, .zeros 0⟩
  | zeros more => exact ⟨_, .zeros (more + 1)⟩
  | fraction significand pointed =>
    rw [← List.append_nil chars]
    exact ⟨_, .decimal significand .absent (by rwa [List.append_nil])⟩
  | exponent significand exponent marked =>
    obtain ⟨c, tail, rfl⟩ := List.exists_cons_of_ne_nil marked
    refine ⟨_, .decimal significand exponent fun all => ?_⟩
    have digit := all c (List.mem_append_right _ List.mem_cons_self)
    rw [(exponent.stops c rfl).1] at digit
    cases digit
  | imaginary significand exponent unit => exact ⟨_, .imaginary significand exponent unit⟩
  | radixDigits marks nonempty all => exact ⟨_, .marked marks nonempty all⟩

/-- The automaton accepts the numerals. -/
theorem spells_iff : (∃ meaning, Spells chars meaning) ↔
    ∃ state, run .start chars = some state ∧ state.accepts = true := by
  constructor
  · rintro ⟨meaning, spells⟩
    obtain ⟨state, reached, accepted, -⟩ := spells.value_eq
    exact ⟨state, reached, accepted⟩
  · rintro ⟨state, reached, accepted⟩
    exact (reached_of_run reached).spells accepted

theorem exists_spells_iff (ran : run .start chars = some state) :
    (∃ meaning, Spells chars meaning) ↔ state.accepts = true := by
  rw [spells_iff]
  constructor
  · rintro ⟨final, reached, accepted⟩
    obtain rfl : state = final := Option.some.inj (ran.symm.trans reached)
    exact accepted
  · exact fun accepted => ⟨state, ran, accepted⟩

/-- Whether the characters are the first of a numeral. -/
def Begins (chars : List Char) : Prop := ∃ more meaning, Spells (chars ++ more) meaning

theorem exists_accepts (state : State) :
    ∃ more next, run state more = some next ∧ next.accepts = true := by
  cases state with
  | integer | zero | zeros | fraction | exponent | imaginary | radixDigits => exact ⟨[], _, rfl, rfl⟩
  | start => exact ⟨['0'], .zero, rfl, rfl⟩
  | padded => exact ⟨['.'], .fraction, rfl, rfl⟩
  | point => exact ⟨['0'], .fraction, rfl, rfl⟩
  | exponentMark | exponentSign => exact ⟨['0'], .exponent, rfl, rfl⟩
  | radixMark radix => cases radix <;> exact ⟨['0'], .radixDigits _, rfl, rfl⟩

/-- The automaton goes on as long as a numeral may still come of the characters. -/
theorem begins_iff : Begins chars ↔ (run .start chars).isSome = true := by
  constructor
  · rintro ⟨more, meaning, spells⟩
    obtain ⟨state, reached, -⟩ := spells.value_eq
    rw [run_append] at reached
    obtain ⟨before, reached, -⟩ := Option.bind_eq_some_iff.mp reached
    rw [reached]
    rfl
  · intro going
    obtain ⟨state, reached⟩ := Option.isSome_iff_exists.mp going
    obtain ⟨more, next, ran, accepted⟩ := exists_accepts state
    obtain ⟨meaning, spells⟩ := spells_iff.mpr
      ⟨next, by rw [run_append, reached]; exact ran, accepted⟩
    exact ⟨more, meaning, spells⟩

/-- Whether there is a value depends on the state, and the value on the text alone. -/
theorem value_eq_convert (ran : run .start chars = some state) (pos : Position) :
    value state chars pos = if state.accepts then convert chars pos
      else .error (.invalidNumber (String.ofList chars) pos) := by
  cases accepted : state.accepts with
  | true =>
    obtain ⟨meaning, spells⟩ := (exists_spells_iff ran).mpr accepted
    obtain ⟨final, reached, -, comes⟩ := spells.value_eq
    obtain rfl : state = final := Option.some.inj (ran.symm.trans reached)
    rw [if_pos rfl, spells.convert_eq]
    exact comes pos
  | false => cases state <;> cases accepted <;> rfl

end Offside.Number
