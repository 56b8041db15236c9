import Offside.Proofs.Guards.Levels
import Offside.Proofs.Lexing.Recognition

/-!
# Numbers with guards

The automaton for numbers as a table of states with arcs to other states, whose numbers index the table.
Followed with guards it makes the steps of `Number.step` (`arc_eq`), and a text whose base is marked has a
character at its second byte (`convert_eq`), so that a number is read as without guards (`number?_eq`).
-/

namespace Offside.Guarded

open Number (Radix State Spells Meaning)

/-! ### The table -/

/-- A class of characters that leads on. -/
inductive Arc where
  | nonzero | zero | digit | point | exponentMark | unit | sign
  | mark (radix : Radix)
  | digitOf (radix : Radix)

def Arc.accepts : Arc → Char → Bool
  | .nonzero, c => '1' ≤ c && c ≤ '9'
  | .zero, c => c = '0'
  | .digit, c => c.isDigit
  | .point, c => c = '.'
  | .exponentMark, c => c = 'e' || c = 'E'
  | .unit, c => c = 'j' || c = 'J'
  | .sign, c => c = '+' || c = '-'
  | .mark radix, c => Radix.ofMark? c = some radix
  | .digitOf radix, c => Decimal.isDigit radix.base c

/-- A state of the automaton: whether a numeral may end there, and the arcs that leave it. -/
structure Row where
  accepts : Bool
  arcs : List (Arc × Nat)

def rows : Vector Row 17 := #v[
  ⟨false, [(.nonzero, 1), (.zero, 2), (.point, 3)]⟩,
  ⟨true, [(.digit, 1), (.point, 4), (.exponentMark, 5), (.unit, 6)]⟩,
  ⟨true, [(.nonzero, 7), (.zero, 8), (.point, 4), (.exponentMark, 5), (.unit, 6), (.mark .binary, 9),
    (.mark .octal, 10), (.mark .hexadecimal, 11)]⟩,
  ⟨false, [(.digit, 4)]⟩,
  ⟨true, [(.digit, 4), (.exponentMark, 5), (.unit, 6)]⟩,
  ⟨false, [(.digit, 12), (.sign, 13)]⟩,
  ⟨true, []⟩,
  ⟨false, [(.digit, 7), (.point, 4), (.exponentMark, 5), (.unit, 6)]⟩,
  ⟨true, [(.nonzero, 7), (.zero, 8), (.point, 4), (.exponentMark, 5), (.unit, 6)]⟩,
  ⟨false, [(.digitOf .binary, 14)]⟩,
  ⟨false, [(.digitOf .octal, 15)]⟩,
  ⟨false, [(.digitOf .hexadecimal, 16)]⟩,
  ⟨true, [(.digit, 12), (.unit, 6)]⟩,
  ⟨false, [(.digit, 12)]⟩,
  ⟨true, [(.digitOf .binary, 14)]⟩,
  ⟨true, [(.digitOf .octal, 15)]⟩,
  ⟨true, [(.digitOf .hexadecimal, 16)]⟩]

def row (index : Nat) : Guarded Row :=
  match rows[index]? with
  | some row => .ok row
  | none => .error (.state index)

/-- Where the first arc for the character leads. -/
def lead (arcs : List (Arc × Nat)) (c : Char) : Option Nat := (arcs.find? (·.1.accepts c)).map (·.2)

def arc (index : Nat) (c : Char) : Guarded (Option Nat) := do
  let row ← row index
  return lead row.arcs c

/-- The characters that lead on from a state, and the state they lead to. -/
def follow (index : Nat) : List Char → Guarded (List Char × Nat)
  | [] => .ok ([], index)
  | c :: rest => do
    match ← arc index c with
    | none => return ([], index)
    | some next =>
      let (taken, final) ← follow next rest
      return (c :: taken, final)

/-- Where the table has a state. -/
def index : State → Nat
  | .start => 0
  | .integer => 1
  | .zero => 2
  | .point => 3
  | .fraction => 4
  | .exponentMark => 5
  | .imaginary => 6
  | .padded => 7
  | .zeros => 8
  | .radixMark .binary => 9
  | .radixMark .octal => 10
  | .radixMark .hexadecimal => 11
  | .exponent => 12
  | .exponentSign => 13
  | .radixDigits .binary => 14
  | .radixDigits .octal => 15
  | .radixDigits .hexadecimal => 16

variable {c : Char} {chars cs : List Char} {state : State}

theorem row_eq (state : State) : ∃ arcs, row (index state) = .ok ⟨state.accepts, arcs⟩ := by
  cases state with
  | radixMark radix | radixDigits radix => cases radix <;> exact ⟨_, rfl⟩
  | _ => exact ⟨_, rfl⟩

theorem accepts_nonzero (nonzero : c ≠ '0') : Arc.nonzero.accepts c = c.isDigit := by
  have apart : c.val ≠ '0'.val := fun same => nonzero (Char.ext same)
  simp only [Arc.accepts, Char.isDigit, Char.le_def, ge_iff_le]
  rw [Bool.eq_iff_iff]
  simp only [Bool.and_eq_true, decide_eq_true_eq, UInt32.le_iff_toNat_le, ne_eq, ← UInt32.toNat_inj] at apart ⊢
  have bounds : '0'.val.toNat = 48 ∧ '1'.val.toNat = 49 := by decide
  omega

theorem lead_cons (arc : Arc) (next : Nat) (arcs : List (Arc × Nat)) (c : Char) :
    lead ((arc, next) :: arcs) c = if arc.accepts c then some next else lead arcs c := by
  unfold lead
  rw [List.find?_cons]
  cases arc.accepts c <;> rfl

theorem lead_marks (arcs : List (Arc × Nat)) (c : Char) :
    lead ((.point, 4) :: (.exponentMark, 5) :: (.unit, 6) :: arcs) c =
      ((Number.afterDigits c).map index).or (lead arcs c) := by
  simp only [lead_cons, Arc.accepts, Number.afterDigits]
  grind [index]

theorem lead_zeros (arcs : List (Arc × Nat)) (c : Char) :
    lead ((.nonzero, 7) :: (.zero, 8) :: arcs) c =
      if c = '0' then some (index .zeros) else if c.isDigit then some (index .padded) else lead arcs c := by
  rw [lead_cons, lead_cons]
  by_cases zero : c = '0'
  · subst zero
    rfl
  · rw [accepts_nonzero zero, if_neg zero]
    simp [Arc.accepts, zero, index]

theorem lead_radix (c : Char) :
    lead [(.mark .binary, 9), (.mark .octal, 10), (.mark .hexadecimal, 11)] c =
      ((Radix.ofMark? c).map .radixMark).map index := by
  simp only [lead_cons, Arc.accepts, decide_eq_true_eq]
  cases Radix.ofMark? c with
  | none => rfl
  | some radix => cases radix <;> rfl

/-- The arcs of the table are the steps of the automaton. -/
theorem arc_eq (state : State) (c : Char) :
    arc (index state) c = .ok ((Number.step state c).map index) := by
  have leads : ∀ arcs, row (index state) = .ok ⟨state.accepts, arcs⟩ →
      lead arcs c = (Number.step state c).map index →
      arc (index state) c = .ok ((Number.step state c).map index) := by
    intro arcs found same
    rw [arc, found, ← same]
    rfl
  cases state with
  | start =>
    refine leads _ rfl ?_
    rw [lead_cons, lead_cons, lead_cons, Number.step]
    by_cases zero : c = '0'
    · subst zero
      rfl
    · rw [accepts_nonzero zero, if_neg zero]
      simp only [Arc.accepts, lead]
      split <;> grind [index]
  | integer | padded =>
    refine leads _ rfl ?_
    rw [lead_cons, lead_marks, Number.step]
    grind [Arc.accepts, lead, index]
  | zero =>
    refine leads _ rfl ?_
    rw [lead_zeros, lead_marks, lead_radix, Number.step, ← Option.map_or]
    simp only [apply_ite (Option.map index), Option.map_some]
  | zeros =>
    refine leads _ rfl ?_
    rw [lead_zeros, lead_marks, Number.step]
    simp only [apply_ite (Option.map index), Option.map_some]
    grind [lead]
  | radixMark radix | radixDigits radix =>
    cases radix <;>
    · refine leads _ rfl ?_
      rw [lead_cons, Number.step]
      grind [Arc.accepts, lead, index]
  | imaginary => exact leads _ rfl rfl
  | fraction | point | exponentMark | exponentSign | exponent =>
    refine leads _ rfl ?_
    rw [Number.step]
    grind [Number.afterDigits, lead_cons, Arc.accepts, lead, index]

theorem follow_eq (state : State) (cs : List Char) : follow (index state) cs =
    .ok ((Number.follow state cs).1, index (Number.follow state cs).2) := by
  induction cs generalizing state with
  | nil => rfl
  | cons c cs ih =>
    rw [follow, arc_eq, ok_bind]
    cases more : Number.step state c with
    | none =>
      rw [Number.follow_stop more]
      rfl
    | some next =>
      rw [Number.follow_step more, Option.map_some]
      dsimp only
      rw [ih]
      rfl

/-! ### The value -/

/-- The characters from a byte on, if one of them starts there. -/
def fromByte : Nat → List Char → Guarded (List Char)
  | 0, cs => .ok cs
  | _ + 1, [] => .error .mark
  | n + 1, c :: cs => if c.utf8Size ≤ n + 1 then fromByte (n + 1 - c.utf8Size) cs else .error .mark

/-- The value of a text that the automaton accepts. -/
def convert (chars : List Char) (pos : Position) : Guarded (Except LexError Value) :=
  let lowered := chars.map Char.toLower
  if lowered.getLast? = some 'j' then .ok (Number.convert chars pos)
  else match Number.radixOf? lowered with
    | some radix => do
      let digits ← fromByte 2 lowered
      return Number.integer (String.ofList chars) pos (Decimal.natOf radix.base digits)
    | none => .ok (Number.convert chars pos)

/-- Reads a number, or nothing if `cs` does not start one. -/
def number? (pos : Position) (cs : List Char) : Guarded (Option (Reading Token.Kind)) :=
  if Number.starts cs then do
    let (chars, final) ← follow 0 cs
    let last ← row final
    let value ← if last.accepts then convert chars pos
      else .ok (.error (.invalidNumber (String.ofList chars) pos))
    return some ⟨chars.length, value.map .number⟩
  else .ok none

theorem fromByte_cons (narrow : c.utf8Size = 1) (n : Nat) (cs : List Char) :
    fromByte (n + 1) (c :: cs) = fromByte n cs := by
  rw [fromByte, narrow, if_pos (Nat.le_add_left 1 n), Nat.add_sub_cancel]

/-- A base is only marked in a text that starts with two characters of one byte each. -/
theorem fromByte_eq {meaning : Meaning} {radix : Radix} (spells : Spells chars meaning)
    (notImaginary : (chars.map Char.toLower).getLast? ≠ some 'j')
    (marked : Number.radixOf? (chars.map Char.toLower) = some radix) :
    fromByte 2 (chars.map Char.toLower) = .ok ((chars.map Char.toLower).drop 2) := by
  have unmarked : ∀ {front tail : List Char} {number places : Nat} {e : Int},
      chars = front ++ tail → Number.Significand front number places → ¬ Number.Exponent tail e := by
    rintro front tail number places e rfl significand exponent
    rw [Number.radixOf?_eq_none (Number.letters_of_decimal significand exponent)] at marked
    cases marked
  have whole : ∀ {digits : List Char}, chars = digits → digits ≠ [] → ¬ Number.AllDigits digits := by
    intro digits same nonempty all
    exact unmarked (by rw [same, List.append_nil]) (.whole nonempty all) .absent
  cases spells with
  | integer _ digit all => exact absurd (.cons digit all) (whole rfl (List.cons_ne_nil _ _))
  | zeros more =>
    refine absurd (fun c member => ?_) (whole rfl (by simp))
    rw [List.eq_of_mem_replicate member]
    rfl
  | decimal significand exponent => exact absurd exponent (unmarked rfl significand)
  | imaginary _ _ isUnit =>
    refine absurd ?_ notImaginary
    rw [List.map_append, List.map_singleton, List.getLast?_concat]
    rcases isUnit with rfl | rfl <;> rfl
  | @marked mark base digits marks =>
    have narrow : mark.toLower.utf8Size = 1 := by
      unfold Radix.ofMark? at marks
      split at marks <;> first | rfl | cases marks
    rw [List.map_cons, List.map_cons, fromByte_cons rfl, fromByte_cons narrow, fromByte]
    rfl

theorem convert_eq {meaning : Meaning} (spells : Spells chars meaning) (pos : Position) :
    convert chars pos = .ok (Number.convert chars pos) := by
  unfold convert
  dsimp only
  split
  · rfl
  · next notImaginary =>
    split
    · next radix marked =>
      rw [fromByte_eq spells notImaginary marked, ok_bind, Number.convert]
      simp only [if_neg notImaginary, marked]
      rfl
    · rfl

/-- Numbers are read within the table, and texts cut between characters. -/
theorem number?_eq (pos : Position) (cs : List Char) :
    number? pos cs = .ok (Number.read? pos cs) := by
  unfold number? Number.read?
  split
  · have ran := Number.run_follow .start cs
    obtain ⟨arcs, found⟩ := row_eq (Number.follow .start cs).2
    have followed : follow 0 cs = .ok ((Number.follow .start cs).1, index (Number.follow .start cs).2) :=
      follow_eq .start cs
    rw [followed, ok_bind]
    dsimp only
    rw [found, ok_bind, Number.value_eq_convert ran]
    cases accepted : (Number.follow .start cs).2.accepts with
    | true =>
      obtain ⟨meaning, spells⟩ := (Number.exists_spells_iff ran).mpr accepted
      rw [if_pos rfl, if_pos rfl, convert_eq spells]
      rfl
    | false => rfl
  · rfl

end Offside.Guarded
