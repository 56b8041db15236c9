import Offside.Proofs.Lexing.Nesting

/-!
# Breaches and the stack of levels

The lexer and the parser rely on what their operations are not told: that an index is in range, that a
stack is not empty, that a number is a character. A `Guarded` computation makes sure of it, and ends in a
`Breach` otherwise. Here it measures a line and keeps the open levels on a stack, with the width zero at the
bottom; as long as words hold the widths, the lines settle as without guards (`settle_eq`, `unwindAll_eq`).
-/

namespace Offside

/-- What an operation relied on in vain. -/
inductive Breach where
  /-- Sixty-four bits hold the width of the line, and tabs go somewhere. -/
  | width
  /-- A level is left on the stack. -/
  | level
  /-- The automaton for numbers has a state with this index. -/
  | state (index : Nat)
  /-- A character starts at the second byte of a text with a marked base. -/
  | mark
  /-- The unit is a character. -/
  | character (unit : UInt32)
  /-- The unit is a byte. -/
  | byte (unit : UInt32)
  /-- Punctuation starts with a character. -/
  | punctuation
  /-- A token is ready to be handed out. -/
  | token
  /-- A token was read so many places ahead. -/
  | ahead (count : Nat)
  /-- A block is open. -/
  | block
  deriving DecidableEq

abbrev Guarded := Except Breach

namespace Guarded

@[simp] theorem ok_bind {α β : Type} (a : α) (f : α → Guarded β) : (.ok a >>= f : Guarded β) = f a := rfl

open Indentation (exactWiden exactWidth Holds Settled)

variable {tabSize width w : UInt64} {spaces : List Char} {levels : List UInt64} {pos : Position}

/-! ### Widths -/

/-- The width after one more character, without overflow and without a division by zero. -/
def widen (tabSize width : UInt64) (c : Char) : Guarded UInt64 :=
  if 0 < tabSize ∧ exactWiden tabSize.toNat width.toNat c < UInt64.size then
    .ok (Indentation.widen tabSize width c)
  else .error .width

def measure (tabSize : UInt64) (spaces : List Char) : Guarded UInt64 := spaces.foldlM (widen tabSize) 0

theorem measure_concat (spaces : List Char) (c : Char) :
    measure tabSize (spaces ++ [c]) = measure tabSize spaces >>= (widen tabSize · c) := by
  simp [measure]

theorem measure_ok (measured : measure tabSize spaces = .ok w) :
    w = Indentation.width tabSize spaces := by
  induction spaces using List.reverseRecOn generalizing w with
  | nil => exact (Except.ok.inj measured).symm
  | append_singleton spaces c ih =>
    rw [measure_concat] at measured
    cases before : measure tabSize spaces with
    | error breach =>
      rw [before] at measured
      cases measured
    | ok width =>
      rw [before] at measured
      replace measured : widen tabSize width c = .ok w := measured
      unfold widen at measured
      split at measured
      · rw [← Except.ok.inj measured, ih before, Indentation.width_concat]
      · cases measured

theorem measure_eq (positive : 0 < tabSize) (holds : Holds tabSize.toNat spaces) :
    measure tabSize spaces = .ok (Indentation.width tabSize spaces) := by
  induction spaces using List.reverseRecOn with
  | nil => rfl
  | append_singleton spaces c ih =>
    have before : Holds tabSize.toNat spaces := fun part earlier =>
      holds part (earlier.trans (List.prefix_append _ _))
    have fits : exactWiden tabSize.toNat (Indentation.width tabSize spaces).toNat c < UInt64.size := by
      have fits := holds _ (List.prefix_refl _)
      rwa [Indentation.exactWidth_concat, ← Indentation.toNat_width before] at fits
    rw [measure_concat, ih before, Indentation.width_concat]
    exact if_pos ⟨positive, fits⟩

/-! ### Levels -/

/-- The width of the innermost level. -/
def innermost : List UInt64 → Guarded UInt64
  | [] => .error .level
  | level :: _ => .ok level

/-- The number of levels above the bottom of the stack. -/
def depth : List UInt64 → Guarded Nat
  | [] => .error .level
  | _ :: below => .ok below.length

/-- Closes the levels that are wider than the line, each with a dedent. -/
def unwind (width : UInt64) (pos : Position) : List UInt64 → Guarded (List UInt64 × List Token)
  | [] => .error .level
  | level :: below =>
    if width < level then do
      let _ ← depth below
      let (left, dedents) ← unwind width pos below
      return (left, { kind := .dedent, pos } :: dedents)
    else .ok (level :: below, [])

/-- Settles a line on the stack of the open levels. -/
def settle (stack : List UInt64) (width : UInt64) (pos : Position) : Guarded Settled := do
  if (← innermost stack) < width then
    let _ ← depth (width :: stack)
    return { levels := width :: stack, tokens := [{ kind := .indent, pos }] }
  else
    let (left, dedents) ← unwind width pos stack
    let outer ← innermost left
    return { levels := left, tokens := dedents, mismatch := if outer = width then none else some outer }

/-- Closes all levels above the bottom of the stack. -/
def unwindAll (dedent : Token) : List UInt64 → Guarded (List UInt64 × List Token)
  | _ :: next :: below => do
    let _ ← depth (next :: below)
    let (left, dedents) ← unwindAll dedent (next :: below)
    return (left, dedent :: dedents)
  | stack => .ok (stack, [])

theorem innermost_eq (levels : List UInt64) : innermost (levels ++ [0]) = .ok (levels.headD 0) := by
  cases levels <;> rfl

theorem depth_eq (levels : List UInt64) : depth (levels ++ [0]) = .ok levels.length := by
  cases levels with
  | nil => rfl
  | cons level levels => simp [depth]

theorem unwind_eq (levels : List UInt64) (width : UInt64) (pos : Position) :
    unwind width pos (levels ++ [0]) = .ok (levels.dropWhile (width < ·) ++ [0],
      (levels.takeWhile (width < ·)).map fun _ => { kind := .dedent, pos }) := by
  induction levels with
  | nil => exact if_neg UInt64.not_lt_zero
  | cons level levels ih =>
    rw [List.cons_append, unwind]
    by_cases wider : width < level
    · simp [wider, depth_eq, ih]
    · simp [wider]

theorem settle_eq (levels : List UInt64) (width : UInt64) (pos : Position) :
    settle (levels ++ [0]) width pos = .ok { Indentation.settle levels width pos with
      levels := (Indentation.settle levels width pos).levels ++ [0] } := by
  rw [settle, innermost_eq, ok_bind, Indentation.settle]
  split
  · rw [← List.cons_append, depth_eq]
    rfl
  · rw [unwind_eq, ok_bind]
    dsimp only
    rw [innermost_eq]
    rfl

theorem unwindAll_eq (dedent : Token) (levels : List UInt64) :
    unwindAll dedent (levels ++ [0]) = .ok ([0], levels.map fun _ => dedent) := by
  induction levels with
  | nil => rfl
  | cons level levels ih =>
    obtain ⟨next, below, split⟩ := List.exists_cons_of_ne_nil (List.append_ne_nil_of_right_ne_nil levels
      (List.cons_ne_nil (0 : UInt64) []))
    rw [List.cons_append, split, unwindAll, ← split, depth_eq, ih]
    rfl

end Guarded

end Offside
