import Mathlib.Data.List.Induction
import Offside.Lexer.Indentation

/-!
# The nesting of lines

`Nests` says which INDENT or DEDENTs stand before a line, looking back at all lines before it, and
`Misfits` that its width fits none of them. `Follows.settle` and `Follows.mismatch` show that the
open levels of a lexer are enough to tell.
-/

namespace Offside.Indentation

/-! ### Widths -/

/-- The width after one more character, however large. -/
def exactWiden (tabSize width : Nat) (c : Char) : Nat :=
  if c = '\t' then (width / tabSize + 1) * tabSize
  else if c = '\x0c' then 0
  else width + 1

def exactWidth (tabSize : Nat) (spaces : List Char) : Nat := spaces.foldl (exactWiden tabSize) 0

theorem width_concat (tabSize : UInt64) (spaces : List Char) (c : Char) :
    width tabSize (spaces ++ [c]) = widen tabSize (width tabSize spaces) c :=
  List.foldl_append

theorem exactWidth_concat (tabSize : Nat) (spaces : List Char) (c : Char) :
    exactWidth tabSize (spaces ++ [c]) = exactWiden tabSize (exactWidth tabSize spaces) c :=
  List.foldl_append

/-- Sixty-four bits hold the width all the way. -/
def Holds (tabSize : Nat) (spaces : List Char) : Prop :=
  ∀ part, part <+: spaces → exactWidth tabSize part < UInt64.size

theorem toNat_widen (tabSize width : UInt64) (c : Char) : (widen tabSize width c).toNat =
    exactWiden tabSize.toNat width.toNat c % UInt64.size := by
  unfold widen exactWiden
  split
  · rw [UInt64.toNat_mul, UInt64.toNat_add, UInt64.toNat_div, Nat.mod_mul_mod]
    rfl
  · split
    · rfl
    · exact UInt64.toNat_add width 1

theorem toNat_width {tabSize : UInt64} {spaces : List Char} (holds : Holds tabSize.toNat spaces) :
    (width tabSize spaces).toNat = exactWidth tabSize.toNat spaces := by
  induction spaces using List.reverseRecOn with
  | nil => rfl
  | append_singleton spaces c ih =>
    have before := ih fun part earlier => holds part (earlier.trans (List.prefix_append _ _))
    have fits := holds _ (List.prefix_refl _)
    rw [exactWidth_concat, ← before] at fits ⊢
    rw [width_concat, toNat_widen, Nat.mod_eq_of_lt fits]

theorem exactWidth_le {tabSize : Nat} (positive : 0 < tabSize) (spaces : List Char) :
    exactWidth tabSize spaces ≤ tabSize * spaces.length := by
  induction spaces using List.reverseRecOn with
  | nil => exact Nat.zero_le _
  | append_singleton spaces c ih =>
    rw [exactWidth_concat, List.length_append, List.length_singleton, Nat.mul_add_one]
    unfold exactWiden
    split
    · rw [Nat.add_one_mul]
      have := Nat.div_mul_le_self (exactWidth tabSize spaces) tabSize
      omega
    · split <;> omega

/-- No line is too wide whose blanks are few. -/
theorem holds_of_lt {tabSize : Nat} {spaces : List Char} (positive : 0 < tabSize)
    (few : tabSize * spaces.length < UInt64.size) : Holds tabSize spaces := by
  intro part earlier
  have le := exactWidth_le positive part
  have := Nat.mul_le_mul_left tabSize earlier.length_le
  omega

/-! ### Lines and levels -/

/-- What the line before the first one would have, and each line after it has. -/
structure Line where
  width : Nat
  /-- The number of levels the line is nested in. -/
  depth : Nat

/-- The depth of a line of this width, and what stands before it. The lines before it come last
first, the one of width zero that starts a source included. -/
inductive Nests (before : List Line) (width : Nat) : Nat → List Token.Kind → Prop
  | deeper {last : Line} : before.head? = some last → last.width < width →
      Nests before width (last.depth + 1) [.indent]
  | level {last : Line} : before.head? = some last → last.width = width →
      Nests before width last.depth []
  /-- The line goes on with the last one that is not wider. -/
  | shallower {last outer : Line} {count : Nat} : before.head? = some last → width < last.width →
      before.find? (·.width ≤ width) = some outer → outer.width = width →
      outer.depth + count = last.depth → 0 < count →
      Nests before width outer.depth (List.replicate count .dedent)

/-- The last line that is not wider is narrower. -/
def Misfits (before : List Line) (width expected : Nat) : Prop :=
  ∃ last outer : Line, before.head? = some last ∧ width < last.width ∧
    before.find? (·.width ≤ width) = some outer ∧ outer.width < width ∧ outer.width = expected

/-- A line of the innermost level. -/
def innermost (levels : List UInt64) : Line := ⟨(levels.headD 0).toNat, levels.length⟩

/-- The levels that a line of this width leaves open. -/
def leaves (levels : List UInt64) (width : Nat) : List UInt64 :=
  levels.dropWhile fun level => width < level.toNat

/-- The levels are what counts of the lines before: they tell the last line that is not wider. -/
structure Follows (history : List Line) (levels : List UInt64) : Prop where
  last : history.head? = some (innermost levels)
  find : ∀ width, history.find? (·.width ≤ width) = some (innermost (leaves levels width))

variable {history : List Line} {levels : List UInt64} {width : UInt64} {pos : Position}

theorem leaves_of_le {w : Nat} (le : (innermost levels).width ≤ w) : leaves levels w = levels := by
  cases levels with
  | nil => rfl
  | cons level levels => exact List.dropWhile_cons_of_neg (by simpa [innermost] using le)

theorem innermost_leaves_le (levels : List UInt64) (w : Nat) :
    (innermost (leaves levels w)).width ≤ w := by
  induction levels with
  | nil => exact Nat.zero_le w
  | cons level levels ih =>
    unfold leaves
    by_cases wider : w < level.toNat
    · rw [List.dropWhile_cons_of_pos (by simpa using wider)]
      exact ih
    · rw [List.dropWhile_cons_of_neg (by simpa using wider)]
      exact Nat.le_of_not_lt wider

theorem leaves_leaves {w w' : Nat} (lt : w' < w) :
    leaves (leaves levels w) w' = leaves levels w' := by
  induction levels with
  | nil => rfl
  | cons level levels ih =>
    unfold leaves at ih ⊢
    by_cases wider : w < level.toNat
    · rw [List.dropWhile_cons_of_pos (by simpa using wider), ih,
        List.dropWhile_cons_of_pos (by simp; omega)]
    · rw [List.dropWhile_cons_of_neg (by simpa using wider)]

/-- The new line is of the innermost level, and only wider levels have changed. -/
theorem Follows.cons {levels' : List UInt64} (follows : Follows history levels)
    (same : ∀ w < (innermost levels').width, leaves levels' w = leaves levels w) :
    Follows (innermost levels' :: history) levels' := by
  refine ⟨rfl, fun w => ?_⟩
  by_cases le : (innermost levels').width ≤ w
  · rw [List.find?_cons_of_pos (by simpa using le), leaves_of_le le]
  · rw [List.find?_cons_of_neg (by simpa using le), follows.find, same w (by omega)]

theorem settle_eq (levels : List UInt64) (width : UInt64) (pos : Position) :
    settle levels width pos =
      if (innermost levels).width < width.toNat then
        { levels := width :: levels, tokens := [{ kind := .indent, pos }] }
      else
        { levels := leaves levels width.toNat
          tokens := (levels.takeWhile fun level => width.toNat < level.toNat).map
            fun _ => { kind := .dedent, pos }
          mismatch := if (innermost (leaves levels width.toNat)).width = width.toNat then none
            else some ((leaves levels width.toNat).headD 0) } := by
  unfold settle innermost leaves
  simp only [UInt64.lt_iff_toNat_lt, ← UInt64.toNat_inj]

/-- A line that is not wider than the last one, of a width that is still open. -/
theorem Follows.nests {w : Nat} (follows : Follows history levels)
    (le : w ≤ (innermost levels).width) (same : (innermost (leaves levels w)).width = w) :
    Nests history w (leaves levels w).length
      (List.replicate (levels.takeWhile fun level => w < level.toNat).length .dedent) := by
  have split := congrArg List.length
    (List.takeWhile_append_dropWhile (p := fun level : UInt64 => decide (w < level.toNat))
      (l := levels))
  rw [List.length_append] at split
  change _ + (leaves levels w).length = levels.length at split
  rcases Nat.lt_or_eq_of_le le with narrower | level
  · refine .shallower follows.last narrower (follows.find w) same ?_ ?_
    · show (leaves levels w).length + _ = levels.length
      omega
    · apply Nat.pos_of_ne_zero
      intro none
      have suffix : leaves levels w <:+ levels := List.dropWhile_suffix _
      have all := suffix.eq_of_length (by omega)
      rw [all] at same
      omega
  · have all := leaves_of_le (Nat.le_of_eq level.symm)
    have none : (levels.takeWhile fun level => w < level.toNat).length = 0 := by
      rw [all] at split
      omega
    rw [none, all]
    exact .level follows.last level.symm

theorem Follows.settle (follows : Follows history levels)
    (fits : (settle levels width pos).mismatch = none) :
    let settled := Indentation.settle levels width pos
    innermost settled.levels = ⟨width.toNat, settled.levels.length⟩ ∧
      Nests history width.toNat settled.levels.length (settled.tokens.map Token.kind) ∧
      Follows (innermost settled.levels :: history) settled.levels := by
  rw [settle_eq] at fits ⊢
  by_cases deeper : (innermost levels).width < width.toNat
  · rw [if_pos deeper]
    refine ⟨rfl, .deeper follows.last deeper, follows.cons fun w lt => ?_⟩
    exact List.dropWhile_cons_of_pos (by simpa [innermost] using lt)
  · rw [if_neg deeper] at fits ⊢
    have same : (innermost (leaves levels width.toNat)).width = width.toNat := by
      by_contra other
      simp only [if_neg other] at fits
      cases fits
    refine ⟨congrArg (Line.mk · _) same, ?_, follows.cons fun w lt => leaves_leaves ?_⟩
    · have kinds : ∀ closed : List UInt64, (closed.map fun _ : UInt64 =>
          ({ kind := .dedent, pos } : Token)).map Token.kind =
            List.replicate closed.length .dedent := by
        intro closed
        rw [List.map_map]
        exact List.map_const'
      rw [kinds]
      exact follows.nests (by omega) same
    · exact Nat.lt_of_lt_of_eq lt same

theorem Follows.mismatch {outer : UInt64} (follows : Follows history levels)
    (misfits : (Indentation.settle levels width pos).mismatch = some outer) :
    Misfits history width.toNat outer.toNat := by
  have eq := settle_eq levels width pos
  by_cases deeper : (innermost levels).width < width.toNat
  · rw [if_pos deeper] at eq
    rw [eq] at misfits
    cases misfits
  · rw [if_neg deeper] at eq
    rw [eq] at misfits
    by_cases same : (innermost (leaves levels width.toNat)).width = width.toNat
    · simp only [if_pos same] at misfits
      cases misfits
    · simp only [if_neg same] at misfits
      cases misfits
      have le := innermost_leaves_le levels width.toNat
      refine ⟨_, _, follows.last, ?_, follows.find _, by omega, rfl⟩
      by_contra wider
      rw [leaves_of_le (by omega)] at same
      omega

end Offside.Indentation
