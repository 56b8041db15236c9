import Offside.CommandLine.Arguments
import Offside.Proofs.Guards.Lexer
import Offside.Proofs.Lexing.Spelling

/-!
# The range of widths

Words hold the width of a line all the way exactly if they hold that of each stretch of its blanks without
a form feed (`holds_iff`), which is at least a tab size for each tab and at most that and one for each
space. Where words hold the widths of the lines that are measured at the start of a logical line they are
right, and where they do not a guard fails there (`openLine_iff`). Tab sizes are not limited, so both occur.
-/

namespace Offside

open Source (blanks)

namespace Indentation

variable {tabSize w w' : Nat} {before spaces stretch : List Char} {c : Char}

theorem exactWiden_mono (le : w ≤ w') : exactWiden tabSize w c ≤ exactWiden tabSize w' c := by
  unfold exactWiden
  split
  · exact Nat.mul_le_mul_right _ (Nat.succ_le_succ (Nat.div_le_div_right le))
  · split
    · exact Nat.le_refl 0
    · exact Nat.succ_le_succ le

/-- What stands before a stretch does not make it narrower. -/
theorem exactWidth_le_append (before stretch : List Char) :
    exactWidth tabSize stretch ≤ exactWidth tabSize (before ++ stretch) := by
  induction stretch using List.reverseRecOn with
  | nil => exact Nat.zero_le _
  | append_singleton stretch c ih =>
    rw [← List.append_assoc, exactWidth_concat, exactWidth_concat]
    exact exactWiden_mono ih

/-- The width comes of what stands behind the last form feed. -/
theorem exists_stretch (tabSize : Nat) (spaces : List Char) : ∃ stretch, stretch <:+ spaces ∧
    '\x0c' ∉ stretch ∧ exactWidth tabSize spaces = exactWidth tabSize stretch := by
  induction spaces using List.reverseRecOn with
  | nil => exact ⟨[], List.suffix_rfl, List.not_mem_nil, rfl⟩
  | append_singleton spaces c ih =>
    by_cases feed : c = '\x0c'
    · refine ⟨[], List.nil_suffix, List.not_mem_nil, ?_⟩
      rw [exactWidth_concat, feed]
      rfl
    · obtain ⟨stretch, suffix, unfed, same⟩ := ih
      refine ⟨stretch ++ [c], (List.suffix_append_inj_of_length_eq rfl).mpr ⟨suffix, rfl⟩, ?_, ?_⟩
      · rw [List.mem_append, List.mem_singleton]
        exact not_or.mpr ⟨unfed, Ne.symm feed⟩
      · rw [exactWidth_concat, exactWidth_concat, same]

theorem holds_iff : Holds tabSize spaces ↔
    ∀ stretch, stretch <:+: spaces → '\x0c' ∉ stretch → exactWidth tabSize stretch < UInt64.size := by
  constructor
  -- A stretch is narrower than the part of the blanks that ends with it.
  · rintro holds stretch ⟨before, later, rfl⟩ -
    exact Nat.lt_of_le_of_lt (exactWidth_le_append before stretch) (holds _ (List.prefix_append _ later))
  · intro all part earlier
    obtain ⟨stretch, suffix, unfed, same⟩ := exists_stretch tabSize part
    rw [same]
    exact all stretch (suffix.isInfix.trans earlier.isInfix) unfed

/-- The first character behind which the width is too large. -/
theorem exists_overflow (overflows : ¬Holds tabSize spaces) : ∃ front c later,
    spaces = front ++ [c] ++ later ∧ Holds tabSize front ∧
      UInt64.size ≤ exactWidth tabSize (front ++ [c]) := by
  induction spaces using List.reverseRecOn with
  | nil =>
    refine absurd (fun part earlier => ?_) overflows
    rw [List.prefix_nil.mp earlier]
    exact (by decide : 0 < UInt64.size)
  | append_singleton spaces c ih =>
    by_cases holds : Holds tabSize spaces
    · refine ⟨spaces, c, [], (List.append_nil _).symm, holds, ?_⟩
      by_contra fits
      refine overflows fun part earlier => ?_
      rcases List.prefix_concat_iff.mp earlier with rfl | earlier
      · exact Nat.lt_of_not_le fits
      · exact holds part earlier
    · obtain ⟨front, first, later, rfl, before, large⟩ := ih holds
      exact ⟨front, first, later ++ [c], List.append_assoc _ _ _, before, large⟩

/-- Each tab takes as much as the tab size at least. -/
theorem tabs_le_exactWidth (positive : 0 < tabSize) (unfed : '\x0c' ∉ stretch) :
    tabSize * stretch.count '\t' ≤ exactWidth tabSize stretch := by
  induction stretch using List.reverseRecOn with
  | nil => exact Nat.le_refl 0
  | append_singleton stretch c ih =>
    rw [List.mem_append, List.mem_singleton, not_or] at unfed
    have le := ih unfed.1
    rw [exactWidth_concat, List.count_append, exactWiden]
    by_cases tab : c = '\t'
    · rw [if_pos tab, tab, List.count_singleton_self, Nat.mul_comm]
      apply Nat.mul_le_mul_right
      apply Nat.succ_le_succ
      rwa [Nat.le_div_iff_mul_le positive, Nat.mul_comm]
    · rw [if_neg tab, if_neg (Ne.symm unfed.2), List.count_singleton, if_neg (by simpa using tab)]
      exact Nat.le_succ_of_le le

/-- Each tab takes as much as the tab size at most, and each space takes one. -/
theorem exactWidth_le_tabs (blank : ∀ c ∈ spaces, isSpace c = true) :
    exactWidth tabSize spaces ≤ tabSize * spaces.count '\t' + spaces.count ' ' := by
  induction spaces using List.reverseRecOn with
  | nil => exact Nat.zero_le _
  | append_singleton spaces c ih =>
    rw [List.forall_mem_append, List.forall_mem_singleton] at blank
    have le := ih blank.1
    rw [exactWidth_concat, List.count_append, List.count_append, exactWiden]
    by_cases tab : c = '\t'
    · have := Nat.div_mul_le_self (exactWidth tabSize spaces) tabSize
      rw [if_pos tab, tab, List.count_singleton_self, Nat.mul_add_one, Nat.add_one_mul]
      omega
    · by_cases feed : c = '\x0c'
      · rw [if_neg tab, if_pos feed]
        exact Nat.zero_le _
      · obtain rfl : c = ' ' := by simpa [isSpace, tab, feed] using blank.2
        rw [if_neg tab, if_neg feed, List.count_singleton_self]
        exact Nat.succ_le_succ le

end Indentation

namespace Guarded

open Indentation (Holds exactWidth exactWiden)

variable {tabSize : UInt64} {spaces : List Char} {s : Lexer}

/-- Where a width on the way is too large, a guard fails. -/
theorem measure_overflow (positive : 0 < tabSize) (overflows : ¬Holds tabSize.toNat spaces) :
    measure tabSize spaces = .error .width := by
  obtain ⟨front, c, later, rfl, holds, large⟩ := Indentation.exists_overflow overflows
  have stopped : measure tabSize (front ++ [c]) = .error .width := by
    rw [measure_concat, measure_eq positive holds, ok_bind]
    refine if_neg fun ⟨_, fits⟩ => ?_
    rw [Indentation.toNat_width holds, ← Indentation.exactWidth_concat] at fits
    omega
  unfold measure at stopped ⊢
  rw [List.foldlM_append, stopped]
  rfl

/-- Without a guard the width wraps there. -/
theorem width_overflow (overflows : ¬Holds tabSize.toNat spaces) : ∃ part, part <+: spaces ∧
    UInt64.size ≤ exactWidth tabSize.toNat part ∧
    (Indentation.width tabSize part).toNat = exactWidth tabSize.toNat part % UInt64.size := by
  obtain ⟨front, c, later, rfl, holds, large⟩ := Indentation.exists_overflow overflows
  refine ⟨front ++ [c], List.prefix_append _ _, large, ?_⟩
  rw [Indentation.width_concat, Indentation.toNat_widen, Indentation.toNat_width holds,
    ← Indentation.exactWidth_concat]

theorem exists_of_mapM {α β : Type} {f : α → Guarded β} {list : List α} {made : List β}
    (run : list.mapM f = .ok made) : ∀ a ∈ list, ∃ b, f a = .ok b := by
  induction list generalizing made with
  | nil => exact List.forall_mem_nil _
  | cons a list ih =>
    rw [List.mapM_cons] at run
    cases first : f a with
    | error breach =>
      rw [first] at run
      cases run
    | ok b =>
      rw [first, ok_bind] at run
      cases later : list.mapM f with
      | error breach =>
        rw [later] at run
        cases run
      | ok rest => exact List.forall_mem_cons.mpr ⟨⟨b, first⟩, ih later⟩

theorem holds_of_measure (positive : 0 < tabSize) {width : UInt64}
    (measured : measure tabSize spaces = .ok width) : Holds tabSize.toNat spaces := by
  by_contra overflows
  rw [measure_overflow positive overflows] at measured
  cases measured

/-- At the start of a logical line the guards are passed exactly if words hold the widths of the lines
that are measured there. -/
theorem openLine_iff (positive : 0 < s.tabSize) :
    openLine s = .ok s.openLine ↔ ∀ line ∈ s.measured, Holds s.tabSize.toNat (blanks line) := by
  refine ⟨fun opened => ?_, openLine_eq positive⟩
  obtain ⟨⟨widths, run⟩, opened⟩ := exists_of_openLine opened
  refine List.forall_mem_append.mpr ⟨fun line member => ?_, fun line member => ?_⟩
  · obtain ⟨width, measured⟩ := exists_of_mapM run line member
    exact holds_of_measure positive measured
  · cases left : s.skipped.cursor.lines with
    | nil =>
      rw [left] at member
      cases member
    | cons first later =>
      rw [left, List.take_succ_cons, List.take_zero, List.mem_singleton] at member
      have more : s.skipped.cursor.atEnd = false := by rw [Cursor.atEnd, left]; rfl
      rw [more, if_neg Bool.false_ne_true] at opened
      obtain ⟨width, measured⟩ := exists_of_enterLine opened
      rw [Lexer.rest_skipped left] at measured
      exact member ▸ holds_of_measure positive measured

/-- What becomes of the arithmetic that measures some blanks. -/
structure Measures (tabSize : UInt64) (spaces : List Char) : Prop where
  exact : Holds tabSize.toNat spaces →
    measure tabSize spaces = .ok (Indentation.width tabSize spaces) ∧
      (Indentation.width tabSize spaces).toNat = exactWidth tabSize.toNat spaces
  overflow : ¬Holds tabSize.toNat spaces → measure tabSize spaces = .error .width
  wraps : ¬Holds tabSize.toNat spaces → ∃ part, part <+: spaces ∧
    UInt64.size ≤ exactWidth tabSize.toNat part ∧
    (Indentation.width tabSize part).toNat = exactWidth tabSize.toNat part % UInt64.size
  stretches : Holds tabSize.toNat spaces ↔ ∀ stretch, stretch <:+: spaces → '\x0c' ∉ stretch →
    exactWidth tabSize.toNat stretch < UInt64.size
  bounds : ∀ stretch, stretch <:+: spaces → '\x0c' ∉ stretch →
    tabSize.toNat * stretch.count '\t' ≤ exactWidth tabSize.toNat stretch ∧
      exactWidth tabSize.toNat stretch ≤ tabSize.toNat * stretch.count '\t' + stretch.count ' '

theorem measures_blanks (positive : 0 < tabSize) (line : List Char) : Measures tabSize (blanks line) where
  exact holds := ⟨measure_eq positive holds, Indentation.toNat_width holds⟩
  overflow := measure_overflow positive
  wraps := width_overflow
  stretches := Indentation.holds_iff
  bounds _ within unfed :=
    ⟨Indentation.tabs_le_exactWidth (UInt64.lt_iff_toNat_lt.mp positive) unfed,
      Indentation.exactWidth_le_tabs fun _ member => List.mem_takeWhile_imp (within.mem member)⟩

end Guarded

/-- Every size can be written among the arguments. -/
theorem CommandLine.exists_size (size : UInt64) : ∃ text, size? text = some size := by
  refine ⟨String.ofList (Nat.toDigits 10 size.toNat), ?_⟩
  have digits := Number.isDigit_toDigits size.toNat
  have all : (Nat.toDigits 10 size.toNat).all Char.isDigit = true := List.all_eq_true.mpr digits
  have nonempty : (Nat.toDigits 10 size.toNat).isEmpty = false :=
    List.isEmpty_eq_false_iff.mpr Nat.toDigits_ne_nil
  unfold size?
  rw [String.toList_ofList]
  split
  · next found => exact absurd (digits '+' (found ▸ List.mem_cons_self)) (by decide)
  · dsimp only
    rw [Number.natOf_toDigits, nonempty, all, decide_eq_true size.toNat_lt_size, if_pos (by decide),
      UInt64.ofNat_toNat]

open Indentation (Holds)

/-- Every tab size is accepted, zero as one. The width of a line is measured exactly if words hold it all
the way, and wraps or fails to pass a guard if not; so does the start of a logical line. -/
theorem width_in_range_iff (source : String) (tabSize : UInt64) :
    (∃ text, ∀ o : CommandLine.Options, o.tabSize = none →
      (o.add (.option .tabSize text)).map CommandLine.Options.tabSize = .ok (some tabSize)) ∧
    let t := max tabSize 1
    (∀ config : Config, (config.withTabSize tabSize).tabSize = t) ∧
    (∀ line ∈ Source.lines source, Guarded.Measures t (blanks line)) ∧
    (∀ count, let s := (Lexer.ofText source tabSize).asked count
      s.tabSize = t ∧ s.measured ⊆ Source.lines source ∧
      (Guarded.openLine s = .ok s.openLine ↔ ∀ line ∈ s.measured, Holds t.toNat (blanks line))) ∧
    ((∀ line ∈ Source.lines source, Holds t.toNat (blanks line)) →
      Guarded.tokenize source tabSize = .ok (tokenize source tabSize)) := by
  obtain ⟨text, written⟩ := CommandLine.exists_size tabSize
  refine ⟨⟨text, fun o unset => ?_⟩, ?_⟩
  · simp only [CommandLine.Options.add, unset, written]
    rfl
  · intro t
    have positive : 0 < t := Lexer.tabSize_ofText_pos source tabSize
    refine ⟨fun _ => rfl, fun line _ => Guarded.measures_blanks positive line, fun count => ?_,
      fun holds => Guarded.tokenize_eq ⟨positive, holds⟩⟩
    have onward := Lexer.Onward.asked (Lexer.ofText source tabSize) count
    have same : ((Lexer.ofText source tabSize).asked count).tabSize = t := onward.tabs
    refine ⟨same, fun line member => onward.left.mem (Lexer.measured_subset _ member), ?_⟩
    rw [← same]
    exact Guarded.openLine_iff (same ▸ positive)

/-- A space before the tab does not count, one behind it does. -/
theorem width_in_range_iff_mixed : let source := "if x:\n \t y\n"
    (∀ line ∈ Source.lines source, Holds (4 : UInt64).toNat (blanks line)) ∧
      Guarded.tokenize source 4 = .ok (tokenize source 4) ∧
      Guarded.measure 4 [' ', '\t', ' '] = .ok 5 ∧
      (Guarded.openLine (Lexer.ofText source 4)) = .ok (Lexer.ofText source 4).openLine := by
  intro source
  have short : ∀ line ∈ Source.lines source, 4 * (blanks line).length < UInt64.size := by
    decide
  have holds : ∀ line ∈ Source.lines source, Holds (4 : UInt64).toNat (blanks line) :=
    fun line member => Indentation.holds_of_lt (by decide) (short line member)
  obtain ⟨-, -, measures, opens, passes⟩ := width_in_range_iff source 4
  obtain ⟨-, subset, opened⟩ := opens 0
  have line : [' ', '\t', ' ', 'y', '\n'] ∈ Source.lines source := by decide
  refine ⟨holds, passes holds, ((measures _ line).exact (holds _ line)).1, ?_⟩
  exact opened.mpr fun line member => holds line (subset member)

/-- Five tabs of a quarter of what words hold are taken for one: the third line is told to be as wide as
the second. -/
theorem width_wraps : let tabSize : UInt64 := 4611686018427387904
    let source := "if x:\n\ty\n\t\t\t\t\tz\n"
    let line := ['\t', '\t', '\t', '\t', '\t', 'z', '\n']
    line ∈ Source.lines source ∧
      2 ^ 64 - 1 < Indentation.exactWidth tabSize.toNat (blanks line) ∧
      Indentation.width tabSize (blanks line) = tabSize ∧
      Guarded.measure tabSize (blanks line) = .error .width ∧
      tokenize source tabSize = .ok [
        ⟨.keyword .ifWord, "if", ⟨1, 1⟩⟩, ⟨.identifier "x", "x", ⟨1, 4⟩⟩, ⟨.punct .colon, ":", ⟨1, 5⟩⟩,
        ⟨.newline, "\n", ⟨1, 6⟩⟩, ⟨.indent, "", ⟨2, 2⟩⟩, ⟨.identifier "y", "y", ⟨2, 2⟩⟩,
        ⟨.newline, "\n", ⟨2, 3⟩⟩, ⟨.identifier "z", "z", ⟨3, 6⟩⟩, ⟨.newline, "\n", ⟨3, 7⟩⟩,
        ⟨.dedent, "", ⟨4, 1⟩⟩, ⟨.endMarker, "", ⟨4, 1⟩⟩] := by
  refine ⟨?_, ?_, ?_, ?_, ?_⟩ <;> decide +kernel

end Offside
