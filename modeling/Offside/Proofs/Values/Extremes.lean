import Offside.Eval.Run
import Offside.Proofs.Values.Operands
import Offside.Proofs.Values.Order

/-!
# Least and greatest values

`min` and `max` keep the better of two values at a time, and so answer with one that no other beats
(`Value.Extreme`). A value that beats the best one beats all that the best one held out against, as less is
transitive, though a tie may not be: the best value ties with no number, and two integers may both tie with
one float. Two values that do not compare are met where the best one and the next are of two scales.
-/

namespace Offside

namespace Value

variable {a b c : Value}

/-! ### Without floats -/

theorem less?_irrefl (a : Value) : a.less? a ≠ some true := by
  intro less
  obtain ⟨relation, ordered⟩ := (comparable_of_less? less).exists_ordered
  have forward := ordered.less?.symm.trans less
  have backward := ordered.swap.less?.symm.trans less
  rcases relation with _ | _ | _ | _ <;> cases forward
  cases backward

theorem exists_int?_of_scale? (real : a.scale? = some .real) (exact : a.kind ≠ .float) :
    ∃ m, a.int? = some m := by
  cases a with
  | bool truth => exact ⟨_, rfl⟩
  | int m => exact ⟨m, rfl⟩
  | float => exact absurd rfl exact
  | _ => cases real

/-- What is less than one value is less than any other that is not. -/
theorem less?_of_not_less? (exactA : a.kind ≠ .float) (exactB : b.kind ≠ .float)
    (exactC : c.kind ≠ .float) (comparable : Comparable c b) (less : a.less? b = some true)
    (notLess : c.less? b ≠ some true) : a.less? c = some true := by
  obtain ⟨scale, right, middle⟩ := comparable
  obtain ⟨scale', left, middle'⟩ := comparable_of_less? less
  cases middle.symm.trans middle'
  cases scale with
  | real =>
    obtain ⟨m, first⟩ := exists_int?_of_scale? left exactA
    obtain ⟨n, second⟩ := exists_int?_of_scale? middle exactB
    obtain ⟨k, third⟩ := exists_int?_of_scale? right exactC
    rw [less?_ints first second, Int64.lt_iff_toInt_lt] at less
    rw [Ne, less?_ints third second, Int64.lt_iff_toInt_lt] at notLess
    rw [less?_ints first third, Int64.lt_iff_toInt_lt]
    omega
  | text =>
    cases a <;> cases left
    cases b <;> cases middle
    cases c <;> cases right
    exact less?_text.mpr (lt_of_lt_of_le (less?_text.mp less) (not_lt.mp (mt less?_text.mpr notLess)))
  | bytes =>
    cases a <;> cases left
    cases b <;> cases middle
    cases c <;> cases right
    exact less?_bytes.mpr
      (Std.lt_of_lt_of_le (less?_bytes.mp less) (Std.not_lt.mp (mt less?_bytes.mpr notLess)))

/-! ### What beats what -/

/-- The operator with which a function compares. -/
inductive Contest : String → BinaryOp → Prop
  | min : Contest "min" .less
  | max : Contest "max" .greater

/-- The operator answers true for the two values. -/
def Beats (op : BinaryOp) (a b : Value) : Prop := a.binary op b = .ok (.bool true)

theorem beats_less : Beats .less a b ↔ a.less? b = some true := binary_less_iff

theorem beats_greater : Beats .greater a b ↔ b.less? a = some true := by
  rw [Beats, binary_of_test (b.less? a) rfl]
  rcases b.less? a with _ | _ | _ <;> simp [orUnsupported]

namespace Contest

variable {name : String} {op : BinaryOp} (contest : Contest name op)

include contest

theorem beats_trans (first : Beats op a b) (second : Beats op b c) : Beats op a c := by
  cases contest with
  | min =>
    rw [beats_less] at first second ⊢
    exact less?_trans first second
  | max =>
    rw [beats_greater] at first second ⊢
    exact less?_trans second first

theorem not_beats_self (a : Value) : ¬ Beats op a a := by
  cases contest with
  | min =>
    rw [beats_less]
    exact less?_irrefl a
  | max =>
    rw [beats_greater]
    exact less?_irrefl a

theorem beats_of_not_beats (exactA : a.kind ≠ .float) (exactB : b.kind ≠ .float)
    (exactC : c.kind ≠ .float) (comparable : Comparable c b) (beats : Beats op a b)
    (holdsOut : ¬ Beats op c b) : Beats op a c := by
  cases contest with
  | min =>
    rw [beats_less] at beats holdsOut ⊢
    exact less?_of_not_less? exactA exactB exactC comparable beats holdsOut
  | max =>
    rw [beats_greater] at beats holdsOut ⊢
    by_contra notLess
    obtain ⟨scale, left, right⟩ := comparable_of_less? beats
    obtain ⟨scale', known, known'⟩ := comparable
    cases left.symm.trans known'
    exact holdsOut (less?_of_not_less? exactB exactA exactC ⟨scale, known, right⟩ beats notLess)

theorem exists_answer (comparable : Comparable a b) : ∃ truth, a.binary op b = .ok (.bool truth) := by
  obtain ⟨relation, ordered⟩ := comparable.exists_ordered
  cases contest with
  | min => exact ⟨_, ordered.compares.less⟩
  | max => exact ⟨_, ordered.compares.greater⟩

theorem better_of_comparable (comparable : Comparable b a) :
    Beats op b a ∧ better op a b = .ok b ∨ ¬ Beats op b a ∧ better op a b = .ok a := by
  obtain ⟨truth, answer⟩ := contest.exists_answer comparable
  cases truth with
  | true =>
    refine .inl ⟨answer, ?_⟩
    rw [better, answer]
    rfl
  | false =>
    refine .inr ⟨fun beats => ?_, ?_⟩
    · cases answer.symm.trans beats
    · rw [better, answer]
      rfl

theorem better_of_not_comparable (apart : ¬ Comparable b a) :
    better op a b = .error (.unsupportedOperands op b.kind a.kind) := by
  have ordering : op ∈ orderings := by cases contest <;> decide
  rw [better, binary_of_not_comparable apart ordering]
  rfl

theorem extreme_eq (args : List Value) : extreme name args = (do
    match ← candidates args with
    | [] => throw (.invalidArgument (.emptySequence name))
    | first :: rest => rest.foldlM (better op) first) := by
  cases contest <;> rfl

end Contest

/-! ### The best value so far -/

/-- A value that none of the values beats, in the exact case the first such. -/
structure Extreme (op : BinaryOp) (values : List Value) (result : Value) : Prop where
  mem : result ∈ values
  unbeaten : ∀ c ∈ values, ¬ Beats op c result
  first : (∀ c ∈ values, c.kind ≠ .float) → ∃ before after, values = before ++ result :: after ∧
    ∀ c ∈ before, Beats op result c

/-- The values are of one scale. -/
def Alike (values : List Value) : Prop := ∃ scale, ∀ c ∈ values, c.scale? = some scale

structure Leads (op : BinaryOp) (seen : List Value) (best : Value) : Prop
    extends Extreme op seen best where
  alike : seen = [best] ∨ Alike seen

/-- What comes of the values: an extreme one, or the refusal of two that do not compare. -/
inductive Picked (op : BinaryOp) (values : List Value) : Except Fault Value → Prop
  | best {result : Value} (leads : Leads op values result) : Picked op values (.ok result)
  | refused {left right : Value} (mem : left ∈ values) (mem' : right ∈ values)
    (apart : ¬ Comparable left right) :
    Picked op values (.error (.unsupportedOperands op left.kind right.kind))

theorem Alike.comparable {values : List Value} (alike : Alike values) (left : a ∈ values)
    (right : b ∈ values) : Comparable a b := by
  obtain ⟨scale, same⟩ := alike
  exact ⟨scale, same a left, same b right⟩

section Fold

variable {name : String} {op : BinaryOp} {seen : List Value} {best challenger : Value}

theorem leads_single (contest : Contest name op) (first : Value) : Leads op [first] first where
  mem := List.mem_singleton_self first
  unbeaten c mem := by
    rw [List.mem_singleton.mp mem]
    exact contest.not_beats_self first
  first _ := ⟨[], [], rfl, nofun⟩
  alike := .inl rfl

namespace Leads

theorem alike_append (leads : Leads op seen best) (comparable : Comparable challenger best) :
    Alike (seen ++ [challenger]) := by
  obtain ⟨scale, new, old⟩ := comparable
  refine ⟨scale, fun c mem => ?_⟩
  rcases List.mem_append.mp mem with mem | mem
  · rcases leads.alike with rfl | ⟨scale', same⟩
    · rwa [List.mem_singleton.mp mem]
    · rw [same c mem, ← same best leads.mem, old]
  · rwa [List.mem_singleton.mp mem]

theorem replaced (contest : Contest name op) (leads : Leads op seen best)
    (comparable : Comparable challenger best) (beats : Beats op challenger best) :
    Leads op (seen ++ [challenger]) challenger where
  mem := List.mem_append_right seen (List.mem_singleton_self challenger)
  unbeaten c mem := by
    rcases List.mem_append.mp mem with mem | mem
    · exact fun beaten => leads.unbeaten c mem (contest.beats_trans beaten beats)
    · rw [List.mem_singleton.mp mem]
      exact contest.not_beats_self challenger
  first exact := by
    refine ⟨seen, [], rfl, fun c mem => ?_⟩
    have old : ∀ c ∈ seen, c ∈ seen ++ [challenger] := fun _ => List.mem_append_left _
    have alike := leads.alike_append comparable
    exact contest.beats_of_not_beats
      (exact challenger (List.mem_append_right seen (List.mem_singleton_self challenger)))
      (exact best (old best leads.mem)) (exact c (old c mem))
      (alike.comparable (old c mem) (old best leads.mem)) beats (leads.unbeaten c mem)
  alike := .inr (leads.alike_append comparable)

theorem kept (leads : Leads op seen best) (comparable : Comparable challenger best)
    (holdsOut : ¬ Beats op challenger best) : Leads op (seen ++ [challenger]) best where
  mem := List.mem_append_left _ leads.mem
  unbeaten c mem := by
    rcases List.mem_append.mp mem with mem | mem
    · exact leads.unbeaten c mem
    · rwa [List.mem_singleton.mp mem]
  first exact := by
    obtain ⟨before, after, same, beaten⟩ := leads.first fun c mem => exact c (List.mem_append_left _ mem)
    refine ⟨before, after ++ [challenger], ?_, beaten⟩
    rw [same, List.append_assoc, List.cons_append]
  alike := .inr (leads.alike_append comparable)

/-- The best value of those seen is the best one with which the others are met. -/
theorem picked (contest : Contest name op) (rest : List Value) (leads : Leads op seen best) :
    Picked op (seen ++ rest) (rest.foldlM (better op) best) := by
  induction rest generalizing seen best with
  | nil =>
    rw [List.append_nil]
    exact .best leads
  | cons challenger rest ih =>
    rw [List.foldlM_cons, List.append_cons]
    by_cases comparable : Comparable challenger best
    · rcases contest.better_of_comparable comparable with ⟨beats, better⟩ | ⟨holdsOut, better⟩
      · rw [better]
        exact ih (leads.replaced contest comparable beats)
      · rw [better]
        exact ih (leads.kept comparable holdsOut)
    · rw [contest.better_of_not_comparable comparable]
      refine .refused (List.mem_append_left _ ?_) (List.mem_append_left _ ?_) comparable
      · exact List.mem_append_right _ (List.mem_singleton_self challenger)
      · exact List.mem_append_left _ leads.mem

end Leads

end Fold

/-! ### The values of a call -/

/-- The values that a call offers: its arguments, or what its only one consists of. -/
inductive Offered : List Value → List Value → Prop
  | arguments (first second : Value) (rest : List Value) :
    Offered (first :: second :: rest) (first :: second :: rest)
  | characters (text : String) (inhabited : text ≠ "") :
    Offered [.str text] (text.toList.map fun c => .str (String.singleton c))
  | bytes (data : List UInt8) (inhabited : data ≠ []) :
    Offered [.bytes data] (data.map fun byte => .int (Int64.ofNat byte.toNat))

namespace Offered

variable {args values : List Value} (offered : Offered args values)

include offered

theorem candidates_eq : candidates args = .ok values := by
  cases offered with
  | arguments first => cases first <;> rfl
  | characters | bytes => rfl

theorem ne_nil : values ≠ [] := by
  cases offered with
  | arguments => exact List.cons_ne_nil _ _
  | characters text inhabited =>
    rw [Ne, List.map_eq_nil_iff]
    exact mt String.toList_eq_nil_iff.mp inhabited
  | bytes data inhabited => rwa [Ne, List.map_eq_nil_iff]

theorem alike_of_single (single : values = [a]) : Alike values := by
  cases offered with
  | arguments => cases single
  | characters text =>
    refine ⟨.text, fun c mem => ?_⟩
    obtain ⟨_, -, rfl⟩ := List.mem_map.mp mem
    rfl
  | bytes data =>
    refine ⟨.real, fun c mem => ?_⟩
    obtain ⟨_, -, rfl⟩ := List.mem_map.mp mem
    rfl

theorem picked {name : String} {op : BinaryOp} (contest : Contest name op) :
    Picked op values (extreme name args) := by
  obtain ⟨first, rest, rfl⟩ := List.exists_cons_of_ne_nil offered.ne_nil
  rw [contest.extreme_eq, offered.candidates_eq]
  exact (leads_single contest first).picked contest rest

theorem accepts (name : String) : (Builtin.ofExtreme name).arity.accepts args.length = true := by
  cases offered <;> simp [Builtin.ofExtreme, Arity.accepts]

theorem callBuiltin_ofExtreme (name : String) (line : Nat) :
    EvalM.callBuiltin (.ofExtreme name) args line = EvalM.onLine line (extreme name args) := by
  apply EvalM.callBuiltin_of_call
  rw [Builtin.call, if_pos (offered.accepts name)]
  rfl

end Offered

theorem Contest.named? {name : String} {op : BinaryOp} (contest : Contest name op) :
    Builtin.named? name = some (.ofExtreme name) := by
  cases contest <;> rfl

end Value

open Value EvalM in
/-- `min` and `max` succeed if the values are all real numbers, all text or all bytes. The result is then
one of them that no other beats, the first such one where no value is a float. A failure is over the types
of two values and stands on the line of the call. -/
theorem extremes_unbeaten {name : String} {op : BinaryOp} (contest : Contest name op)
    {args values : List Value} (offered : Offered args values) (line : Nat) :
    ∃ b, Builtin.named? name = some b ∧ ∀ s,
      ((∃ result t, callBuiltin b args line s = .ok result t) ↔ Alike values) ∧
      (∀ result t, callBuiltin b args line s = .ok result t → t = s ∧ Extreme op values result) ∧
      ∀ stop t, callBuiltin b args line s = .error stop t → t = s ∧
        ∃ left ∈ values, ∃ right ∈ values,
          stop = .error ⟨.unsupportedOperands op left.kind right.kind, line⟩ := by
  refine ⟨_, contest.named?, fun s => ?_⟩
  rw [offered.callBuiltin_ofExtreme]
  have picked := offered.picked contest
  generalize extreme name args = outcome at picked
  cases picked with
  | @best result leads =>
    refine ⟨iff_of_true ⟨result, s, rfl⟩ ?_, ?_, ?_⟩
    · rcases leads.alike with single | alike
      · exact offered.alike_of_single single
      · exact alike
    · rintro _ _ ⟨⟩
      exact ⟨rfl, leads.toExtreme⟩
    · rintro _ _ ⟨⟩
  | @refused left right mem mem' apart =>
    refine ⟨iff_of_false ?_ fun alike => apart (alike.comparable mem mem'), ?_, ?_⟩
    · rintro ⟨_, _, ⟨⟩⟩
    · rintro _ _ ⟨⟩
    · rintro _ _ ⟨⟩
      exact ⟨rfl, left, mem, right, mem', rfl⟩

open Value EvalM in
/-- Of `True` and the integer 1, which tie, the first is the greatest. -/
theorem extremes_unbeaten_tie : Contest "max" .greater ∧ Offered [.bool true, .int 1] [.bool true, .int 1] ∧
    ∃ max, Builtin.named? "max" = some max ∧
      ∀ s, callBuiltin max [.bool true, .int 1] 7 s = .ok (.bool true) s := by
  have offered : Offered [.bool true, .int 1] [.bool true, .int 1] := .arguments _ _ _
  refine ⟨.max, offered, ?_⟩
  obtain ⟨max, named, picks⟩ := extremes_unbeaten .max offered 7
  refine ⟨max, named, fun s => ?_⟩
  obtain ⟨succeeds, best, -⟩ := picks s
  obtain ⟨result, t, picked⟩ := succeeds.mpr ⟨.real, by simp [scale?]⟩
  obtain ⟨rfl, extreme⟩ := best result t picked
  obtain ⟨before, after, same, beaten⟩ := extreme.first (by simp [kind])
  rw [picked]
  rcases before with _ | ⟨first, rest⟩
  · obtain ⟨rfl, -⟩ := List.cons.inj same
    rfl
  · -- A result behind `True` would have to beat it.
    obtain ⟨rfl, others⟩ := List.cons.inj same
    have mem : result ∈ [Value.int 1] := others ▸ List.mem_append_right _ List.mem_cons_self
    have tie := beaten (.bool true) List.mem_cons_self
    rw [List.mem_singleton.mp mem] at tie
    cases tie

end Offside
