import Offside.Proofs.Lexing.Moves
import Offside.Proofs.Lexing.Spelling

/-!
# Readings in another place

What a literal or a word is read as does not depend on where it stands; only errors name a place.
`Lexer.literal?_moved` says so, `Lexer.literal?_isToken` that a reading takes something, and
`Lexer.literal?_inside` that its error is not about the width of a line.
-/

namespace Offside

/-- Whether the error is about the width of a line. -/
def LexError.isDedent : LexError → Bool
  | .inconsistentDedent _ _ _ => true
  | _ => false

namespace Reading

/-- What was read, if nothing was wrong. -/
def value? (r : Reading α) : Option (Nat × α) :=
  match r.outcome with
  | .ok value => some (r.taken, value)
  | .error _ => none

theorem value?_eq_some {r : Reading α} {taken : Nat} {value : α} :
    r.value? = some (taken, value) ↔ r = .ok taken value := by
  obtain ⟨count, outcome⟩ := r
  cases outcome with
  | ok => simp [value?, Reading.ok]
  | error => simp [value?, Reading.ok]

theorem eq_some_of_moved {r r' : Option (Reading α)} {taken : Nat} {value : α}
    (same : r.map value? = r'.map value?) (read : r = some (.ok taken value)) :
    r' = some (.ok taken value) := by
  rw [read] at same
  obtain ⟨reading, found, valued⟩ := Option.map_eq_some_iff.mp same.symm
  exact found.trans (congrArg some (value?_eq_some.mp valued))

theorem value?_map (f : α → β) (r : Reading α) :
    (r.map f).value? = r.value?.map (Prod.map id f) := by
  obtain ⟨count, outcome⟩ := r
  cases outcome <;> rfl

/-- What the number of characters and the value fulfil, unless something is wrong. -/
def All (r : Reading α) (good : Nat → α → Prop) : Prop :=
  ∀ value, r.outcome = .ok value → good r.taken value

theorem All.error {taken : Nat} {e : LexError} {good : Nat → α → Prop} :
    (Reading.error taken e).All good := nofun

theorem All.mono {r : Reading α} {good good' : Nat → α → Prop} (all : r.All good)
    (weaker : ∀ count value, good count value → good' count value) : r.All good' :=
  fun value read => weaker _ value (all value read)

theorem All.map {r : Reading α} {f : α → β} {good : Nat → β → Prop}
    (all : r.All fun count value => good count (f value)) : (r.map f).All good := by
  obtain ⟨taken, outcome⟩ := r
  cases outcome with
  | error => exact nofun
  | ok value =>
    rintro _ ⟨⟩
    exact all value rfl

/-- What is wrong with the reading, if anything, is not the width of its line. -/
def Inside (r : Reading α) : Prop := ∀ e, r.outcome = .error e → e.isDedent = false

theorem Inside.ok {taken : Nat} {value : α} : (Reading.ok taken value).Inside := nofun

theorem Inside.error {taken : Nat} {e : LexError} (other : e.isDedent = false) :
    (Reading.error taken e : Reading α).Inside := by
  intro _ failed
  cases failed
  exact other

theorem Inside.map {r : Reading α} {f : α → β} (inside : r.Inside) : (r.map f).Inside := by
  obtain ⟨taken, outcome⟩ := r
  cases outcome with
  | ok => exact nofun
  | error e =>
    intro _ failed
    cases failed
    exact inside e rfl

/-- A token has a spelling, and a literal or a word does not end the source. -/
def IsToken (count : Nat) (kind : Token.Kind) : Prop := 0 < count ∧ kind ≠ .endMarker

end Reading

namespace StringLiteral

theorem escape_moved (bytes : Bool) (pos pos' : Position) (cs : List Char) :
    (escape bytes pos cs).value? = (escape bytes pos' cs).value? := by
  unfold escape
  split
  · rfl
  · rfl
  · split
    · rfl
    · split
      · rfl
      · split
        · dsimp only
          split <;> rfl
        · split <;> rfl

theorem body_moved (form : Form) (quote : Char) (start start' : Position) (taken : Nat)
    (cs : List Char) :
    (body form quote start taken cs).value? = (body form quote start' taken cs).value? := by
  induction length : cs.length using Nat.strong_induction_on generalizing taken cs with
  | h n ih =>
    have inner : ∀ (f : List Char → List Char) (taken : Nat) (later : List Char),
        later.length < n → ((body form quote start taken later).map f).value? =
          ((body form quote start' taken later).map f).value? := by
      intro f taken later lt
      rw [Reading.value?_map, Reading.value?_map, ih _ lt taken later rfl]
    rw [body.eq_def, body.eq_def form quote start']
    cases cs with
    | nil => rfl
    | cons c rest =>
      rw [List.length_cons] at length
      dsimp only
      by_cases feed : c = '\n'
      · simp only [if_pos feed]
        rfl
      by_cases closes : c = quote
      · simp only [if_neg feed, if_pos closes]
      by_cases escapes : c = '\\'
      · simp only [if_neg feed, if_neg closes, if_pos escapes]
        by_cases raw : form.raw = true
        · simp only [if_pos raw]
          cases rest with
          | nil => rfl
          | cons next after =>
            rw [List.length_cons] at length
            dsimp only
            split
            · rfl
            · split
              · rfl
              · exact inner _ _ _ (by omega)
        · simp only [if_neg raw]
          have same := escape_moved form.bytes (start.right taken) (start'.right taken) rest
          generalize escape form.bytes (start.right taken) rest = read at same ⊢
          generalize escape form.bytes (start'.right taken) rest = read' at same ⊢
          obtain ⟨count, outcome⟩ := read
          obtain ⟨count', outcome'⟩ := read'
          cases outcome with
          | error => cases outcome' with
            | error => rfl
            | ok => cases same
          | ok decoded => cases outcome' with
            | error => cases same
            | ok =>
              cases same
              refine inner _ _ _ ?_
              rw [List.length_drop]
              omega
      · simp only [if_neg feed, if_neg closes, if_neg escapes]
        split
        · rfl
        · exact inner _ _ _ (by omega)

/-- A body takes its quote, and so more than was taken before. -/
theorem body_takes (form : Form) (quote : Char) (start : Position) (taken : Nat)
    (cs : List Char) : (body form quote start taken cs).All fun count _ => taken < count := by
  fun_induction body form quote start taken cs with
  | case3 => exact fun _ _ => Nat.lt_succ_self _
  | case6 _ _ _ _ _ _ _ _ ih => exact (ih.mono fun _ _ lt => by omega).map
  | case9 _ _ _ _ _ _ _ _ ih => exact (ih.mono fun _ _ lt => by omega).map
  | case11 _ _ _ _ _ _ _ ih => exact (ih.mono fun _ _ lt => by omega).map
  | _ => exact .error

theorem read?_moved (start start' : Position) (cs : List Char) :
    (read? start cs).map Reading.value? = (read? start' cs).map Reading.value? := by
  unfold read?
  dsimp only
  split
  · split
    · rfl
    · split
      · rfl
      · rw [Option.map_map, Option.map_map]
        congr 1
        funext form
        dsimp only [Function.comp_apply]
        split
        · rfl
        · rw [Reading.value?_map, Reading.value?_map, body_moved]
  · rfl

theorem read?_isToken {start : Position} {cs : List Char} {r : Reading Token.Kind}
    (read : read? start cs = some r) : r.All Reading.IsToken := by
  unfold read? at read
  dsimp only at read
  split at read
  · split at read
    · cases read
    · split at read
      · cases read
        exact .error
      · obtain ⟨form, -, rfl⟩ := Option.map_eq_some_iff.mp read
        split
        · exact .error
        · refine .map ((body_takes _ _ _ _ _).mono ?_)
          intro count decoded lt
          refine ⟨Nat.zero_lt_of_lt lt, ?_⟩
          unfold Form.kind
          split <;> simp
  · cases read

end StringLiteral

namespace Name

theorem read?_moved (pos pos' : Position) (cs : List Char) :
    (read? pos cs).map Reading.value? = (read? pos' cs).map Reading.value? := by
  unfold read?
  split
  · rfl
  · split
    · dsimp only
      split <;> rfl
    · rfl

theorem read?_isToken {pos : Position} {cs : List Char} {r : Reading Token.Kind}
    (read : read? pos cs = some r) : r.All Reading.IsToken := by
  unfold read? at read
  split at read
  · cases read
  · next c rest =>
    split at read
    · next starts =>
      have continues := continuesName_of_starts starts
      cases read
      split
      · exact .error
      · rintro _ ⟨⟩
        rw [Reading.ok, List.takeWhile_cons, continues]
        refine ⟨Nat.succ_pos _, ?_⟩
        unfold kind
        split <;> simp
    · cases read

end Name

namespace Number

theorem integer_moved (text : String) (pos pos' : Position) (n taken : Nat) :
    (⟨taken, integer text pos n⟩ : Reading Value).value? =
      (⟨taken, integer text pos' n⟩ : Reading Value).value? := by
  unfold integer
  split <;> rfl

theorem value_moved (state : State) (chars : List Char) (pos pos' : Position) (taken : Nat) :
    (⟨taken, value state chars pos⟩ : Reading Value).value? =
      (⟨taken, value state chars pos'⟩ : Reading Value).value? := by
  unfold value
  dsimp only
  split
  · exact integer_moved ..
  · exact integer_moved ..
  · exact integer_moved ..
  · exact integer_moved ..
  · split <;> rfl
  · split <;> rfl
  · split <;> rfl
  · rfl

theorem read?_moved (pos pos' : Position) (cs : List Char) :
    (read? pos cs).map Reading.value? = (read? pos' cs).map Reading.value? := by
  unfold read?
  split
  · dsimp only
    rw [Option.map_some, Option.map_some]
    have same := value_moved (follow .start cs).2 (follow .start cs).1 pos pos'
      (follow .start cs).1.length
    have mapped := congrArg (Option.map (Prod.map id Token.Kind.number)) same
    rw [← Reading.value?_map, ← Reading.value?_map] at mapped
    exact congrArg some mapped
  · rfl

theorem step_start {cs : List Char} (number : starts cs = true) :
    ∃ c rest next, cs = c :: rest ∧ step .start c = some next := by
  unfold starts at number
  split at number
  · exact ⟨_, _, _, rfl, rfl⟩
  · next c rest _ =>
    refine ⟨c, rest, ?_⟩
    by_cases zero : c = '0'
    · exact ⟨_, rfl, by rw [step, if_pos zero]⟩
    · exact ⟨_, rfl, by rw [step, if_neg zero, if_pos number]⟩
  · cases number

theorem read?_isToken {pos : Position} {cs : List Char} {r : Reading Token.Kind}
    (read : read? pos cs = some r) : r.All Reading.IsToken := by
  unfold read? at read
  split at read
  · next number =>
    obtain ⟨c, rest, next, rfl, stepped⟩ := step_start number
    cases read
    refine .map (r := ⟨_, _⟩) ?_
    intro value _
    simp only [stepped]
    exact ⟨Nat.succ_pos _, nofun⟩
  · cases read

end Number

namespace Lexer

variable {pos : Position} {cs : List Char} {taken : Nat} {kind : Token.Kind}

theorem literal?_moved (pos pos' : Position) (cs : List Char) :
    (literal? pos cs).map Reading.value? = (literal? pos' cs).map Reading.value? := by
  unfold literal?
  simp only [Option.map_or]
  rw [StringLiteral.read?_moved pos pos', Name.read?_moved pos pos', Number.read?_moved pos pos']

theorem literal?_some_moved (pos' : Position) (read : literal? pos cs = some (.ok taken kind)) :
    literal? pos' cs = some (.ok taken kind) :=
  Reading.eq_some_of_moved (literal?_moved pos pos' cs) read

theorem literal?_none_moved (pos' : Position) (read : literal? pos cs = none) :
    literal? pos' cs = none := by
  have same := literal?_moved pos pos' cs
  rw [read] at same
  exact Option.map_eq_none_iff.mp same.symm

theorem literal?_isToken (read : literal? pos cs = some (.ok taken kind)) :
    Reading.IsToken taken kind := by
  have all : (Reading.ok taken kind).All Reading.IsToken := by
    unfold literal? at read
    rcases Option.or_eq_some_iff.mp read with read | ⟨-, read⟩
    · rcases Option.or_eq_some_iff.mp read with read | ⟨-, read⟩
      · exact StringLiteral.read?_isToken read
      · exact Name.read?_isToken read
    · exact Number.read?_isToken read
  exact all kind rfl

end Lexer

end Offside
