import Offside.Source.Lines

/-!
# Cutting a source into lines

A text without line ends is one line, and where a text ends with a line end the lines of what
follows come after its own: `lines_of_flat` and `lines_append`.
-/

namespace Offside.Source

/-- A character that shares no line end with the next one is normalised for itself. -/
theorem normalize_step {c : Char} {rest : List Char} (apart : c = '\r' → rest.head? ≠ some '\n') :
    normalize (c :: rest) = (if c = '\r' then '\n' else c) :: normalize rest := by
  by_cases carriage : c = '\r'
  · subst carriage
    rw [normalize, if_pos rfl]
    rintro rest' rfl
    exact apart rfl rfl
  · rw [normalize, if_neg carriage]
    · exact fun _ same => absurd same carriage
    · exact carriage

theorem normalize_return {rest : List Char} (apart : rest.head? ≠ some '\n') :
    normalize ('\r' :: rest) = '\n' :: normalize rest := by
  rw [normalize_step fun _ => apart, if_pos rfl]

theorem normalize_cons {c : Char} (rest : List Char) (plain : c ≠ '\r') :
    normalize (c :: rest) = c :: normalize rest := by
  rw [normalize_step fun same => absurd same plain, if_neg plain]

theorem normalize_of_flat {text : List Char} (flat : '\r' ∉ text) : normalize text = text := by
  induction text with
  | nil => rfl
  | cons c rest ih =>
    rw [List.mem_cons, not_or] at flat
    rw [normalize_cons rest fun same => flat.1 same.symm, ih flat.2]

/-- A character that ends no line is the first one of the next line. -/
theorem splitLines_cons {c : Char} (rest : List Char) (plain : c ≠ '\n') :
    splitLines (c :: rest) =
      (c :: (splitLines rest).headD ['\n']) :: (splitLines rest).tail := by
  rw [splitLines]
  · cases splitLines rest <;> rfl
  · exact plain

theorem splitLines_of_flat {line : List Char} (flat : '\n' ∉ line) (later : List Char) :
    splitLines (line ++ '\n' :: later) = (line ++ ['\n']) :: splitLines later := by
  induction line with
  | nil => rfl
  | cons c rest ih =>
    rw [List.mem_cons, not_or] at flat
    rw [List.cons_append, splitLines_cons _ fun same => flat.1 same.symm, ih flat.2]
    rfl

theorem splitLines_flat {line : List Char} (flat : '\n' ∉ line) (nonempty : line ≠ []) :
    splitLines line = [line ++ ['\n']] := by
  induction line with
  | nil => exact absurd rfl nonempty
  | cons c rest ih =>
    rw [List.mem_cons, not_or] at flat
    rw [splitLines_cons _ fun same => flat.1 same.symm]
    cases rest with
    | nil => rfl
    | cons d rest => rw [ih flat.2 (List.cons_ne_nil d rest)]; rfl

theorem splitLines_ne_nil {text : List Char} (nonempty : text ≠ []) : splitLines text ≠ [] := by
  obtain ⟨c, rest, rfl⟩ := List.exists_cons_of_ne_nil nonempty
  by_cases feed : c = '\n'
  · subst feed
    exact List.cons_ne_nil _ _
  · rw [splitLines_cons rest feed]
    exact List.cons_ne_nil _ _

/-- A line is characters that are no line ends, and a line feed. -/
theorem mem_splitLines {text line : List Char} (member : line ∈ splitLines text) :
    ∃ body, line = body ++ ['\n'] ∧ '\n' ∉ body := by
  induction text generalizing line with
  | nil => cases member
  | cons c rest ih =>
    by_cases feed : c = '\n'
    · subst feed
      rcases List.mem_cons.mp member with rfl | member
      · exact ⟨[], rfl, List.not_mem_nil⟩
      · exact ih member
    rw [splitLines_cons rest feed] at member
    cases split : splitLines rest with
    | nil =>
      rw [split] at member
      exact ⟨[c], List.mem_singleton.mp member, by simpa using fun same : '\n' = c => feed same.symm⟩
    | cons first later =>
      rw [split] at ih member
      rcases List.mem_cons.mp member with rfl | member
      · obtain ⟨body, rfl, flat⟩ := ih List.mem_cons_self
        refine ⟨c :: body, rfl, ?_⟩
        rw [List.mem_cons, not_or]
        exact ⟨fun same => feed same.symm, flat⟩
      · exact ih (List.mem_cons_of_mem _ member)

theorem return_not_mem_normalize (text : List Char) : '\r' ∉ normalize text := by
  fun_induction normalize text with
  | case1 rest ih => simpa using ih
  | case2 rest _ ih => simpa using ih
  | case3 c rest _ notReturn ih => simpa using ⟨fun same => notReturn same.symm, ih⟩
  | case4 => exact List.not_mem_nil

theorem lines_of_flat {text ending : String} (flat : ∀ c ∈ text.toList, c ≠ '\n' ∧ c ≠ '\r')
    (nonempty : text.toList ≠ []) (ends : ending = "" ∨ ending = "\n") :
    lines (text ++ ending) = [text.toList ++ ['\n']] := by
  have noFeed : '\n' ∉ text.toList := fun member => (flat _ member).1 rfl
  have noReturn : '\r' ∉ text.toList := fun member => (flat _ member).2 rfl
  rw [lines, String.toList_append]
  rcases ends with rfl | rfl
  · rw [show "".toList = [] from rfl, List.append_nil, normalize_of_flat noReturn,
      splitLines_flat noFeed nonempty]
  · rw [show "\n".toList = ['\n'] from rfl, normalize_of_flat, splitLines_of_flat noFeed]
    · rfl
    · simp [noReturn]

/-! ### One text after another -/

/-- The text ends with a line end that is not the first half of one in `later`. -/
def EndsLine (text later : String) : Prop :=
  text.toList.getLast? = some '\n' ∨
    text.toList.getLast? = some '\r' ∧ later.toList.head? ≠ some '\n'

/-- A text is normalised in two parts, unless they share a line end. -/
theorem normalize_append {front later : List Char}
    (apart : front.getLast? = some '\r' → later.head? ≠ some '\n') :
    normalize (front ++ later) = normalize front ++ normalize later := by
  have inner : ∀ {c : Char} {rest : List Char}, rest.getLast? = some '\r' →
      (c :: rest).getLast? = some '\r' := by
    intro c rest last
    rw [List.getLast?_cons, last, Option.getD_some]
  fun_induction normalize front with
  | case1 rest ih => exact congrArg ('\n' :: ·) (ih fun last => apart (inner (inner last)))
  | case2 rest notFeed ih =>
    rw [List.cons_append, normalize_return, ih fun last => apart (inner last), List.cons_append]
    cases rest with
    | nil => exact apart rfl
    | cons d rest => exact fun feed => notFeed rest (congrArg (· :: rest) (Option.some.inj feed))
  | case3 d rest _ notReturn ih =>
    rw [List.cons_append, normalize_cons _ notReturn, ih fun last => apart (inner last),
      List.cons_append]
  | case4 => rfl

/-- Whichever line end a text ends with becomes a line feed. -/
theorem normalize_concat {c : Char} (ends : c = '\n' ∨ c = '\r') (front : List Char) :
    ∃ front', normalize (front ++ [c]) = front' ++ ['\n'] := by
  by_cases split : front.getLast? = some '\r' ∧ c = '\n'
  · obtain ⟨last, rfl⟩ := split
    obtain ⟨front, rfl⟩ := List.getLast?_eq_some_iff.mp last
    refine ⟨normalize front, ?_⟩
    rw [List.append_assoc, normalize_append fun _ => by simp]
    rfl
  · have apart : front.getLast? = some '\r' → [c].head? ≠ some '\n' :=
      fun last feed => split ⟨last, Option.some.inj feed⟩
    refine ⟨normalize front, ?_⟩
    rw [normalize_append apart]
    rcases ends with rfl | rfl <;> rfl

/-- The lines of a text that ends with a line feed are all of it. -/
theorem flatten_splitLines {text : List Char} (whole : text = [] ∨ ['\n'] <:+ text) :
    (splitLines text).flatten = text := by
  have inner : ∀ {c : Char} {rest : List Char}, c :: rest = [] ∨ ['\n'] <:+ c :: rest →
      rest = [] ∨ ['\n'] <:+ rest := by
    intro c rest whole
    exact (List.suffix_cons_iff.mp (whole.resolve_left nofun)).imp_left
      fun same => (List.cons.inj same).2.symm
  induction text with
  | nil => rfl
  | cons c rest ih =>
    by_cases feed : c = '\n'
    · subst feed
      exact congrArg ('\n' :: ·) (ih (inner whole))
    · rw [splitLines_cons rest feed]
      cases rest with
      | nil =>
        rcases List.suffix_cons_iff.mp (whole.resolve_left nofun) with same | none
        · exact absurd (List.cons.inj same).1.symm feed
        · exact absurd (List.suffix_nil.mp none) nofun
      | cons d rest =>
        obtain ⟨first, later, split⟩ :=
          List.exists_cons_of_ne_nil (splitLines_ne_nil (List.cons_ne_nil d rest))
        have again := ih (inner whole)
        rw [split] at again ⊢
        exact congrArg (c :: ·) again

/-- The normalised text, with a line feed at its end. -/
def completed (text : String) : List Char :=
  if normalize text.toList = [] ∨ ['\n'] <:+ normalize text.toList then normalize text.toList
  else normalize text.toList ++ ['\n']

theorem splitLines_completed {text : List Char} (nonempty : text ≠ []) (open' : ¬['\n'] <:+ text) :
    splitLines (text ++ ['\n']) = splitLines text := by
  induction text with
  | nil => exact absurd rfl nonempty
  | cons c rest ih =>
    cases rest with
    | nil =>
      have flat : '\n' ∉ [c] := by
        intro feed
        exact open' (List.mem_singleton.mp feed ▸ List.suffix_refl _)
      exact (splitLines_of_flat flat []).trans (splitLines_flat flat nonempty).symm
    | cons d rest =>
      have again := ih nofun fun last => open' (last.trans (List.suffix_cons c _))
      by_cases feed : c = '\n'
      · subst feed
        exact congrArg (['\n'] :: ·) again
      · rw [List.cons_append, splitLines_cons _ feed, splitLines_cons _ feed, again]

/-- A line end after the last line is no line more. -/
theorem lines_append_ending {text ending : String} {c : Char} (last : text.toList.getLast? = some c)
    (plain : c ≠ '\n' ∧ c ≠ '\r') (ends : ending ∈ ["\n", "\r\n", "\r"]) :
    lines (text ++ ending) = lines text := by
  obtain ⟨front, split⟩ := List.getLast?_eq_some_iff.mp last
  have feed : normalize ending.toList = ['\n'] := by
    simp only [List.mem_cons, List.not_mem_nil, or_false] at ends
    rcases ends with rfl | rfl | rfl <;> rfl
  have whole : normalize text.toList = normalize front ++ [c] := by
    have apart : [c].head? ≠ some '\n' := fun feed => plain.1 (Option.some.inj feed)
    rw [split, normalize_append fun _ => apart, normalize_cons [] plain.2]
    rfl
  have longer : normalize (text ++ ending).toList = normalize text.toList ++ ['\n'] := by
    rw [String.toList_append, normalize_append, feed]
    exact fun carriage => absurd (Option.some.inj (last.symm.trans carriage)) plain.2
  rw [lines, lines, longer, whole]
  refine splitLines_completed (List.concat_ne_nil c _) fun suffix => plain.1 ?_
  obtain ⟨before, same⟩ := suffix
  exact (List.cons.inj (List.append_inj' same rfl).2).1.symm

/-- The lines of a source are all of it. -/
theorem flatten_lines (text : String) : (lines text).flatten = completed text := by
  rw [lines, completed]
  split
  · next whole => exact flatten_splitLines whole
  · next open' =>
    rw [not_or] at open'
    rw [← splitLines_completed open'.1 open'.2]
    exact flatten_splitLines (.inr (List.suffix_append _ _))

/-- There are no carriage returns in the lines of a source. -/
theorem return_not_mem_lines {text : String} {line : List Char} (member : line ∈ lines text) :
    '\r' ∉ line := by
  intro inside
  have whole := List.mem_flatten_of_mem member inside
  rw [flatten_lines, completed] at whole
  split at whole
  · exact return_not_mem_normalize _ whole
  · rcases List.mem_append.mp whole with normal | feed
    · exact return_not_mem_normalize _ normal
    · exact absurd (List.mem_singleton.mp feed) (by decide)

theorem splitLines_append (front later : List Char) :
    splitLines (front ++ '\n' :: later) = splitLines (front ++ ['\n']) ++ splitLines later := by
  induction front with
  | nil => rfl
  | cons c front ih =>
    by_cases feed : c = '\n'
    · subst feed
      exact congrArg (['\n'] :: ·) ih
    · obtain ⟨first, rest, split⟩ := List.exists_cons_of_ne_nil
        (splitLines_ne_nil (List.concat_ne_nil '\n' front))
      rw [List.cons_append, List.cons_append, splitLines_cons _ feed, splitLines_cons _ feed, ih, split]
      rfl

theorem EndsLine.normalize {text later : String} (ends : EndsLine text later) :
    ∃ front, normalize (text.toList ++ later.toList) = front ++ '\n' :: normalize later.toList ∧
      normalize text.toList = front ++ ['\n'] := by
  obtain ⟨c, last, isEnd, apart⟩ : ∃ c, text.toList.getLast? = some c ∧ (c = '\n' ∨ c = '\r') ∧
      (text.toList.getLast? = some '\r' → later.toList.head? ≠ some '\n') := by
    rcases ends with feed | ⟨carriage, apart⟩
    · exact ⟨'\n', feed, .inl rfl, by simp [feed]⟩
    · exact ⟨'\r', carriage, .inr rfl, fun _ => apart⟩
  obtain ⟨front, split⟩ := List.getLast?_eq_some_iff.mp last
  obtain ⟨front', alone⟩ := normalize_concat isEnd front
  rw [← split] at alone
  exact ⟨front', by rw [normalize_append apart, alone, List.append_assoc]; rfl, alone⟩

theorem lines_append {text later : String} (ends : EndsLine text later) :
    lines (text ++ later) = lines text ++ lines later := by
  obtain ⟨front, whole, alone⟩ := ends.normalize
  rw [lines, lines, lines, String.toList_append, whole, alone, splitLines_append]

theorem lines_ne_nil {text later : String} (ends : EndsLine text later) : lines text ≠ [] := by
  obtain ⟨front, -, alone⟩ := ends.normalize
  rw [lines, alone]
  exact splitLines_ne_nil (by simp)

theorem length_lines_le (text : String) : (lines text).length ≤ (lines text).flatten.length := by
  have filled : ∀ line ∈ lines text, line ≠ [] := by
    intro line member
    obtain ⟨body, rfl, -⟩ := mem_splitLines member
    exact List.concat_ne_nil '\n' body
  generalize lines text = lines at filled ⊢
  induction lines with
  | nil => exact Nat.le_refl 0
  | cons line lines ih =>
    have some := List.length_pos_iff.mpr (filled line List.mem_cons_self)
    have rest := ih fun line member => filled line (List.mem_cons_of_mem _ member)
    rw [List.flatten_cons, List.length_append, List.length_cons]
    omega

/-- A line feed is nowhere but at the end of a line. -/
theorem isSuffix_of_isInfix {text : String} {line before : List Char} (member : line ∈ lines text)
    (found : before ++ ['\n'] <:+: line) : before ++ ['\n'] <:+ line := by
  obtain ⟨body, rfl, flat⟩ := mem_splitLines member
  obtain ⟨front, back, split⟩ := found
  rcases List.eq_nil_or_concat back with rfl | ⟨back, c, rfl⟩
  · exact ⟨front, by rw [← split, List.append_nil]⟩
  · rw [List.concat_eq_append, ← List.append_assoc] at split
    have inside : '\n' ∈ body := by
      rw [← (List.append_inj' split rfl).1]
      simp
    exact absurd inside flat

/-! ### Other line ends -/

/-- The text with this line end for every one in it. -/
def withEnding (ending : List Char) : List Char → List Char
  | '\r' :: '\n' :: rest => ending ++ withEnding ending rest
  | '\r' :: rest => ending ++ withEnding ending rest
  | '\n' :: rest => ending ++ withEnding ending rest
  | c :: rest => c :: withEnding ending rest
  | [] => []

theorem head_withEnding (text : List Char) : (withEnding ['\r'] text).head? ≠ some '\n' := by
  unfold withEnding
  split
  · exact nofun
  · exact nofun
  · exact nofun
  · next other =>
    intro same
    exact other (Option.some.inj same)
  · exact nofun

theorem normalize_withEnding {ending : List Char}
    (isEnding : ending ∈ [['\n'], ['\r', '\n'], ['\r']]) (text : List Char) :
    normalize (withEnding ending text) = normalize text := by
  have feed : ∀ rest, normalize (ending ++ withEnding ending rest) =
      '\n' :: normalize (withEnding ending rest) := by
    simp only [List.mem_cons, List.not_mem_nil, or_false] at isEnding
    intro rest
    rcases isEnding with rfl | rfl | rfl
    · exact normalize_cons _ (by decide)
    · rfl
    · exact normalize_return (head_withEnding rest)
  fun_induction withEnding ending text with
  | case1 rest ih => rw [feed, ih, normalize]
  | case2 rest notFeed ih =>
    rw [feed, ih, normalize_return]
    rintro same
    obtain ⟨rest, rfl⟩ := List.head?_eq_some_iff.mp same
    exact notFeed rest rfl
  | case3 rest ih => rw [feed, ih, normalize_cons _ (by decide)]
  | case4 c rest _ notReturn _ ih =>
    rw [normalize_cons _ fun same => notReturn same, normalize_cons _ fun same => notReturn same, ih]
  | case5 => rfl

end Offside.Source
