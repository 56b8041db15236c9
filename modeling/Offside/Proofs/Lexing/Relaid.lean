import Mathlib.Logic.Relation
import Offside.Proofs.Lexing.Abreast
import Offside.Proofs.Lexing.Asked

/-!
# Layout

`Relaid` lists the changes of a source that touch no token, and `layout_insignificant` says that the source
has tokens with the same kinds and texts after any number of them.

Where a source may be changed its lexer says: behind and in front of a line feed that it tells as a
NEWLINE, and behind a token that a bracket is open at. The lexers of both sources come there abreast. What
is put in they pass without a token, and then they are abreast again with the same text left.
-/

namespace Offside

open Lexer (EndsLine)

/-! ### What is put in -/

/-- Spaces, and maybe a comment behind them. -/
def Vacant (chars : List Char) : Prop :=
  ∃ spaces comment, chars = spaces ++ comment ∧ (∀ c ∈ spaces, Indentation.isSpace c = true) ∧
    '\n' ∉ comment ∧ (comment = [] ∨ ∃ rest, comment = '#' :: rest)

/-- What may stand between two tokens within brackets: spaces, line feeds, comments that are each ended by
a line feed, and backslashes that join two lines. -/
inductive Filling : List Char → Prop
  | nil : Filling []
  | space {c : Char} {rest : List Char} : Indentation.isSpace c = true → Filling rest →
      Filling (c :: rest)
  | feed {rest : List Char} : Filling rest → Filling ('\n' :: rest)
  | comment {body rest : List Char} : '\n' ∉ body → Filling rest →
      Filling ('#' :: (body ++ '\n' :: rest))
  | join {rest : List Char} : Filling rest → Filling ('\\' :: '\n' :: rest)

variable {chars spaces gap gap' back later text : List Char}

theorem Filling.append (first : Filling gap) (second : Filling gap') : Filling (gap ++ gap') := by
  induction first with
  | nil => exact second
  | space space _ ih => exact .space space ih
  | feed _ ih => exact .feed ih
  | comment flat _ ih =>
    rw [List.cons_append, List.append_assoc]
    exact .comment flat ih
  | join _ ih => exact .join ih

theorem opensGap_of_isSpace {c : Char} (space : Indentation.isSpace c = true) :
    opensGap c = true := by
  rw [opensGap, space]
  rfl

theorem Filling.opensGap {c : Char} {rest : List Char} (filling : Filling (c :: rest))
    (plain : c ≠ '\\') : opensGap c = true := by
  cases filling with
  | space space => exact opensGap_of_isSpace space
  | feed => rfl
  | comment => rfl
  | join => exact absurd rfl plain

theorem Filling.of_spaces (blank : ∀ c ∈ spaces, Indentation.isSpace c = true) : Filling spaces := by
  induction spaces with
  | nil => exact .nil
  | cons c spaces ih =>
    obtain ⟨space, blank⟩ := List.forall_mem_cons.mp blank
    exact .space space (ih blank)

theorem not_feed_of_spaces (blank : ∀ c ∈ spaces, Indentation.isSpace c = true) : '\n' ∉ spaces :=
  fun member => absurd (blank _ member) (by decide)

theorem Vacant.flat (vacant : Vacant chars) : '\n' ∉ chars := by
  obtain ⟨spaces, comment, rfl, blank, flat, -⟩ := vacant
  rw [List.mem_append, not_or]
  exact ⟨not_feed_of_spaces blank, flat⟩

theorem Vacant.endsLine (vacant : Vacant chars) :
    EndsLine ((chars ++ ['\n']).dropWhile Indentation.isSpace) := by
  obtain ⟨spaces, comment, rfl, blank, -, rfl | ⟨rest, rfl⟩⟩ := vacant
  · rw [List.append_nil, List.dropWhile_append_of_pos blank]
    exact ⟨'\n', [], rfl, .inl rfl⟩
  · rw [List.append_assoc, List.dropWhile_append_of_pos blank]
    exact ⟨'#', _, rfl, .inr rfl⟩

theorem Vacant.opensGap (vacant : Vacant chars) (later : List Char) :
    ∃ c rest, chars ++ '\n' :: later = c :: rest ∧ opensGap c = true := by
  obtain ⟨spaces, comment, rfl, blank, -, isComment⟩ := vacant
  cases spaces with
  | nil =>
    rcases isComment with rfl | ⟨rest, rfl⟩
    · exact ⟨'\n', later, rfl, rfl⟩
    · exact ⟨'#', _, rfl, rfl⟩
  | cons c spaces => exact ⟨c, _, rfl, opensGap_of_isSpace (blank c List.mem_cons_self)⟩

/-- Behind the end of a line there may be more of the kind. -/
theorem Vacant.append_endsLine (vacant : Vacant chars)
    (ends : EndsLine ((text ++ ['\n']).dropWhile Indentation.isSpace)) :
    EndsLine ((text ++ chars ++ ['\n']).dropWhile Indentation.isSpace) := by
  rw [List.append_assoc]
  cases shown : text.dropWhile Indentation.isSpace with
  | nil =>
    rw [List.dropWhile_append, shown]
    exact vacant.endsLine
  | cons c rest =>
    have some : (text.dropWhile Indentation.isSpace).isEmpty = false := by rw [shown]; rfl
    rw [List.dropWhile_append, some, shown] at ends ⊢
    obtain ⟨d, rest', found, ends⟩ := ends
    obtain rfl : c = d := (List.cons.inj found).1
    exact ⟨c, _, rfl, ends⟩

namespace Lexer

variable {s s' t u : Lexer} {tokens : List Token} {contents : List (Token.Kind × String)}

theorem Steady.endsLine (steady : s.Steady) (here : s.cursor.onward = chars ++ '\n' :: later)
    (flat : '\n' ∉ chars) (ends : EndsLine ((chars ++ ['\n']).dropWhile Indentation.isSpace)) :
    s.cursor.lines ≠ [] ∧ EndsLine s.ahead ∧ s.below.cursor.onward = later := by
  obtain ⟨more, rest, left⟩ := steady.line here flat
  exact ⟨more, by rwa [Lexer.ahead, rest], left⟩

/-- A line that is inserted at the start of another. -/
theorem Yields.insertLine (yields : s.Yields contents) (abreast : s.Abreast s')
    (start : s.lineStart = true) (vacant : Vacant chars)
    (here : s'.cursor.onward = chars ++ '\n' :: s.cursor.onward) : s'.Yields contents := by
  obtain ⟨more, empty, left⟩ := abreast.steady'.endsLine here vacant.flat vacant.endsLine
  have yields' := yields.abreast (abreast.trans abreast.steady'.abreast_below) left
  exact yields'.of_below abreast.steady' (abreast.lineStart.trans start) more empty

/-- A line within brackets that is passed without a token. -/
theorem Abreast.passLine (abreast : s.Abreast s') (inside : s.lineStart = false)
    (opened : s.brackets ≠ []) (here : s'.cursor.onward = chars ++ '\n' :: later)
    (flat : '\n' ∉ chars) (ends : EndsLine ((chars ++ ['\n']).dropWhile Indentation.isSpace)) :
    Turn s' [] s'.below ∧ s.Abreast s'.below ∧ s'.below.cursor.onward = later := by
  obtain ⟨more, ends', left⟩ := abreast.steady'.endsLine here flat ends
  have opened' : s'.brackets ≠ [] := fun closed => opened (abreast.closed_iff.mp closed)
  exact ⟨.fold (abreast.lineStart.trans inside) more ends' opened',
    abreast.trans abreast.steady'.abreast_below, left⟩

/-- Where a logical line ends, what is yielded is the NEWLINE and what is yielded behind it. -/
theorem Yields.pastNewline (yields : s.Yields contents) (abreast : s.Abreast s')
    (inside : s.lineStart = false) (more : s.cursor.lines ≠ []) (ends : EndsLine s.ahead)
    (closed : s.brackets = []) (here : s'.cursor.onward = chars ++ '\n' :: later)
    (flat : '\n' ∉ chars) (ends' : EndsLine ((chars ++ ['\n']).dropWhile Indentation.isSpace))
    (goesOn : ∀ (t t' : Lexer) contents, t.Abreast t' → t.lineStart = true →
      t.cursor.onward = s.cursor.nextLine.onward → t'.cursor.onward = later → t.Yields contents →
      t'.Yields contents) : s'.Yields contents := by
  obtain ⟨more', ahead, left⟩ := abreast.steady'.endsLine here flat ends'
  have turn := Turn.newline inside more ends closed
  have turn' := Turn.newline (abreast.lineStart.trans inside) more' ahead (abreast.closed_iff.mpr closed)
  obtain ⟨behind, rfl, rest⟩ := yields.rest (.step turn (.refl _)) abreast.steady
  have abreast' := Abreast.mk (turn.steady abreast.steady) (turn'.steady abreast.steady')
    abreast.tabSize abreast.levels abreast.brackets rfl
  exact (Yields.of_turn turn' (goesOn _ _ behind abreast' rfl rfl left rest) :)

/-- Within brackets a filling is passed without a token, up to the spaces at its end. -/
theorem Abreast.passFilling (abreast : s.Abreast s') (inside : s.lineStart = false)
    (opened : s.brackets ≠ []) (filling : Filling gap)
    (blank : ∀ c ∈ spaces, Indentation.isSpace c = true)
    (here : s'.cursor.onward = spaces ++ (gap ++ back)) :
    ∃ spaces' t, Run s' [] t ∧ s.Abreast t ∧ t.cursor.onward = spaces' ++ back ∧
      ∀ c ∈ spaces', Indentation.isSpace c = true := by
  -- The spaces are those passed since the last line feed.
  induction filling generalizing s' spaces with
  | nil => exact ⟨spaces, s', .refl s', abreast, here, blank⟩
  | @space c rest space _ ih =>
    have blank' : ∀ d ∈ spaces ++ [c], Indentation.isSpace d = true := by
      intro d member
      rcases List.mem_append.mp member with member | member
      · exact blank d member
      · rw [List.mem_singleton.mp member]
        exact space
    exact ih abreast blank' (by rw [here, List.append_assoc]; rfl)
  | feed _ ih =>
    have vacant : Vacant spaces := ⟨spaces, [], (List.append_nil _).symm, blank, nofun, .inl rfl⟩
    obtain ⟨turn, below, left⟩ := abreast.passLine inside opened here vacant.flat vacant.endsLine
    obtain ⟨spaces', t, run, done⟩ := ih below (List.forall_mem_nil _) left
    exact ⟨spaces', t, .step turn run, done⟩
  | @comment body rest flat _ ih =>
    have vacant : Vacant (spaces ++ '#' :: body) :=
      ⟨spaces, '#' :: body, rfl, blank, by simpa using flat, .inr ⟨body, rfl⟩⟩
    obtain ⟨turn, below, left⟩ := abreast.passLine inside opened
      (show _ = (spaces ++ '#' :: body) ++ '\n' :: (rest ++ back) by rw [here]; simp) vacant.flat
      vacant.endsLine
    obtain ⟨spaces', t, run, done⟩ := ih below (List.forall_mem_nil _) left
    exact ⟨spaces', t, .step turn run, done⟩
  | @join rest _ ih =>
    have flat : '\n' ∉ spaces ++ ['\\'] := by simpa using not_feed_of_spaces blank
    obtain ⟨more, line, left⟩ := abreast.steady'.line
      (show _ = (spaces ++ ['\\']) ++ '\n' :: (rest ++ back) by rw [here]; simp) flat
    have found : s'.ahead = ['\\', '\n'] := by
      rw [Lexer.ahead, line, List.append_assoc, List.dropWhile_append_of_pos blank]
      rfl
    obtain ⟨spaces', t, run, done⟩ :=
      ih (abreast.trans abreast.steady'.abreast_below) (List.forall_mem_nil _) left
    exact ⟨spaces', t, .step (.join (abreast.lineStart.trans inside) more found) run, done⟩

/-- Within brackets a filling may stand for another. -/
theorem Yields.fill (yields : s.Yields contents) (abreast : s.Abreast s')
    (inside : s.lineStart = false) (opened : s.brackets ≠ []) (filling : Filling gap)
    (filling' : Filling gap') (here : s.cursor.onward = gap ++ back)
    (here' : s'.cursor.onward = gap' ++ back) : s'.Yields contents := by
  obtain ⟨spaces, t, run, same, left, blank⟩ :=
    abreast.steady.abreast.passFilling inside opened filling (List.forall_mem_nil _) here
  obtain ⟨spaces', t', run', same', left', blank'⟩ :=
    abreast.passFilling inside opened filling' (List.forall_mem_nil _) here'
  have inside₁ := same.lineStart.trans inside
  have inside₂ := same'.lineStart.trans inside
  have shown : t'.unspaced.cursor.onward = t.unspaced.cursor.onward := by
    rw [same.steady'.onward_dropWhile, left, List.dropWhile_append_of_pos blank,
      same'.steady'.onward_dropWhile, left', List.dropWhile_append_of_pos blank']
  obtain ⟨later, rfl, first⟩ := yields.rest run abreast.steady
  have second := first.of_unspaced inside₁ (unspaced_unspaced t)
  have third := second.abreast ((same.symm.trans same').unspaced inside₁) shown
  exact (third.of_unspaced inside₂ (unspaced_unspaced t').symm).of_run run'

end Lexer

/-! ### Edits -/

/-- The lexer tells a NEWLINE, and has `later` left behind it. -/
def NewlineBefore (source : String) (tabSize : UInt64) (later : List Char) : Prop :=
  ∃ k newline, (Lexer.ofText source tabSize).answers.get k = .ok newline ∧ newline.kind = .newline ∧
    ((Lexer.ofText source tabSize).asked (k + 1)).cursor.onward = later

/-- The lexer tells a token behind which a bracket is open, and has `later` left behind it. -/
def OpenBefore (source : String) (tabSize : UInt64) (later : List Char) : Prop :=
  ∃ k token, (Lexer.ofText source tabSize).answers.get k = .ok token ∧
    ((Lexer.ofText source tabSize).asked (k + 1)).brackets ≠ [] ∧
    ((Lexer.ofText source tabSize).asked (k + 1)).cursor.onward = later

/-- A source after one change of its layout. Its text is taken with a line feed for every line end and one
at its end (`Source.completed`), so that the change is the same whatever line ends the source has. -/
inductive Relaid (tabSize : UInt64) (source source' : String) : Prop
  /-- A line without a token comes at the start. -/
  | first {body : List Char} : Vacant body →
      Source.completed source' = body ++ '\n' :: Source.completed source → Relaid tabSize source source'
  /-- A line without a token comes behind the line feed of a NEWLINE. -/
  | line {front body later : List Char} : NewlineBefore source tabSize later →
      Source.completed source = front ++ later → Vacant body →
      Source.completed source' = front ++ (body ++ '\n' :: later) → Relaid tabSize source source'
  /-- Spaces or a comment come in front of the line feed of a NEWLINE. -/
  | trail {front extra later : List Char} : NewlineBefore source tabSize later →
      Source.completed source = front ++ '\n' :: later → Vacant extra →
      Source.completed source' = front ++ (extra ++ '\n' :: later) → Relaid tabSize source source'
  /-- Spaces between tokens, within brackets, give way to a filling. -/
  | gap {front passed spaces filling later : List Char} :
      OpenBefore source tabSize (passed ++ (spaces ++ later)) →
      Source.completed source = front ++ (passed ++ (spaces ++ later)) → Filling passed →
      spaces ≠ [] → (∀ c ∈ spaces, Indentation.isSpace c = true) →
      Filling filling → (∃ c rest, filling = c :: rest ∧ c ≠ '\\') →
      Source.completed source' = front ++ (passed ++ (filling ++ later)) → Relaid tabSize source source'
  /-- All line ends are written in one way. -/
  | ending {ending : String} : ending ∈ ["\n", "\r\n", "\r"] →
      source'.toList = Source.withEnding ending.toList source.toList → Relaid tabSize source source'

section

variable {source source' : String} {tabSize : UInt64} {front : List Char} {tokens : List Token}
  {contents : List (Token.Kind × String)}

theorem Lexer.onward_ofText (source : String) (tabSize : UInt64) :
    (Lexer.ofText source tabSize).cursor.onward = Source.completed source :=
  (Cursor.onward_of_start rfl).trans (Source.flatten_lines source)

theorem Lexer.abreast_ofText (source source' : String) (tabSize : UInt64) :
    (Lexer.ofText source tabSize).Abreast (Lexer.ofText source' tabSize) :=
  ⟨steady_ofText source tabSize, steady_ofText source' tabSize, rfl, rfl, rfl, rfl⟩

theorem Lexer.yields_ofText_iff : (Lexer.ofText source tabSize).Yields contents ↔
    ∃ tokens, tokenize source tabSize = .ok tokens ∧ tokens.map Token.content = contents := by
  constructor
  · rintro ⟨front, t, run, ended, rfl⟩
    exact ⟨_, tokenize_eq_ok_iff.mpr ⟨front, t, run, ended, rfl⟩, rfl⟩
  · rintro ⟨tokens, told, rfl⟩
    obtain ⟨front, t, run, ended, rfl⟩ := tokenize_eq_ok_iff.mp told
    exact ⟨front, t, run, ended, rfl⟩

/-- Where a source changes behind a gap only, its lexer comes to the gap as before. -/
theorem Lexer.Yields.relaid {before : List Token} {r : Lexer}
    (yields : (ofText source tabSize).Yields contents) (run : Run (ofText source tabSize) before r)
    (here : Source.completed source = front ++ r.cursor.onward)
    (here' : Source.completed source' = front ++ text) (same : UpToGap r.cursor.onward text)
    (goesOn : ∀ r' contents, r.Abreast r' → r'.cursor.onward = text → r.Yields contents →
      r'.Yields contents) : (ofText source' tabSize).Yields contents := by
  rw [← onward_ofText source tabSize] at here
  rw [← onward_ofText source' tabSize] at here'
  obtain ⟨before', r', run', abreast, left, contents'⟩ :=
    run.abreast (abreast_ofText source source' tabSize) here here' same
  obtain ⟨later, rfl, rest⟩ := yields.rest run (steady_ofText source tabSize)
  rw [← contents']
  exact (goesOn r' later abreast left rest).of_run run'

theorem NewlineBefore.place {later : List Char} (told : NewlineBefore source tabSize later)
    (yields : (Lexer.ofText source tabSize).Yields contents) : ∃ before r,
      Lexer.Run (.ofText source tabSize) before r ∧ r.lineStart = false ∧ r.cursor.lines ≠ [] ∧
      EndsLine r.ahead ∧ r.brackets = [] ∧ r.cursor.nextLine.onward = later := by
  obtain ⟨k, newline, told, kind, left⟩ := told
  obtain ⟨front, t, run, ended, -⟩ := yields
  obtain ⟨before, r, first, last, u, run', turn, asked⟩ :=
    run.told (Lexer.steady_ofText source tabSize) ended told (.inl kind)
  obtain ⟨inside, more, ends, closed, next⟩ := turn.of_newline (by simp) kind
  rw [asked, show u.cursor.onward = _ from congrArg Cursor.onward next] at left
  exact ⟨before, r, run', inside, more, ends, closed, left⟩

/-- Around the line feed of a NEWLINE a source may be changed if it goes on in the same way behind it. -/
theorem NewlineBefore.relaid (source' : String) {later : List Char}
    (told : NewlineBefore source tabSize later)
    (yields : (Lexer.ofText source tabSize).Yields contents) :
    ∃ front tail, Source.completed source = front ++ (tail ++ '\n' :: later) ∧ ∀ extra text,
      Vacant extra → Source.completed source' = front ++ (tail ++ (extra ++ '\n' :: text)) →
      (∀ (t t' : Lexer) contents, t.Abreast t' → t.lineStart = true → t.cursor.onward = later →
        t'.cursor.onward = text → t.Yields contents → t'.Yields contents) →
      (Lexer.ofText source' tabSize).Yields contents := by
  obtain ⟨before, r, run, inside, more, ends, closed, left⟩ := told.place yields
  have steady := Lexer.steady_ofText source tabSize
  obtain ⟨tail, rest, flat⟩ := (run.steady steady).rest more
  obtain ⟨front, passed⟩ := run.passes steady
  have onward : r.cursor.onward = tail ++ '\n' :: later := by
    rw [r.cursor.onward_nextLine, rest, List.append_assoc, ← left]
    rfl
  rw [Lexer.onward_ofText] at passed
  refine ⟨front, tail, by rw [passed, onward], fun extra text vacant edited goesOn => ?_⟩
  have same : UpToGap r.cursor.onward (tail ++ (extra ++ '\n' :: text)) := by
    obtain ⟨c, rest, split, gap⟩ := vacant.opensGap text
    rw [onward, split]
    exact (UpToGap.gap rfl gap).append tail
  refine yields.relaid run passed edited same fun r' contents abreast here yields => ?_
  have ends' : EndsLine ((tail ++ extra ++ ['\n']).dropWhile Indentation.isSpace) := by
    rw [Lexer.ahead, rest] at ends
    exact vacant.append_endsLine ends
  have flat' : '\n' ∉ tail ++ extra := by
    rw [List.mem_append, not_or]
    exact ⟨flat, vacant.flat⟩
  rw [← List.append_assoc] at here
  rw [show later = r.cursor.nextLine.onward from left.symm] at goesOn
  exact yields.pastNewline abreast inside more ends closed here flat' ends' goesOn

theorem OpenBefore.place {later : List Char} (told : OpenBefore source tabSize later)
    (yields : (Lexer.ofText source tabSize).Yields contents) : ∃ before r,
      Lexer.Run (.ofText source tabSize) before r ∧ r.lineStart = false ∧ r.brackets ≠ [] ∧
      r.cursor.onward = later := by
  obtain ⟨k, token, told, opened, left⟩ := told
  obtain ⟨front, t, run, ended, -⟩ := yields
  have steady := Lexer.steady_ofText source tabSize
  obtain ⟨before, r, first, last, u, run', turn, asked⟩ := run.told steady ended told (.inr opened)
  rw [asked] at opened left
  have member : token ∈ first ++ token :: last := by simp
  have inside := turn.inside_of_opened (run'.steady steady) member opened
  exact ⟨_, u, run'.concat turn, inside, opened, left⟩

/-- A source yields the same after a change of its layout. -/
theorem Relaid.yields (edit : Relaid tabSize source source')
    (yields : (Lexer.ofText source tabSize).Yields contents) :
    (Lexer.ofText source' tabSize).Yields contents := by
  cases edit with
  | first vacant edited =>
    rw [← Lexer.onward_ofText source tabSize, ← Lexer.onward_ofText source' tabSize] at edited
    exact yields.insertLine (Lexer.abreast_ofText source source' tabSize) rfl vacant edited
  | @line front body later before here vacant edited =>
    obtain ⟨front', tail, here', relaid⟩ := before.relaid source' yields
    have split : front = front' ++ (tail ++ ['\n']) := by
      rw [here, List.append_cons, ← List.append_assoc, List.append_cancel_right_eq] at here'
      exact here'
    have none : Vacant [] := ⟨[], [], rfl, nofun, nofun, .inl rfl⟩
    refine relaid [] (body ++ '\n' :: later) none
      (by rw [edited, split]; simp) fun t t' contents abreast start left left' yields => ?_
    rw [← left] at left'
    exact yields.insertLine abreast start vacant left'
  | @trail front extra later before here vacant edited =>
    obtain ⟨front', tail, here', relaid⟩ := before.relaid source' yields
    have split : front = front' ++ tail := by
      rw [here, ← List.append_assoc, List.append_cancel_right_eq] at here'
      exact here'
    refine relaid extra later vacant (by rw [edited, split, List.append_assoc])
      fun t t' contents abreast _ left left' yields => ?_
    exact yields.abreast abreast (left'.trans left.symm)
  | @gap front passed spaces filling later before here isPassed some blank isFilling starts edited =>
    obtain ⟨told, r, run, inside, opened, left⟩ := before.place yields
    have same : UpToGap r.cursor.onward (passed ++ (filling ++ later)) := by
      obtain ⟨c, rest, rfl, plain⟩ := starts
      obtain ⟨space, spaces, rfl⟩ := List.exists_cons_of_ne_nil some
      rw [left]
      exact (UpToGap.gap (opensGap_of_isSpace (blank space List.mem_cons_self))
        (isFilling.opensGap plain)).append passed
    rw [← left] at here
    refine yields.relaid run here edited same fun r' contents abreast left' yields => ?_
    rw [← List.append_assoc] at left left'
    exact yields.fill abreast inside opened (isPassed.append (.of_spaces blank))
      (isPassed.append isFilling) left left'
  | @ending ending isEnding edited =>
    have lines : Source.lines source' = Source.lines source := by
      have isEnding' : ending.toList ∈ [['\n'], ['\r', '\n'], ['\r']] := by
        simp only [List.mem_cons, List.not_mem_nil, or_false] at isEnding
        rcases isEnding with rfl | rfl | rfl <;> decide
      rw [Source.lines, edited, Source.normalize_withEnding isEnding', Source.lines]
    have same : Lexer.ofText source' tabSize = Lexer.ofText source tabSize := by
      rw [Lexer.ofText, Cursor.ofText, lines]
      rfl
    rwa [same]

end

/-- The layout outside tokens is insignificant: however often it is changed, the source has tokens with the
same kinds and texts. -/
theorem layout_insignificant {tabSize : UInt64} {source source' : String} {tokens : List Token}
    (edits : Relation.ReflTransGen (Relaid tabSize) source source')
    (told : tokenize source tabSize = .ok tokens) :
    ∃ tokens', tokenize source' tabSize = .ok tokens' ∧
      tokens'.map Token.content = tokens.map Token.content := by
  refine Lexer.yields_ofText_iff.mp ?_
  induction edits with
  | refl => exact Lexer.yields_ofText_iff.mpr ⟨tokens, told, rfl⟩
  | tail _ edit ih => exact edit.yields ih

/-- Each kind of change once, the last of them to all line ends. -/
theorem layout_insignificant_five_edits : ∃ tokens,
    tokenize "#\r\nif x:\t#\r\n\t#\r\n  f(a,\r\n#\r\n b)\r\n" 8 = .ok tokens ∧
      tokens.map Token.content = [(.keyword .ifWord, "if"), (.identifier "x", "x"), (.punct .colon, ":"),
        (.newline, "\n"), (.indent, ""), (.identifier "f", "f"), (.punct .leftParen, "("),
        (.identifier "a", "a"), (.punct .comma, ","), (.identifier "b", "b"), (.punct .rightParen, ")"),
        (.newline, "\n"), (.dedent, ""), (.endMarker, "")] := by
  have told : tokenize "if x:\n  f(a, b)\n" 8 = .ok [
      ⟨.keyword .ifWord, "if", ⟨1, 1⟩⟩, ⟨.identifier "x", "x", ⟨1, 4⟩⟩, ⟨.punct .colon, ":", ⟨1, 5⟩⟩,
      ⟨.newline, "\n", ⟨1, 6⟩⟩, ⟨.indent, "", ⟨2, 3⟩⟩, ⟨.identifier "f", "f", ⟨2, 3⟩⟩,
      ⟨.punct .leftParen, "(", ⟨2, 4⟩⟩, ⟨.identifier "a", "a", ⟨2, 5⟩⟩, ⟨.punct .comma, ",", ⟨2, 6⟩⟩,
      ⟨.identifier "b", "b", ⟨2, 8⟩⟩, ⟨.punct .rightParen, ")", ⟨2, 9⟩⟩, ⟨.newline, "\n", ⟨2, 10⟩⟩,
      ⟨.dedent, "", ⟨3, 1⟩⟩, ⟨.endMarker, "", ⟨3, 1⟩⟩] := by decide +kernel
  have comment : Vacant ['#'] := ⟨[], ['#'], rfl, nofun, by decide, .inr ⟨[], rfl⟩⟩
  have indented : Vacant ['\t', '#'] :=
    ⟨['\t'], ['#'], rfl, List.forall_mem_singleton.mpr rfl, by decide, .inr ⟨[], rfl⟩⟩
  have folded : Filling ['\n', '#', '\n', ' '] := .feed (.comment List.not_mem_nil (.space rfl .nil))
  have first : Relaid 8 "if x:\n  f(a, b)\n" "#\nif x:\n  f(a, b)\n" :=
    .first comment (by decide +kernel)
  have before : NewlineBefore "#\nif x:\n  f(a, b)\n" 8 "  f(a, b)\n".toList :=
    ⟨3, ⟨.newline, "\n", ⟨2, 6⟩⟩, by decide +kernel, rfl, by decide +kernel⟩
  have line : Relaid 8 "#\nif x:\n  f(a, b)\n" "#\nif x:\n\t#\n  f(a, b)\n" :=
    .line before (show _ = "#\nif x:\n".toList ++ _ by decide +kernel) indented (by decide +kernel)
  have before' : NewlineBefore "#\nif x:\n\t#\n  f(a, b)\n" 8 "\t#\n  f(a, b)\n".toList :=
    ⟨3, ⟨.newline, "\n", ⟨2, 6⟩⟩, by decide +kernel, rfl, by decide +kernel⟩
  have trail : Relaid 8 "#\nif x:\n\t#\n  f(a, b)\n" "#\nif x:\t#\n\t#\n  f(a, b)\n" :=
    .trail before' (show _ = "#\nif x:".toList ++ _ by decide +kernel) indented (by decide +kernel)
  have opened : OpenBefore "#\nif x:\t#\n\t#\n  f(a, b)\n" 8 ([] ++ ([' '] ++ "b)\n".toList)) :=
    ⟨8, ⟨.punct .comma, ",", ⟨4, 6⟩⟩, by decide +kernel, by decide +kernel, by decide +kernel⟩
  have gap : Relaid 8 "#\nif x:\t#\n\t#\n  f(a, b)\n" "#\nif x:\t#\n\t#\n  f(a,\n#\n b)\n" :=
    .gap opened (show _ = "#\nif x:\t#\n\t#\n  f(a,".toList ++ _ by decide +kernel) .nil nofun
      (List.forall_mem_singleton.mpr rfl) folded ⟨_, _, rfl, by decide⟩ (by decide +kernel)
  have ending : Relaid 8 "#\nif x:\t#\n\t#\n  f(a,\n#\n b)\n"
      "#\r\nif x:\t#\r\n\t#\r\n  f(a,\r\n#\r\n b)\r\n" :=
    .ending (show "\r\n" ∈ _ by decide) (by decide +kernel)
  exact layout_insignificant (.tail (.tail (.tail (.tail (.tail .refl first) line) trail) gap) ending) told

end Offside
