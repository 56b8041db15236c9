import Offside.Proofs.Guards.Levels
import Offside.Proofs.Lexing.Lexemes
import Offside.Proofs.Lexing.Numerals

/-!
# String and bytes literals with guards

The body of a literal as code units, numbers of thirty-two bits of which nothing is known when they are put
on the list. They turn out to be the characters of the body (`body_eq`), in a bytes literal characters that
a byte holds (`body_small`), so that every unit of a text is a character and every unit of a bytes literal
is a byte (`string?_eq`).
-/

namespace Offside

theorem Reading.map_map {α β γ : Type} (f : α → β) (g : β → γ) (r : Reading α) :
    (r.map f).map g = r.map (g ∘ f) := by
  obtain ⟨count, outcome⟩ := r
  cases outcome <;> rfl

namespace Guarded

open StringLiteral (Form isAscii isPrefixLetter simpleEscape? hexLength?)

variable {bytes : Bool} {form : Form} {quote : Char} {pos start : Position} {taken : Nat}
  {cs digits decoded : List Char}

/-! ### Units -/

/-- The number that octal digits spell, in words of thirty-two bits. -/
def octal (digits : List Char) : UInt32 :=
  digits.foldl (fun unit c => unit * 8 + .ofNat (Decimal.digitValue c)) 0

/-- The number, or the largest that thirty-two bits hold. -/
def saturated (n : Nat) : UInt32 := .ofNat (min n 0xffffffff)

def hexadecimal (digits : List Char) : UInt32 :=
  digits.foldl (fun unit c => saturated ((saturated (unit.toNat * 16)).toNat + Decimal.digitValue c)) 0

/-- Reads what follows the backslash at `pos`. -/
def escape (bytes : Bool) (pos : Position) : List Char → Reading (List UInt32)
  | [] | '\n' :: _ => .error 0 (.unterminatedString pos)
  | c :: rest =>
    match simpleEscape? c with
    | some plain => .ok 1 [plain.val]
    | none =>
      if Decimal.isDigit 8 c then
        let digits := c :: (rest.take 2).takeWhile (Decimal.isDigit 8)
        .ok digits.length [if bytes then octal digits &&& 0xff else octal digits]
      else match hexLength? bytes c with
        | some length =>
          let digits := (rest.take length).takeWhile (Decimal.isDigit 16)
          if digits.length = length ∧ (hexadecimal digits).toNat.isValidChar then
            .ok (1 + length) [hexadecimal digits]
          else .error (1 + digits.length)
            (.invalidEscape (String.ofList ('\\' :: c :: digits)) pos)
        | none =>
          if bytes && !isAscii c then .error 1 (.nonAsciiBytes (pos.right 2))
          else .ok 1 ['\\'.val, c.val]

/-- Reads a body up to and including its quote. -/
def body (form : Form) (quote : Char) (start : Position) (taken : Nat) :
    List Char → Reading (List UInt32)
  | [] => .error taken (.unterminatedString start)
  | c :: rest =>
    if c = '\n' then .error taken (.unterminatedString start)
    else if c = quote then .ok (taken + 1) []
    else if c = '\\' then
      if form.raw then
        match rest with
        | next :: after =>
          if next = '\n' then .error (taken + 1) (.unterminatedString start)
          else if form.bytes && !isAscii next then
            .error (taken + 1) (.nonAsciiBytes (start.right (taken + 1)))
          else (body form quote start (taken + 2) after).map (c.val :: next.val :: ·)
        | [] => .error (taken + 1) (.unterminatedString start)
      else
        match escape form.bytes (start.right taken) rest with
        | ⟨count, .error e⟩ => .error (taken + 1 + count) e
        | ⟨count, .ok units⟩ =>
          (body form quote start (taken + 1 + count) (rest.drop count)).map (units ++ ·)
    else if form.bytes && !isAscii c then .error taken (.nonAsciiBytes (start.right taken))
    else (body form quote start (taken + 1) rest).map (c.val :: ·)
termination_by cs => cs.length
decreasing_by all_goals simp_all; try omega

def character (unit : UInt32) : Guarded Char :=
  if valid : unit.isValidChar then .ok ⟨unit, valid⟩ else .error (.character unit)

def byte (unit : UInt32) : Guarded UInt8 :=
  if unit.toNat < 256 then .ok unit.toUInt8 else .error (.byte unit)

/-- The token of a body. -/
def kind (form : Form) (units : List UInt32) : Guarded Token.Kind :=
  if form.bytes then return .bytes (← units.mapM byte)
  else return .str (String.ofList (← units.mapM character))

/-- The literal with a body that was read. -/
def literal (form : Form) (read : Reading (List UInt32)) : Guarded (Reading Token.Kind) :=
  match read.outcome with
  | .error e => .ok ⟨read.taken, .error e⟩
  | .ok units => return ⟨read.taken, .ok (← kind form units)⟩

/-- Reads a literal, or nothing if `cs` does not start one. -/
def string? (start : Position) (cs : List Char) : Guarded (Option (Reading Token.Kind)) :=
  let letters := (cs.take 2).takeWhile isPrefixLetter
  let lowered := letters.map Char.toLower
  match cs.drop letters.length with
  | quote :: rest =>
    if quote ≠ '\'' ∧ quote ≠ '"' then .ok none
    else if lowered.contains 'f' then
      .ok (some (.error 0 (.unsupportedPrefix (String.ofList letters) start)))
    else match Form.ofLetters? lowered with
    | none => .ok none
    | some form =>
      if rest.take 2 = [quote, quote] then .ok (some (.error 0 (.tripleQuotedString start)))
      else return some (← literal form (body form quote start (letters.length + 1) rest))
  | [] => .ok none

/-! ### The numbers -/

theorem natOf_lt {base : Nat} (all : ∀ c ∈ digits, Decimal.isDigit base c = true) :
    Decimal.natOf base digits < base ^ digits.length := by
  induction digits using List.reverseRecOn with
  | nil => exact Nat.one_pos
  | append_singleton digits c ih =>
    have before := ih fun d member => all d (List.mem_append_left _ member)
    have digit := all c (List.mem_append_right _ List.mem_cons_self)
    have small := of_decide_eq_true ((Bool.and_eq_true _ _).mp digit).2
    rw [Number.natOf_concat, List.length_append, List.length_singleton, Nat.pow_succ]
    calc
      base * Decimal.natOf base digits + Decimal.digitValue c
        < base * Decimal.natOf base digits + base := Nat.add_lt_add_left small _
      _ = (Decimal.natOf base digits + 1) * base := by rw [Nat.add_one_mul, Nat.mul_comm]
      _ ≤ base ^ digits.length * base := Nat.mul_le_mul_right _ before

theorem toNat_octal (small : Decimal.natOf 8 digits < 2 ^ 32) :
    (octal digits).toNat = Decimal.natOf 8 digits := by
  induction digits using List.reverseRecOn with
  | nil => rfl
  | append_singleton digits c ih =>
    rw [Number.natOf_concat] at small ⊢
    have before := ih (by omega)
    rw [octal] at before ⊢
    rw [List.foldl_append]
    show (_ * 8 + UInt32.ofNat (Decimal.digitValue c)).toNat = _
    rw [UInt32.toNat_add, UInt32.toNat_mul, before, UInt32.toNat_ofNat']
    have eight : (8 : UInt32).toNat = 8 := rfl
    rw [eight]
    omega

theorem toNat_saturated (n : Nat) : (saturated n).toNat = min n 0xffffffff := by
  rw [saturated, UInt32.toNat_ofNat', Nat.mod_eq_of_lt (by omega)]

theorem toNat_hexadecimal (digits : List Char) :
    (hexadecimal digits).toNat = min (Decimal.natOf 16 digits) 0xffffffff := by
  induction digits using List.reverseRecOn with
  | nil => rfl
  | append_singleton digits c ih =>
    rw [hexadecimal] at ih ⊢
    rw [List.foldl_append, Number.natOf_concat]
    show (saturated ((saturated (_ * 16)).toNat + Decimal.digitValue c)).toNat = _
    rw [ih, toNat_saturated, toNat_saturated]
    omega

theorem val_ofNat {n : Nat} (valid : n.isValidChar) : (Char.ofNat n).val.toNat = n := by
  rw [Char.ofNat, dif_pos valid]
  rfl

theorem hexadecimal_isValidChar (digits : List Char) :
    (hexadecimal digits).toNat.isValidChar ↔ (Decimal.natOf 16 digits).isValidChar := by
  rw [toNat_hexadecimal, Nat.isValidChar, Nat.isValidChar]
  omega

theorem hexadecimal_eq (valid : (Decimal.natOf 16 digits).isValidChar) :
    hexadecimal digits = (Char.ofNat (Decimal.natOf 16 digits)).val := by
  rw [← UInt32.toNat_inj, val_ofNat valid, toNat_hexadecimal]
  unfold Nat.isValidChar at valid
  omega

/-- Three octal digits are a character, and the last eight bits of them are one. -/
theorem octal_eq (few : digits.length ≤ 3) (all : ∀ c ∈ digits, Decimal.isDigit 8 c = true) :
    (if bytes then octal digits &&& 0xff else octal digits) =
      (Char.ofNat (if bytes then Decimal.natOf 8 digits % 256 else Decimal.natOf 8 digits)).val := by
  have small : Decimal.natOf 8 digits < 8 ^ 3 :=
    (natOf_lt all).trans_le (Nat.pow_le_pow_right (by decide) few)
  have whole := @toNat_octal digits (by omega)
  rw [← UInt32.toNat_inj, val_ofNat (.inl (by split <;> omega))]
  split
  · rw [UInt32.toNat_and, whole]
    exact Nat.and_two_pow_sub_one_eq_mod _ 8
  · exact whole

/-! ### The characters of a body -/

theorem escape_eq (bytes : Bool) (pos : Position) (cs : List Char) :
    escape bytes pos cs = (StringLiteral.escape bytes pos cs).map (List.map Char.val) := by
  fun_cases StringLiteral.escape bytes pos cs with
  | case1 => rfl
  | case2 => rfl
  | case3 c rest line plain known =>
    simp only [escape, known]
    rfl
  | case4 c rest line unknown digit digits value =>
    have few : digits.length ≤ 3 := by
      have := (List.takeWhile_sublist (Decimal.isDigit 8) (l := rest.take 2)).length_le
      rw [List.length_take] at this
      show (c :: _).length ≤ 3
      rw [List.length_cons]
      omega
    have all : ∀ d ∈ digits, Decimal.isDigit 8 d = true :=
      List.forall_mem_cons.mpr ⟨digit, fun d member => List.mem_takeWhile_imp member⟩
    have same := @octal_eq bytes _ few all
    simp only [escape, unknown, if_pos digit]
    exact congrArg (Reading.ok digits.length [·]) same
  | case5 c rest line unknown noDigit length known digits value whole =>
    have whole' := whole
    rw [← hexadecimal_isValidChar] at whole'
    simp only [escape, unknown, if_neg noDigit, known]
    rw [if_pos whole', hexadecimal_eq whole.2]
    rfl
  | case6 c rest line unknown noDigit length known digits value broken =>
    rw [← hexadecimal_isValidChar] at broken
    simp only [escape, unknown, if_neg noDigit, known]
    rw [if_neg broken]
    rfl
  | case7 c rest line unknown noDigit noLength foreign =>
    simp only [escape, unknown, if_neg noDigit, noLength, if_pos foreign]
    rfl
  | case8 c rest line unknown noDigit noLength own =>
    simp only [escape, unknown, if_neg noDigit, noLength, if_neg own]
    rfl

/-- The units of a body are its characters. -/
theorem body_eq (form : Form) (quote : Char) (start : Position) (taken : Nat) (cs : List Char) :
    body form quote start taken cs =
      (StringLiteral.body form quote start taken cs).map (List.map Char.val) := by
  fun_induction StringLiteral.body form quote start taken cs with
  | case1 =>
    rw [body.eq_def]
    rfl
  | case2 =>
    rw [body.eq_def]
    rfl
  | case3 taken rest line =>
    rw [body.eq_def]
    dsimp only
    rw [if_neg line, if_pos rfl]
    rfl
  | case4 taken raw after line other =>
    rw [body.eq_def]
    dsimp only
    rw [if_neg line, if_neg other, if_pos rfl, if_pos raw]
    rfl
  | case5 taken raw next after more foreign line other =>
    rw [body.eq_def]
    dsimp only
    rw [if_neg line, if_neg other, if_pos rfl, if_pos raw,
      if_neg more, if_pos foreign]
    rfl
  | case6 taken raw next after more own line other ih =>
    rw [body.eq_def]
    dsimp only
    rw [if_neg line, if_neg other, if_pos rfl, if_pos raw,
      if_neg more, if_neg own, ih, Reading.map_map, Reading.map_map]
    rfl
  | case7 taken raw line other =>
    rw [body.eq_def]
    dsimp only
    rw [if_neg line, if_neg other, if_pos rfl, if_pos raw]
    rfl
  | case8 taken rest cooked count e failed line other =>
    rw [body.eq_def]
    dsimp only
    rw [if_neg line, if_neg other, if_pos rfl, if_neg cooked, escape_eq, failed]
    rfl
  | case9 taken rest cooked count plain read line other ih =>
    have units : (⟨count, .ok plain⟩ : Reading (List Char)).map (List.map Char.val) =
        ⟨count, .ok (plain.map Char.val)⟩ := rfl
    rw [body.eq_def]
    dsimp only
    rw [if_neg line, if_neg other, if_pos rfl, if_neg cooked, escape_eq, read, units]
    dsimp only
    rw [ih, Reading.map_map, Reading.map_map]
    exact congrArg (Reading.map · _) (funext fun later => List.map_append.symm)
  | case10 taken c rest line other plain foreign =>
    rw [body.eq_def]
    dsimp only
    rw [if_neg line, if_neg other, if_neg plain, if_pos foreign]
    rfl
  | case11 taken c rest line other plain own ih =>
    rw [body.eq_def]
    dsimp only
    rw [if_neg line, if_neg other, if_neg plain, if_neg own, ih, Reading.map_map, Reading.map_map]
    rfl

theorem small_of_ascii {c : Char} (ascii : isAscii c = true) : c.toNat < 256 :=
  (of_decide_eq_true ascii).trans (by decide)

theorem escape_small {count : Nat} (isBytes : bytes = true)
    (read : StringLiteral.escape bytes pos cs = .ok count decoded) : ∀ c ∈ decoded, c.toNat < 256 := by
  have single : ∀ {c : Char}, c.toNat < 256 → ∀ d ∈ [c], d.toNat < 256 := fun small d member =>
    List.mem_singleton.mp member ▸ small
  have number : ∀ {n : Nat}, n < 256 → (Char.ofNat n).toNat < 256 := by
    intro n small
    have same : (Char.ofNat n).toNat = n := val_ofNat (.inl (by omega))
    omega
  revert read
  fun_cases StringLiteral.escape bytes pos cs with
  | case3 c rest line plain known =>
    rintro ⟨⟩
    refine single ?_
    unfold simpleEscape? at known
    split at known <;> cases known <;> decide
  | case4 =>
    rintro ⟨⟩
    refine single (number ?_)
    rw [if_pos isBytes]
    exact Nat.mod_lt _ (by decide)
  | case5 c rest line unknown noDigit length known digits value whole =>
    rintro ⟨⟩
    refine single (number ?_)
    have two : length = 2 := by
      rw [isBytes] at known
      unfold hexLength? at known
      split at known <;> cases known
      rfl
    have small := @natOf_lt digits 16 fun d member => List.mem_takeWhile_imp member
    rwa [whole.1, two] at small
  | case8 c rest line unknown noDigit noLength own =>
    rintro ⟨⟩
    rw [isBytes] at own
    exact List.forall_mem_cons.mpr ⟨by decide, single (small_of_ascii (by simpa using own))⟩
  | _ => exact nofun

/-- A byte holds each character of the body of a bytes literal. -/
theorem body_small {count : Nat} (isBytes : form.bytes = true)
    (read : StringLiteral.body form quote start taken cs = .ok count decoded) :
    ∀ c ∈ decoded, c.toNat < 256 := by
  have ascii : ∀ {c : Char}, ¬ (form.bytes && !isAscii c) = true → c.toNat < 256 := by
    intro c own
    rw [isBytes] at own
    exact small_of_ascii (by simpa using own)
  fun_induction StringLiteral.body form quote start taken cs generalizing decoded with
  | case3 =>
    cases read
    exact List.forall_mem_nil _
  | case6 taken raw next after more own line other ih =>
    obtain ⟨inner, readInner, rfl⟩ := Reading.map_eq_ok.mp read
    exact List.forall_mem_cons.mpr ⟨by decide, List.forall_mem_cons.mpr ⟨ascii own, ih readInner⟩⟩
  | case9 taken rest cooked count plain readEscape line other ih =>
    obtain ⟨inner, readInner, rfl⟩ := Reading.map_eq_ok.mp read
    exact List.forall_mem_append.mpr ⟨escape_small isBytes readEscape, ih readInner⟩
  | case11 taken c rest line other plain own ih =>
    obtain ⟨inner, readInner, rfl⟩ := Reading.map_eq_ok.mp read
    exact List.forall_mem_cons.mpr ⟨ascii own, ih readInner⟩
  | _ => cases read

/-! ### Literals -/

theorem mapM_eq {α β : Type} {f : α → Guarded β} {g : α → β} {list : List α}
    (all : ∀ a ∈ list, f a = .ok (g a)) : list.mapM f = .ok (list.map g) := by
  induction list with
  | nil => rfl
  | cons a list ih =>
    obtain ⟨first, later⟩ := List.forall_mem_cons.mp all
    rw [List.mapM_cons, first, ok_bind, ih later]
    rfl

theorem kind_eq (small : form.bytes = true → ∀ c ∈ decoded, c.toNat < 256) :
    kind form (decoded.map Char.val) = .ok (form.kind decoded) := by
  have characters : (decoded.map Char.val).mapM character = .ok decoded := by
    rw [List.mapM_map, mapM_eq (g := id) fun c _ => dif_pos c.valid, List.map_id]
  unfold kind Form.kind
  split
  · next isBytes =>
    have bytes : (decoded.map Char.val).mapM byte = .ok (decoded.map fun c => .ofNat c.toNat) := by
      rw [List.mapM_map]
      exact mapM_eq fun c member => if_pos (small isBytes c member)
    rw [bytes]
    rfl
  · rw [characters]
    rfl

/-- In every literal the units of a text are characters, and those of bytes are bytes. -/
theorem string?_eq (start : Position) (cs : List Char) :
    string? start cs = .ok (StringLiteral.read? start cs) := by
  have decoded : ∀ (form : Form) (quote : Char) (taken : Nat) (rest : List Char),
      literal form (body form quote start taken rest) =
        .ok ((StringLiteral.body form quote start taken rest).map form.kind) := by
    intro form quote taken rest
    rw [body_eq]
    cases read : StringLiteral.body form quote start taken rest with
    | mk count outcome =>
      cases outcome with
      | error e => rfl
      | ok decoded =>
        show (do return ⟨count, .ok (← kind form (decoded.map Char.val))⟩ : Guarded (Reading Token.Kind)) = _
        rw [kind_eq fun isBytes => body_small isBytes read]
        rfl
  unfold string? StringLiteral.read?
  dsimp only
  generalize cs.drop ((cs.take 2).takeWhile isPrefixLetter).length = later
  cases later with
  | nil => rfl
  | cons quote rest =>
    dsimp only
    split
    · rfl
    · split
      · rfl
      · cases Form.ofLetters? (((cs.take 2).takeWhile isPrefixLetter).map Char.toLower) with
        | none => rfl
        | some form =>
          dsimp only [Option.map_some]
          split
          · rfl
          · rw [decoded]
            rfl

end Guarded

end Offside
