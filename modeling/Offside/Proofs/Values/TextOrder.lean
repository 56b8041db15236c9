import Mathlib.Data.String.Basic
import Mathlib.Tactic.SplitIfs

/-!
# The order of text

Text is ordered by code points. `Text.lt_iff_utf8` says that this is also the order of the bytes that
encode it: a larger character has larger bytes from where the bytes differ, and they differ before
either character ends.
-/

namespace Offside.Text

/-- The bytes of a text. -/
def utf8 (text : String) : List UInt8 := text.toUTF8.data.toList

theorem utf8_eq (text : String) : utf8 text = text.toList.flatMap String.utf8EncodeChar := by
  show text.toByteArray.data.toList = _
  rw [← String.utf8Encode_toList, List.utf8Encode, List.data_toByteArray]

section Bytes

variable {m n : Nat}

theorem ofNat_lt_ofNat (byte : m < 256) (byte' : n < 256) :
    UInt8.ofNat m < UInt8.ofNat n ↔ m < n := by
  rw [UInt8.lt_iff_toNat_lt, UInt8.toNat_ofNat_of_lt' byte, UInt8.toNat_ofNat_of_lt' byte']

theorem ofNat_inj (byte : m < 256) (byte' : n < 256) : UInt8.ofNat m = UInt8.ofNat n ↔ m = n := by
  rw [← UInt8.toNat_inj, UInt8.toNat_ofNat_of_lt' byte, UInt8.toNat_ofNat_of_lt' byte']

end Bytes

/-- The first byte tells how many there are, and each byte after it has six bits of the code point. -/
theorem utf8EncodeChar_lt {c d : Char} (less : c < d) (rest rest' : List UInt8) :
    String.utf8EncodeChar c ++ rest < String.utf8EncodeChar d ++ rest' := by
  have smaller : c.val.toNat < d.val.toNat := UInt32.lt_iff_toNat_lt.mp less
  have limit : d.val.toNat < 0x110000 := by
    rcases d.valid with low | high
    · exact Nat.lt_trans low (by decide)
    · exact high.2
  have twice (n : Nat) : n / 4096 = n / 64 / 64 := by
    rw [Nat.div_div_eq_div_mul]
  have thrice (n : Nat) : n / 262144 = n / 64 / 64 / 64 := by
    rw [Nat.div_div_eq_div_mul, Nat.div_div_eq_div_mul]
  simp only [String.utf8EncodeChar]
  -- One case for each two lengths. Between equal lengths the digits to the base 64 decide.
  split_ifs <;>
    simp (disch := omega) only [List.cons_append, List.nil_append, List.cons_lt_cons_iff,
      ofNat_lt_ofNat, ofNat_inj, twice, thrice] <;>
    omega

theorem flatMap_utf8_lt {s t : List Char} (less : s < t) :
    s.flatMap String.utf8EncodeChar < t.flatMap String.utf8EncodeChar := by
  induction s generalizing t with
  | nil =>
    cases t with
    | nil => exact absurd less (List.lt_irrefl _)
    | cons d t =>
      obtain ⟨byte, bytes, encoded⟩ := List.exists_cons_of_ne_nil (@String.utf8EncodeChar_ne_nil d)
      rw [List.flatMap_cons, encoded]
      exact List.nil_lt_cons ..
  | cons c s ih =>
    cases t with
    | nil => exact absurd less (List.not_lt_nil _)
    | cons d t =>
      rw [List.flatMap_cons, List.flatMap_cons]
      rcases List.cons_lt_cons_iff.mp less with smaller | ⟨rfl, later⟩
      · exact utf8EncodeChar_lt smaller _ _
      · exact List.append_left_lt (ih later)

theorem lt_iff_utf8 (s t : String) : s < t ↔ utf8 s < utf8 t := by
  have forward {s t : String} (less : s < t) : utf8 s < utf8 t := by
    rw [utf8_eq, utf8_eq]
    exact flatMap_utf8_lt (String.lt_iff.mp less)
  refine ⟨forward, fun bytes => ?_⟩
  rcases lt_trichotomy s t with less | rfl | greater
  · exact less
  · exact absurd bytes (List.lt_irrefl _)
  · exact absurd bytes (List.lt_asymm (forward greater))

theorem utf8_inj {s t : String} : utf8 s = utf8 t ↔ s = t := by
  refine ⟨fun same => ?_, congrArg utf8⟩
  rcases lt_trichotomy s t with less | equal | greater
  · exact absurd ((lt_iff_utf8 s t).mp less) (same ▸ List.lt_irrefl _)
  · exact equal
  · exact absurd ((lt_iff_utf8 t s).mp greater) (same ▸ List.lt_irrefl _)

end Offside.Text
