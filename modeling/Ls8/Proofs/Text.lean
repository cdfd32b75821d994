import Ls8.Text.Radix
import Ls8.Text.Unsigned
import Mathlib.Data.Nat.Digits.Defs

/-!
# Texts that are read back

* `foldl_digit?_toDigits`: the digits of a number are read as that number, in any base.
* `digits?_toDigits`, `unsigned?_toDigits`: so are decimal numerals. Hence no two numbers have the
  same (`repr_injective`). `unsigned?_lt`: what is read is below the bound.
* `fromUTF8?_toUTF8`: the bytes of a text are read as that text.
* `bytes_ofList`, `utf8ByteSize_ofList`: a text in ASCII has a byte for each character.
* `Radix.IsHex`: a hexadecimal numeral in capitals. `Radix.isHex_digits`: what is shown of a number
  is one, zeros in front or not. `Radix.length_digits_eq_iff`: which numbers fit the least width.
-/

namespace Ls8.Text

/-! ## Digits -/

section

variable {base : Nat}

theorem exists_digitChar_of_mem (hBase : 1 < base) {n : Nat} {c : Char}
    (h : c ∈ Nat.toDigits base n) : ∃ d < base, c = Nat.digitChar d := by
  induction n using Nat.strongRecOn with
  | ind n ih =>
    rw [Nat.toDigits_eq_if hBase] at h
    split at h
    · next hSmall => exact ⟨n, hSmall, List.mem_singleton.mp h⟩
    · next hLarge =>
      rcases List.mem_append.mp h with hFront | hLast
      · have hQuotient : n / base < n := Nat.div_lt_self (by omega) hBase
        exact ih (n / base) hQuotient hFront
      · exact ⟨n % base, Nat.mod_lt n (by omega), List.mem_singleton.mp hLast⟩

/-- The digits of a number are read as that number, however a digit is shown if only it is read as
its value. The last of them is read after the numeral of the quotient. -/
theorem foldl_digit?_toDigits (hBase : 1 < base) (shown : Char → Char)
    (h : ∀ d < base, digit? base (shown (Nat.digitChar d)) = some d) (n : Nat) :
    ((Nat.toDigits base n).map shown).foldl
      (fun total c => do return (← total) * base + (← digit? base c)) (some 0) = some n := by
  induction n using Nat.strongRecOn with
  | ind n ih =>
    rw [Nat.toDigits_eq_if hBase]
    split
    · next hSmall =>
      rw [List.map_singleton, List.foldl_cons, h n hSmall]
      simp
    · next hLarge =>
      have hQuotient : n / base < n := Nat.div_lt_self (by omega) hBase
      have hDigit := h (n % base) (Nat.mod_lt n (by omega))
      rw [List.map_append, List.foldl_append, ih (n / base) hQuotient, List.map_singleton,
        List.foldl_cons, hDigit]
      simp [Nat.div_add_mod']

end

/-! ## Decimal numerals -/

theorem digit?_digitChar : ∀ d < 10, digit? 10 (Nat.digitChar d) = some d := by
  decide

theorem isDigit_of_mem_toDigits {n : Nat} {c : Char} (h : c ∈ Nat.toDigits 10 n) :
    c.isDigit = true :=
  Nat.isDigit_of_mem_toDigits (by decide) (by decide) h

theorem digits?_toDigits (n : Nat) : digits? 10 (Nat.toDigits 10 n) = some n := by
  have hSome : ¬(Nat.toDigits 10 n).isEmpty = true := by simp [Nat.toDigits_ne_nil]
  have hValue := foldl_digit?_toDigits (by decide) id digit?_digitChar n
  rw [List.map_id] at hValue
  rw [digits?, if_neg hSome, hValue]

theorem repr_injective : Function.Injective Nat.repr := by
  intro n m h
  have hDigits := congrArg String.toList h
  rw [Nat.toList_repr, Nat.toList_repr] at hDigits
  rw [← Option.some_inj, ← digits?_toDigits, hDigits, digits?_toDigits]

/-- A numeral begins with a digit. -/
theorem exists_toDigits_eq_cons (n : Nat) :
    ∃ c rest, Nat.toDigits 10 n = c :: rest ∧ c.isDigit = true := by
  have hSome : Nat.toDigits 10 n ≠ [] := Nat.toDigits_ne_nil
  obtain ⟨c, rest, hDigits⟩ := List.exists_cons_of_ne_nil hSome
  have hMem : c ∈ Nat.toDigits 10 n := by
    rw [hDigits]
    exact List.mem_cons_self
  exact ⟨c, rest, hDigits, isDigit_of_mem_toDigits hMem⟩

theorem unsigned?_toDigits {n bound : Nat} (h : n < bound) :
    unsigned? bound (Nat.toDigits 10 n) = some n := by
  obtain ⟨c, rest, hDigits, hDigit⟩ := exists_toDigits_eq_cons n
  have hValue := digits?_toDigits n
  rw [hDigits] at hValue ⊢
  unfold unsigned?
  split
  · rename_i hPlus
    cases hPlus
    cases hDigit
  · simp only [hValue, Option.filter_some, h, decide_true, if_true]

theorem unsigned?_lt {bound n : Nat} {text : List Char} (h : unsigned? bound text = some n) :
    n < bound := by
  unfold unsigned? at h
  obtain ⟨-, hBound⟩ := Option.filter_eq_some_iff.mp h
  exact of_decide_eq_true hBound

/-! ## Bytes of texts -/

theorem fromUTF8?_toUTF8 (text : String) : String.fromUTF8? text.toUTF8 = some text :=
  dif_pos text.isValidUTF8

/-- The bytes of a text in ASCII are those of its characters. -/
theorem bytes_ofList {text : List Char} (h : ∀ c ∈ text, c.toNat ≤ 127) :
    (String.ofList text).toUTF8.data.toList = text.map fun c => c.val.toUInt8 := by
  rw [String.toUTF8_eq_toByteArray, String.toByteArray_ofList, List.utf8Encode,
    List.data_toByteArray]
  induction text with
  | nil => rfl
  | cons c rest ih =>
    rw [List.forall_mem_cons] at h
    have hOne : c.utf8Size = 1 := Char.utf8Size_eq_one_iff.mpr (UInt32.le_iff_toNat_le.mpr h.1)
    rw [List.flatMap_cons, String.utf8EncodeChar_eq_singleton hOne, List.map_cons, ← ih h.2]
    rfl

theorem utf8ByteSize_ofList {text : List Char} (h : ∀ c ∈ text, c.toNat ≤ 127) :
    (String.ofList text).utf8ByteSize = text.length := by
  have hLength := congrArg List.length (bytes_ofList h)
  rw [List.length_map] at hLength
  exact hLength

theorem toUInt8_ne {c d : Char} (hc : c.toNat ≤ 127) (hd : d.toNat ≤ 127) (h : c ≠ d) :
    c.val.toUInt8 ≠ d.val.toUInt8 := by
  intro hSame
  have hBytes : c.toNat % 256 = d.toNat % 256 := congrArg UInt8.toNat hSame
  exact h (Char.toNat_inj.mp (by omega))

end Ls8.Text

namespace Ls8.Radix

/-! ## Hexadecimal numerals -/

/-- A hexadecimal digit, which is a capital if it is a letter. -/
def IsDigit (c : Char) : Prop := '0' ≤ c ∧ c ≤ '9' ∨ 'A' ≤ c ∧ c ≤ 'F'

instance (c : Char) : Decidable (IsDigit c) :=
  inferInstanceAs (Decidable ('0' ≤ c ∧ c ≤ '9' ∨ 'A' ≤ c ∧ c ≤ 'F'))

/-- The text is a hexadecimal numeral in capitals, which is read as `n`. -/
structure IsHex (n : Nat) (text : List Char) : Prop where
  digits : ∀ c ∈ text, IsDigit c
  value : Text.digits? 16 text = some n

theorem IsHex.unique {n m : Nat} {text : List Char} (h : IsHex n text) (h' : IsHex m text) :
    n = m :=
  Option.some.inj (h.value.symm.trans h'.value)

theorem IsHex.not_mem {n : Nat} {text : List Char} (h : IsHex n text) {c : Char}
    (hc : ¬IsDigit c) : c ∉ text :=
  fun hMem => hc (h.digits c hMem)

theorem isDigit_digitChar : ∀ d < 16, IsDigit (Nat.digitChar d).toUpper := by
  decide

theorem digit?_digitChar : ∀ d < 16, Text.digit? 16 (Nat.digitChar d).toUpper = some d := by
  decide

/-- Zeros in front do not count. -/
theorem foldl_digit?_replicate (count : Nat) : (List.replicate count '0').foldl
    (fun total c => do return (← total) * 16 + (← Text.digit? 16 c)) (some 0) = some 0 := by
  induction count with
  | zero => rfl
  | succ count ih => exact ih

theorem isHex_digits (width n : Nat) : IsHex n (digits 16 width n) where
  digits c hc := by
    rw [digits, List.mem_append] at hc
    rcases hc with hZero | hShown
    · rw [List.eq_of_mem_replicate hZero]
      decide
    · obtain ⟨c, hMem, rfl⟩ := List.mem_map.mp hShown
      obtain ⟨d, hd, rfl⟩ := Text.exists_digitChar_of_mem (by decide) hMem
      exact isDigit_digitChar d hd
  value := by
    have hSome : ¬(digits 16 width n).isEmpty = true := by simp [digits, Nat.toDigits_ne_nil]
    rw [Text.digits?, if_neg hSome, digits, List.foldl_append, foldl_digit?_replicate,
      Text.foldl_digit?_toDigits (by decide) Char.toUpper digit?_digitChar]

theorem length_digits (base width n : Nat) :
    (digits base width n).length = max width (Nat.toDigits base n).length := by
  simp only [digits, List.length_append, List.length_replicate, List.length_map]
  omega

theorem length_digits_eq_iff {base width n : Nat} (hBase : 1 < base) (hWidth : 0 < width) :
    (digits base width n).length = width ↔ n < base ^ width := by
  rw [length_digits, ← Nat.length_toDigits_le_iff hBase hWidth]
  omega

end Ls8.Radix
