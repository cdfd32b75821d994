import Ls8.Image
import Mathlib.Data.List.Forall2
import Mathlib.Data.List.TakeWhile
import Mathlib.Data.Nat.Digits.Defs

/-!
# The grammar of images

What an image may look like, said without the reader, and that the reader takes just that.

* `pieces`, `IsPayload`: the lines of a text, and what counts of a line.
* `IsByte`, `value`: a payload in binary digits, and the number that it denotes.
* `IsImage`: the bytes that the payloads stand for, if all can be taken.
* `Offends`, `FirstOffence`: a line that cannot be taken, what is wrong with it, and the first such
  line.
* `parse_iff_grammar`: a text is read to the bytes that its payloads stand for, or refused for its
  first offence.
-/

namespace Ls8

namespace Text

/-! ## Trimmed texts -/

/-- The content of a text is what stands between the blanks at its ends. -/
structure IsTrimmed (text content : List Char) : Prop where
  within : ∃ left right, text = left ++ content ++ right ∧
    (∀ c ∈ left, isBlank c = true) ∧ ∀ c ∈ right, isBlank c = true
  first : ∀ c, content.head? = some c → isBlank c = false
  last : ∀ c, content.getLast? = some c → isBlank c = false

theorem not_blank_of_head? {text : List Char} {c : Char}
    (h : (text.dropWhile isBlank).head? = some c) : isBlank c = false := by
  have hFirst := List.head?_dropWhile_not isBlank text
  rw [h] at hFirst
  exact hFirst

theorem trimEnd_append (text : List Char) :
    trimEnd text ++ (text.reverse.takeWhile isBlank).reverse = text := by
  rw [trimEnd, ← List.reverse_append, List.takeWhile_append_dropWhile, List.reverse_reverse]

theorem isTrimmed_trim (text : List Char) : IsTrimmed text (trim text) := by
  have hStart : text.takeWhile isBlank ++ trimStart text = text := List.takeWhile_append_dropWhile
  have hEnd := trimEnd_append (trimStart text)
  constructor
  · refine ⟨text.takeWhile isBlank, ((trimStart text).reverse.takeWhile isBlank).reverse,
      ?_, ?_, ?_⟩
    · rw [List.append_assoc, trim, hEnd, hStart]
    · intro c hc
      exact List.mem_takeWhile_imp hc
    · intro c hc
      exact List.mem_takeWhile_imp (List.mem_reverse.mp hc)
  · intro c hc
    have hFront : (trimStart text).head? = some c := by
      rw [← hEnd, List.head?_append]
      rw [trim] at hc
      rw [hc]
      rfl
    exact not_blank_of_head? hFront
  · intro c hc
    rw [trim, trimEnd, List.getLast?_reverse] at hc
    exact not_blank_of_head? hc

theorem dropWhile_of_head? {text : List Char} (h : ∀ c, text.head? = some c → isBlank c = false) :
    text.dropWhile isBlank = text := by
  cases text with
  | nil => rfl
  | cons c rest => simp [h c rfl]

/-- A text has only one content. -/
theorem isTrimmed_iff {text content : List Char} :
    IsTrimmed text content ↔ trim text = content := by
  constructor
  · rintro ⟨⟨left, right, rfl, hLeft, hRight⟩, first, last⟩
    have hStart : trimStart (left ++ content ++ right) = (content ++ right).dropWhile isBlank := by
      rw [trimStart, List.append_assoc, List.dropWhile_append_of_pos hLeft]
    rw [trim, hStart]
    by_cases hSome : content = []
    · have hNone : right.dropWhile isBlank = [] := List.dropWhile_eq_nil_iff.mpr hRight
      rw [hSome, List.nil_append, hNone]
      rfl
    · obtain ⟨c, rest, rfl⟩ := List.exists_cons_of_ne_nil hSome
      have hFront : ((c :: rest) ++ right).dropWhile isBlank = (c :: rest) ++ right :=
        dropWhile_of_head? first
      have hBack : (c :: rest).reverse.dropWhile isBlank = (c :: rest).reverse := by
        apply dropWhile_of_head?
        intro d hd
        rw [List.head?_reverse] at hd
        exact last d hd
      have hBlanks : ∀ d ∈ right.reverse, isBlank d = true := by
        intro d hd
        exact hRight d (List.mem_reverse.mp hd)
      rw [hFront, trimEnd, List.reverse_append, List.dropWhile_append_of_pos hBlanks, hBack,
        List.reverse_reverse]
  · rintro rfl
    exact isTrimmed_trim text

end Text

namespace Image

/-! ## Lines -/

/-- The pieces without the last one, if that is empty. -/
def dropLastEmpty (pieces : List (List Char)) : List (List Char) :=
  if pieces.getLast? = some [] then pieces.dropLast else pieces

/-- The lines of a text: it is split at the newlines, and an empty piece at the end does not
count. -/
def pieces (text : List Char) : List (List Char) := dropLastEmpty (text.splitOn '\n')

theorem dropLastEmpty_cons (piece : List Char) {rest : List (List Char)} (h : rest ≠ []) :
    dropLastEmpty (piece :: rest) = piece :: dropLastEmpty rest := by
  obtain ⟨next, rest, rfl⟩ := List.exists_cons_of_ne_nil h
  simp only [dropLastEmpty, List.getLast?_cons_cons, List.dropLast_cons_cons]
  split <;> rfl

theorem linesFrom_eq (line text : List Char) : linesFrom line text =
    dropLastEmpty ((text.splitOn '\n').modifyHead (line.reverse ++ ·)) := by
  induction text generalizing line with
  | nil => cases line <;> simp [linesFrom, dropLastEmpty]
  | cons c rest ih =>
    have hRest : rest.splitOn '\n' ≠ [] := List.splitOn_ne_nil '\n' rest
    by_cases hc : c = '\n'
    · have hSame : (rest.splitOn '\n').modifyHead ([] ++ ·) = rest.splitOn '\n' := by
        cases rest.splitOn '\n' <;> rfl
      rw [linesFrom, if_pos hc, ih, List.splitOn_cons_eq_if_modifyHead, if_pos (by simpa using hc),
        List.reverse_nil, hSame, List.modifyHead_cons, List.append_nil,
        dropLastEmpty_cons _ hRest]
    · rw [linesFrom, if_neg hc, ih, List.splitOn_cons_eq_if_modifyHead,
        if_neg (by simpa using hc), List.modifyHead_modifyHead]
      have hLine : ((c :: line).reverse ++ ·) = (line.reverse ++ ·) ∘ List.cons c := by
        funext piece
        simp
      rw [hLine]

theorem lines_eq_pieces (text : List Char) : lines text = pieces text := by
  rw [lines, linesFrom_eq, pieces]
  cases text.splitOn '\n' <;> rfl

/-! ## Payloads -/

/-- The payload of a line is the content of what stands before its first `#`, or of the whole line
if it has none. -/
def IsPayload (line payload : List Char) : Prop :=
  ∃ before comment, line = before ++ comment ∧ '#' ∉ before ∧
    (∀ c, comment.head? = some c → c = '#') ∧ Text.IsTrimmed before payload

theorem isPayload_iff {line content : List Char} :
    IsPayload line content ↔ payload line = content := by
  constructor
  · rintro ⟨before, comment, rfl, hBefore, hComment, hContent⟩
    have hOther : ∀ c ∈ before, (c != '#') = true := by
      intro c hc
      have hne : c ≠ '#' := by
        rintro rfl
        exact hBefore hc
      simpa using hne
    have hEnd : comment.takeWhile (· != '#') = [] := by
      cases comment with
      | nil => rfl
      | cons c rest => simp [hComment c rfl]
    rw [payload, List.takeWhile_append_of_pos hOther, hEnd, List.append_nil]
    exact Text.isTrimmed_iff.mp hContent
  · rintro rfl
    refine ⟨line.takeWhile (· != '#'), line.dropWhile (· != '#'),
      List.takeWhile_append_dropWhile.symm, ?_, ?_, Text.isTrimmed_trim _⟩
    · intro h
      have hOther := List.mem_takeWhile_imp h
      simp at hOther
    · intro c hc
      have hMark := List.head?_dropWhile_not (· != '#') line
      rw [hc] at hMark
      simpa using hMark

/-- Each line has exactly one payload. -/
theorem forall₂_isPayload_iff {lines payloads : List (List Char)} :
    List.Forall₂ IsPayload lines payloads ↔ payloads = lines.map payload := by
  have hSame : (IsPayload : List Char → List Char → Prop) = fun line content =>
      payload line = content := by
    funext line content
    exact propext isPayload_iff
  rw [hSame, ← List.forall₂_map_left_iff, List.forall₂_eq_eq_eq]
  exact eq_comm

/-! ## Binary literals -/

def bit (c : Char) : Nat := if c = '1' then 1 else 0

def isBit (c : Char) : Bool := c = '0' || c = '1'

theorem isBit_iff {c : Char} : isBit c = true ↔ c = '0' ∨ c = '1' := by
  simp [isBit]

theorem all_isBit_iff {text : List Char} :
    text.all isBit = true ↔ ∀ c ∈ text, c = '0' ∨ c = '1' := by
  simp [isBit]

/-- The number that a payload denotes, its last character being the lowest digit. -/
def value (payload : List Char) : Nat := Nat.ofDigits 2 (payload.reverse.map bit)

/-- The payload has no other characters than `0` and `1`, however many, and denotes a byte. -/
structure IsByte (payload : List Char) : Prop where
  digits : ∀ c ∈ payload, c = '0' ∨ c = '1'
  small : value payload ≤ 255

instance (payload : List Char) : Decidable (IsByte payload) :=
  decidable_of_iff (payload.all isBit = true ∧ value payload ≤ 255)
    ⟨fun h => ⟨all_isBit_iff.mp h.1, h.2⟩, fun h => ⟨all_isBit_iff.mpr h.digits, h.small⟩⟩

theorem value_cons (c : Char) (rest : List Char) :
    value (c :: rest) = bit c * 2 ^ rest.length + value rest := by
  simp only [value, List.reverse_cons, List.map_append, List.map_cons, List.map_nil,
    Nat.ofDigits_append, Nat.ofDigits_singleton, List.length_map, List.length_reverse]
  rw [Nat.mul_comm, Nat.add_comm]

theorem digit?_two (c : Char) :
    Text.digit? 2 c = if isBit c then some (bit c) else none := by
  by_cases hDigit : isBit c = true
  · rw [if_pos hDigit]
    rcases isBit_iff.mp hDigit with rfl | rfl <;> rfl
  · rw [if_neg hDigit]
    rw [isBit_iff, not_or] at hDigit
    have hZero : c.toNat ≠ 48 := fun h => hDigit.1 (Char.toNat_inj.mp h)
    have hOne : c.toNat ≠ 49 := fun h => hDigit.2 (Char.toNat_inj.mp h)
    have hCode : c.val.toNat = c.toNat := rfl
    have hLow : '0'.val.toNat = 48 := rfl
    have hBase : '0'.toNat = 48 := rfl
    simp only [Text.digit?, Char.le_def, UInt32.le_iff_toNat_le, hCode, hLow, hBase]
    split
    · simp only [Option.filter_some, decide_eq_true_eq]
      rw [if_neg (by omega)]
    · -- The letters that may follow stand for ten and more.
      split
      · simp only [Option.filter_some, decide_eq_true_eq]
        rw [if_neg (by omega)]
      · split
        · simp only [Option.filter_some, decide_eq_true_eq]
          rw [if_neg (by omega)]
        · rfl

/-- Further digits after some that denote `high`. -/
theorem foldl_digit? (high : Nat) (text : List Char) :
    text.foldl (fun total c => do return (← total) * 2 + (← Text.digit? 2 c)) (some high) =
      if text.all isBit then some (high * 2 ^ text.length + value text) else none := by
  induction text generalizing high with
  | nil => simp [value]
  | cons c rest ih =>
    rw [List.foldl_cons, digit?_two]
    by_cases hc : isBit c = true
    · rw [if_pos hc]
      have hNext : (do return (← some high) * 2 + (← some (bit c))) = some (high * 2 + bit c) := rfl
      rw [hNext, ih, value_cons, List.length_cons]
      have hSum : (high * 2 + bit c) * 2 ^ rest.length + value rest =
          high * 2 ^ (rest.length + 1) + (bit c * 2 ^ rest.length + value rest) := by ring
      simp only [List.all_cons, hc, Bool.true_and, hSum]
    · rw [if_neg hc]
      have hStuck : rest.foldl (fun total c => do return (← total) * 2 + (← Text.digit? 2 c)) none =
          none := by
        clear ih
        induction rest with
        | nil => rfl
        | cons d rest ih => exact ih
      rw [if_neg (by simp [hc])]
      exact hStuck

theorem digits?_two {payload : List Char} (h : payload ≠ []) : Text.digits? 2 payload =
    if payload.all isBit then some (value payload) else none := by
  rw [Text.digits?, if_neg (by simpa using h), foldl_digit?, Nat.zero_mul, Nat.zero_add]

theorem literal?_of_byte {payload : List Char} (hSome : payload ≠ []) (h : IsByte payload) :
    literal? payload = some (value payload).toUInt8 := by
  have hSmall := h.small
  rw [literal?, digits?_two hSome, if_pos (all_isBit_iff.mpr h.digits), Option.filter_some,
    if_pos (by simp; omega)]
  rfl

theorem literal?_of_not_byte {payload : List Char} (hSome : payload ≠ []) (h : ¬IsByte payload) :
    literal? payload = none := by
  rw [literal?, digits?_two hSome]
  by_cases hDigits : payload.all isBit = true
  · have hLarge : ¬value payload < 256 := by
      intro hSmall
      exact h ⟨all_isBit_iff.mp hDigits, by omega⟩
    rw [if_pos hDigits, Option.filter_some, if_neg (by simpa using hLarge)]
    rfl
  · rw [if_neg hDigits]
    rfl

/-! ## Images and offences -/

/-- The bytes are those that the payloads denote, of which at most `room` are there. -/
structure IsImage (room : Nat) (payloads : List (List Char)) (bytes : List UInt8) : Prop where
  good : ∀ payload ∈ payloads, payload ≠ [] → IsByte payload
  fits : (payloads.filter (· ≠ [])).length ≤ room
  values : bytes.map UInt8.toNat = (payloads.filter (· ≠ [])).map value

/-- The payloads that take an address. -/
def literals (payloads : List (List Char)) : List (List Char) :=
  payloads.filter fun payload => payload ≠ [] ∧ IsByte payload

/-- What is wrong with the line at an index, where the first line has the given number and there is
room for so many bytes. -/
inductive Offends (number room : Nat) (payloads : List (List Char)) (i : Nat) :
    ImageError → Prop where
  /-- The line has a payload that is no byte in binary. -/
  | literal {payload : List Char} (here : payloads[i]? = some payload) (some : payload ≠ [])
      (bad : ¬IsByte payload) :
    Offends number room payloads i (.invalidLiteral (number + i) (String.ofList payload))
  /-- The line has the first byte that there is no room for. -/
  | surplus {payload : List Char} (here : payloads[i]? = some payload) (some : payload ≠ [])
      (good : IsByte payload) (full : (literals (payloads.take i)).length = room) :
    Offends number room payloads i .tooLarge

/-- The first line that offends, and how. -/
def FirstOffence (number room : Nat) (payloads : List (List Char)) (error : ImageError) : Prop :=
  ∃ i, Offends number room payloads i error ∧
    ∀ j < i, ∀ other, ¬Offends number room payloads j other

/-! ## One line -/

section

variable {number room : Nat} {line : List Char} {rest : List (List Char)}

theorem parseFrom_of_blank (h : payload line = []) :
    parseFrom number room (line :: rest) = parseFrom (number + 1) room rest := by
  simp [parseFrom, h]

theorem parseFrom_of_bad (hSome : payload line ≠ []) (h : ¬IsByte (payload line)) :
    parseFrom number room (line :: rest) =
      .error (.invalidLiteral number (String.ofList (payload line))) := by
  simp [parseFrom, hSome, literal?_of_not_byte hSome h]

theorem parseFrom_of_full (hSome : payload line ≠ []) (h : IsByte (payload line)) :
    parseFrom number 0 (line :: rest) = .error .tooLarge := by
  simp [parseFrom, hSome, literal?_of_byte hSome h]

theorem parseFrom_of_byte (hSome : payload line ≠ []) (h : IsByte (payload line)) :
    parseFrom number (room + 1) (line :: rest) =
      ((value (payload line)).toUInt8 :: ·) <$> parseFrom (number + 1) room rest := by
  simp [parseFrom, hSome, literal?_of_byte hSome h]

end

section

variable {number room : Nat} {payload : List Char} {rest : List (List Char)} {error : ImageError}

theorem offends_zero_iff : Offends number room (payload :: rest) 0 error ↔ payload ≠ [] ∧
    (¬IsByte payload ∧ error = .invalidLiteral number (String.ofList payload) ∨
      IsByte payload ∧ room = 0 ∧ error = .tooLarge) := by
  constructor
  · rintro (⟨here, hSome, bad⟩ | ⟨here, hSome, good, full⟩) <;> cases here
    · exact ⟨hSome, Or.inl ⟨bad, rfl⟩⟩
    · exact ⟨hSome, Or.inr ⟨good, full.symm, rfl⟩⟩
  · rintro ⟨hSome, ⟨bad, rfl⟩ | ⟨good, rfl, rfl⟩⟩
    · exact .literal rfl hSome bad
    · exact .surplus rfl hSome good rfl

/-- What is wrong with a later line does not depend on the first one, which may have taken some of
the room. -/
theorem offends_succ_iff {i : Nat} :
    Offends number ((literals [payload]).length + room) (payload :: rest) (i + 1) error ↔
      Offends (number + 1) room rest i error := by
  have hLiterals : (literals ((payload :: rest).take (i + 1))).length =
      (literals [payload]).length + (literals (rest.take i)).length := by
    rw [← List.length_append, literals, literals, literals, ← List.filter_append]
    rfl
  have hNumber : number + (i + 1) = number + 1 + i := by omega
  constructor
  · rintro (⟨here, hSome, bad⟩ | ⟨here, hSome, good, full⟩)
    · rw [hNumber]
      exact .literal here hSome bad
    · exact .surplus here hSome good (by omega)
  · rintro (⟨here, hSome, bad⟩ | ⟨here, hSome, good, full⟩)
    · rw [← hNumber]
      exact .literal here hSome bad
    · exact .surplus here hSome good (by omega)

theorem firstOffence_of_zero (h : Offends number room (payload :: rest) 0 error)
    (other : ImageError) : FirstOffence number room (payload :: rest) other ↔ other = error := by
  constructor
  · rintro ⟨i, hi, hFirst⟩
    have hZero : i = 0 := by
      by_contra hne
      exact hFirst 0 (by omega) error h
    subst hZero
    rw [offends_zero_iff] at h hi
    rcases h.2 with ⟨bad, rfl⟩ | ⟨good, -, rfl⟩ <;> rcases hi.2 with ⟨bad', rfl⟩ | ⟨good', -, rfl⟩
    · rfl
    · exact (bad good').elim
    · exact (bad' good).elim
    · rfl
  · rintro rfl
    exact ⟨0, h, fun j hj => absurd hj (Nat.not_lt_zero j)⟩

theorem firstOffence_cons
    (h : ∀ other, ¬Offends number ((literals [payload]).length + room) (payload :: rest) 0 other) :
    FirstOffence number ((literals [payload]).length + room) (payload :: rest) error ↔
      FirstOffence (number + 1) room rest error := by
  constructor
  · rintro ⟨i, hi, hFirst⟩
    cases i with
    | zero => exact (h error hi).elim
    | succ i =>
      refine ⟨i, offends_succ_iff.mp hi, fun j hj other hOther => ?_⟩
      exact hFirst (j + 1) (by omega) other (offends_succ_iff.mpr hOther)
  · rintro ⟨i, hi, hFirst⟩
    refine ⟨i + 1, offends_succ_iff.mpr hi, fun j hj other hOther => ?_⟩
    cases j with
    | zero => exact h other hOther
    | succ j => exact hFirst j (by omega) other (offends_succ_iff.mp hOther)

end

theorem isImage_nil {room : Nat} {bytes : List UInt8} : IsImage room [] bytes ↔ bytes = [] := by
  constructor
  · intro h
    simpa using h.values
  · rintro rfl
    exact ⟨by simp, by simp, rfl⟩

theorem isImage_cons_nil {room : Nat} {rest : List (List Char)} {bytes : List UInt8} :
    IsImage room ([] :: rest) bytes ↔ IsImage room rest bytes := by
  constructor
  · intro h
    exact ⟨fun other hOther => h.good other (List.mem_cons_of_mem _ hOther), by simpa using h.fits,
      by simpa using h.values⟩
  · intro h
    refine ⟨fun other hOther hSome => ?_, by simpa using h.fits, by simpa using h.values⟩
    rcases List.mem_cons.mp hOther with rfl | hOther
    · exact (hSome rfl).elim
    · exact h.good other hOther hSome

theorem isImage_cons {room : Nat} {payload : List Char} {rest : List (List Char)}
    {bytes : List UInt8} (hSome : payload ≠ []) (hByte : IsByte payload) :
    IsImage (room + 1) (payload :: rest) bytes ↔
      ∃ tail, IsImage room rest tail ∧ (value payload).toUInt8 :: tail = bytes := by
  have hFilter : (payload :: rest).filter (· ≠ []) = payload :: rest.filter (· ≠ []) := by
    simp [hSome]
  have hValue : (value payload).toUInt8.toNat = value payload := by
    have hSmall := hByte.small
    simp
    omega
  constructor
  · rintro ⟨good, fits, values⟩
    rw [hFilter] at fits values
    cases bytes with
    | nil => simp at values
    | cons first tail =>
      rw [List.map_cons, List.map_cons, List.cons.injEq] at values
      obtain ⟨hFirst, hTail⟩ := values
      refine ⟨tail, ⟨fun other hOther => good other (List.mem_cons_of_mem _ hOther), ?_, hTail⟩, ?_⟩
      · simpa using fits
      · rw [← hFirst]
        simp
  · rintro ⟨tail, ⟨good, fits, values⟩, rfl⟩
    refine ⟨fun other hOther hOtherSome => ?_, ?_, ?_⟩
    · rcases List.mem_cons.mp hOther with rfl | hOther
      · exact hByte
      · exact good other hOther hOtherSome
    · rw [hFilter, List.length_cons]
      omega
    · rw [hFilter, List.map_cons, List.map_cons, hValue, values]

/-! ## All lines -/

theorem parseFrom_eq_ok_iff {number room : Nat} {lines : List (List Char)} {bytes : List UInt8} :
    parseFrom number room lines = .ok bytes ↔ IsImage room (lines.map payload) bytes := by
  induction lines generalizing number room bytes with
  | nil =>
    rw [List.map_nil, isImage_nil]
    simp [parseFrom, eq_comm]
  | cons line rest ih =>
    rw [List.map_cons]
    by_cases hSome : payload line = []
    · rw [parseFrom_of_blank hSome, ih, hSome, isImage_cons_nil]
    · by_cases hByte : IsByte (payload line)
      · cases room with
        | zero =>
          have hNone : ¬IsImage 0 (payload line :: rest.map payload) bytes := by
            intro h
            have hFits := h.fits
            simp [hSome] at hFits
          rw [parseFrom_of_full hSome hByte]
          exact iff_of_false nofun hNone
        | succ room =>
          have hTail : ∀ tail, IsImage room (rest.map payload) tail ↔
              parseFrom (number + 1) room rest = .ok tail := fun _ => ih.symm
          rw [parseFrom_of_byte hSome hByte, isImage_cons hSome hByte]
          simp only [hTail]
          cases parseFrom (number + 1) room rest <;> simp
      · have hNone : ¬IsImage room (payload line :: rest.map payload) bytes := fun h =>
          hByte (h.good _ List.mem_cons_self hSome)
        rw [parseFrom_of_bad hSome hByte]
        exact iff_of_false nofun hNone

theorem parseFrom_eq_error_iff {number room : Nat} {lines : List (List Char)}
    {error : ImageError} :
    parseFrom number room lines = .error error ↔
      FirstOffence number room (lines.map payload) error := by
  induction lines generalizing number room with
  | nil =>
    refine iff_of_false nofun ?_
    rintro ⟨i, ⟨here, -, -⟩ | ⟨here, -, -, -⟩, -⟩ <;> cases here
  | cons line rest ih =>
    rw [List.map_cons]
    by_cases hSome : payload line = []
    · have hNone : (literals [payload line]).length = 0 := by simp [literals, hSome]
      have hStep : FirstOffence number ((literals [payload line]).length + room)
          (payload line :: rest.map payload) error ↔
            FirstOffence (number + 1) room (rest.map payload) error :=
        firstOffence_cons fun other h => (offends_zero_iff.mp h).1 hSome
      rw [hNone, Nat.zero_add] at hStep
      rw [parseFrom_of_blank hSome, ih, hStep]
    · by_cases hByte : IsByte (payload line)
      · cases room with
        | zero =>
          rw [parseFrom_of_full hSome hByte,
            firstOffence_of_zero (offends_zero_iff.mpr ⟨hSome, Or.inr ⟨hByte, rfl, rfl⟩⟩)]
          simp [eq_comm]
        | succ room =>
          have hOne : (literals [payload line]).length = 1 := by simp [literals, hSome, hByte]
          have hStep : FirstOffence number ((literals [payload line]).length + room)
              (payload line :: rest.map payload) error ↔
                FirstOffence (number + 1) room (rest.map payload) error := by
            apply firstOffence_cons
            intro other h
            rcases (offends_zero_iff.mp h).2 with ⟨bad, -⟩ | ⟨-, hFull, -⟩
            · exact bad hByte
            · omega
          rw [hOne, Nat.add_comm] at hStep
          rw [parseFrom_of_byte hSome hByte, hStep, ← ih]
          cases parseFrom (number + 1) room rest <;> simp
      · rw [parseFrom_of_bad hSome hByte,
          firstOffence_of_zero (offends_zero_iff.mpr ⟨hSome, Or.inl ⟨hByte, rfl⟩⟩)]
        simp [eq_comm]

/-- Memory has a cell for each byte of an image. -/
theorem length_le_of_parse {source : String} {image : List UInt8} (h : parse source = .ok image) :
    image.length ≤ Memory.size := by
  have hImage := parseFrom_eq_ok_iff.mp h
  have hLength := congrArg List.length hImage.values
  rw [List.length_map, List.length_map] at hLength
  exact hLength.trans_le hImage.fits

theorem length_le_of_ofFile {path : String} {contents : Contents} {image : List UInt8}
    (h : ofFile path contents = .ok image) : image.length ≤ Memory.size := by
  unfold ofFile at h
  split at h
  · cases h
  · cases h
  · cases h
  · split at h
    · cases h
    · exact length_le_of_parse h

/-- A text is never refused for the file that it comes from. -/
theorem parse_error_cases {source : String} {error : ImageError} (h : parse source = .error error) :
    (∃ line payload, error = .invalidLiteral line payload) ∨ error = .tooLarge := by
  obtain ⟨i, hOffends, -⟩ := parseFrom_eq_error_iff.mp h
  cases hOffends with
  | literal => exact Or.inl ⟨_, _, rfl⟩
  | surplus => exact Or.inr rfl

/-- **Images are read by their grammar.** Each line of a text has exactly one payload. The text is
read to the bytes that the payloads denote, in the order of the lines, if each payload that is not
empty is a byte in binary and memory has a cell for each. Else the error is that of the first line
that has a bad payload, or has the first byte that there is no cell for. -/
theorem parse_iff_grammar (source : String) : ∃ payloads,
    (∀ read, List.Forall₂ IsPayload (pieces source.toList) read ↔ read = payloads) ∧
      (∀ bytes, parse source = .ok bytes ↔ IsImage Memory.size payloads bytes) ∧
      ∀ error, parse source = .error error ↔ FirstOffence 1 Memory.size payloads error := by
  refine ⟨(lines source.toList).map payload, fun read => ?_, fun _ => parseFrom_eq_ok_iff,
    fun _ => parseFrom_eq_error_iff⟩
  rw [lines_eq_pieces]
  exact forall₂_isPayload_iff

end Image

end Ls8
