import Ls8.Json.Reader
import Ls8.Json.Writer
import Ls8.Proofs.Text
import Mathlib.Data.List.Basic
import Mathlib.Data.List.Induction

/-!
# JSON text read back

A value that is written, on one line or over several, is read as that value.

* `IsPlain`: the values that have a text of their own.
* `text?_escaped`, `number?_toDigits`: strings, with all that has to be escaped in them, and numbers.
* `Layout`, `Spells`: the texts of a value, with blanks between its parts.
* `Reads`: that such a text is read back, whatever comes after it. `items?_spread` and
  `members?_spread` say it of the parts of an array and of an object, `reads_of_spells` of a value.
* `spells_compact`, `spells_pretty`: what is written is such a text. `parse?_compact`,
  `parse?_pretty`: a whole text.
-/

namespace Ls8.Json

/-! ## Strings -/

/-- The characters of a string between its quotes. -/
def escaped (text : List Char) : List Char := text.flatMap fun c => (escape c).toList

theorem quote_toList (text : String) :
    (quote text).toList = '"' :: (escaped text.toList ++ ['"']) := by
  have hFold : ∀ (chars : List Char) (shown : String),
      (chars.foldl (fun shown c => shown ++ escape c) shown).toList =
        shown.toList ++ escaped chars := by
    intro chars
    induction chars with
    | nil =>
      intro shown
      simp [escaped]
    | cons c rest ih =>
      intro shown
      rw [List.foldl_cons, ih, String.toList_append, List.append_assoc, escaped, escaped,
        List.flatMap_cons]
  rw [quote, String.foldl_eq_foldl_toList, String.toList_append, hFold]
  rfl

/-- The characters that stand for a character in a string. -/
inductive StandsFor (c : Char) : List Char → Prop where
  /-- Its code in hexadecimal. -/
  | code {d₁ d₂ d₃ d₄ : Char} (digits : Text.digits? 16 [d₁, d₂, d₃, d₄] = some c.toNat)
      (small : c.toNat < 0x20) : StandsFor c ['\\', 'u', d₁, d₂, d₃, d₄]
  | letter {letter : Char} (other : letter ≠ 'u') (short : shortEscape? letter = some c) :
      StandsFor c ['\\', letter]
  | self (unquoted : c ≠ '"') (unescaped : c ≠ '\\') (large : 0x20 ≤ c.toNat) : StandsFor c [c]

theorem digits?_hex : ∀ code < 0x20, ((Radix.hex 4 code).map Char.toLower).toList.length = 4 ∧
    Text.digits? 16 ((Radix.hex 4 code).map Char.toLower).toList = some code := by
  decide +kernel

theorem standsFor_code {c : Char} (h : c.toNat < 0x20) :
    StandsFor c ("\\u" ++ (Radix.hex 4 c.toNat).map Char.toLower).toList := by
  obtain ⟨hLength, hDigits⟩ := digits?_hex c.toNat h
  obtain ⟨d₁, d₂, d₃, d₄, hHex⟩ := List.length_eq_four.mp hLength
  rw [hHex] at hDigits
  rw [String.toList_append, hHex]
  exact .code hDigits h

theorem standsFor_escape (c : Char) : StandsFor c (escape c).toList := by
  unfold escape
  split
  · exact .letter (by decide) rfl
  · exact .letter (by decide) rfl
  · exact .letter (by decide) rfl
  · exact .letter (by decide) rfl
  · exact .letter (by decide) rfl
  · exact .letter (by decide) rfl
  · exact .letter (by decide) rfl
  · rename_i hQuote hSlash _ _ _ _ _
    split
    · rename_i hSmall
      exact standsFor_code hSmall
    · have hSingle : c.toString.toList = [c] := String.toList_singleton c
      rw [hSingle]
      exact .self hQuote hSlash (by omega)

theorem stringUnits?_of_standsFor {c : Char} {chars : List Char} (h : StandsFor c chars)
    (read : List StringUnit) (rest : List Char) :
    stringUnits? read (chars ++ rest) = stringUnits? (.char c :: read) rest := by
  cases h with
  | code digits small =>
    have hUnit : StringUnit.ofCode c.toNat = .char c := by
      rw [StringUnit.ofCode, if_neg (by omega), Char.ofNat_toNat]
    simp only [List.cons_append, List.nil_append, stringUnits?, digits, hUnit]
  | letter other short =>
    rw [List.cons_append, List.cons_append, List.nil_append, stringUnits?, short]
    intro _ _ _ _ _ hCode
    exact absurd hCode other
  | self unquoted unescaped large =>
    have hAllowed : ¬(c = '\\' ∨ c.toNat < 0x20) := by
      rintro (hSame | hSmall)
      · exact unescaped hSame
      · omega
    rw [List.cons_append, List.nil_append, stringUnits?, if_neg hAllowed]
    · exact unquoted
    · intro _ _ _ _ _ hSame
      exact absurd hSame unescaped
    · intro _ _ hSame
      exact absurd hSame unescaped

/-- The units of a string are its characters. -/
theorem stringUnits?_escaped (text : List Char) (read : List StringUnit) (rest : List Char) :
    stringUnits? read (escaped text ++ '"' :: rest) =
      some ((text.map .char).reverse ++ read, rest) := by
  induction text generalizing read with
  | nil => rfl
  | cons c text ih =>
    have hFirst : escaped (c :: text) = (escape c).toList ++ escaped text := List.flatMap_cons
    rw [hFirst, List.append_assoc, stringUnits?_of_standsFor (standsFor_escape c), ih,
      List.map_cons, List.reverse_cons, List.append_assoc]
    rfl

theorem charsOfUnits_map (text : List Char) (chars : List Char) :
    charsOfUnits chars ((text.map StringUnit.char).reverse) = some (text ++ chars) := by
  induction text using List.reverseRecOn generalizing chars with
  | nil => rfl
  | append_singleton text c ih =>
    rw [List.map_append, List.reverse_append, List.append_assoc]
    exact ih (c :: chars)

/-- **A string is read as it was written.** -/
theorem text?_escaped (text : String) (rest : List Char) :
    text? (escaped text.toList ++ '"' :: rest) = some (some text, rest) := by
  simp only [text?, stringUnits?_escaped, Option.map_some, List.append_nil, charsOfUnits_map,
    String.ofList_toList]

/-! ## Numbers -/

/-- What may come after a value. -/
def Ends (rest : List Char) : Prop :=
  ∀ c ∈ rest.head?, isSpace c = true ∨ c = ',' ∨ c = ']' ∨ c = '\x7d'

theorem isSpace_iff {c : Char} :
    isSpace c = true ↔ c = ' ' ∨ c = '\n' ∨ c = '\t' ∨ c = '\r' := by
  simp [isSpace, or_assoc]

/-- What ends a value is no part of a number. -/
theorem Ends.cases {rest : List Char} (h : Ends rest) :
    rest = [] ∨ ∃ c others, rest = c :: others ∧ c.isDigit = false ∧ c ∉ ['.', 'e', 'E'] := by
  cases rest with
  | nil => exact Or.inl rfl
  | cons c others =>
    refine Or.inr ⟨c, others, rfl, ?_⟩
    have hFirst := h c rfl
    rw [isSpace_iff] at hFirst
    rcases hFirst with (rfl | rfl | rfl | rfl) | rfl | rfl | rfl <;> decide

/-- A numeral has no zero in front. -/
theorem head?_toDigits {n : Nat} (h : 0 < n) : (Nat.toDigits 10 n).head? ≠ some '0' := by
  induction n using Nat.strongRecOn with
  | ind n ih =>
    rcases Nat.lt_or_ge n 10 with hSmall | hLarge
    · rw [Nat.toDigits_of_lt_base hSmall]
      intro hZero
      have hDigit : Nat.digitChar n = '0' := Option.some.inj hZero
      rw [Nat.digitChar_eq_zero] at hDigit
      omega
    · have hPart := ih (n / 10) (by omega) (by omega)
      rwa [Nat.toDigits_of_base_le (by decide) hLarge,
        List.head?_append_of_ne_nil _ Nat.toDigits_ne_nil]

theorem takeWhile_isDigit {rest : List Char} (h : Ends rest) :
    rest.takeWhile Char.isDigit = [] := by
  obtain rfl | ⟨c, others, rfl, hDigit, -⟩ := h.cases
  · rfl
  · exact List.takeWhile_cons_of_neg (by simp [hDigit])

theorem whole?_toDigits (n : Nat) {rest : List Char} (h : Ends rest) :
    whole? (Nat.toDigits 10 n ++ rest) = some (Nat.toDigits 10 n, rest) := by
  have hDigits : (Nat.toDigits 10 n ++ rest).takeWhile Char.isDigit = Nat.toDigits 10 n := by
    rw [List.takeWhile_append_of_pos fun c => Text.isDigit_of_mem_toDigits, takeWhile_isDigit h,
      List.append_nil]
  simp only [whole?, hDigits, List.drop_left]
  split
  · rename_i hNone
    exact absurd hNone Nat.toDigits_ne_nil
  · rename_i hZero
    rcases Nat.eq_zero_or_pos n with rfl | hPos
    · cases hZero
    · exact absurd (congrArg List.head? hZero) (head?_toDigits hPos)
  · rfl

theorem fraction?_of_ends {rest : List Char} (h : Ends rest) :
    fraction? rest = some ([], rest) := by
  unfold fraction?
  split
  · obtain hNone | ⟨_, _, hSome, -, hOther⟩ := h.cases
    · cases hNone
    · cases hSome
      exact absurd List.mem_cons_self hOther
  · rfl

theorem exponent?_of_ends {rest : List Char} (h : Ends rest) :
    exponent? rest = some ([], rest) := by
  obtain rfl | ⟨c, others, rfl, -, hOther⟩ := h.cases
  · rfl
  · simp only [List.mem_cons, List.not_mem_nil, or_false, not_or] at hOther
    rw [exponent?, if_neg (not_or.mpr hOther.2)]

theorem number?_toDigits (n : Nat) {rest : List Char} (h : Ends rest) :
    number? (Nat.toDigits 10 n ++ rest) = some (natural n, rest) := by
  obtain ⟨c, digits, hDigits, hDigit⟩ := Text.exists_toDigits_eq_cons n
  unfold number?
  split
  rename_i hSplit
  split at hSplit
  · rename_i hMinus
    rw [hDigits] at hMinus
    cases hMinus
    cases hDigit
  · cases hSplit
    simp only [whole?_toDigits n h, fraction?_of_ends h, exponent?_of_ends h,
      Text.digits?_toDigits, Option.bind_eq_bind, Option.bind_some]
    rfl

/-! ## Values -/

/-- A value with a text of its own: its strings are texts, and its numbers natural. -/
inductive IsPlain : Json → Prop where
  | null : IsPlain null
  | bool (value : Bool) : IsPlain (bool value)
  | natural (value : Nat) : IsPlain (natural value)
  | string (value : String) : IsPlain (string value)
  | array {items : List Json} (plain : ∀ item ∈ items, IsPlain item) : IsPlain (array items)
  | object {members : List (String × Json)} (plain : ∀ member ∈ members, IsPlain member.2) :
      IsPlain (object members)

theorem isPlain_ofBytes (bytes : List UInt8) : (ofBytes bytes).IsPlain := by
  refine .array fun item hItem => ?_
  obtain ⟨byte, -, rfl⟩ := List.mem_map.mp hItem
  exact .natural _

/-! ## Texts of values -/

/-- The blanks that stand before each part of an array or of an object, before its end, and after
the colon of a member. -/
structure Layout where
  before : List Char
  closing : List Char
  colon : List Char
  before_blank : ∀ c ∈ before, isSpace c = true
  closing_blank : ∀ c ∈ closing, isSpace c = true
  colon_blank : ∀ c ∈ colon, isSpace c = true

namespace Layout

/-- Texts of parts one after another, with a comma between any two. -/
def spread (layout : Layout) : List (List Char) → List Char
  | [] => []
  | [text] => layout.before ++ text ++ layout.closing
  | text :: next :: texts => layout.before ++ text ++ ',' :: layout.spread (next :: texts)

/-- The text of a member of an object, with the text of its value. -/
def member (layout : Layout) (key : String) (text : List Char) : List Char :=
  '"' :: (escaped key.toList ++ '"' :: ':' :: (layout.colon ++ text))

end Layout

/-- Texts of a value, in which the parts of an array or of an object are laid out in any way. -/
inductive Spells : Json → List Char → Prop where
  | null : Spells null "null".toList
  | bool (value : Bool) : Spells (bool value) (scalar (bool value)).toList
  | natural (value : Nat) : Spells (natural value) (Nat.toDigits 10 value)
  | string (value : String) : Spells (string value) ('"' :: (escaped value.toList ++ ['"']))
  | array (layout : Layout) {parts : List (Json × List Char)}
      (spelled : ∀ part ∈ parts, Spells part.1 part.2) :
      Spells (array (parts.map Prod.fst)) ('[' :: (layout.spread (parts.map Prod.snd) ++ [']']))
  | object (layout : Layout) {parts : List ((String × Json) × List Char)}
      (spelled : ∀ part ∈ parts, Spells part.1.2 part.2) :
      Spells (object (parts.map Prod.fst))
        ('\x7b' :: (layout.spread (parts.map fun part => layout.member part.1.1 part.2) ++ ['\x7d']))

theorem isSpace_of_isDigit {c : Char} (h : c.isDigit = true) : isSpace c = false := by
  simp only [isSpace, Bool.or_eq_false_iff, decide_eq_false_iff_not]
  refine ⟨⟨⟨?_, ?_⟩, ?_⟩, ?_⟩ <;> rintro rfl <;> cases h

/-- The text of a value does not begin like the end of an array, or with a blank. -/
theorem Spells.exists_eq_cons {value : Json} {text : List Char} (h : Spells value text) :
    ∃ c rest, text = c :: rest ∧ isSpace c = false ∧ c ≠ ']' := by
  cases h with
  | null => exact ⟨_, _, rfl, rfl, by decide⟩
  | bool value => cases value <;> exact ⟨_, _, rfl, rfl, by decide⟩
  | natural value =>
    obtain ⟨c, digits, hDigits, hDigit⟩ := Text.exists_toDigits_eq_cons value
    refine ⟨c, digits, hDigits, isSpace_of_isDigit hDigit, ?_⟩
    rintro rfl
    cases hDigit
  | string value => exact ⟨_, _, rfl, rfl, by decide⟩
  | array layout spelled => exact ⟨_, _, rfl, rfl, by decide⟩
  | object layout spelled => exact ⟨_, _, rfl, rfl, by decide⟩

theorem skipSpace_of_not_isSpace {c : Char} (h : isSpace c = false) (rest : List Char) :
    skipSpace (c :: rest) = c :: rest :=
  List.dropWhile_cons_of_neg (by simp [h])

theorem skipSpace_append {blanks : List Char} (h : ∀ c ∈ blanks, isSpace c = true)
    (rest : List Char) : skipSpace (blanks ++ rest) = skipSpace rest :=
  List.dropWhile_append_of_pos h

theorem Spells.skipSpace {value : Json} {text : List Char} (h : Spells value text)
    (rest : List Char) : skipSpace (text ++ rest) = text ++ rest := by
  obtain ⟨c, others, rfl, hSpace, -⟩ := h.exists_eq_cons
  exact skipSpace_of_not_isSpace hSpace _

theorem Layout.skipSpace_spread (layout : Layout) {text : List Char} {c : Char}
    {chars : List Char} (hText : text = c :: chars) (hSpace : isSpace c = false)
    (texts : List (List Char)) (rest : List Char) :
    ∃ others, skipSpace (layout.spread (text :: texts) ++ rest) = c :: others := by
  cases texts <;>
  · simp only [Layout.spread, List.append_assoc]
    rw [skipSpace_append layout.before_blank, hText]
    exact ⟨_, skipSpace_of_not_isSpace hSpace _⟩

theorem ends_cons {c : Char} (h : c = ',' ∨ c = ']' ∨ c = '\x7d') (rest : List Char) :
    Ends (c :: rest) := by
  rintro _ ⟨⟩
  exact Or.inr h

theorem ends_append {blanks : List Char} (hBlanks : ∀ c ∈ blanks, isSpace c = true) {c : Char}
    (h : c = ',' ∨ c = ']' ∨ c = '\x7d') (rest : List Char) : Ends (blanks ++ c :: rest) := by
  cases blanks with
  | nil => exact ends_cons h rest
  | cons blank blanks =>
    rintro _ ⟨⟩
    exact Or.inl (hBlanks blank List.mem_cons_self)

/-- A text is read as a value, whatever ends it, by as much fuel as its length needs. -/
def Reads (value : Json) (text : List Char) : Prop := ∀ fuel rest, 2 * text.length ≤ fuel →
  Ends rest → value? fuel (text ++ rest) = some (value, rest)

section

variable (layout : Layout)

/-- The items of an array that is not empty. -/
theorem items?_spread {part : Json × List Char} {parts : List (Json × List Char)}
    (hSpelled : ∀ one ∈ part :: parts, Spells one.1 one.2)
    (hReads : ∀ one ∈ part :: parts, Reads one.1 one.2) (read : List Json) (rest : List Char)
    (fuel : Nat) (hFuel : 2 * (layout.spread ((part :: parts).map Prod.snd)).length < fuel) :
    items? fuel read (skipSpace (layout.spread ((part :: parts).map Prod.snd) ++ ']' :: rest)) =
      some (array (read.reverse ++ (part :: parts).map Prod.fst), rest) := by
  induction parts generalizing part read fuel with
  | nil =>
    obtain ⟨fuel, rfl⟩ : ∃ less, fuel = less + 1 := ⟨fuel - 1, by omega⟩
    obtain ⟨hPart, -⟩ := List.forall_mem_cons.mp hSpelled
    simp only [List.map_cons, List.map_nil, Layout.spread, List.length_append, List.append_assoc]
      at hFuel ⊢
    have hValue := hReads part List.mem_cons_self fuel (layout.closing ++ ']' :: rest) (by omega)
      (ends_append layout.closing_blank (by simp) _)
    rw [skipSpace_append layout.before_blank, hPart.skipSpace, items?, hValue]
    simp only [skipSpace_append layout.closing_blank,
      skipSpace_of_not_isSpace (rfl : isSpace ']' = false), List.reverse_cons]
  | cons next parts ih =>
    obtain ⟨fuel, rfl⟩ : ∃ less, fuel = less + 1 := ⟨fuel - 1, by omega⟩
    obtain ⟨hPart, hSpelledRest⟩ := List.forall_mem_cons.mp hSpelled
    obtain ⟨hRead, hReadsRest⟩ := List.forall_mem_cons.mp hReads
    simp only [List.map_cons, Layout.spread, List.length_append, List.length_cons,
      List.append_assoc, List.cons_append] at hFuel ih ⊢
    have hValue := hRead fuel (',' :: (layout.spread (next.2 :: parts.map Prod.snd) ++
      ']' :: rest)) (by omega) (ends_cons (by simp) _)
    have hRest := ih hSpelledRest hReadsRest (part.1 :: read) fuel (by omega)
    rw [skipSpace_append layout.before_blank, hPart.skipSpace, items?, hValue]
    simp only [skipSpace_of_not_isSpace (rfl : isSpace ',' = false), hRest, List.reverse_cons,
      List.append_assoc, List.cons_append, List.nil_append]

/-- One member of an object, up to what ends its value, and what comes after it. -/
theorem members?_member {value : Json} {text : List Char} (hSpelled : Spells value text)
    (hReads : Reads value text) (key : String) (read : List (Option String × Json))
    {rest : List Char} (hEnds : Ends rest) {fuel : Nat} (hFuel : 2 * text.length ≤ fuel) :
    (∀ more, skipSpace rest = ',' :: more →
      members? (fuel + 1) read (layout.member key text ++ rest) =
        members? fuel ((some key, value) :: read) (skipSpace more)) ∧
    ∀ more, skipSpace rest = '\x7d' :: more →
      members? (fuel + 1) read (layout.member key text ++ rest) =
        some (ofMembers ((some key, value) :: read), more) := by
  have hText : layout.member key text ++ rest =
      '"' :: (escaped key.toList ++ '"' :: ':' :: (layout.colon ++ (text ++ rest))) := by
    simp [Layout.member]
  constructor <;>
  · intro more hMore
    rw [hText, members?]
    simp only [text?_escaped, skipSpace_of_not_isSpace (rfl : isSpace ':' = false),
      skipSpace_append layout.colon_blank, hSpelled.skipSpace, hReads fuel rest hFuel hEnds, hMore]

theorem Layout.length_member (key : String) (text : List Char) :
    text.length < (layout.member key text).length := by
  simp only [Layout.member, List.length_cons, List.length_append]
  omega

/-- The members of an object that is not empty. -/
theorem members?_spread {part : (String × Json) × List Char}
    {parts : List ((String × Json) × List Char)}
    (hSpelled : ∀ one ∈ part :: parts, Spells one.1.2 one.2)
    (hReads : ∀ one ∈ part :: parts, Reads one.1.2 one.2) (read : List (Option String × Json))
    (rest : List Char) (fuel : Nat) (hFuel : 2 * (layout.spread
      ((part :: parts).map fun one => layout.member one.1.1 one.2)).length < fuel) :
    members? fuel read (skipSpace (layout.spread
        ((part :: parts).map fun one => layout.member one.1.1 one.2) ++ '\x7d' :: rest)) =
      some (ofMembers (((part :: parts).map fun one => (some one.1.1, one.1.2)).reverse ++ read),
        rest) := by
  have hQuote (part : (String × Json) × List Char) (rest : List Char) :
      skipSpace (layout.member part.1.1 part.2 ++ rest) = layout.member part.1.1 part.2 ++ rest :=
    skipSpace_of_not_isSpace rfl _
  induction parts generalizing part read fuel with
  | nil =>
    obtain ⟨fuel, rfl⟩ : ∃ less, fuel = less + 1 := ⟨fuel - 1, by omega⟩
    have hLess := layout.length_member part.1.1 part.2
    simp only [List.map_cons, List.map_nil, Layout.spread, List.length_append, List.append_assoc]
      at hFuel ⊢
    have hMember := members?_member layout (hSpelled part List.mem_cons_self)
      (hReads part List.mem_cons_self) part.1.1 read
      (ends_append layout.closing_blank (Or.inr (Or.inr rfl)) rest)
      (show 2 * part.2.length ≤ fuel by omega)
    have hClosing : skipSpace (layout.closing ++ '\x7d' :: rest) = '\x7d' :: rest :=
      (skipSpace_append layout.closing_blank _).trans (skipSpace_of_not_isSpace rfl rest)
    rw [skipSpace_append layout.before_blank, hQuote, hMember.2 _ hClosing]
    rfl
  | cons next parts ih =>
    obtain ⟨fuel, rfl⟩ : ∃ less, fuel = less + 1 := ⟨fuel - 1, by omega⟩
    obtain ⟨hPart, hSpelledRest⟩ := List.forall_mem_cons.mp hSpelled
    obtain ⟨hRead, hReadsRest⟩ := List.forall_mem_cons.mp hReads
    have hLess := layout.length_member part.1.1 part.2
    simp only [List.map_cons, Layout.spread, List.length_append, List.length_cons,
      List.append_assoc, List.cons_append] at hFuel ih ⊢
    have hMember := members?_member layout hPart hRead part.1.1 read
      (ends_cons (Or.inl rfl) (layout.spread (layout.member next.1.1 next.2 ::
        parts.map fun one => layout.member one.1.1 one.2) ++ '\x7d' :: rest))
      (show 2 * part.2.length ≤ fuel by omega)
    have hRest := ih hSpelledRest hReadsRest ((some part.1.1, part.1.2) :: read) fuel (by omega)
    rw [skipSpace_append layout.before_blank, hQuote,
      hMember.1 _ (skipSpace_of_not_isSpace rfl _), hRest]
    simp only [List.reverse_cons, List.append_assoc, List.cons_append, List.nil_append]

end

theorem ofMembers_map (members : List (String × Json)) :
    ofMembers ((members.map fun part => (some part.1, part.2)).reverse) = object members := by
  have hAll : (members.map fun part => (some part.1, part.2)).mapM
      (fun member : Option String × Json => member.1.map (·, member.2)) = some members := by
    induction members with
    | nil => rfl
    | cons member rest ih =>
      rw [List.map_cons, List.mapM_cons, ih]
      rfl
  simp only [ofMembers, List.reverse_reverse, hAll]

/-- A text that begins with a digit is a number. -/
theorem value?_of_isDigit {c : Char} (h : c.isDigit = true) (fuel : Nat) (rest : List Char) :
    value? (fuel + 1) (c :: rest) = number? (c :: rest) := by
  unfold value?
  split <;> first | rfl | cases h

/-- **Every text of a value is read as the value.** -/
theorem reads_of_spells {value : Json} {text : List Char} (h : Spells value text) :
    Reads value text := by
  induction h with
  | null =>
    intro fuel rest hFuel _
    obtain ⟨fuel, rfl⟩ := Nat.exists_eq_add_of_le' (show 1 ≤ fuel from hFuel.trans' (by decide))
    rfl
  | bool value =>
    intro fuel rest hFuel _
    obtain ⟨fuel, rfl⟩ := Nat.exists_eq_add_of_le'
      (show 1 ≤ fuel from hFuel.trans' (by cases value <;> decide))
    cases value <;> rfl
  | natural value =>
    intro fuel rest hFuel hEnds
    obtain ⟨c, digits, hDigits, hDigit⟩ := Text.exists_toDigits_eq_cons value
    rw [hDigits, List.length_cons] at hFuel
    obtain ⟨fuel, rfl⟩ : ∃ less, fuel = less + 1 := ⟨fuel - 1, by omega⟩
    rw [hDigits, List.cons_append, value?_of_isDigit hDigit, ← List.cons_append, ← hDigits,
      number?_toDigits value hEnds]
  | string value =>
    intro fuel rest hFuel _
    rw [List.length_cons] at hFuel
    obtain ⟨fuel, rfl⟩ : ∃ less, fuel = less + 1 := ⟨fuel - 1, by omega⟩
    rw [List.cons_append, List.append_assoc]
    simp only [value?, List.cons_append, List.nil_append, text?_escaped]
  | @array layout parts spelled ih =>
    intro fuel rest hFuel hEnds
    rw [List.length_cons, List.length_append] at hFuel
    obtain ⟨fuel, rfl⟩ : ∃ less, fuel = less + 1 := ⟨fuel - 1, by omega⟩
    cases parts with
    | nil => rfl
    | cons part parts =>
      have hItems := items?_spread layout spelled ih [] rest fuel (by omega)
      obtain ⟨c, chars, hText, hSpace, hOpen⟩ := (spelled part List.mem_cons_self).exists_eq_cons
      obtain ⟨others, hOthers⟩ := layout.skipSpace_spread hText hSpace (parts.map Prod.snd)
        (']' :: rest)
      rw [List.map_cons, hOthers] at hItems
      rw [List.cons_append, List.append_assoc]
      simp only [value?, List.cons_append, List.nil_append, List.map_cons, hOthers]
      split
      · rename_i hClosed
        exact absurd (List.cons.inj hClosed).1 hOpen
      · exact hItems
  | @object layout parts spelled ih =>
    intro fuel rest hFuel hEnds
    rw [List.length_cons, List.length_append] at hFuel
    obtain ⟨fuel, rfl⟩ : ∃ less, fuel = less + 1 := ⟨fuel - 1, by omega⟩
    cases parts with
    | nil => rfl
    | cons part parts =>
      have hMembers := members?_spread layout spelled ih [] rest fuel (by omega)
      obtain ⟨others, hOthers⟩ := layout.skipSpace_spread
        (rfl : layout.member part.1.1 part.2 = '"' :: _) rfl
        (parts.map fun one => layout.member one.1.1 one.2) ('\x7d' :: rest)
      have hWhole := ofMembers_map ((part :: parts).map Prod.fst)
      rw [List.map_map] at hWhole
      rw [List.append_nil, List.map_cons, hOthers] at hMembers
      rw [List.cons_append, List.append_assoc]
      simp only [value?, List.cons_append, List.nil_append, List.map_cons, hOthers]
      exact hMembers.trans (congrArg (fun whole => some (whole, rest)) hWhole)

/-- Every text of a value, with nothing around it, is the text of that value. -/
theorem parse?_of_spells {value : Json} {text : String} (h : Spells value text.toList) :
    parse? text = some value := by
  have hRead := reads_of_spells h (2 * text.toList.length + 2) [] (by omega) nofun
  have hStart := h.skipSpace []
  rw [List.append_nil] at hRead hStart
  simp only [parse?, hStart, hRead]
  rfl

/-! ## What is written -/

theorem isSpace_of_mem_deeper {indent : String} (h : ∀ c ∈ indent.toList, isSpace c = true) :
    ∀ c ∈ (indent ++ "  ").toList, isSpace c = true := by
  rw [String.toList_append]
  exact List.forall_mem_append.mpr ⟨h, by simp [isSpace]⟩

namespace Layout

/-- No blanks at all. -/
def tight : Layout where
  before := []
  closing := []
  colon := []
  before_blank := nofun
  closing_blank := nofun
  colon_blank := nofun

/-- Each part on a line of its own, two blanks deeper than the end. -/
def lined (indent : String) (h : ∀ c ∈ indent.toList, isSpace c = true) : Layout where
  before := '\n' :: (indent ++ "  ").toList
  closing := '\n' :: indent.toList
  colon := [' ']
  before_blank := List.forall_mem_cons.mpr ⟨rfl, isSpace_of_mem_deeper h⟩
  closing_blank := List.forall_mem_cons.mpr ⟨rfl, h⟩
  colon_blank := by simp [isSpace]

/-- Parts with what leads each of them, and a separator between any two. -/
theorem spread_intercalate (layout : Layout) (gap lead : String)
    (hBefore : layout.before = gap.toList ++ lead.toList) (text : String) (texts : List String) :
    (gap ++ ("," ++ gap).intercalate ((text :: texts).map (lead ++ ·))).toList ++ layout.closing =
      layout.spread ((text :: texts).map String.toList) := by
  induction texts generalizing text with
  | nil =>
    rw [List.map_cons, List.map_nil, String.intercalate_singleton, String.toList_append,
      String.toList_append, ← List.append_assoc, ← hBefore]
    rfl
  | cons next texts ih =>
    have hRest := ih next
    simp only [List.map_cons, String.intercalate_cons_cons, spread, String.toList_append,
      List.append_assoc, hBefore] at hRest ⊢
    rw [← hRest]
    rfl

theorem spread_tight (texts : List String) :
    tight.spread (texts.map String.toList) = (",".intercalate texts).toList := by
  cases texts with
  | nil => rfl
  | cons text texts =>
    have hSpread := tight.spread_intercalate "" "" rfl text texts
    simpa [tight] using hSpread.symm

theorem block_toList {indent : String} (h : ∀ c ∈ indent.toList, isSpace c = true)
    (opening closing : Char) (texts : List String) :
    (block indent opening.toString closing.toString texts).toList =
      opening :: ((lined indent h).spread (texts.map String.toList) ++ [closing]) := by
  cases texts with
  | nil => simp [block, spread]
  | cons text texts =>
    rw [← (lined indent h).spread_intercalate "\n" (indent ++ "  ") rfl text texts]
    simp [block, lined]

end Layout

theorem compactItems_eq (items : List Json) : compactItems items = items.map compact := by
  induction items with
  | nil => rfl
  | cons item rest ih =>
    rw [compactItems, ih]
    rfl

theorem compactMembers_eq (members : List (String × Json)) : compactMembers members =
    members.map fun member => quote member.1 ++ ":" ++ compact member.2 := by
  induction members with
  | nil => rfl
  | cons member rest ih =>
    rw [compactMembers, ih]
    rfl

theorem prettyItems_eq (indent : String) (items : List Json) :
    prettyItems indent items = items.map (prettyAt indent) := by
  induction items with
  | nil => rfl
  | cons item rest ih =>
    rw [prettyItems, ih]
    rfl

theorem prettyMembers_eq (indent : String) (members : List (String × Json)) :
    prettyMembers indent members =
      members.map fun member => quote member.1 ++ ": " ++ prettyAt indent member.2 := by
  induction members with
  | nil => rfl
  | cons member rest ih =>
    rw [prettyMembers, ih]
    rfl

section

variable (layout : Layout) (write : Json → String)

/-- An array spelled by its items, each as it is written. -/
theorem Spells.array_map {items : List Json}
    (h : ∀ item ∈ items, Spells item (write item).toList) : Spells (Json.array items)
      ('[' :: (layout.spread ((items.map write).map String.toList) ++ [']'])) := by
  have hParts := @Spells.array layout (items.map fun item => (item, (write item).toList))
    (List.forall_mem_map.mpr h)
  simpa [Function.comp_def] using hParts

/-- An object spelled by its members, the value of each as it is written. -/
theorem Spells.object_map {members : List (String × Json)} (colon : String)
    (hColon : layout.colon = colon.toList)
    (h : ∀ member ∈ members, Spells member.2 (write member.2).toList) : Spells (Json.object members)
      ('\x7b' :: (layout.spread ((members.map fun member =>
        quote member.1 ++ (":" ++ colon) ++ write member.2).map String.toList) ++ ['\x7d'])) := by
  have hParts := @Spells.object layout
    (members.map fun member => (member, (write member.2).toList)) (List.forall_mem_map.mpr h)
  simpa [Function.comp_def, Layout.member, quote_toList, hColon] using hParts

end

theorem spells_scalar_natural (n : Nat) : Spells (natural n) (scalar (natural n)).toList :=
  (Nat.toList_repr : (scalar (natural n)).toList = _) ▸ .natural n

theorem spells_scalar_string (text : String) : Spells (string text) (scalar (string text)).toList :=
  (quote_toList text : (scalar (string text)).toList = _) ▸ .string text

theorem spells_compact {value : Json} (h : IsPlain value) :
    Spells value (compact value).toList := by
  induction h with
  | null => exact .null
  | bool value => cases value <;> exact .bool _
  | natural value => exact spells_scalar_natural value
  | string value => exact spells_scalar_string value
  | @array items plain ih =>
    have hItems := Spells.array_map .tight compact ih
    rw [Layout.spread_tight] at hItems
    rw [compact, compactItems_eq, String.toList_append, String.toList_append]
    exact hItems
  | @object members plain ih =>
    have hMembers := Spells.object_map .tight compact "" rfl ih
    rw [Layout.spread_tight] at hMembers
    rw [compact, compactMembers_eq, String.toList_append, String.toList_append]
    exact hMembers

theorem spells_prettyAt {value : Json} (h : IsPlain value) {indent : String}
    (hIndent : ∀ c ∈ indent.toList, isSpace c = true) :
    Spells value (prettyAt indent value).toList := by
  induction h generalizing indent with
  | null => exact .null
  | bool value => cases value <;> exact .bool _
  | natural value => exact spells_scalar_natural value
  | string value => exact spells_scalar_string value
  | @array items plain ih =>
    have hItems := Spells.array_map (.lined indent hIndent) (prettyAt (indent ++ "  "))
      fun item hItem => ih item hItem (isSpace_of_mem_deeper hIndent)
    rw [prettyAt, prettyItems_eq]
    exact (Layout.block_toList hIndent '[' ']' _).symm ▸ hItems
  | @object members plain ih =>
    have hMembers := Spells.object_map (.lined indent hIndent) (prettyAt (indent ++ "  ")) " " rfl
      fun member hMember => ih member hMember (isSpace_of_mem_deeper hIndent)
    rw [prettyAt, prettyMembers_eq]
    exact (Layout.block_toList hIndent '\x7b' '\x7d' _).symm ▸ hMembers

/-- **A value written on one line is read as it was.** -/
theorem parse?_compact {value : Json} (h : IsPlain value) :
    parse? (compact value) = some value :=
  parse?_of_spells (spells_compact h)

/-- **So is one written over several lines.** -/
theorem parse?_pretty {value : Json} (h : IsPlain value) : parse? (pretty value) = some value :=
  parse?_of_spells (spells_prettyAt h (by simp))

end Ls8.Json
