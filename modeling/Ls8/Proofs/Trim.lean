import Ls8.Session
import Ls8.Proofs.Console

/-!
# Trimming a text of lines

What trimming leaves of a text in which a newline ends every line, whatever the lines are.

* `ConsistsOf`: the lines of a text. `Longest`: the most lines at its end that fit a limit, which
  `fitting` computes.
* `afterNewline_of_lines`: the cut is made at the end of the line that the excess ends in, and that
  line goes even if the excess ends just before it.
* `consistsOf_trim`: so a text that is too long keeps the lines that take less than the limit.
* `trim_longest`: these are the most that fit, or one line fewer if those fill the limit.
-/

namespace Ls8.Session

open Console

/-! ## Lines -/

/-- Lines with the newlines that end them. -/
def terminated (lines : List (List UInt8)) : List UInt8 := lines.flatMap (· ++ [newline])

/-- The number of bytes that some lines take. -/
def extent (lines : List (List UInt8)) : Nat := (terminated lines).length

/-- The text consists of these lines, each of which ends with its only newline. -/
structure ConsistsOf (text : ByteArray) (lines : List (List UInt8)) : Prop where
  bytes : text.data.toList = terminated lines
  whole : ∀ line ∈ lines, newline ∉ line

variable {limit : Nat} {text : ByteArray} {lines before after : List (List UInt8)}
  {line : List UInt8}

theorem extent_cons (line : List UInt8) (lines : List (List UInt8)) :
    extent (line :: lines) = line.length + 1 + extent lines := by
  simp only [extent, terminated, List.flatMap_cons, List.length_append, List.length_singleton]

theorem extent_append (lines more : List (List UInt8)) :
    extent (lines ++ more) = extent lines + extent more := by
  simp only [extent, terminated, List.flatMap_append, List.length_append]

theorem extent_tail_lt (h : 0 < extent lines) : extent lines.tail < extent lines := by
  cases lines with
  | nil => exact (Nat.lt_irrefl 0 h).elim
  | cons line lines =>
    rw [List.tail_cons, extent_cons]
    omega

theorem consistsOf_terminated (h : ∀ line ∈ lines, newline ∉ line) :
    ConsistsOf ⟨(terminated lines).toArray⟩ lines :=
  ⟨rfl, h⟩

theorem ConsistsOf.size (h : ConsistsOf text lines) : text.size = extent lines := by
  rw [size_eq_length, h.bytes, extent]

/-! ## The most lines that fit -/

/-- The lines from the first one on from which they take at most `limit` bytes. -/
def fitting (limit : Nat) : List (List UInt8) → List (List UInt8)
  | [] => []
  | line :: lines => if extent (line :: lines) ≤ limit then line :: lines else fitting limit lines

/-- These are the most lines at the end of some that take at most `limit` bytes. -/
structure Longest (limit : Nat) (lines kept : List (List UInt8)) : Prop where
  suffix : kept <:+ lines
  fits : extent kept ≤ limit
  longest {other : List (List UInt8)} (suffix : other <:+ lines) (fits : extent other ≤ limit) :
    other.length ≤ kept.length

theorem Longest.eq {kept other : List (List UInt8)} (h : Longest limit lines kept)
    (hOther : Longest limit lines other) : kept = other := by
  have hLe := hOther.longest h.suffix h.fits
  have hGe := h.longest hOther.suffix hOther.fits
  have hSuffix := List.suffix_of_suffix_length_le h.suffix hOther.suffix hLe
  exact hSuffix.eq_of_length (Nat.le_antisymm hLe hGe)

theorem fitting_of_le (h : extent lines ≤ limit) : fitting limit lines = lines := by
  cases lines with
  | nil => rfl
  | cons line lines => rw [fitting, if_pos h]

theorem fitting_cons_of_lt (h : limit < extent (line :: lines)) :
    fitting limit (line :: lines) = fitting limit lines := by
  rw [fitting, if_neg (by omega)]

/-- What comes before too much does not count. -/
theorem fitting_append (h : limit < extent lines) (before : List (List UInt8)) :
    fitting limit (before ++ lines) = fitting limit lines := by
  induction before with
  | nil => rfl
  | cons line before ih =>
    have hMore : limit < extent (line :: (before ++ lines)) := by
      rw [extent_cons, extent_append]
      omega
    rw [List.cons_append, fitting_cons_of_lt hMore, ih]

theorem longest_fitting (limit : Nat) (lines : List (List UInt8)) :
    Longest limit lines (fitting limit lines) := by
  induction lines with
  | nil => exact ⟨List.suffix_refl [], Nat.zero_le limit, fun hSuffix _ => hSuffix.length_le⟩
  | cons line lines ih =>
    by_cases h : extent (line :: lines) ≤ limit
    · rw [fitting_of_le h]
      exact ⟨List.suffix_refl _, h, fun hSuffix _ => hSuffix.length_le⟩
    · rw [fitting_cons_of_lt (by omega)]
      refine ⟨ih.suffix.trans (List.suffix_cons line lines), ih.fits, fun hSuffix hFits => ?_⟩
      rcases List.suffix_cons_iff.mp hSuffix with rfl | hSuffix
      · exact (h hFits).elim
      · exact ih.longest hSuffix hFits

/-- The most lines that take less than the limit: if the most that fit fill it, one line fewer. -/
theorem fitting_pred (hPos : 0 < limit) (lines : List (List UInt8)) :
    fitting (limit - 1) lines =
      if extent (fitting limit lines) = limit then (fitting limit lines).tail
      else fitting limit lines := by
  induction lines with
  | nil => exact (if_neg (Nat.ne_of_lt hPos)).symm
  | cons line lines ih =>
    rcases Nat.lt_trichotomy (extent (line :: lines)) limit with hLess | hFull | hMore
    · rw [fitting_of_le (Nat.le_of_lt hLess), if_neg (by omega), fitting_of_le (by omega)]
    · have hRest : extent lines ≤ limit - 1 := by
        rw [extent_cons] at hFull
        omega
      rw [fitting_of_le (Nat.le_of_eq hFull), if_pos hFull, fitting_cons_of_lt (by omega),
        fitting_of_le hRest, List.tail_cons]
    · rw [fitting_cons_of_lt (by omega), fitting_cons_of_lt hMore, ih]

theorem fitting_zero (lines : List (List UInt8)) : fitting 0 lines = [] := by
  induction lines with
  | nil => rfl
  | cons line lines ih =>
    rw [fitting_cons_of_lt (by rw [extent_cons]; omega), ih]

/-! ## Where the cut is made -/

theorem getElem_eq_toList {i : Nat} (h : i < text.size) :
    text[i] = text.data.toList[i] := by
  rw [Array.getElem_toList]
  rfl

/-- From within a line the search goes to the end of that line. -/
theorem afterNewline_eq {before bytes rest : List UInt8} {fuel : Nat}
    (h : text.data.toList = before ++ bytes ++ newline :: rest) (hBytes : newline ∉ bytes)
    (hFuel : bytes.length < fuel) :
    afterNewline text fuel before.length = before.length + bytes.length + 1 := by
  have hSize : text.size = before.length + bytes.length + (rest.length + 1) := by
    rw [size_eq_length, h]
    simp only [List.length_append, List.length_cons]
  have hInside : before.length < text.size := by omega
  obtain ⟨fuel, rfl⟩ := Nat.exists_eq_succ_of_ne_zero (Nat.ne_zero_of_lt hFuel)
  induction bytes generalizing before fuel with
  | nil =>
    have hByte : text[before.length] = newline := by
      rw [getElem_eq_toList]
      simp [h]
    rw [afterNewline, dif_pos hInside, if_pos hByte]
    rfl
  | cons byte bytes ih =>
    rw [List.mem_cons, not_or] at hBytes
    obtain ⟨hFirst, hRest⟩ := hBytes
    have hByte : text[before.length] = byte := by
      rw [getElem_eq_toList]
      simp [h]
    rw [List.length_cons] at hSize hFuel
    have hNext : before.length + 1 = (before ++ [byte]).length := by
      rw [List.length_append, List.length_singleton]
    obtain ⟨fuel, rfl⟩ := Nat.exists_eq_succ_of_ne_zero (n := fuel) (by omega)
    rw [afterNewline, dif_pos hInside, if_neg (by rw [hByte]; exact Ne.symm hFirst), hNext]
    have hText : text.data.toList = before ++ [byte] ++ bytes ++ newline :: rest := by
      rw [h, List.append_assoc before [byte] bytes]
      rfl
    rw [ih hText hRest (by rw [← hNext]; omega) (by rw [← hNext]; omega) fuel (by omega)]
    rw [← hNext, List.length_cons]
    omega

/-- Every place in a text of lines lies in one of the lines. -/
theorem exists_line_at {start : Nat} (h : start < extent lines) : ∃ before line after,
    lines = before ++ line :: after ∧ extent before ≤ start ∧
      start ≤ extent before + line.length := by
  induction lines generalizing start with
  | nil => exact absurd h (Nat.not_lt_zero _)
  | cons line lines ih =>
    rw [extent_cons] at h
    by_cases hFirst : start ≤ line.length
    · exact ⟨[], line, lines, rfl, Nat.zero_le _, Nat.le_trans hFirst (Nat.le_add_left _ _)⟩
    · have hRest : start - (line.length + 1) < extent lines := by omega
      obtain ⟨before, found, after, hSplit, hFrom, hTo⟩ := ih hRest
      refine ⟨line :: before, found, after, congrArg (line :: ·) hSplit, ?_, ?_⟩
      · rw [extent_cons]
        omega
      · rw [extent_cons]
        omega

/-- The cut is made at the end of the line that the excess ends in. -/
theorem afterNewline_of_lines {start : Nat} (h : ConsistsOf text (before ++ line :: after))
    (hFrom : extent before ≤ start) (hTo : start ≤ extent before + line.length) :
    afterNewline text text.size start = (terminated (before ++ [line])).length := by
  obtain ⟨skipped, rfl⟩ := Nat.exists_eq_add_of_le hFrom
  have hSize : text.size = extent before + (line.length + 1 + extent after) := by
    rw [h.size, extent_append, extent_cons]
  have hText : text.data.toList = (terminated before ++ line.take skipped) ++
      line.drop skipped ++ newline :: terminated after := by
    rw [h.bytes, List.append_assoc _ (List.take _ _), List.take_append_drop]
    simp [terminated]
  have hStart : (terminated before ++ line.take skipped).length = extent before + skipped := by
    rw [List.length_append, List.length_take, extent]
    omega
  have hBytes : newline ∉ line.drop skipped := fun hMem =>
    h.whole line (List.mem_append_right before List.mem_cons_self) (List.mem_of_mem_drop hMem)
  have hFuel : (line.drop skipped).length < text.size := by
    rw [List.length_drop]
    omega
  have hCut := afterNewline_eq hText hBytes hFuel
  have hEnd : (terminated (before ++ [line])).length = extent before + (line.length + 1) := by
    rw [← extent, extent_append, extent_cons]
    rfl
  rw [hStart, List.length_drop] at hCut
  omega

theorem trim_of_le (h : text.size ≤ limit) : trim limit text = text := if_pos h

/-- The search never goes back. -/
theorem le_afterNewline (text : ByteArray) (fuel : Nat) {start : Nat} (h : start ≤ text.size) :
    start ≤ afterNewline text fuel start := by
  induction fuel generalizing start with
  | zero => exact h
  | succ fuel ih =>
    rw [afterNewline]
    split
    · next inside =>
      split
      · exact Nat.le_succ start
      · exact Nat.le_trans (Nat.le_succ start) (ih inside)
    · exact h

/-- Whatever a text consists of, trimming makes it fit. -/
theorem size_trim_le (limit : Nat) (text : ByteArray) : (trim limit text).size ≤ limit := by
  rw [trim]
  split
  · next hFits => exact hFits
  · have hCut := le_afterNewline text text.size (Nat.sub_le text.size limit)
    rw [ByteArray.size_extract]
    omega

theorem trim_trim (limit : Nat) (text : ByteArray) :
    trim limit (trim limit text) = trim limit text :=
  trim_of_le (size_trim_le limit text)

/-- What is behind some lines of a text consists of the others. -/
theorem ConsistsOf.extract (h : ConsistsOf text (before ++ after)) :
    ConsistsOf (text.extract (terminated before).length text.size) after where
  bytes := by
    have hAll : text.data.toList = terminated before ++ terminated after := by
      rw [h.bytes]
      exact List.flatMap_append
    have hEnd : text.size - (terminated before).length = (terminated after).length := by
      rw [size_eq_length, hAll, List.length_append, Nat.add_sub_cancel_left]
    rw [ByteArray.data_extract, Array.toList_extract, List.extract_eq_take_drop, hEnd, hAll,
      List.drop_left, List.take_length]
  whole line hLine := h.whole line (List.mem_append_right before hLine)

theorem afterNewline_size (text : ByteArray) (fuel : Nat) :
    afterNewline text fuel text.size = text.size := by
  cases fuel with
  | zero => rfl
  | succ fuel => rw [afterNewline, dif_neg (Nat.lt_irrefl _)]

/-- **What is left of a text that is too long are the lines that take less than the limit.** -/
theorem consistsOf_trim (h : ConsistsOf text lines) (hOver : limit < extent lines) :
    ConsistsOf (trim limit text) (fitting (limit - 1) lines) := by
  have hTrim : trim limit text =
      text.extract (afterNewline text text.size (text.size - limit)) text.size :=
    if_neg (by rw [h.size]; omega)
  rw [hTrim]
  rcases Nat.eq_zero_or_pos limit with rfl | hPos
  -- There is no newline behind the end of the text.
  · have hAll : ConsistsOf text (lines ++ []) := by rwa [List.append_nil]
    have hNone := hAll.extract
    rw [← extent, ← h.size] at hNone
    rw [Nat.sub_zero, afterNewline_size, fitting_zero]
    exact hNone
  · have hStart : text.size - limit < extent lines := by
      rw [h.size]
      omega
    obtain ⟨before, line, after, rfl, hFrom, hTo⟩ := exists_line_at hStart
    rw [afterNewline_of_lines h hFrom hTo]
    rw [h.size, extent_append, extent_cons] at hFrom hTo
    rw [extent_append, extent_cons] at hOver
    have hMore : limit - 1 < extent (line :: after) := by
      rw [extent_cons]
      omega
    rw [fitting_append hMore, fitting_cons_of_lt hMore, fitting_of_le (by omega)]
    have hAll : ConsistsOf text ((before ++ [line]) ++ after) := by
      rwa [List.append_assoc]
    exact hAll.extract

/-- If the most lines that fit fill the limit, the first of them is dropped. -/
theorem consistsOf_trim_of_full (h : ConsistsOf text lines) (hPos : 0 < limit)
    (hOver : limit < extent lines) (hFull : extent (fitting limit lines) = limit) :
    ConsistsOf (trim limit text) (fitting limit lines).tail ∧
      ¬ ConsistsOf (trim limit text) (fitting limit lines) := by
  have hTrim := consistsOf_trim h hOver
  rw [fitting_pred hPos, if_pos hFull] at hTrim
  refine ⟨hTrim, fun hKept => ?_⟩
  have hLess : extent (fitting limit lines).tail < extent (fitting limit lines) :=
    extent_tail_lt (by omega)
  rw [← hTrim.size, hKept.size] at hLess
  exact Nat.lt_irrefl _ hLess

/-- **What trimming keeps of a text.** These are the most lines at its end that fit, unless the text
is too long and they fill the limit: then it is one line fewer. -/
theorem trim_longest (limit : Nat) (h : ConsistsOf text lines) : ∃ kept,
    Longest limit lines kept ∧
      (ConsistsOf (trim limit text) kept ↔
        extent lines ≤ limit ∨ extent kept ≠ limit ∨ limit = 0) ∧
      (limit < extent lines → extent kept = limit → ConsistsOf (trim limit text) kept.tail) := by
  refine ⟨fitting limit lines, longest_fitting limit lines, ?_⟩
  by_cases hFits : extent lines ≤ limit
  · rw [fitting_of_le hFits, trim_of_le (by rw [h.size]; exact hFits)]
    exact ⟨iff_of_true h (Or.inl hFits), fun hOver => absurd hFits (Nat.not_le.mpr hOver)⟩
  rw [Nat.not_le] at hFits
  have hTrim := consistsOf_trim h hFits
  rcases Nat.eq_zero_or_pos limit with rfl | hPos
  · rw [fitting_zero] at hTrim ⊢
    exact ⟨iff_of_true hTrim (Or.inr (Or.inr rfl)), fun _ _ => hTrim⟩
  by_cases hFull : extent (fitting limit lines) = limit
  · obtain ⟨hTail, hNot⟩ := consistsOf_trim_of_full h hPos hFits hFull
    exact ⟨iff_of_false hNot (by omega), fun _ _ => hTail⟩
  · rw [fitting_pred hPos, if_neg hFull] at hTrim
    exact ⟨iff_of_true hTrim (Or.inr (Or.inl hFull)), fun _ hFull' => absurd hFull' hFull⟩

/-- Of two lines of two bytes a limit of two bytes keeps none. -/
theorem trim_longest_pair : ∃ text, ConsistsOf text [[48], [49]] ∧
    Longest 2 [[48], [49]] [[49]] ∧ ConsistsOf (trim 2 text) [] := by
  have hText : ConsistsOf _ [[48], [49]] := consistsOf_terminated (by decide)
  have hLongest : Longest 2 [[48], [49]] [[49]] := longest_fitting 2 [[48], [49]]
  obtain ⟨kept, hKept, -, hTail⟩ := trim_longest 2 hText
  rw [hKept.eq hLongest] at hTail
  exact ⟨_, hText, hLongest, hTail (by decide) rfl⟩

/-! ## Equal lines -/

theorem extent_replicate (line : List UInt8) (n : Nat) :
    extent (List.replicate n line) = n * (line.length + 1) := by
  induction n with
  | zero => rw [Nat.zero_mul]; rfl
  | succ n ih => rw [List.replicate_succ, extent_cons, ih, Nat.succ_mul, Nat.add_comm]

/-- A line more than equal lines that fill the limit. -/
theorem fitting_replicate {n : Nat} (h : extent (List.replicate n line) = limit) :
    fitting limit (List.replicate (n + 1) line) = List.replicate n line := by
  rw [List.replicate_succ, fitting_cons_of_lt (by rw [extent_cons]; omega),
    fitting_of_le (Nat.le_of_eq h)]

/-- **A line is dropped that fits.** Of 32769 lines of two bytes the limit of a console keeps 32767,
but 32768 are just as long as the limit. -/
theorem trim_drops_too_much : ∃ text,
    ConsistsOf text (List.replicate 32769 [48]) ∧
      Longest consoleLimit (List.replicate 32769 [48]) (List.replicate 32768 [48]) ∧
      ConsistsOf (trim consoleLimit text) (List.replicate 32767 [48]) ∧
      ¬ ConsistsOf (trim consoleLimit text) (List.replicate 32768 [48]) := by
  have hFull : extent (List.replicate (32767 + 1) [48]) = consoleLimit := by
    rw [extent_replicate]
    rfl
  have hFirst : 32768 = 32767 + 1 := rfl
  have hSecond : 32769 = 32767 + 1 + 1 := rfl
  rw [hSecond, hFirst]
  -- Nothing below computes with the numbers.
  generalize consoleLimit = limit, 32767 = n at hFull ⊢
  have hWhole : ∀ line ∈ List.replicate (n + 1 + 1) [48], newline ∉ line := fun line hLine => by
    rw [List.eq_of_mem_replicate hLine]
    decide
  have hText := consistsOf_terminated hWhole
  have hFitting := fitting_replicate hFull
  have hLongest := longest_fitting limit (List.replicate (n + 1 + 1) [48])
  have hOver : limit < extent (List.replicate (n + 1 + 1) [48]) := by
    rw [List.replicate_succ, extent_cons, hFull]
    omega
  have hPos : 0 < limit := by
    rw [← hFull, List.replicate_succ, extent_cons]
    omega
  have hTrim := consistsOf_trim_of_full hText hPos hOver (by rw [hFitting, hFull])
  rw [hFitting, List.tail_replicate] at hTrim
  rw [hFitting] at hLongest
  exact ⟨_, hText, hLongest, hTrim⟩

end Ls8.Session
