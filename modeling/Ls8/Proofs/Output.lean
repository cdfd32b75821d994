import Ls8.Proofs.Trim
import Mathlib.Data.List.Induction

/-!
# The output of a session

What trimming does to an output that consists of the lines of printed values.

* `holds_trim`: an output that is too long is trimmed to its latest lines that take less than the
  limit (`latest`). A line too many goes if the latest lines take just as much.
* `held`: what is left of an output that is trimmed after every line. `held_eq`: it is what
  trimming leaves at the end, or one line more that fills it up to the limit.
* `output_of_holds`: each value is a line of the output.
-/

namespace Ls8.Session

open Console

/-! ## The latest values -/

/-- The values from the first one on from which the lines take less than `limit` bytes. -/
def latest (limit : Nat) : List UInt8 → List UInt8
  | [] => []
  | value :: values =>
    if width (value :: values) < limit then value :: values else latest limit values

variable {limit : Nat} {values : List UInt8}

theorem latest_of_lt (h : width values < limit) : latest limit values = values := by
  cases values with
  | nil => rfl
  | cons value values => rw [latest, if_pos h]

theorem latest_cons_of_le {value : UInt8} (h : limit ≤ width (value :: values)) :
    latest limit (value :: values) = latest limit values := by
  rw [latest, if_neg (by omega)]

/-- What comes before too much does not count. -/
theorem latest_append (h : limit ≤ width values) (before : List UInt8) :
    latest limit (before ++ values) = latest limit values := by
  induction before with
  | nil => rfl
  | cons value before ih =>
    have hMore : limit ≤ width (value :: (before ++ values)) := by
      rw [width_cons, width_append]
      omega
    rw [List.cons_append, latest_cons_of_le hMore, ih]

/-- For what comes after some values only the latest of them count. -/
theorem latest_append_latest (values after : List UInt8) :
    latest limit (latest limit values ++ after) = latest limit (values ++ after) := by
  induction values with
  | nil => rfl
  | cons value values ih =>
    by_cases h : width (value :: values) < limit
    · rw [latest_of_lt h]
    · have hMore : limit ≤ width (value :: (values ++ after)) := by
        rw [width_cons] at h
        rw [width_cons, width_append]
        omega
      rw [latest_cons_of_le (by omega), ih, List.cons_append, latest_cons_of_le hMore]

theorem width_latest (hPos : 0 < limit) (values : List UInt8) :
    width (latest limit values) < limit := by
  induction values with
  | nil => exact hPos
  | cons value values ih =>
    by_cases h : width (value :: values) < limit
    · rw [latest_of_lt h]
      exact h
    · rw [latest_cons_of_le (by omega)]
      exact ih

/-- The latest values end the list, and one value more would be too much. -/
theorem exists_latest (hPos : 0 < limit) (h : limit ≤ width values) : ∃ before value,
    values = before ++ value :: latest limit values ∧
      limit ≤ width (value :: latest limit values) := by
  induction values with
  | nil => exact absurd h (by rw [width_nil]; omega)
  | cons value values ih =>
    rw [latest_cons_of_le h]
    by_cases hRest : width values < limit
    · rw [latest_of_lt hRest]
      exact ⟨[], value, rfl, h⟩
    · obtain ⟨before, first, hSplit, hMore⟩ := ih (by omega)
      exact ⟨value :: before, first, congrArg (value :: ·) hSplit, hMore⟩

theorem latest_suffix (limit : Nat) (values : List UInt8) : latest limit values <:+ values := by
  induction values with
  | nil => exact List.suffix_refl []
  | cons value values ih =>
    by_cases h : width (value :: values) < limit
    · exact ⟨[], latest_of_lt h⟩
    · rw [latest_cons_of_le (by omega)]
      exact ih.trans (List.suffix_cons value values)

/-- Of values that take as much as the limit the first is dropped. -/
theorem eq_cons_latest (hPos : 0 < limit) (h : width values = limit) :
    ∃ value, values = value :: latest limit values := by
  obtain ⟨before, value, hSplit, hMore⟩ := exists_latest hPos (Nat.le_of_eq h.symm)
  cases before with
  | nil => exact ⟨value, hSplit⟩
  | cons first before =>
    have hLine := length_line_pos first
    rw [hSplit, List.cons_append, width_cons, width_append] at h
    omega

/-- The values whose lines trimming keeps. -/
def trimmed (limit : Nat) (values : List UInt8) : List UInt8 :=
  if width values ≤ limit then values else latest limit values

theorem trimmed_of_le (h : width values ≤ limit) : trimmed limit values = values := if_pos h

theorem trimmed_of_lt (h : limit < width values) : trimmed limit values = latest limit values :=
  if_neg (by omega)

theorem width_trimmed (hPos : 0 < limit) (values : List UInt8) :
    width (trimmed limit values) ≤ limit := by
  by_cases h : width values ≤ limit
  · rw [trimmed_of_le h]
    exact h
  · rw [trimmed_of_lt (by omega)]
    exact Nat.le_of_lt (width_latest hPos values)

/-! ## The text of the values -/

theorem terminated_digits (values : List UInt8) :
    terminated (values.map digits) = values.flatMap line := by
  rw [terminated, List.flatMap_map]
  rfl

theorem extent_digits (values : List UInt8) : extent (values.map digits) = width values := by
  rw [extent, terminated_digits, width]

theorem holds_iff {text : ByteArray} : Holds text values ↔ ConsistsOf text (values.map digits) := by
  constructor
  · intro h
    refine ⟨by rw [h, terminated_digits], fun bytes hBytes => ?_⟩
    obtain ⟨value, -, rfl⟩ := List.mem_map.mp hBytes
    exact newline_not_mem_digits value
  · intro h
    rw [Holds, h.bytes, terminated_digits]

/-- The latest values are those whose lines fit a limit that is one less. -/
theorem fitting_digits (hPos : 0 < limit) (values : List UInt8) :
    fitting (limit - 1) (values.map digits) = (latest limit values).map digits := by
  induction values with
  | nil => rfl
  | cons value values ih =>
    have hExtent := extent_digits (value :: values)
    rw [List.map_cons] at hExtent ⊢
    by_cases h : width (value :: values) < limit
    · rw [fitting_of_le (by omega), latest_of_lt h, List.map_cons]
    · rw [fitting_cons_of_lt (by omega), ih, latest_cons_of_le (by omega)]

/-- **Trimming keeps whole lines**, all of them or the latest that take less than the limit. -/
theorem holds_trim {text : ByteArray} (hPos : 0 < limit) (h : Holds text values) :
    Holds (trim limit text) (trimmed limit values) := by
  by_cases hFits : width values ≤ limit
  · rw [trimmed_of_le hFits, trim_of_le (by rw [h.size]; exact hFits)]
    exact h
  · rw [Nat.not_le] at hFits
    have hTrim := consistsOf_trim (holds_iff.mp h) (by rw [extent_digits]; exact hFits)
    rw [fitting_digits hPos] at hTrim
    rw [trimmed_of_lt hFits]
    exact holds_iff.mpr hTrim

/-! ## Trimming after every line -/

/-- What is kept of some values if the lines are trimmed after each of them. -/
def held (limit : Nat) (values : List UInt8) : List UInt8 :=
  values.foldl (fun kept value => trimmed limit (kept ++ [value])) []

theorem held_append_singleton (limit : Nat) (values : List UInt8) (value : UInt8) :
    held limit (values ++ [value]) = trimmed limit (held limit values ++ [value]) := by
  rw [held, List.foldl_append]
  rfl

theorem width_held (hPos : 0 < limit) (values : List UInt8) :
    width (held limit values) ≤ limit := by
  cases values using List.reverseRecOn with
  | nil => exact Nat.zero_le limit
  | append_singleton values value =>
    rw [held_append_singleton]
    exact width_trimmed hPos _

theorem trimmed_suffix (limit : Nat) (values : List UInt8) : trimmed limit values <:+ values := by
  by_cases h : width values ≤ limit
  · exact ⟨[], trimmed_of_le h⟩
  · rw [trimmed_of_lt (by omega)]
    exact latest_suffix limit values

theorem held_suffix (limit : Nat) (values : List UInt8) : held limit values <:+ values := by
  induction values using List.reverseRecOn with
  | nil => exact List.suffix_refl []
  | append_singleton values value ih =>
    rw [held_append_singleton]
    refine (trimmed_suffix limit _).trans ?_
    obtain ⟨before, h⟩ := ih
    exact ⟨before, by rw [← List.append_assoc, h]⟩

/-- **Trimming often or once.** What is kept if the lines are trimmed after each of them is what is
kept if they are trimmed at the end, unless it takes just as much as the limit; then it is one
line more. -/
theorem held_eq (hPos : 0 < limit) (values : List UInt8) :
    held limit values = trimmed limit values ∨ limit < width values ∧
      width (held limit values) = limit ∧
      ∃ value, held limit values = value :: trimmed limit values := by
  induction values using List.reverseRecOn with
  | nil => exact Or.inl rfl
  | append_singleton values value ih =>
    obtain ⟨before, hBefore⟩ := held_suffix limit values
    have hLine := length_line_pos value
    rw [held_append_singleton]
    generalize held limit values = kept at ih hBefore ⊢
    by_cases hFits : width (kept ++ [value]) ≤ limit
    · have hKept : kept = trimmed limit values := by
        rw [width_append_singleton] at hFits
        exact ih.resolve_right fun ⟨_, hFull, _⟩ => by omega
      rw [trimmed_of_le hFits]
      by_cases hAll : width values ≤ limit
      -- Nothing has been trimmed so far, nor is it now.
      · rw [trimmed_of_le hAll] at hKept
        rw [hKept] at hFits ⊢
        exact Or.inl (trimmed_of_le hFits).symm
      · rw [Nat.not_le] at hAll
        have hLatest : latest limit (values ++ [value]) = latest limit (kept ++ [value]) := by
          rw [hKept, trimmed_of_lt hAll, latest_append_latest]
        have hOver : limit < width (values ++ [value]) := by
          rw [width_append_singleton]
          omega
        rw [trimmed_of_lt hOver, hLatest]
        -- The new line may fill up what is kept.
        rcases Nat.lt_or_eq_of_le hFits with hLess | hFull
        · exact Or.inl (latest_of_lt hLess).symm
        · exact Or.inr ⟨hOver, hFull, eq_cons_latest hPos hFull⟩
    -- Both are trimmed now, and what is left is at the end of both.
    · rw [Nat.not_le] at hFits
      refine Or.inl ?_
      have hOver : limit < width (before ++ (kept ++ [value])) := by
        rw [width_append]
        omega
      rw [← hBefore, List.append_assoc, trimmed_of_lt hFits, trimmed_of_lt hOver,
        latest_append (Nat.le_of_lt hFits) before]

theorem held_of_le (hPos : 0 < limit) (h : width values ≤ limit) : held limit values = values := by
  rcases held_eq hPos values with hSame | ⟨hOver, -⟩
  · rw [hSame, trimmed_of_le h]
  · omega

/-- The exact condition under which trimming often and once are the same. -/
theorem held_eq_trimmed_iff (hPos : 0 < limit) (values : List UInt8) :
    held limit values = trimmed limit values ↔
      width values ≤ limit ∨ width (held limit values) ≠ limit := by
  constructor
  · intro h
    by_cases hFits : width values ≤ limit
    · exact Or.inl hFits
    · rw [h, trimmed_of_lt (by omega)]
      exact Or.inr (Nat.ne_of_lt (width_latest hPos values))
  · intro h
    rcases held_eq hPos values with hSame | ⟨hOver, hFull, -⟩
    · exact hSame
    · omega

/-! ## Equal lines -/

theorem width_replicate_succ (value : UInt8) (n : Nat) : width (List.replicate (n + 1) value) =
    width (List.replicate n value) + (line value).length := by
  rw [List.replicate_succ', width_append_singleton]

theorem width_replicate (value : UInt8) (n : Nat) :
    width (List.replicate n value) = n * (line value).length := by
  induction n with
  | zero => rw [List.replicate_zero, width_nil, Nat.zero_mul]
  | succ n ih => rw [width_replicate_succ, ih, Nat.succ_mul]

theorem latest_replicate {value : UInt8} {n : Nat} (hLess : width (List.replicate n value) < limit)
    (hMore : limit ≤ width (List.replicate (n + 1) value)) (k : Nat) :
    latest limit (List.replicate (k + n) value) = List.replicate n value := by
  cases k with
  | zero => rw [Nat.zero_add, latest_of_lt hLess]
  | succ k =>
    have hSplit : List.replicate (k + 1 + n) value =
        List.replicate k value ++ List.replicate (n + 1) value := by
      rw [List.replicate_append_replicate, Nat.add_assoc, Nat.add_comm 1]
    rw [hSplit, latest_append hMore, List.replicate_succ, latest_cons_of_le hMore,
      latest_of_lt hLess]

/-- Equal lines that fill the output up, and two lines more. -/
theorem held_replicate {value : UInt8} {n : Nat} (h : width (List.replicate (n + 1) value) = limit) :
    held limit (List.replicate (n + 3) value) = List.replicate (n + 1) value ∧
      trimmed limit (List.replicate (n + 3) value) = List.replicate n value := by
  have hLine := length_line_pos value
  have hLess : width (List.replicate n value) < limit := by
    rw [← h, width_replicate_succ]
    omega
  have hPos : 0 < limit := Nat.zero_lt_of_lt hLess
  have hOver : limit < width (List.replicate (n + 2) value) := by
    rw [width_replicate_succ, h]
    omega
  have hOver' : limit < width (List.replicate (n + 3) value) := by
    rw [width_replicate_succ]
    omega
  have hLatest := latest_replicate hLess (Nat.le_of_eq h.symm)
  have hSecond : trimmed limit (List.replicate (n + 2) value) = List.replicate n value := by
    rw [trimmed_of_lt hOver, Nat.add_comm, hLatest]
  have hThird : trimmed limit (List.replicate (n + 3) value) = List.replicate n value := by
    rw [trimmed_of_lt hOver', Nat.add_comm, hLatest]
  refine ⟨?_, hThird⟩
  rw [List.replicate_succ', held_append_singleton, List.replicate_succ', held_append_singleton,
    held_of_le hPos (Nat.le_of_eq h), ← List.replicate_succ', hSecond, ← List.replicate_succ',
    trimmed_of_le (Nat.le_of_eq h)]

/-! ## The lines of an output -/

/-- A character that is a byte is what it was as a byte. -/
theorem ofNat_toUInt8 {c : Char} (h : c.isDigit) : Char.ofNat c.toNat.toUInt8.toNat = c := by
  simp only [Char.isDigit, Bool.and_eq_true, decide_eq_true_eq, UInt32.le_iff_toNat_le] at h
  have hNat : c.toNat = c.val.toNat := rfl
  have hHigh : '9'.val.toNat = 57 := rfl
  have hByte : c.toNat.toUInt8.toNat = c.toNat := Nat.mod_eq_of_lt (by omega)
  rw [hByte, Char.ofNat_toNat]

theorem map_digits (value : UInt8) :
    (digits value).map (fun byte => Char.ofNat byte.toNat) = Nat.toDigits 10 value.toNat := by
  rw [digits, List.map_map]
  refine (List.map_congr_left fun c hc => ?_).trans (List.map_id _)
  exact ofNat_toUInt8 (Nat.isDigit_of_mem_toDigits (by decide) (by decide) hc)

theorem linesFrom_append {bytes : List UInt8} (h : newline ∉ bytes) (read : List Char)
    (rest : List UInt8) : linesFrom read (bytes ++ newline :: rest) =
      String.ofList (read.reverse ++ bytes.map fun byte => Char.ofNat byte.toNat) ::
        linesFrom [] rest := by
  induction bytes generalizing read with
  | nil =>
    rw [List.nil_append, linesFrom, if_pos rfl, List.map_nil, List.append_nil]
  | cons byte bytes ih =>
    rw [List.mem_cons, not_or] at h
    obtain ⟨hFirst, hRest⟩ := h
    rw [List.cons_append, linesFrom, if_neg (Ne.symm hFirst), ih hRest]
    simp

/-- **Each value is a line of the output**, in decimal notation. -/
theorem output_of_holds {session : Session} (h : Holds session.console values) :
    session.output = values.map fun value => value.toNat.repr := by
  rw [output, h]
  clear h
  induction values with
  | nil => rfl
  | cons value values ih =>
    have hLine : line value ++ values.flatMap line =
        digits value ++ newline :: values.flatMap line := by
      rw [line_eq, List.append_assoc]
      rfl
    rw [List.flatMap_cons, hLine, linesFrom_append (newline_not_mem_digits value), ih, map_digits,
      List.map_cons, Nat.repr_eq_ofList_toDigits]
    rfl

end Ls8.Session
