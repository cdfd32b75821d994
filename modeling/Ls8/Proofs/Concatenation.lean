import Ls8.Proofs.Image

/-!
# Images one after another

What is read of two texts with a line break in between.

* `lines_append`: its lines are those of the one, an empty last one included, and those of the other.
* `IsReadable`, `readable`, `bytes`: a line that can be taken, the lines before the first one that
  cannot, and the bytes that lines stand for.
* `parseFrom_eq`: an image is read from its readable lines, the bad one behind them, and the room
  there is for the bytes up to that one.
* `readable_append`, `bad?_append`: how these go together.
* `parse_append`: what the whole comes to is told from what its parts come to.
-/

namespace Ls8.Image

/-! ## Lines -/

theorem dropLastEmpty_append (front : List (List Char)) {back : List (List Char)} (h : back ≠ []) :
    dropLastEmpty (front ++ back) = front ++ dropLastEmpty back := by
  induction front with
  | nil => rfl
  | cons piece front ih =>
    rw [List.cons_append, dropLastEmpty_cons piece (by simp [h]), ih, List.cons_append]

theorem lines_append (first second : List Char) :
    lines (first ++ '\n' :: second) = first.splitOn '\n' ++ lines second := by
  have hSplit : (first ++ '\n' :: second).splitOn '\n' =
      first.splitOn '\n' ++ second.splitOn '\n' :=
    List.splitOnP_append_cons first second (by decide)
  rw [lines_eq_pieces, pieces, hSplit, dropLastEmpty_append _ (List.splitOn_ne_nil '\n' second),
    lines_eq_pieces, pieces]

theorem length_splitOn (text : List Char) :
    (text.splitOn '\n').length = text.count '\n' + 1 := by
  induction text with
  | nil => rfl
  | cons c rest ih =>
    rw [List.splitOn_cons_eq_if_modifyHead, List.count_cons]
    split
    · rw [List.length_cons, ih]
    · rw [List.length_modifyHead, ih, Nat.add_zero]

/-- A blank line at the end makes no difference. -/
theorem parseFrom_concat_blank {line : List Char} (h : payload line = []) (number room : Nat)
    (lines : List (List Char)) :
    parseFrom number room (lines ++ [line]) = parseFrom number room lines := by
  induction lines generalizing number room with
  | nil => exact parseFrom_of_blank h
  | cons first rest ih => simp only [List.cons_append, parseFrom, ih]

theorem parseFrom_dropLastEmpty (number room : Nat) (pieces : List (List Char)) :
    parseFrom number room (dropLastEmpty pieces) = parseFrom number room pieces := by
  unfold dropLastEmpty
  split
  · next hLast =>
    have hPieces : pieces.dropLast ++ [[]] = pieces := List.dropLast_append_getLast? [] hLast
    have hBlank : payload [] = [] := rfl
    rw [← parseFrom_concat_blank hBlank, hPieces]
  · rfl

/-! ## Lines that can be taken -/

/-- The line has no payload, or one that is a byte in binary. -/
def IsReadable (line : List Char) : Prop := payload line = [] ∨ IsByte (payload line)

instance (line : List Char) : Decidable (IsReadable line) := inferInstanceAs (Decidable (_ ∨ _))

/-- The lines before the first one that cannot be taken. -/
def readable (lines : List (List Char)) : List (List Char) :=
  lines.takeWhile fun line => IsReadable line

/-- The first line that cannot be taken. -/
def bad? (lines : List (List Char)) : Option (List Char) :=
  lines.find? fun line => ¬IsReadable line

/-- The bytes that lines stand for, those without a byte aside. -/
def bytes (lines : List (List Char)) : List UInt8 :=
  (literals (lines.map payload)).map fun payload => (value payload).toUInt8

section

variable {line : List Char} {rest : List (List Char)}

theorem readable_cons (h : IsReadable line) : readable (line :: rest) = line :: readable rest :=
  List.takeWhile_cons_of_pos (by simpa using h)

theorem bad?_cons (h : IsReadable line) : bad? (line :: rest) = bad? rest :=
  List.find?_cons_of_neg (by simpa using h)

theorem readable_cons_of_bad (h : ¬IsReadable line) : readable (line :: rest) = [] :=
  List.takeWhile_cons_of_neg (by simpa using h)

theorem bad?_cons_of_bad (h : ¬IsReadable line) : bad? (line :: rest) = some line :=
  List.find?_cons_of_pos (by simpa using h)

theorem bytes_append (front back : List (List Char)) :
    bytes (front ++ back) = bytes front ++ bytes back := by
  simp only [bytes, literals, List.map_append, List.filter_append]

theorem bytes_of_blank (h : payload line = []) : bytes (line :: rest) = bytes rest := by
  simp [bytes, literals, h]

theorem bytes_of_byte (hSome : payload line ≠ []) (h : IsByte (payload line)) :
    bytes (line :: rest) = (value (payload line)).toUInt8 :: bytes rest := by
  simp [bytes, literals, hSome, h]

end

/-- What is read of lines that can be taken, if the line behind them cannot, where there is one. -/
def verdict (number room : Nat) (front : List (List Char)) (next? : Option (List Char)) :
    Except ImageError (List UInt8) :=
  if (bytes front).length ≤ room then
    match next? with
    | none => .ok (bytes front)
    | some line => .error (.invalidLiteral (number + front.length) (String.ofList (payload line)))
  else .error .tooLarge

section

variable {number room : Nat} {line : List Char} {front : List (List Char)}
  {next? : Option (List Char)}

theorem verdict_of_blank (h : payload line = []) :
    verdict number room (line :: front) next? = verdict (number + 1) room front next? := by
  unfold verdict
  rw [bytes_of_blank h, List.length_cons, Nat.add_right_comm, Nat.add_assoc]

theorem verdict_of_full (hSome : payload line ≠ []) (h : IsByte (payload line)) :
    verdict number 0 (line :: front) next? = .error .tooLarge := by
  unfold verdict
  rw [bytes_of_byte hSome h, List.length_cons, if_neg (Nat.not_succ_le_zero _)]

theorem verdict_of_byte (hSome : payload line ≠ []) (h : IsByte (payload line)) :
    verdict number (room + 1) (line :: front) next? =
      ((value (payload line)).toUInt8 :: ·) <$> verdict (number + 1) room front next? := by
  have hNumber : number + 1 + front.length = number + (front.length + 1) := by omega
  unfold verdict
  simp only [bytes_of_byte hSome h, List.length_cons, Nat.add_le_add_iff_right, hNumber]
  split
  · cases next? <;> rfl
  · rfl

theorem verdict_ok {image : List UInt8} (h : verdict number room front next? = .ok image) :
    next? = none ∧ image = bytes front := by
  unfold verdict at h
  split at h
  · cases next? <;> cases h
    exact ⟨rfl, rfl⟩
  · cases h

theorem verdict_invalidLiteral {index : Nat} {text : String}
    (h : verdict number room front next? = .error (.invalidLiteral index text)) :
    ∃ bad, next? = some bad ∧ index = number + front.length ∧
      text = String.ofList (payload bad) := by
  unfold verdict at h
  split at h
  · cases next? <;> cases h
    exact ⟨_, rfl, rfl, rfl⟩
  · cases h

theorem verdict_tooLarge (h : verdict number room front next? = .error .tooLarge) :
    room < (bytes front).length := by
  unfold verdict at h
  split at h
  · cases next? <;> cases h
  · omega

end

variable {number room : Nat}

/-- **An image is read from its readable lines and the first bad one.** -/
theorem parseFrom_eq (number room : Nat) (lines : List (List Char)) :
    parseFrom number room lines = verdict number room (readable lines) (bad? lines) := by
  induction lines generalizing number room with
  | nil => rfl
  | cons line rest ih =>
    by_cases hSome : payload line = []
    · rw [parseFrom_of_blank hSome, ih, readable_cons (.inl hSome), bad?_cons (.inl hSome),
        verdict_of_blank hSome]
    · by_cases hByte : IsByte (payload line)
      · rw [readable_cons (.inr hByte), bad?_cons (.inr hByte)]
        cases room with
        | zero => rw [parseFrom_of_full hSome hByte, verdict_of_full hSome hByte]
        | succ room => rw [parseFrom_of_byte hSome hByte, ih, verdict_of_byte hSome hByte]
      · have hBad : ¬IsReadable line := not_or.mpr ⟨hSome, hByte⟩
        rw [parseFrom_of_bad hSome hByte, readable_cons_of_bad hBad, bad?_cons_of_bad hBad]
        exact (if_pos (Nat.zero_le room)).symm

/-! ## Lines behind others -/

theorem bad?_append (front back : List (List Char)) :
    bad? (front ++ back) = (bad? front).or (bad? back) :=
  List.find?_append

theorem readable_append {front : List (List Char)} (h : bad? front = none)
    (back : List (List Char)) : readable (front ++ back) = front ++ readable back := by
  refine List.takeWhile_append_of_pos fun line hLine => ?_
  simpa using List.find?_eq_none.mp h line hLine

theorem readable_of_none {lines : List (List Char)} (h : bad? lines = none) :
    readable lines = lines := by
  have hAll := readable_append h []
  rw [List.append_nil] at hAll
  exact hAll.trans (List.append_nil lines)

theorem readable_append_of_bad {front : List (List Char)} {line : List Char}
    (h : bad? front = some line) (back : List (List Char)) :
    readable (front ++ back) = readable front := by
  induction front with
  | nil => cases h
  | cons first rest ih =>
    by_cases hReadable : IsReadable first
    · rw [bad?_cons hReadable] at h
      rw [List.cons_append, readable_cons hReadable, readable_cons hReadable, ih h]
    · rw [List.cons_append, readable_cons_of_bad hReadable, readable_cons_of_bad hReadable]

theorem take_readable (lines : List (List Char)) :
    lines.take (readable lines).length = readable lines :=
  (List.prefix_iff_eq_take.mp (List.takeWhile_prefix _)).symm

/-- Lines that are refused are refused in front of any others. -/
theorem parseFrom_append_of_error {front : List (List Char)} {error : ImageError}
    (h : parseFrom number room front = .error error) (back : List (List Char)) :
    parseFrom number room (front ++ back) = .error error := by
  rw [parseFrom_eq] at h ⊢
  cases hBad : bad? front with
  | some line =>
    rw [readable_append_of_bad hBad, bad?_append, hBad, Option.some_or]
    rwa [hBad] at h
  | none =>
    -- Nothing is wrong with the lines but that they are too many.
    rw [readable_of_none hBad, hBad] at h
    rw [readable_append hBad]
    unfold verdict at h ⊢
    split at h
    · cases h
    · next hFull => rw [bytes_append, List.length_append, if_neg (by omega), h]

/-- Behind lines that are read, others are read with what room is left. -/
theorem parseFrom_append_of_ok {front : List (List Char)} {image : List UInt8}
    (h : parseFrom number room front = .ok image) (back : List (List Char)) :
    parseFrom number room (front ++ back) =
      if image.length + (bytes (readable back)).length ≤ room then
        match bad? back with
        | none => .ok (image ++ bytes (readable back))
        | some line => .error (.invalidLiteral (number + (front.length + (readable back).length))
          (String.ofList (payload line)))
      else .error .tooLarge := by
  rw [parseFrom_eq] at h ⊢
  obtain ⟨hGood, rfl⟩ := verdict_ok h
  rw [readable_append hGood, readable_of_none hGood, bad?_append, hGood, Option.none_or]
  unfold verdict
  rw [bytes_append, List.length_append, List.length_append]

/-! ## Texts one after another -/

theorem parse_eq (source : String) :
    parse source = parseFrom 1 Memory.size (source.toList.splitOn '\n') := by
  rw [parse, lines_eq_pieces, pieces, parseFrom_dropLastEmpty]

theorem parse_join (first second : String) : parse (first ++ "\n" ++ second) =
    parseFrom 1 Memory.size (first.toList.splitOn '\n' ++ lines second.toList) := by
  have hText : (first ++ "\n" ++ second).toList = first.toList ++ '\n' :: second.toList := by
    simp
  rw [parse, hText, lines_append]

/-- **Images compose by concatenation.** A text that is refused is refused for the same error,
whatever comes behind a line break. Behind a text that is read, another one adds its bytes, or its
first bad line, counted on from the lines before, as long as there is room for all bytes up to
there. -/
theorem parse_append (first second : String) :
    (∀ error, parse first = .error error → parse (first ++ "\n" ++ second) = .error error) ∧
    ∀ image, parse first = .ok image →
      (∀ more, parse second = .ok more → parse (first ++ "\n" ++ second) =
        if image.length + more.length ≤ 256 then .ok (image ++ more) else .error .tooLarge) ∧
      (∀ line text, parse second = .error (.invalidLiteral line text) →
        parse (first ++ "\n" ++ second) =
          if image.length +
              (literals (((lines second.toList).take (line - 1)).map payload)).length ≤ 256
          then .error (.invalidLiteral (1 + first.toList.count '\n' + line) text)
          else .error .tooLarge) ∧
      (parse second = .error .tooLarge → parse (first ++ "\n" ++ second) = .error .tooLarge) := by
  refine ⟨fun error h => ?_, fun image h => ?_⟩
  · rw [parse_eq] at h
    rw [parse_join, parseFrom_append_of_error h]
  · rw [parse_eq] at h
    have hWhole := (parse_join first second).trans (parseFrom_append_of_ok h _)
    have hSecond : parse second = _ := parseFrom_eq 1 Memory.size (lines second.toList)
    refine ⟨fun more hMore => ?_, fun line text hText => ?_, fun hLarge => ?_⟩
    · obtain ⟨hGood, rfl⟩ := verdict_ok (hSecond.symm.trans hMore)
      rw [hWhole, hGood]
    · obtain ⟨bad, hBad, rfl, rfl⟩ := verdict_invalidLiteral (hSecond.symm.trans hText)
      have hLiterals : (bytes (readable (lines second.toList))).length =
          (literals ((readable (lines second.toList)).map payload)).length := List.length_map _
      have hLine : 1 + (first.toList.count '\n' + 1 + (readable (lines second.toList)).length) =
          1 + first.toList.count '\n' + (1 + (readable (lines second.toList)).length) := by omega
      rw [hWhole, hBad, hLiterals, length_splitOn, hLine, Nat.add_sub_cancel_left, take_readable]
    · have hFull := verdict_tooLarge (hSecond.symm.trans hLarge)
      rw [hWhole, if_neg (by omega)]

end Ls8.Image
