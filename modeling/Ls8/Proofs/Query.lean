import Ls8.Http.Query
import Ls8.Http.Message
import Ls8.Proofs.Text

/-!
# Queries and paths that are read back

* `Query.IsPlain`: texts that need no escapes in a query. `Query.decode_of_plain`: they are read as
  they are.
* `Query.fields_pair`, `Query.fields_cons`: a query is read one pair after another.
* `Request.piecesFrom_append`: so is a path, one segment after another.
-/

namespace Ls8

namespace Http.Query

/-- The characters of a text stand for themselves in a query. -/
def IsPlain (text : List Char) : Prop := ∀ c ∈ text, c.toNat ≤ 127 ∧ c ∉ ['%', '+', '&', '=']

instance (text : List Char) : Decidable (IsPlain text) :=
  List.decidableBAll _ text

theorem isPlain_toDigits (n : Nat) : IsPlain (Nat.toDigits 10 n) := by
  intro c hc
  have hDigit := Char.isDigit_iff_toNat.mp (Text.isDigit_of_mem_toDigits hc)
  have hZero : '0'.toNat = 48 := rfl
  have hNine : '9'.toNat = 57 := rfl
  refine ⟨by omega, fun hMem => ?_⟩
  simp only [List.mem_cons, List.not_mem_nil, or_false] at hMem
  rcases hMem with rfl | rfl | rfl | rfl <;> revert hDigit <;> decide

theorem unescape_of_plain {bytes : List UInt8} (h : ∀ byte ∈ bytes, byte ≠ 37 ∧ byte ≠ 43) :
    unescape bytes = bytes := by
  induction bytes with
  | nil => rfl
  | cons byte rest ih =>
    rw [List.forall_mem_cons] at h
    obtain ⟨⟨hPercent, hPlus⟩, hRest⟩ := h
    rw [unescape, if_neg hPlus, ih hRest]
    intro _ _ _ hByte
    exact (hPercent hByte).elim

theorem decode_of_plain {part : List Char} (h : IsPlain part) :
    decode part = some (String.ofList part) := by
  have hPlain : ∀ byte ∈ (String.ofList part).toUTF8.data.toList, byte ≠ 37 ∧ byte ≠ 43 := by
    rw [Text.bytes_ofList fun c hc => (h c hc).1]
    intro byte hByte
    obtain ⟨c, hc, rfl⟩ := List.mem_map.mp hByte
    obtain ⟨hAscii, hNone⟩ := h c hc
    have hPercent : c ≠ '%' := fun hSame => hNone (by simp [hSame])
    have hPlus : c ≠ '+' := fun hSame => hNone (by simp [hSame])
    exact ⟨Text.toUInt8_ne hAscii (by decide) hPercent, Text.toUInt8_ne hAscii (by decide) hPlus⟩
  rw [decode, unescape_of_plain hPlain, Array.toArray_toList]
  exact Text.fromUTF8?_toUTF8 _

theorem piecesFrom_append {text : List Char} (h : '&' ∉ text) (piece rest : List Char) :
    piecesFrom piece (text ++ rest) = piecesFrom (text.reverse ++ piece) rest := by
  induction text generalizing piece with
  | nil => rfl
  | cons c text ih =>
    rw [List.mem_cons, not_or] at h
    rw [List.cons_append, piecesFrom, if_neg (Ne.symm h.1), ih h.2, List.reverse_cons,
      List.append_assoc]
    rfl

section

variable {name value : List Char}

theorem pair_of_plain (hName : IsPlain name) (hValue : IsPlain value) :
    pair (name ++ '=' :: value) = (some (String.ofList name), some (String.ofList value)) := by
  have hTake : (name ++ '=' :: value).takeWhile (· != '=') = name := by
    rw [List.takeWhile_append_of_pos]
    · rw [List.takeWhile_cons_of_neg (by decide), List.append_nil]
    · intro c hc
      have hOther : c ≠ '=' := fun hSame => (hName c hc).2 (by simp [hSame])
      exact bne_iff_ne.mpr hOther
  have hDrop : (name ++ '=' :: value).drop (name.length + 1) = value := by
    rw [List.append_cons]
    apply List.drop_left'
    rw [List.length_append, List.length_singleton]
  simp only [pair, hTake, hDrop, decode_of_plain hName, decode_of_plain hValue]

theorem not_mem_assignment (hName : IsPlain name) (hValue : IsPlain value) :
    '&' ∉ name ++ '=' :: value := by
  have hNone : ∀ text, IsPlain text → '&' ∉ text := by
    intro text hText hMem
    exact (hText '&' hMem).2 (by simp)
  simp [hNone name hName, hNone value hValue]

/-- A query of one pair. -/
theorem fields_pair (hName : IsPlain name) (hValue : IsPlain value) :
    fields (String.ofList (name ++ '=' :: value)) =
      [(some (String.ofList name), some (String.ofList value))] := by
  have hPieces := piecesFrom_append (not_mem_assignment hName hValue) [] []
  rw [List.append_nil, List.append_nil] at hPieces
  simp [fields, hPieces, piecesFrom, pair_of_plain hName hValue]

/-- A query that begins with a pair. -/
theorem fields_cons (hName : IsPlain name) (hValue : IsPlain value) (rest : List Char) :
    fields (String.ofList (name ++ '=' :: value ++ '&' :: rest)) =
      (some (String.ofList name), some (String.ofList value)) :: fields (String.ofList rest) := by
  have hPieces := piecesFrom_append (not_mem_assignment hName hValue) [] ('&' :: rest)
  rw [List.append_nil, piecesFrom, if_pos rfl, List.reverse_reverse] at hPieces
  have hSome : (name ++ '=' :: value).isEmpty = false := by simp
  rw [fields, String.toList_ofList, hPieces, List.filter_cons_of_pos (by rw [hSome]; rfl),
    List.map_cons, pair_of_plain hName hValue, fields, String.toList_ofList]

end

end Http.Query

namespace Http.Request

theorem piecesFrom_append {text : List Char} (h : '/' ∉ text) (piece rest : List Char) :
    piecesFrom piece (text ++ '/' :: rest) =
      String.ofList (piece.reverse ++ text) :: piecesFrom [] rest := by
  induction text generalizing piece with
  | nil => rw [List.nil_append, piecesFrom, if_pos rfl, List.append_nil]
  | cons c text ih =>
    rw [List.mem_cons, not_or] at h
    rw [List.cons_append, piecesFrom, if_neg (Ne.symm h.1), ih h.2, List.reverse_cons,
      List.append_assoc]
    rfl

end Http.Request

end Ls8
