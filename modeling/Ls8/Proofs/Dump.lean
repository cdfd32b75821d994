import Ls8.Dump

/-!
# Dumps read back

The dump of some bytes stands for these bytes. The tokens come between the two: no token that is
written is mistaken for another when it is read, whatever comes after it (`tokensFrom_append`), and
the tokens of the runs stand for what the runs were taken from (`expand_tokenize`).
-/

namespace Ls8.Dump

/-! ## Tokens as bytes -/

/-- A token that is read as it was written. -/
def Token.IsPlain : Token → Prop
  | .literal byte => byte ≠ escape
  | .escaped => True
  | .run count _ => count ≠ 0

theorem tokensFrom_bytes_append {token : Token} (h : token.IsPlain) (offset : Nat)
    (rest : List UInt8) : tokensFrom offset (token.bytes ++ rest) =
      (token :: ·) <$> tokensFrom (offset + token.bytes.length) rest := by
  cases token with
  | literal byte =>
    have hb : byte ≠ escape := h
    show tokensFrom offset (byte :: rest) = _
    rw [tokensFrom.eq_def]
    dsimp only
    rw [if_pos hb]
    rfl
  | escaped =>
    show tokensFrom offset (escape :: 0 :: rest) = _
    rw [tokensFrom.eq_def]
    dsimp only
    rw [if_neg (not_not_intro rfl)]
    rfl
  | run count byte =>
    have hc : count ≠ 0 := h
    show tokensFrom offset (escape :: count :: byte :: rest) = _
    rw [tokensFrom.eq_def]
    dsimp only
    rw [if_neg (not_not_intro rfl)]
    exact if_neg hc

/-- What was written as tokens is read as these tokens, whatever comes after it. -/
theorem tokensFrom_append {ts : List Token} (h : ∀ token ∈ ts, token.IsPlain) (offset : Nat)
    (rest : List UInt8) : tokensFrom offset (ts.flatMap Token.bytes ++ rest) =
      (ts ++ ·) <$> tokensFrom (offset + (ts.flatMap Token.bytes).length) rest := by
  induction ts generalizing offset with
  | nil =>
    show tokensFrom offset rest = (fun more => more) <$> tokensFrom offset rest
    rw [id_map']
  | cons token ts ih =>
    obtain ⟨hToken, hRest⟩ := List.forall_mem_cons.mp h
    rw [List.flatMap_cons, List.append_assoc, tokensFrom_bytes_append hToken, ih hRest,
      List.length_append, Nat.add_assoc, Functor.map_map]
    rfl

theorem tokensFrom_bytes {ts : List Token} (h : ∀ token ∈ ts, token.IsPlain) (offset : Nat) :
    tokensFrom offset (ts.flatMap Token.bytes) = .ok ts := by
  have hAll := tokensFrom_append h offset []
  rw [List.append_nil] at hAll
  rw [hAll]
  exact congrArg Except.ok ts.append_nil

/-! ## Runs -/

/-- The bytes of a run. -/
def bytesOfRun (run : Nat × UInt8) : List UInt8 := List.replicate run.1 run.2

theorem bytesOfRun_runsFrom (length : Nat) (byte : UInt8) (rest : List UInt8) :
    (runsFrom length byte rest).flatMap bytesOfRun = List.replicate length byte ++ rest := by
  induction rest generalizing length byte with
  | nil => simp [runsFrom, bytesOfRun]
  | cons next rest ih =>
    unfold runsFrom
    by_cases hn : next = byte ∧ length < longestRun
    · rw [if_pos hn, ih, List.replicate_succ', List.append_assoc, hn.1]
      rfl
    · rw [if_neg hn, List.flatMap_cons, ih]
      rfl

/-- The runs put together are what they were taken from. -/
theorem bytesOfRun_runs (bytes : List UInt8) : (runs bytes).flatMap bytesOfRun = bytes := by
  cases bytes with
  | nil => rfl
  | cons byte rest => exact bytesOfRun_runsFrom 1 byte rest

/-- No run is empty, and the length of each fits into a byte. -/
theorem runsFrom_length {length : Nat} (hPos : 0 < length) (hMax : length ≤ longestRun)
    (byte : UInt8) (rest : List UInt8) :
    ∀ run ∈ runsFrom length byte rest, 0 < run.1 ∧ run.1 ≤ longestRun := by
  induction rest generalizing length byte with
  | nil =>
    intro run hRun
    rw [runsFrom, List.mem_singleton] at hRun
    rw [hRun]
    exact ⟨hPos, hMax⟩
  | cons next rest ih =>
    unfold runsFrom
    by_cases hn : next = byte ∧ length < longestRun
    · rw [if_pos hn]
      exact ih (Nat.succ_pos length) hn.2 byte
    · rw [if_neg hn]
      intro run hRun
      rcases List.mem_cons.mp hRun with rfl | hRun
      · exact ⟨hPos, hMax⟩
      · exact ih Nat.one_pos (by decide) next run hRun

theorem runs_length {bytes : List UInt8} {run : Nat × UInt8} (h : run ∈ runs bytes) :
    0 < run.1 ∧ run.1 ≤ longestRun := by
  cases bytes with
  | nil => cases h
  | cons byte rest => exact runsFrom_length Nat.one_pos (by decide) byte rest run h

/-! ## The tokens of a run -/

theorem ofByte_isPlain (byte : UInt8) : (Token.ofByte byte).IsPlain := by
  unfold Token.ofByte
  split
  · trivial
  · assumption

theorem expand_ofByte (byte : UInt8) : (Token.ofByte byte).expand = [byte] := by
  unfold Token.ofByte
  split
  · next h => rw [h]; rfl
  · rfl

theorem tokensOfRun_isPlain {length : Nat} (hPos : 0 < length) (hMax : length ≤ longestRun)
    (byte : UInt8) : ∀ token ∈ tokensOfRun length byte, token.IsPlain := by
  intro token hToken
  unfold tokensOfRun at hToken
  split at hToken
  · rw [List.mem_singleton.mp hToken]
    have hLength : length.toUInt8.toNat = length := Nat.mod_eq_of_lt (Nat.lt_succ_of_le hMax)
    intro hZero
    rw [hZero] at hLength
    exact absurd hLength (Nat.ne_of_lt hPos)
  · rw [List.eq_of_mem_replicate hToken]
    exact ofByte_isPlain byte

theorem expand_tokensOfRun {length : Nat} (hMax : length ≤ longestRun) (byte : UInt8) :
    (tokensOfRun length byte).flatMap Token.expand = bytesOfRun (length, byte) := by
  unfold tokensOfRun
  split
  · have hLength : length.toUInt8.toNat = length := Nat.mod_eq_of_lt (Nat.lt_succ_of_le hMax)
    rw [List.flatMap_singleton, Token.expand, hLength]
    rfl
  · rw [bytesOfRun, List.flatMap_replicate, expand_ofByte, List.flatten_replicate_singleton]

/-! ## Whole dumps -/

theorem tokenize_isPlain (bytes : List UInt8) : ∀ token ∈ tokenize bytes, token.IsPlain := by
  intro token hToken
  obtain ⟨run, hRun, hToken⟩ := List.mem_flatMap.mp hToken
  obtain ⟨hPos, hMax⟩ := runs_length hRun
  exact tokensOfRun_isPlain hPos hMax run.2 token hToken

theorem expand_tokenize (bytes : List UInt8) : (tokenize bytes).flatMap Token.expand = bytes := by
  have hRuns : ∀ run ∈ runs bytes,
      (tokensOfRun run.1 run.2).flatMap Token.expand = bytesOfRun run :=
    fun run hRun => expand_tokensOfRun (runs_length hRun).2 run.2
  calc (tokenize bytes).flatMap Token.expand
      = (runs bytes).flatMap fun run => (tokensOfRun run.1 run.2).flatMap Token.expand :=
        List.flatMap_assoc
    _ = (runs bytes).flatMap bytesOfRun := congrArg List.flatten (List.map_congr_left hRuns)
    _ = bytes := bytesOfRun_runs bytes

/-- **A dump stands for the bytes that it was made of.** -/
theorem expand_compress (bytes : List UInt8) : expand (compress bytes) = .ok bytes := by
  have hTokens : tokens (compress bytes) = .ok (tokenize bytes) :=
    tokensFrom_bytes (tokenize_isPlain bytes) 0
  show (·.flatMap Token.expand) <$> tokens (compress bytes) = .ok bytes
  rw [hTokens]
  exact congrArg Except.ok (expand_tokenize bytes)

end Ls8.Dump
