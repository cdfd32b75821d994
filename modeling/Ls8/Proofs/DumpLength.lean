import Ls8.Proofs.Snapshot
import Mathlib.Algebra.Order.Floor.Div
import Mathlib.GroupTheory.GroupAction.Ring

/-!
# How long a dump is

A dump may be longer than what it stands for. Only a single zero takes more than two bytes and a
half for each of its own, and no other one comes right after it, so the run that does pays for it.

* `Dump.two_mul_lengthOfRun_lt`: what any other run takes.
* `Dump.length_compress_le`: hence the bound for a whole dump.
* `Dump.length_compress_alternating`: zeros and escape bytes in turn reach it.
* `Snapshot.compress_codec`: what becomes of the bytes that a dump is made of, and its length.
-/

namespace Ls8

namespace Dump

/-! ## The length of a run -/

/-- The number of bytes that a run takes in a dump. -/
def lengthOfRun (run : Nat × UInt8) : Nat :=
  ((tokensOfRun run.1 run.2).flatMap Token.bytes).length

theorem length_compress (bytes : List UInt8) :
    (compress bytes).length = ((runs bytes).map lengthOfRun).sum := by
  rw [compress, tokenize, List.flatMap_assoc, List.length_flatMap]
  rfl

theorem lengthOfRun_of_token {length : Nat} {byte : UInt8} (h : length > 3 ∨ byte = 0) :
    lengthOfRun (length, byte) = 3 := by
  rw [lengthOfRun, tokensOfRun, if_pos h]
  rfl

theorem length_bytes_ofByte_le (byte : UInt8) : (Token.ofByte byte).bytes.length ≤ 2 := by
  unfold Token.ofByte
  split
  · exact Nat.le_refl 2
  · exact Nat.le_succ 1

/-- Any run but a single zero leaves something of two bytes and a half for each of its own. -/
theorem two_mul_lengthOfRun_lt {length : Nat} {byte : UInt8} (hPos : 0 < length)
    (h : ¬(byte = 0 ∧ length = 1)) : 2 * lengthOfRun (length, byte) < 5 * length := by
  by_cases hToken : length > 3 ∨ byte = 0
  · rw [lengthOfRun_of_token hToken]
    have hTwo : 2 ≤ length := by
      rcases hToken with hLong | hZero
      · omega
      · have hMore : length ≠ 1 := fun hOne => h ⟨hZero, hOne⟩
        omega
    omega
  · have hEach := length_bytes_ofByte_le byte
    have hLength : lengthOfRun (length, byte) =
        length * (Token.ofByte byte).bytes.length := by
      rw [lengthOfRun, tokensOfRun, if_neg hToken, List.length_flatMap, List.map_replicate,
        List.sum_replicate_nat]
    have hTwice : length * (Token.ofByte byte).bytes.length ≤ length * 2 :=
      Nat.mul_le_mul_left length hEach
    omega

/-! ## The length of a dump -/

/-- The induction is on the bytes behind a run. Nothing is owed for a first run of zeros but the
half byte that a single zero may take too much. -/
theorem two_mul_length_runsFrom_le {length : Nat} (hPos : 0 < length) (byte : UInt8)
    (rest : List UInt8) : 2 * ((runsFrom length byte rest).map lengthOfRun).sum ≤
      5 * (length + rest.length) + if byte = 0 then 1 else 0 := by
  induction rest generalizing length byte with
  | nil =>
    rw [runsFrom, List.map_singleton, List.sum_singleton, List.length_nil]
    by_cases hSingle : byte = 0 ∧ length = 1
    · obtain ⟨rfl, rfl⟩ := hSingle
      exact Nat.le_refl _
    · have hLess := two_mul_lengthOfRun_lt hPos hSingle
      omega
  | cons next rest ih =>
    unfold runsFrom
    by_cases hNext : next = byte ∧ length < longestRun
    · rw [if_pos hNext, List.length_cons]
      have hLonger := ih (Nat.add_pos_left hPos 1) byte
      omega
    · rw [if_neg hNext, List.map_cons, List.sum_cons, List.length_cons]
      have hOthers := ih Nat.one_pos next
      by_cases hSingle : byte = 0 ∧ length = 1
      -- The run after a single zero is none of zeros.
      · obtain ⟨rfl, rfl⟩ := hSingle
        have hOther : next ≠ 0 := fun hZero => hNext ⟨hZero, by decide⟩
        rw [if_neg hOther] at hOthers
        rw [if_pos rfl, lengthOfRun_of_token (Or.inr rfl)]
        omega
      · have hLess := two_mul_lengthOfRun_lt hPos hSingle
        split at hOthers <;> omega

/-- A dump takes two bytes and a half for one at most. -/
theorem length_compress_le (bytes : List UInt8) :
    (compress bytes).length ≤ (5 * bytes.length) ⌈/⌉ 2 := by
  rw [Nat.ceilDiv_eq_add_pred_div, length_compress]
  cases bytes with
  | nil => exact Nat.zero_le _
  | cons byte rest =>
    have hRuns := two_mul_length_runsFrom_le Nat.one_pos byte rest
    rw [runs, List.length_cons]
    split at hRuns <;> omega

/-! ## The longest dumps -/

/-- Zeros and escape bytes in turn. -/
def alternating : Nat → List UInt8
  | 0 => []
  | 1 => [0]
  | n + 2 => 0 :: escape :: alternating n

theorem length_alternating (n : Nat) : (alternating n).length = n := by
  induction n using alternating.induct with
  | case1 => rfl
  | case2 => rfl
  | case3 n ih => rw [alternating, List.length_cons, List.length_cons, ih]

theorem runs_alternating (n : Nat) :
    runs (alternating (n + 2)) = (1, 0) :: (1, escape) :: runs (alternating n) := by
  rcases n with _ | _ | n <;> rfl

theorem length_compress_alternating (n : Nat) :
    (compress (alternating n)).length = (5 * n) ⌈/⌉ 2 := by
  rw [Nat.ceilDiv_eq_add_pred_div]
  induction n using alternating.induct with
  | case1 => rfl
  | case2 => rfl
  | case3 n ih =>
    have hZero : lengthOfRun (1, 0) = 3 := rfl
    have hEscape : lengthOfRun (1, escape) = 2 := rfl
    rw [length_compress] at ih ⊢
    rw [runs_alternating, List.map_cons, List.map_cons, List.sum_cons, List.sum_cons, ih, hZero,
      hEscape]
    omega

/-! ## Dumps of different bytes -/

theorem compress_injective : Function.Injective compress := by
  intro bytes other h
  have hExpand := expand_compress bytes
  rw [h, expand_compress other] at hExpand
  exact (Except.ok.inj hExpand).symm

end Dump

namespace Snapshot

open Dump

theorem bytesOfDump_compress_eq (bytes : List UInt8) : bytesOfDump (compress bytes) =
    if bytes.length = Memory.size then .ok bytes else .error (.wrongSize bytes.length) := by
  rw [bytesOfDump, expand_compress]

/-- **Bytes of any number come back from their dump**, which is accepted if they are as many as
memory has cells. A dump takes two bytes and a half at most for each of them, and for every number
there are bytes that take as much. So no snapshot takes more than 640. -/
theorem compress_codec :
    Function.Injective compress ∧
    (∀ bytes, expand (compress bytes) = .ok bytes ∧
      (bytesOfDump (compress bytes) = if bytes.length = Memory.size then .ok bytes
        else .error (.wrongSize bytes.length)) ∧
      (compress bytes).length ≤ (5 * bytes.length) ⌈/⌉ 2) ∧
    (∀ n, (alternating n).length = n ∧ (compress (alternating n)).length = (5 * n) ⌈/⌉ 2) ∧
    ∀ id machineId createdAt machine,
      let snapshot := capture id machineId createdAt machine
      snapshot.sizeBytes.toNat = snapshot.dump.length ∧ snapshot.dump.length ≤ 640 := by
  refine ⟨compress_injective, fun bytes => ?_, fun n => ?_, ?_⟩
  · exact ⟨expand_compress bytes, bytesOfDump_compress_eq bytes, length_compress_le bytes⟩
  · exact ⟨length_alternating n, length_compress_alternating n⟩
  · intro id machineId createdAt machine
    have hLength := length_compress_le machine.memory.toList
    rw [Memory.length_toList] at hLength
    exact ⟨UInt64.toNat_ofNat_of_lt' (hLength.trans_lt (by decide)), hLength⟩

end Snapshot

end Ls8
