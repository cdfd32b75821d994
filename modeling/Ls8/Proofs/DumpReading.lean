import Ls8.Proofs.Snapshot

/-!
# Dumps that are accepted

What is made of a dump, whoever has written it.

* `Dump.IsCut`, `Dump.Reads`: whole tokens one after another, and what is there of one that is cut
  off. Every dump reads so (`exists_reads`), and in one way only (`Reads.unique`).
* `Snapshot.Judged`: what is made of a dump that reads so.
* `Snapshot.prefix_refused`: no dump is accepted that another accepted one goes on from.
* `Snapshot.dump_judged`: all of this in one statement.
-/

namespace Ls8

namespace Dump

/-- The beginning of a token that ends too early: some of its bytes are there, but not all. -/
def IsCut (rest : List UInt8) : Prop :=
  rest ≠ [] ∧ ∃ token : Token, token.IsPlain ∧ rest <+: token.bytes ∧ rest ≠ token.bytes

/-- A dump, read from the left: whole tokens, and then nothing or the beginning of another one. -/
structure Reads (dump : List UInt8) (ts : List Token) (rest : List UInt8) : Prop where
  bytes : dump = ts.flatMap Token.bytes ++ rest
  plain : ∀ token ∈ ts, token.IsPlain
  cut : rest = [] ∨ IsCut rest

/-! ## Tokens that are cut off -/

theorem isCut_escape : IsCut [escape] :=
  ⟨List.cons_ne_nil _ _, .escaped, trivial, ⟨[0], rfl⟩, by decide⟩

theorem isCut_count {count : UInt8} (h : count ≠ 0) : IsCut [escape, count] :=
  ⟨List.cons_ne_nil _ _, .run count 0, h, ⟨[0], rfl⟩, by simp [Token.bytes]⟩

/-- A token is cut off behind the escape byte or behind a count. -/
theorem isCut_iff {rest : List UInt8} :
    IsCut rest ↔ rest = [escape] ∨ ∃ count, count ≠ 0 ∧ rest = [escape, count] := by
  constructor
  · rintro ⟨hSome, token, hPlain, hPrefix, hNotWhole⟩
    have hTake : rest = token.bytes.take rest.length := List.prefix_iff_eq_take.mp hPrefix
    have hLess : rest.length < token.bytes.length :=
      Nat.lt_of_le_of_ne hPrefix.length_le fun h => hNotWhole (hPrefix.eq_of_length h)
    have hPos : 0 < rest.length := List.length_pos_iff.mpr hSome
    generalize rest.length = n at hTake hLess hPos
    subst hTake
    cases token with
    | literal byte => exact absurd hLess (Nat.not_lt.mpr hPos)
    | escaped =>
      have hOne : n = 1 := Nat.le_antisymm (Nat.le_of_lt_succ hLess) hPos
      exact Or.inl (by rw [hOne]; rfl)
    | run count byte =>
      have hCases : n = 1 ∨ n = 2 := by
        have hThree : n < 3 := hLess
        omega
      rcases hCases with rfl | rfl
      · exact Or.inl rfl
      · exact Or.inr ⟨count, hPlain, rfl⟩
  · rintro (rfl | ⟨count, hCount, rfl⟩)
    · exact isCut_escape
    · exact isCut_count hCount

/-- The offset of a token that is cut off is reported. -/
theorem tokensFrom_of_isCut {rest : List UInt8} (h : IsCut rest) (offset : Nat) :
    tokensFrom offset rest = .error offset := by
  rcases isCut_iff.mp h with rfl | ⟨count, hCount, rfl⟩
  · rfl
  · rw [tokensFrom.eq_def]
    exact if_neg hCount

/-! ## Reading -/

variable {dump rest : List UInt8} {ts : List Token}

theorem Reads.append (h : Reads dump ts []) {more : List UInt8} {ts' : List Token}
    (hMore : Reads more ts' rest) : Reads (dump ++ more) (ts ++ ts') rest where
  bytes := by
    rw [h.bytes, hMore.bytes, List.append_nil, List.flatMap_append, List.append_assoc]
  plain := List.forall_mem_append.mpr ⟨h.plain, hMore.plain⟩
  cut := hMore.cut

theorem reads_token {token : Token} (h : token.IsPlain) : Reads token.bytes [token] [] where
  bytes := by rw [List.append_nil, List.flatMap_singleton]
  plain := List.forall_mem_singleton.mpr h
  cut := Or.inl rfl

theorem reads_rest (h : rest = [] ∨ IsCut rest) : Reads rest [] rest where
  bytes := rfl
  plain := List.forall_mem_nil _
  cut := h

/-- Every dump begins with a whole token, unless it is empty or ends within its first one. -/
theorem exists_token (dump : List UInt8) : (dump = [] ∨ IsCut dump) ∨
    ∃ (token : Token) (more : List UInt8), token.IsPlain ∧ dump = token.bytes ++ more := by
  cases dump with
  | nil => exact Or.inl (Or.inl rfl)
  | cons first more =>
    by_cases hFirst : first = escape
    · subst hFirst
      cases more with
      | nil => exact Or.inl (Or.inr isCut_escape)
      | cons count more =>
        by_cases hCount : count = 0
        · subst hCount
          exact Or.inr ⟨.escaped, more, trivial, rfl⟩
        · cases more with
          | nil => exact Or.inl (Or.inr (isCut_count hCount))
          | cons byte more => exact Or.inr ⟨.run count byte, more, hCount, rfl⟩
    · exact Or.inr ⟨.literal first, more, hFirst, rfl⟩

theorem Token.length_bytes_pos (token : Token) : 0 < token.bytes.length := by
  cases token <;> exact Nat.succ_pos _

theorem exists_reads (dump : List UInt8) : ∃ ts rest, Reads dump ts rest := by
  induction hLength : dump.length using Nat.strongRecOn generalizing dump with
  | ind length ih =>
    rcases exists_token dump with hRest | ⟨token, more, hToken, rfl⟩
    · exact ⟨[], dump, reads_rest hRest⟩
    · have hShorter : more.length < length := by
        have hPos := token.length_bytes_pos
        rw [List.length_append] at hLength
        omega
      obtain ⟨ts, rest, hMore⟩ := ih more.length hShorter more rfl
      exact ⟨[token] ++ ts, rest, (reads_token hToken).append hMore⟩

theorem Reads.tokens_of_whole (h : Reads dump ts []) : tokens dump = .ok ts := by
  rw [h.bytes, List.append_nil]
  exact tokensFrom_bytes h.plain 0

theorem Reads.tokens_of_isCut (h : Reads dump ts rest) (hCut : IsCut rest) :
    tokens dump = .error (ts.flatMap Token.bytes).length := by
  rw [h.bytes, tokens, tokensFrom_append h.plain, tokensFrom_of_isCut hCut, Nat.zero_add]
  rfl

/-- Tokens that take the same bytes are the same. -/
theorem eq_of_bytes_eq {ts ts' : List Token} (h : ∀ token ∈ ts, token.IsPlain)
    (h' : ∀ token ∈ ts', token.IsPlain)
    (hBytes : ts.flatMap Token.bytes = ts'.flatMap Token.bytes) : ts = ts' := by
  have hRead := tokensFrom_bytes h 0
  rw [hBytes, tokensFrom_bytes h' 0] at hRead
  exact (Except.ok.inj hRead).symm

/-- There is only one way to read a dump. -/
theorem Reads.unique (h : Reads dump ts rest) {ts' : List Token} {rest' : List UInt8}
    (h' : Reads dump ts' rest') : ts' = ts ∧ rest' = rest := by
  have hLength : (ts'.flatMap Token.bytes).length = (ts.flatMap Token.bytes).length := by
    rcases h.cut with rfl | hCut <;> rcases h'.cut with rfl | hCut'
    · have hTokens := h.tokens_of_whole
      rw [h'.tokens_of_whole] at hTokens
      rw [Except.ok.inj hTokens]
    · have hTokens := h.tokens_of_whole
      rw [h'.tokens_of_isCut hCut'] at hTokens
      cases hTokens
    · have hTokens := h.tokens_of_isCut hCut
      rw [h'.tokens_of_whole] at hTokens
      cases hTokens
    · have hTokens := h.tokens_of_isCut hCut
      rw [h'.tokens_of_isCut hCut'] at hTokens
      exact Except.error.inj hTokens
  have hSame : ts'.flatMap Token.bytes ++ rest' = ts.flatMap Token.bytes ++ rest :=
    h'.bytes.symm.trans h.bytes
  obtain ⟨hBytes, hRest⟩ := List.append_inj hSame hLength
  exact ⟨eq_of_bytes_eq h'.plain h.plain hBytes, hRest⟩

theorem Reads.expand_of_whole (h : Reads dump ts []) :
    expand dump = .ok (ts.flatMap Token.expand) := by
  rw [expand, h.tokens_of_whole]
  rfl

theorem Reads.expand_of_isCut (h : Reads dump ts rest) (hCut : IsCut rest) :
    expand dump = .error (ts.flatMap Token.bytes).length := by
  rw [expand, h.tokens_of_isCut hCut]
  rfl

/-- Every token stands for a byte at least. -/
theorem Token.length_expand_pos {token : Token} (h : token.IsPlain) :
    0 < token.expand.length := by
  cases token with
  | literal | escaped => exact Nat.one_pos
  | run count byte =>
    have hCount : count ≠ 0 := h
    rw [expand, List.length_replicate, Nat.pos_iff_ne_zero]
    exact fun hZero => hCount (UInt8.toNat_inj.mp hZero)

theorem length_expansion_pos (h : ∀ token ∈ ts, token.IsPlain) (hSome : ts ≠ []) :
    0 < (ts.flatMap Token.expand).length := by
  obtain ⟨token, more, rfl⟩ := List.exists_cons_of_ne_nil hSome
  have hFirst := Token.length_expand_pos (h token List.mem_cons_self)
  rw [List.flatMap_cons, List.length_append]
  omega

end Dump

namespace Snapshot

open Dump

variable {dump rest : List UInt8} {ts : List Token}

/-- What is made of some tokens and what is there of another one. A token that is cut off is
reported by its offset, whatever the others stand for. -/
inductive Judged (ts : List Token) (rest : List UInt8) :
    Except SnapshotError (List UInt8) → Prop where
  | truncated (cut : IsCut rest) :
    Judged ts rest (.error (.truncated (ts.flatMap Token.bytes).length))
  | wrongSize (whole : rest = []) (other : (ts.flatMap Token.expand).length ≠ Memory.size) :
    Judged ts rest (.error (.wrongSize (ts.flatMap Token.expand).length))
  | accepted (whole : rest = []) (full : (ts.flatMap Token.expand).length = Memory.size) :
    Judged ts rest (.ok (ts.flatMap Token.expand))

theorem judged_of_reads (h : Reads dump ts rest) : Judged ts rest (bytesOfDump dump) := by
  rcases h.cut with rfl | hCut
  · rw [bytesOfDump, h.expand_of_whole]
    dsimp only
    split
    · next hFull => exact .accepted rfl hFull
    · next hOther => exact .wrongSize rfl hOther
  · rw [bytesOfDump, h.expand_of_isCut hCut]
    exact .truncated hCut

theorem reads_of_accepted {bytes : List UInt8} (h : bytesOfDump dump = .ok bytes) :
    ∃ ts, Reads dump ts [] ∧ (ts.flatMap Token.expand).length = Memory.size := by
  obtain ⟨ts, rest, hReads⟩ := exists_reads dump
  have hJudged := judged_of_reads hReads
  rw [h] at hJudged
  cases hJudged with
  | accepted whole full =>
    subst whole
    exact ⟨ts, hReads, full⟩

/-- An accepted dump is no longer accepted if something is missing at its end. -/
theorem prefix_refused {bytes start : List UInt8} (h : bytesOfDump dump = .ok bytes)
    (hPrefix : start <+: dump) (hProper : start ≠ dump) :
    (∃ offset, bytesOfDump start = .error (.truncated offset)) ∨
      ∃ size < Memory.size, bytesOfDump start = .error (.wrongSize size) := by
  obtain ⟨ts, hReads, hFull⟩ := reads_of_accepted h
  obtain ⟨more, rfl⟩ := hPrefix
  obtain ⟨before, rest, hStart⟩ := exists_reads start
  have hJudged := judged_of_reads hStart
  rcases hStart.cut with rfl | hCut
  · obtain ⟨behind, rest, hMore⟩ := exists_reads more
    -- The tokens of the whole dump are those of its two parts.
    obtain ⟨rfl, rfl⟩ := hReads.unique (hStart.append hMore)
    have hBehind : behind ≠ [] := by
      rintro rfl
      have hNone : more = [] := hMore.bytes
      rw [hNone, List.append_nil] at hProper
      exact hProper rfl
    have hPos := length_expansion_pos hMore.plain hBehind
    rw [List.flatMap_append, List.length_append] at hFull
    generalize bytesOfDump start = result at hJudged
    cases hJudged with
    | truncated cut => exact Or.inl ⟨_, rfl⟩
    | wrongSize whole other => exact Or.inr ⟨_, by omega, rfl⟩
    | accepted whole full => omega
  · rw [bytesOfDump, hStart.expand_of_isCut hCut]
    exact Or.inl ⟨_, rfl⟩

/-- **Exactly the well-formed dumps of a whole memory are accepted.** A dump can be read in one way
only, as tokens that are whole and perhaps one that is cut off. That one is reported, else the
number of bytes that the tokens stand for, unless it is right. No accepted dump is the beginning of
another one: what is left of it stands for too little or ends within a token. -/
theorem dump_judged (dump : List UInt8) :
    (∃ ts rest, Reads dump ts rest ∧ (∀ ts' rest', Reads dump ts' rest' → ts' = ts ∧ rest' = rest) ∧
      Judged ts rest (bytesOfDump dump)) ∧
    ∀ bytes, bytesOfDump dump = .ok bytes → ∀ start, start <+: dump → start ≠ dump →
      (∃ offset, bytesOfDump start = .error (.truncated offset)) ∨
        ∃ size < Memory.size, bytesOfDump start = .error (.wrongSize size) := by
  constructor
  · obtain ⟨ts, rest, hReads⟩ := exists_reads dump
    exact ⟨ts, rest, hReads, fun _ _ h => hReads.unique h, judged_of_reads hReads⟩
  · intro bytes hAccepted start hPrefix hProper
    exact prefix_refused hAccepted hPrefix hProper

end Snapshot

end Ls8
