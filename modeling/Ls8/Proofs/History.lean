import Ls8.Proofs.Stepping

/-!
# The history of an output

A session is stepped, run and returned to snapshots, in any order. Its output shows the end of what
it has printed all along.

* `Recent`: what is kept of some values under a limit. `Recent.trimmed`: printing more and
  trimming once keeps it so.
* `Shows.step`, `Shows.run`, `Shows.execute`: the output after each operation.
* `remembers_of_history`: the output after any operations in a row.
-/

namespace Ls8

open Session (BothEndless bothEndless_congruence next_console)

/-! ## What a machine prints -/

/-- The values that the first `n` steps of a machine print on a console that takes everything. -/
def Machine.prints (machine : Machine) (n : Nat) : List UInt8 := machine.alone.printed n

namespace Rig

open Ls8.Action Console

variable {rig rig' : Rig}

theorem printed_of_twin (h : Twin BothEndless rig rig') (n : Nat) :
    rig'.printed n = rig.printed n := by
  induction n with
  | zero => rfl
  | succ n ih =>
    have hAfter := (twin_bisimulation bothEndless_congruence).after h n
    rw [printed, printed, ih, hAfter.machine]

theorem printed_add (rig : Rig) (m n : Nat) :
    rig.printed (m + n) = rig.printed m ++ (rig.after m).printed n := by
  induction n with
  | zero => exact (List.append_nil _).symm
  | succ n ih =>
    rw [← Nat.add_assoc, printed, printed, ih, after_add, List.append_assoc]

/-- The first step prints first. -/
theorem printed_succ' (rig : Rig) (n : Nat) :
    rig.printed (n + 1) = rig.machine.printed?.toList ++ rig.next.printed n := by
  rw [Nat.add_comm, printed_add]
  rfl

/-- The bytes on the console. -/
def output (rig : Rig) : List UInt8 := rig.console.written.data.toList

/-- What the first `n` steps print, as text. -/
def text (rig : Rig) (n : Nat) : List UInt8 := (rig.printed n).flatMap line

theorem text_succ (rig : Rig) (n : Nat) :
    rig.text (n + 1) = rig.text n ++ (rig.after n).machine.printed?.toList.flatMap line :=
  List.flatMap_append

theorem after_console (hEndless : rig.console.room = none) (n : Nat) :
    (rig.after n).console.room = none ∧ (rig.after n).output = rig.output ++ rig.text n := by
  induction n with
  | zero => exact ⟨hEndless, (List.append_nil _).symm⟩
  | succ n ih =>
    obtain ⟨hStill, hWritten⟩ := ih
    rw [after_succ', output, next_console hStill, text_succ, ← List.append_assoc, ← hWritten]
    exact ⟨rfl, toList_append _ _⟩

theorem text_add (rig : Rig) (m n : Nat) :
    rig.text (m + n) = rig.text m ++ (rig.after m).text n := by
  rw [text, printed_add, List.flatMap_append]
  rfl

theorem holds_after {kept : List UInt8} (hRoom : rig.console.room = none)
    (h : Holds rig.console.written kept) (n : Nat) : (rig.after n).console.room = none ∧
      Holds (rig.after n).console.written (kept ++ rig.printed n) := by
  obtain ⟨hStill, hWritten⟩ := after_console hRoom n
  have hStart : rig.output = kept.flatMap line := h
  rw [hStart, text, ← List.flatMap_append] at hWritten
  exact ⟨hStill, hWritten⟩

/-- Where nothing stops the console, a step that fails prints nothing. -/
theorem printed?_of_error {fault : Fault} (hRoom : rig.console.room = none)
    (h : Machine.step.result rig = .error fault) : rig.machine.printed? = none := by
  cases hPrinted : rig.machine.printed? with
  | none => rfl
  | some value =>
    obtain ⟨hr, fetched, hf, hd, hv⟩ := Machine.printed?_eq_some hPrinted
    obtain ⟨rig', hs, -⟩ := Machine.step_of_print hr hf hd hv hRoom
    rw [result, hs] at h
    cases h

/-- What a run writes: the lines of the values that its instructions have printed. -/
theorem holds_run {kept : List UInt8} {ended : EStateM.Result Fault Rig UInt64} {n : Nat}
    (hRoom : rig.console.room = none) (hRun : Machine.run? rig = some ended)
    (hExecutes : rig.RunExecutes n) (h : Holds rig.console.written kept) :
    Holds (left ended).console.written (kept ++ rig.printed n) := by
  cases run?_eq_some_iff.mp hRun with
  | @halted m allowed halts =>
    cases hExecutes.unique (runExecutes_of_haltsAt allowed halts)
    exact (holds_after hRoom h n).2
  | @faulted k fault allowed faults =>
    cases hExecutes.unique (runExecutes_of_faultsAt allowed faults)
    have hNothing := printed?_of_error (holds_after hRoom h n).1 faults.fails
    have hHolds := (holds_after hRoom h (n + 1)).2
    rw [printed, hNothing, Option.toList_none, List.append_nil] at hHolds
    exact hHolds
  | exhausted limited proceeds running =>
    cases hExecutes.unique (runExecutes_of_exhausted limited proceeds)
    exact (holds_after hRoom h _).2

end Rig

theorem Machine.prints_zero (machine : Machine) : machine.prints 0 = [] := rfl

theorem Machine.prints_succ (machine : Machine) (n : Nat) : machine.prints (n + 1) =
    machine.printed?.toList ++ machine.alone.next.machine.prints n := by
  have hRoom : machine.alone.next.console.room = none := by rw [next_console rfl]
  have hTwin : Rig.Twin BothEndless machine.alone.next.machine.alone machine.alone.next :=
    ⟨rfl, rfl, hRoom⟩
  rw [prints, Rig.printed_succ', Rig.printed_of_twin hTwin]
  rfl

namespace Session

open Ls8.Action Console

variable {session : Session} {values : List UInt8}

/-! ## Operations -/

/-- The session becomes another one by a single operation, which prints some values: those of the
instructions that it executes. A snapshot may be of any machine; that one is taken shows nowhere in
the session. -/
inductive Move (session : Session) : List UInt8 → Session → Prop where
  | step (instruments : Instruments) :
    Move session session.machine.printed?.toList (session.step instruments).session
  | run (instruments : Instruments) {ran : Outcome UInt64} {n : Nat}
      (ends : session.run? instruments = some ran)
      (executes : (session.rig instruments).RunExecutes n) :
    Move session (session.machine.prints n) ran.session
  | execute (count : Nat) (instruments : Instruments) :
    Move session (session.machine.prints (session.execute count instruments).executed)
      (session.execute count instruments).session
  | restore (snapshot : Snapshot) : Move session [] ((restore snapshot).after session)

/-- Operations in a row, and all that they print. -/
inductive History (first : Session) : List UInt8 → Session → Prop where
  | start : History first [] first
  | move {values more : List UInt8} {session after : Session}
      (before : History first values session) (last : Move session more after) :
    History first (values ++ more) after

/-! ## What a limit leaves -/

/-- The values `kept` of those that were printed, if the lines may take `limit` bytes: all, or as many
of the latest as there is room for, less than one line short of the limit. -/
structure Recent (limit : Nat) (values kept : List UInt8) : Prop where
  suffix : kept <:+ values
  width_le : width kept ≤ limit
  all : width values ≤ limit → kept = values
  most : limit < width values → limit ≤ width kept + 4

variable {limit : Nat}

theorem recent_nil (limit : Nat) : Recent limit [] [] where
  suffix := List.suffix_refl []
  width_le := Nat.zero_le limit
  all _ := rfl
  most h := absurd h (Nat.not_lt_zero limit)

theorem le_width_latest (hPos : 0 < limit) (h : limit ≤ width values) :
    limit ≤ width (latest limit values) + 4 := by
  obtain ⟨_, value, -, hMore⟩ := exists_latest hPos h
  have hLine := length_line_le value
  rw [width_cons] at hMore
  omega

theorem Recent.trimmed (hPos : 0 < limit) {kept : List UInt8} (h : Recent limit values kept)
    (more : List UInt8) : Recent limit (values ++ more) (trimmed limit (kept ++ more)) := by
  obtain ⟨before, hBefore⟩ := h.suffix
  have hSuffix : kept ++ more <:+ values ++ more := ⟨before, by rw [← List.append_assoc, hBefore]⟩
  refine ⟨(trimmed_suffix limit _).trans hSuffix, width_trimmed hPos _, fun hFits => ?_,
    fun hOver => ?_⟩
  · have hValues : width values ≤ limit := by
      rw [width_append] at hFits
      omega
    rw [h.all hValues, trimmed_of_le hFits]
  · by_cases hKept : width (kept ++ more) ≤ limit
    · -- Something was dropped before, and there is still room for the rest.
      have hValues : limit < width values := by
        by_contra hLess
        rw [h.all (by omega)] at hKept
        omega
      have hMost := h.most hValues
      rw [trimmed_of_le hKept, width_append]
      omega
    · rw [trimmed_of_lt (by omega)]
      exact le_width_latest hPos (by omega)

/-! ## The output after an operation -/

/-- The output consists of the lines of the values that were kept of those printed. -/
def Shows (session : Session) (values : List UInt8) : Prop :=
  ∃ kept, Holds session.console kept ∧ Recent consoleLimit values kept

theorem shows_of_empty (h : session.console = .empty) : session.Shows [] :=
  ⟨[], h ▸ holds_empty, recent_nil consoleLimit⟩

/-- An action that adds some lines to the output. -/
theorem Shows.perform {α : Type} (h : session.Shows values) {act : Action Fault Rig α}
    {instruments : Instruments} {more : List UInt8}
    (hWritten : ∀ kept, Holds session.console kept →
      Holds (act.after (session.rig instruments)).console.written (kept ++ more)) :
    (session.perform instruments act).session.Shows (values ++ more) := by
  obtain ⟨kept, hHolds, hRecent⟩ := h
  refine ⟨Session.trimmed consoleLimit (kept ++ more), ?_, hRecent.trimmed consoleLimit_pos more⟩
  rw [perform_session]
  exact holds_trim consoleLimit_pos (hWritten kept hHolds)

theorem Shows.step (h : session.Shows values) (instruments : Instruments) :
    (session.step instruments).session.Shows (values ++ session.machine.printed?.toList) := by
  refine h.perform fun kept hHolds => ?_
  rw [← Rig.next, next_console rfl]
  exact hHolds.append _

theorem Shows.run (h : session.Shows values) {instruments : Instruments} {ran : Outcome UInt64}
    {n : Nat} (ends : session.run? instruments = some ran)
    (executes : (session.rig instruments).RunExecutes n) :
    ran.session.Shows (values ++ session.machine.prints n) := by
  obtain ⟨kept, hHolds, hRecent⟩ := h
  obtain ⟨ended, hRun, rfl⟩ := exists_of_run? ends
  have hRoom : (session.rig instruments).console.room = none := rfl
  have hWritten := Rig.holds_run hRoom hRun executes hHolds
  rw [Rig.printed_of_twin (alone_twin session instruments)] at hWritten
  rw [session_ofResult]
  exact ⟨_, holds_trim consoleLimit_pos hWritten, hRecent.trimmed consoleLimit_pos _⟩

/-- A step that succeeds counts one instruction. -/
theorem step_counts {instruments : Instruments} (hr : session.machine.halted = false)
    (hs : (session.step instruments).result = .ok ()) :
    (session.step instruments).session.machine.steps = session.machine.steps + 1 := by
  rw [step_result] at hs
  have hStep : Machine.step session.machine.alone = .ok () session.machine.alone.next :=
    Rig.step_next_of_result fun fault he => by simp [hs] at he
  rw [step_session]
  exact (Machine.step_ok hr hStep).1

/-- A step that fails counts none, and prints nothing. -/
theorem step_counts_nothing {instruments : Instruments} {fault : Fault}
    (hs : (session.step instruments).result = .error fault) :
    (session.step instruments).session.machine.steps = session.machine.steps ∧
      session.machine.printed? = none := by
  rw [step_result] at hs
  rw [step_session]
  have hRoom : session.machine.alone.console.room = none := rfl
  exact ⟨Rig.error_steps hs, Rig.printed?_of_error hRoom hs⟩

theorem Shows.executeFrom (h : session.Shows values) (executed count : Nat)
    (instruments : Instruments) : ∃ n,
      (executeFrom executed count session instruments).executed = executed + n ∧
      (executeFrom executed count session instruments).session.Shows
        (values ++ session.machine.prints n) := by
  induction count generalizing executed session values instruments with
  | zero => exact ⟨0, rfl, by rwa [Machine.prints_zero, List.append_nil]⟩
  | succ count ih =>
    cases hr : session.machine.halted with
    | true =>
      rw [executeFrom_of_halted hr]
      exact ⟨0, rfl, by rwa [Machine.prints_zero, List.append_nil]⟩
    | false =>
      have hStep := h.step instruments
      cases hs : (session.step instruments).result with
      | ok _ =>
        have hMachine : session.machine.alone.next.machine =
            (session.step instruments).session.machine := by rw [step_session]
        obtain ⟨n, hExecuted, hShows⟩ :=
          ih hStep (executed + 1) (session.step instruments).instruments
        rw [executeFrom_of_ok hr hs]
        refine ⟨n + 1, by omega, ?_⟩
        rw [Machine.prints_succ, hMachine, ← List.append_assoc]
        exact hShows
      | error fault =>
        rw [executeFrom_of_error hr hs]
        rw [(step_counts_nothing hs).2] at hStep
        exact ⟨0, rfl, hStep⟩

theorem Shows.execute (h : session.Shows values) (count : Nat) (instruments : Instruments) :
    (session.execute count instruments).session.Shows
      (values ++ session.machine.prints (session.execute count instruments).executed) := by
  obtain ⟨n, hExecuted, hShows⟩ := h.executeFrom 0 count instruments
  rw [Session.execute, hExecuted, Nat.zero_add]
  exact hShows

theorem restore_console (session : Session) (snapshot : Snapshot) :
    ((restore snapshot).after session).console = session.console := by
  obtain ⟨machine, createdAt, console⟩ := session
  simp only [after, restore]
  cases snapshot.restore machine <;> rfl

theorem Shows.move (h : session.Shows values) {more : List UInt8} {after : Session}
    (hMove : Move session more after) : after.Shows (values ++ more) := by
  cases hMove with
  | step instruments => exact h.step instruments
  | run instruments ends executes => exact h.run ends executes
  | execute count instruments => exact h.execute count instruments
  | restore snapshot =>
    obtain ⟨kept, hHolds, hRecent⟩ := h
    rw [List.append_nil]
    exact ⟨kept, (restore_console session snapshot).symm ▸ hHolds, hRecent⟩

theorem Shows.history {first : Session} (hFirst : first.Shows [])
    (h : History first values session) : session.Shows values := by
  induction h with
  | start => exact hFirst
  | move _ last ih => exact ih.move last

/-! ## The place of a cut -/

/-- If the text is longer than the limit, there is a newline where the search for the cut looks. -/
def HasCut (limit : Nat) (text : ByteArray) : Prop :=
  limit < text.size → ∃ i, ∃ inside : i < text.size,
    text.size - limit ≤ i ∧ text[i] = newline

/-- A text of lines ends in a newline. -/
theorem hasCut_of_holds (hPos : 0 < limit) {text : ByteArray} (h : Holds text values) :
    HasCut limit text := by
  intro hOver
  cases values using List.reverseRecOn with
  | nil =>
    rw [h.size, width_nil] at hOver
    omega
  | append_singleton values value =>
    have hText : text.data.toList = (values.flatMap line ++ digits value) ++ [newline] := by
      rw [h, List.flatMap_append, List.append_assoc]
      simp only [List.flatMap_cons, List.flatMap_nil, List.append_nil, line_eq]
    have hSize : text.size = (values.flatMap line ++ digits value).length + 1 := by
      rw [size_eq_length, hText, List.length_append, List.length_singleton]
    refine ⟨(values.flatMap line ++ digits value).length, by omega, by omega, ?_⟩
    rw [getElem_eq_toList]
    simp [hText]

/-! ## The whole history -/

/-- What can be said of a session's output when all of these values have been printed. -/
structure Remembers (session : Session) (values : List UInt8) : Prop where
  /-- The lines are those of the latest values, whole and in order. -/
  output : ∃ kept, kept <:+ values ∧ Holds session.console kept ∧
    session.output = kept.map fun value => value.toNat.repr
  size_le : session.console.size ≤ consoleLimit
  all : width values ≤ consoleLimit → session.output = values.map fun value => value.toNat.repr
  most : consoleLimit < width values → consoleLimit - 4 ≤ session.console.size
  /-- Whatever a step trims, the first one or one after others, it trims at the end of a line. -/
  step_cut (count : Nat) (instruments instruments' : Instruments) : HasCut consoleLimit
    (Machine.step.after
      ((session.execute count instruments).session.rig instruments')).console.written
  run_cut {instruments : Instruments} {ended : EStateM.Result Fault Rig UInt64}
    (ends : Machine.run? (session.rig instruments) = some ended) :
    HasCut consoleLimit (Rig.left ended).console.written

theorem Shows.step_cut (h : session.Shows values) (instruments : Instruments) :
    HasCut consoleLimit (Machine.step.after (session.rig instruments)).console.written := by
  obtain ⟨kept, hHolds, -⟩ := h
  rw [← Rig.next, next_console rfl]
  exact hasCut_of_holds consoleLimit_pos (hHolds.append _)

theorem Shows.remembers (h : session.Shows values) : session.Remembers values := by
  have ⟨kept, hHolds, hRecent⟩ := h
  have hOutput := output_of_holds hHolds
  have hSize := hHolds.size
  refine ⟨⟨kept, hRecent.suffix, hHolds, hOutput⟩, ?_, fun hFits => ?_, fun hOver => ?_,
    fun count instruments instruments' => ?_, fun {instruments ended} ends => ?_⟩
  · rw [hSize]
    exact hRecent.width_le
  · rw [hOutput, hRecent.all hFits]
  · have hMost := hRecent.most hOver
    omega
  · exact (h.execute count instruments).step_cut instruments'
  · have hRoom : (session.rig instruments).console.room = none := rfl
    obtain ⟨n, hExecutes⟩ := (Rig.run?_eq_some_iff.mp ends).exists_runExecutes
    exact hasCut_of_holds consoleLimit_pos (Rig.holds_run hRoom ends hExecutes hHolds)

/-- **A session remembers what it has printed last.** After any operations in a row the output is the
end of what the session has printed since it began, line by line: all of it while that is no more
than 65536 bytes, and never more than these; from then on never more than four bytes less. -/
theorem remembers_of_history {source : String} {config : Config} {createdAt : Timestamp}
    {first session : Session} {values : List UInt8}
    (hFirst : ofImage source config createdAt = .ok first) (h : History first values session) :
    session.Remembers values := by
  obtain ⟨_, _, -, -, rfl⟩ := ofImage_ok hFirst
  exact ((shows_of_empty rfl).history h).remembers

/-- A run of PRN and a jump back to it, up to its limit. -/
theorem history_of_flood {limit : UInt64} {k : Nat} (hLimit : limit.toNat = 2 * k + 1)
    (hMachine : session.machine = flooding (some limit) 0 0) :
    History session (List.replicate (k + 1) 0) (session.runWithin limit {}).session := by
  have hFloods : Floods (session.rig {}) (some limit) 2 limit.toNat (k + 1) := by
    rw [hLimit]
    exact (floods_even hMachine rfl k).print
  have hMax : session.machine.config.maxSteps = some limit := by
    rw [hMachine]
    rfl
  have hMaxRig : (session.rig {}).machine.config.maxSteps = some limit := hMax
  have hExecutes := Rig.runExecutes_of_exhausted hMaxRig hFloods.proceeds
  have hPrinted : session.machine.prints limit.toNat = List.replicate (k + 1) 0 := by
    rw [← hFloods.printed]
    exact (Rig.printed_of_twin (alone_twin session {}) limit.toNat).symm
  have hMove := History.start.move (.run {} (run?_eq_runWithin hMax {}) hExecutes)
  rw [hPrinted] at hMove
  exact hMove

/-- A program that has printed more than is kept. -/
theorem remembers_of_history_flood : ∃ first session,
    ofImage flood ⟨.compatible, some 65539⟩ .epoch = .ok first ∧
      History first (List.replicate 32770 0) session ∧
      consoleLimit < width (List.replicate 32770 0) ∧
      session.Remembers (List.replicate 32770 0) := by
  have hFirst := ofImage_flood (some 65539) .epoch
  have hLimit : (65539 : UInt64).toNat = 2 * 32769 + 1 := by decide
  have hMachine : Session.machine ⟨flooding (some 65539) 0 0, .epoch, .empty⟩ =
      flooding (some 65539) 0 0 := rfl
  have hHistory := history_of_flood hLimit hMachine
  have hLine : (line 0).length = 2 := by decide
  refine ⟨_, _, hFirst, hHistory, ?_, remembers_of_history hFirst hHistory⟩
  rw [width_replicate, hLine]
  decide

end Session

end Ls8
