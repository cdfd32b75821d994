import Ls8.Proofs.Step

/-!
# Printed values

What is on a console that takes everything: one line for each value that was printed.

* `line_eq`: a line is some bytes that are no newline, and a newline.
* `Holds`: a text consists of the lines of some values.
* `Machine.printed?`: the value that the next step prints, which the machine alone decides
  (`step_console`).
-/

namespace Ls8

namespace Console

/-! ## Lines -/

/-- The digits of a value in a line. -/
def digits (value : UInt8) : List UInt8 := (Nat.toDigits 10 value.toNat).map (·.toNat.toUInt8)

theorem line_eq (value : UInt8) : line value = digits value ++ [newline] := rfl

theorem newline_not_mem_digits (value : UInt8) : newline ∉ digits value := by
  intro h
  obtain ⟨c, hc, he⟩ := List.mem_map.mp h
  have hDigit := Nat.isDigit_of_mem_toDigits (by decide) (by decide) hc
  simp only [Char.isDigit, Bool.and_eq_true, decide_eq_true_eq, UInt32.le_iff_toNat_le] at hDigit
  have hByte : c.toNat % 256 = 10 := congrArg UInt8.toNat he
  have hNat : c.toNat = c.val.toNat := rfl
  have hLow : '0'.val.toNat = 48 := rfl
  have hHigh : '9'.val.toNat = 57 := rfl
  omega

/-- The number of bytes that the lines of some values take. -/
def width (values : List UInt8) : Nat := (values.flatMap line).length

@[simp]
theorem width_nil : width [] = 0 := rfl

@[simp]
theorem width_cons (value : UInt8) (values : List UInt8) :
    width (value :: values) = (line value).length + width values := by
  simp only [width, List.flatMap_cons, List.length_append]

@[simp]
theorem width_append (values more : List UInt8) :
    width (values ++ more) = width values + width more := by
  simp only [width, List.flatMap_append, List.length_append]

theorem width_append_singleton (values : List UInt8) (value : UInt8) :
    width (values ++ [value]) = width values + (line value).length := by
  rw [width_append, width_cons, width_nil, Nat.add_zero]

theorem length_line_pos (value : UInt8) : 0 < (line value).length := by
  rw [line_eq, List.length_append, List.length_singleton]
  omega

/-- A byte has three digits at most. -/
theorem length_line_le (value : UInt8) : (line value).length ≤ 4 := by
  have hValue : value.toNat < 10 ^ 3 := Nat.lt_trans value.toNat_lt (by decide)
  have hDigits : (Nat.toDigits 10 value.toNat).length ≤ 3 :=
    (Nat.length_toDigits_le_iff (by decide) (by decide)).mpr hValue
  rw [line_eq, List.length_append, digits, List.length_map, List.length_singleton]
  omega

/-! ## Printing a line -/

section

variable {console : Console} {room : Nat} {value : UInt8}

theorem print_of_endless (h : console.room = none) :
    console.print value = (⟨append console.written (line value), none⟩, true) := by
  obtain ⟨written, _⟩ := console
  cases h
  rfl

theorem print_of_le (h : console.room = some room) (hFits : (line value).length ≤ room) :
    console.print value =
      (⟨append console.written (line value), some (room - (line value).length)⟩, true) := by
  obtain ⟨written, _⟩ := console
  cases h
  simp [Console.print, Console.take, List.take_of_length_le hFits, hFits]

theorem print_of_lt (h : console.room = some room) (hShort : room < (line value).length) :
    console.print value =
      (⟨append console.written ((line value).take room), some 0⟩, false) := by
  obtain ⟨written, _⟩ := console
  cases h
  simp [Console.print, Console.take, Nat.sub_eq_zero_of_le (Nat.le_of_lt hShort), hShort]

end

/-! ## Texts made of lines -/

/-- The text consists of the lines of these values. -/
def Holds (text : ByteArray) (values : List UInt8) : Prop :=
  text.data.toList = values.flatMap line

theorem holds_empty : Holds .empty [] := rfl

theorem size_eq_length (text : ByteArray) : text.size = text.data.toList.length := rfl

theorem Holds.size {text : ByteArray} {values : List UInt8} (h : Holds text values) :
    text.size = width values := by
  rw [size_eq_length, h, width]

theorem toList_append (text : ByteArray) (bytes : List UInt8) :
    (append text bytes).data.toList = text.data.toList ++ bytes := by
  induction bytes generalizing text with
  | nil => rw [List.append_nil]; rfl
  | cons byte bytes ih =>
    have hPush : (text.push byte).data.toList = text.data.toList ++ [byte] := Array.toList_push
    show (append (text.push byte) bytes).data.toList = _
    rw [ih, hPush, List.append_assoc]
    rfl

theorem Holds.append {text : ByteArray} {values : List UInt8} (h : Holds text values)
    (more : List UInt8) : Holds (append text (more.flatMap line)) (values ++ more) := by
  rw [Holds, toList_append, h, List.flatMap_append]

end Console

/-! ## What a step prints -/

/-- The value that the next step prints, if it prints one and nothing stands in its way. -/
def Machine.printed? (machine : Machine) : Option UInt8 :=
  if machine.halted then none
  else
    match machine.fetch with
    | .error _ => none
    | .ok fetched =>
      if Opcode.decode fetched.opcode = some (.control .print) then
        (machine.registers.get fetched.a.toNat).toOption
      else none

namespace Machine

theorem printed?_of_print {machine : Machine} {fetched : Fetched} {value : UInt8}
    (hr : machine.halted = false) (hf : machine.fetch = .ok fetched)
    (hd : Opcode.decode fetched.opcode = some (.control .print))
    (hv : machine.registers.get fetched.a.toNat = .ok value) : machine.printed? = some value := by
  rw [printed?, if_neg (by simp [hr]), hf]
  simp only [hd, if_true, hv]
  rfl

theorem printed?_of_other {machine : Machine} {fetched : Fetched}
    (hr : machine.halted = false) (hf : machine.fetch = .ok fetched)
    (hd : Opcode.decode fetched.opcode ≠ some (.control .print)) : machine.printed? = none := by
  rw [printed?, if_neg (by simp [hr]), hf]
  simp only [hd, if_false]

/-- A value is printed only by PRN, and from a register that exists. -/
theorem printed?_eq_some {machine : Machine} {value : UInt8} (h : machine.printed? = some value) :
    machine.halted = false ∧ ∃ fetched, machine.fetch = .ok fetched ∧
      Opcode.decode fetched.opcode = some (.control .print) ∧
      machine.registers.get fetched.a.toNat = .ok value := by
  cases hr : machine.halted with
  | true => simp [printed?, hr] at h
  | false =>
    cases hf : machine.fetch with
    | error fault => simp [printed?, hr, hf] at h
    | ok fetched =>
      by_cases hd : Opcode.decode fetched.opcode = some (.control .print)
      · cases hv : machine.registers.get fetched.a.toNat with
        | error fault => simp [printed?, hr, hf, hd, hv, Except.toOption] at h
        | ok other =>
          rw [printed?_of_print hr hf hd hv] at h
          cases h
          exact ⟨rfl, fetched, rfl, hd, hv⟩
      · rw [printed?_of_other hr hf hd] at h
        cases h

end Machine

namespace Rig

open Ls8.Action Machine

variable {α : Type}

/-- The console of a rig. -/
def console (rig : Rig) : Console := rig.host.console

theorem onMachine_console (act : Action Fault Machine α) : Keeps console (onMachine act) := by
  intro rig
  cases hx : act rig.machine with
  | ok a machine => rw [after_of_ok (onMachine_of_ok rig.host hx)]; rfl
  | error fault machine => rw [after_of_error (onMachine_of_error rig.host hx)]; rfl

end Rig

namespace Machine

open Ls8.Action Rig

/-- What is left of PRN when its line has been printed. -/
def afterPrint : Action Fault Rig Unit := do
  onMachine (advance 2)
  onMachine countStep
  Rig.recordInstruction (.control .print)

theorem afterPrint_console : Keeps console afterPrint :=
  keeps_bind (onMachine_console _) fun _ => keeps_bind (onMachine_console _) fun _ =>
    keeps_modify fun _ => rfl

theorem perform_print {fetched : Fetched}
    (h : Opcode.decode fetched.opcode = some (.control .print)) :
    perform fetched = onMachine (register fetched.a.toNat) >>= fun value =>
      print value >>= fun _ => afterPrint := by
  rw [perform_some h]
  show (onMachine _ >>= fun value => print value >>= fun _ => onMachine (advance 2)) >>= _ = _
  simp only [bind_assoc]
  rfl

theorem perform_print_console {fetched : Fetched}
    (h : Opcode.decode fetched.opcode = some (.control .print)) {rig : Rig} {written : ByteArray}
    (hc : rig.console = ⟨written, none⟩) :
    ((perform fetched).after rig).console = ⟨Console.append written
      ((rig.machine.registers.get fetched.a.toNat).toOption.toList.flatMap Console.line), none⟩ := by
  rw [perform_print h]
  cases hr : rig.machine.registers.get fetched.a.toNat with
  | error fault =>
    have hLook : onMachine (register fetched.a.toNat) rig = .error fault rig :=
      onMachine_of_error rig.host (look_of_error hr)
    rw [after_bind_of_error hLook, hc]
    rfl
  | ok value =>
    have hLook : onMachine (register fetched.a.toNat) rig = .ok value rig :=
      onMachine_of_ok rig.host (look_of_ok hr)
    have hPrint : rig.host.console.print value =
        (⟨Console.append written (Console.line value), none⟩, true) := by
      show rig.console.print value = _
      rw [hc]
      rfl
    rw [after_bind_of_ok hLook, after_bind_of_ok (print_of_taken hPrint), afterPrint_console]
    simp [withConsole, console, Except.toOption]

/-- A step that prints a value does so before anything else can fail. -/
theorem step_of_printed {rig : Rig} {value : UInt8} (h : rig.machine.printed? = some value) :
    step rig = (Rig.print value >>= fun _ => afterPrint) (traced rig) := by
  obtain ⟨hr, fetched, hf, hd, hv⟩ := printed?_eq_some h
  rw [step_of_fetched hr hf, perform_print hd]
  exact bind_of_ok (onMachine_of_ok (traced rig).host (look_of_ok hv))

theorem step_of_taken {rig : Rig} {value : UInt8} {console : Console}
    (h : rig.machine.printed? = some value) (hTaken : rig.console.print value = (console, true)) :
    step rig = afterPrint ((traced rig).withConsole console) := by
  rw [step_of_printed h]
  exact bind_of_ok (print_of_taken hTaken)

theorem step_of_full {rig : Rig} {value : UInt8} {console : Console}
    (h : rig.machine.printed? = some value) (hFull : rig.console.print value = (console, false)) :
    step rig = .error .consoleFull ((traced rig).withConsole console) := by
  rw [step_of_printed h]
  exact bind_of_error (print_of_full hFull)

theorem step_of_print {rig : Rig} {fetched : Fetched} {value : UInt8}
    (hr : rig.machine.halted = false) (hf : rig.machine.fetch = .ok fetched)
    (hd : Opcode.decode fetched.opcode = some (.control .print))
    (hv : rig.machine.registers.get fetched.a.toNat = .ok value)
    (hc : rig.console.room = none) : ∃ rig', step rig = .ok () rig' ∧
      rig'.machine = { rig.machine with
        pc := rig.machine.pc + 2, steps := rig.machine.steps + 1 } := by
  rw [step_of_taken (printed?_of_print hr hf hd hv) (Console.print_of_endless hc)]
  exact ⟨_, rfl, rfl⟩

/-- The other instructions do not print. -/
theorem perform_console {fetched : Fetched}
    (h : Opcode.decode fetched.opcode ≠ some (.control .print)) : Keeps console (perform fetched) := by
  cases hd : Opcode.decode fetched.opcode with
  | none =>
    rw [perform_none hd]
    intro rig
    obtain ⟨rig', he, -, hc, -⟩ := refuse_eq fetched.opcode rig
    rw [after_of_error he]
    exact hc
  | some opcode =>
    rw [perform_some hd]
    have hCount : Keeps console (onMachine countStep >>= fun _ => Rig.recordInstruction opcode) :=
      keeps_bind (onMachine_console _) fun _ => keeps_modify fun _ => rfl
    rcases execute_eq_onMachine opcode fetched.a fetched.b with rfl | ⟨act, hact⟩
    · exact (h hd).elim
    · rw [hact]
      exact keeps_bind (onMachine_console act) fun _ => hCount

/-- **The machine decides what is printed.** -/
theorem step_console {rig : Rig} {written : ByteArray} (hc : rig.console = ⟨written, none⟩) :
    rig.next.console =
      ⟨Console.append written (rig.machine.printed?.toList.flatMap Console.line), none⟩ := by
  cases hr : rig.machine.halted with
  | true =>
    rw [next_of_ok (step_of_halted hr), hc, printed?, if_pos hr]
    rfl
  | false =>
    rw [printed?, if_neg (by simp [hr])]
    cases hf : rig.machine.fetch with
    | error fault =>
      rw [next, after_of_error (step_of_fetch_error hr hf)]
      exact hc
    | ok fetched =>
      have hNext : rig.next = (perform fetched).after (traced rig) := by
        rw [next, Action.after, Action.after, step_of_fetched hr hf]
      have hTraced : (traced rig).console = ⟨written, none⟩ := hc
      rw [hNext]
      by_cases hd : Opcode.decode fetched.opcode = some (.control .print)
      · rw [perform_print_console hd hTraced]
        simp only [hd, if_true]
        rfl
      · rw [perform_console hd, hTraced]
        simp only [hd, if_false]
        rfl

end Machine

/-- The values that the first `n` steps print. -/
def Rig.printed (rig : Rig) : (n : Nat) → List UInt8
  | 0 => []
  | n + 1 => rig.printed n ++ (rig.after n).machine.printed?.toList

end Ls8
