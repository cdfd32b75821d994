import Ls8.Machine
import Ls8.Proofs.Text
import Mathlib.Data.List.Forall2

/-!
# Trace lines

A trace line shows of a machine where it stands, the bytes there, and the registers. Nothing else
of the machine can be told from it, and all of that can.

* `TraceLine`: the fields of a line, with a blank between two of them.
* `TraceLine.Field`, `TraceLine.Shows`: what the fields show. The numeral of the program counter has
  no fixed length, and the cells need not be there.
* `fields_eq_of_text_eq`: the fields can be told from the line, since no field has a blank in it.
* `shows_ofMachine`: every line that is written shows its machine. `Shows.same`: a line shows no two
  machines that differ in what it shows.
* `traceLine_faithful`: both in one statement.
-/

namespace Ls8

/-- What the cells at the program counter and at the two addresses after it hold, as far as they are
there. -/
def Machine.window (machine : Machine) : List (Option UInt8) :=
  [machine.pc, machine.pc + 1, machine.pc + 2].map fun address =>
    (machine.memory.read address.toNat).toOption

/-- The fields of a trace line, apart from those that are the same in all lines. -/
structure TraceLine where
  pc : String
  cells : List String
  registers : List String

namespace TraceLine

def fields (line : TraceLine) : List String :=
  "TRACE:" :: line.pc :: "|" :: (line.cells ++ "|" :: line.registers)

def text (line : TraceLine) : String := " ".intercalate line.fields

/-- What is shown of a cell: its byte in two hexadecimal digits, or that there is no cell. -/
inductive Field : Option UInt8 → String → Prop where
  | byte {value : UInt8} {text : String} (length : text.length = 2)
      (hex : Radix.IsHex value.toNat text.toList) : Field (some value) text
  | past : Field none "--"

/-- The line shows where the machine stands, in two digits or, past 255, in more, then the cells
there, and the registers. -/
structure Shows (line : TraceLine) (machine : Machine) : Prop where
  pc : Radix.IsHex machine.pc.toNat line.pc.toList
  two_le : 2 ≤ line.pc.length
  two_lt_iff : 2 < line.pc.length ↔ 255 < machine.pc.toNat
  cells : List.Forall₂ Field machine.window line.cells
  registers : List.Forall₂ Field (machine.registers.toList.map some) line.registers

variable {line line' : TraceLine} {machine machine' : Machine}

/-! ## Telling the fields apart -/

theorem Field.unique {cell cell' : Option UInt8} {text : String} (h : Field cell text)
    (h' : Field cell' text) : cell = cell' := by
  have hDash : ¬Radix.IsDigit '-' := by decide
  cases h with
  | byte _ hex =>
    cases h' with
    | byte _ hex' => rw [UInt8.toNat_inj.mp (hex.unique hex')]
    | past => exact (hex.not_mem hDash (by simp)).elim
  | past =>
    cases h' with
    | byte _ hex' => exact (hex'.not_mem hDash (by simp)).elim
    | past => rfl

theorem leftUnique_field : Relator.LeftUnique Field := fun _ _ _ h h' => h.unique h'

theorem not_isDigit_blank : ¬Radix.IsDigit ' ' := by decide

theorem Field.blank_not_mem {cell : Option UInt8} {text : String} (h : Field cell text) :
    ' ' ∉ text.toList := by
  cases h with
  | byte _ hex => exact hex.not_mem not_isDigit_blank
  | past => decide

theorem blank_not_mem_of_forall₂ {cells : List (Option UInt8)} {texts : List String}
    (h : List.Forall₂ Field cells texts) : ∀ text ∈ texts, ' ' ∉ text.toList := by
  induction h with
  | nil => nofun
  | cons first _ ih =>
    rw [List.forall_mem_cons]
    exact ⟨first.blank_not_mem, ih⟩

theorem Shows.blank_not_mem (h : line.Shows machine) :
    ∀ field ∈ line.fields, ' ' ∉ field.toList := by
  have hName : ' ' ∉ "TRACE:".toList := by decide
  have hBar : ' ' ∉ "|".toList := by decide
  simp only [fields, List.forall_mem_cons, List.forall_mem_append]
  exact ⟨hName, h.pc.not_mem not_isDigit_blank, hBar, blank_not_mem_of_forall₂ h.cells, hBar,
    blank_not_mem_of_forall₂ h.registers⟩

theorem splitOn_text (h : ∀ field ∈ line.fields, ' ' ∉ field.toList) :
    line.text.toList.splitOn ' ' = line.fields.map String.toList := by
  have hChars : ∀ chars ∈ line.fields.map String.toList, ' ' ∉ chars := by
    rw [List.forall_mem_map]
    exact h
  have hSome : line.fields.map String.toList ≠ [] := by simp [fields]
  have hBlank : " ".toList = [' '] := rfl
  rw [text, String.toList_intercalate, hBlank]
  exact List.splitOn_intercalate ' ' hChars hSome

theorem fields_eq_of_text_eq (h : ∀ field ∈ line.fields, ' ' ∉ field.toList)
    (h' : ∀ field ∈ line'.fields, ' ' ∉ field.toList) (hText : line.text = line'.text) :
    line.fields = line'.fields := by
  have hFields := splitOn_text h
  rw [hText, splitOn_text h'] at hFields
  exact (List.map_inj_right fun _ _ => String.toList_inj.mp).mp hFields.symm

theorem Shows.eq_of_text_eq (h : line.Shows machine) (h' : line'.Shows machine')
    (hText : line.text = line'.text) : line = line' := by
  have hFields := fields_eq_of_text_eq h.blank_not_mem h'.blank_not_mem hText
  -- Both windows have three cells, so that the bars after them are at the same place.
  have hLength : line.cells.length = line'.cells.length :=
    h.cells.length_eq.symm.trans h'.cells.length_eq
  obtain ⟨pc, cells, registers⟩ := line
  obtain ⟨pc', cells', registers'⟩ := line'
  simp only [fields, List.cons.injEq, true_and] at hFields
  obtain ⟨rfl, hRest⟩ := hFields
  obtain ⟨rfl, hRegisters⟩ := List.append_inj hRest hLength
  cases hRegisters
  rfl

/-- Machines that a line shows agree in all that it shows. -/
theorem Shows.same (h : line.Shows machine) (h' : line.Shows machine') :
    machine.pc = machine'.pc ∧ machine.registers = machine'.registers ∧
      machine.window = machine'.window := by
  have hRegisters := List.left_unique_forall₂' leftUnique_field h.registers h'.registers
  have hWindow := List.left_unique_forall₂' leftUnique_field h.cells h'.cells
  have hSlots : machine.registers.toList = machine'.registers.toList :=
    (List.map_inj_right fun _ _ => Option.some.inj).mp hRegisters
  have hPc : machine.pc = machine'.pc := UInt64.toNat_inj.mp (h.pc.unique h'.pc)
  exact ⟨hPc, congrArg Registers.mk (Vector.toList_inj.mp hSlots), hWindow⟩

/-! ## The line of a machine -/

/-- The field for a cell. -/
def ofCell : Option UInt8 → String
  | some value => Radix.hex 2 value.toNat
  | none => "--"

def ofMachine (machine : Machine) : TraceLine where
  pc := Radix.hex 2 machine.pc.toNat
  cells := machine.window.map ofCell
  registers := (machine.registers.toList.map some).map ofCell

theorem toList_hex (width n : Nat) : (Radix.hex width n).toList = Radix.digits 16 width n :=
  String.toList_ofList

theorem field_ofCell (cell : Option UInt8) : Field cell (ofCell cell) := by
  cases cell with
  | none => exact .past
  | some value =>
    have hLength : (Radix.hex 2 value.toNat).length = 2 := by
      rw [← String.length_toList, toList_hex]
      exact (Radix.length_digits_eq_iff (by decide) (by decide)).mpr value.toNat_lt
    refine .byte hLength ?_
    rw [ofCell, toList_hex]
    exact Radix.isHex_digits 2 value.toNat

theorem forall₂_ofCell (cells : List (Option UInt8)) :
    List.Forall₂ Field cells (cells.map ofCell) := by
  rw [List.forall₂_map_right_iff, List.forall₂_same]
  exact fun cell _ => field_ofCell cell

theorem shows_ofMachine (machine : Machine) : (ofMachine machine).Shows machine := by
  have hDigits : (ofMachine machine).pc.toList = Radix.digits 16 2 machine.pc.toNat := toList_hex 2 _
  have hLength : (ofMachine machine).pc.length = (Radix.digits 16 2 machine.pc.toNat).length := by
    rw [← hDigits, String.length_toList]
  have hTwo : 2 ≤ (Radix.digits 16 2 machine.pc.toNat).length := by
    rw [Radix.length_digits]
    exact Nat.le_max_left 2 _
  have hShort : (Radix.digits 16 2 machine.pc.toNat).length = 2 ↔ machine.pc.toNat < 16 ^ 2 :=
    Radix.length_digits_eq_iff (by decide) (by decide)
  constructor
  · rw [hDigits]
    exact Radix.isHex_digits 2 machine.pc.toNat
  · omega
  · omega
  · exact forall₂_ofCell machine.window
  · exact forall₂_ofCell _

theorem peek_eq (memory : Memory) (address : UInt64) :
    Machine.peek memory address = ofCell (memory.read address.toNat).toOption := by
  unfold Machine.peek
  cases memory.read address.toNat <;> rfl

theorem traceLine_eq (machine : Machine) : machine.traceLine = (ofMachine machine).text := by
  have hCells : (ofMachine machine).cells = [machine.pc, machine.pc + 1, machine.pc + 2].map
      (Machine.peek machine.memory) := by
    simp only [ofMachine, Machine.window, List.map_map]
    exact List.map_congr_left fun address _ => (peek_eq machine.memory address).symm
  have hRegisters : (ofMachine machine).registers =
      machine.registers.toList.map fun value => Radix.hex 2 value.toNat := by
    simp only [ofMachine, List.map_map]
    rfl
  have hSome : (ofMachine machine).registers ≠ [] := by
    rw [← List.length_pos_iff, hRegisters, List.length_map, Registers.toList, Vector.length_toList]
    decide
  have hName : "TRACE: " = "TRACE:" ++ " " := by decide
  have hBar : " | " = " " ++ ("|" ++ " ") := by decide
  rw [text, fields, String.intercalate_cons_cons, String.intercalate_cons_cons,
    String.intercalate_cons_of_ne_nil (by simp),
    String.intercalate_append_of_ne_nil (by simp [hCells]) (by simp),
    String.intercalate_cons_of_ne_nil hSome, hCells, hRegisters]
  simp only [Machine.traceLine, ofMachine, hName, hBar, String.append_assoc]

end TraceLine

/-- **Trace lines are faithful.** A trace line has the program counter in at least two hexadecimal
digits, and in more only past 255; then three cells, with two digits for a byte and `--` where there
is no cell; then the registers. Two machines have the same line exactly if they stand at the same
place, hold the same there and at the two addresses after it, and agree in all registers. -/
theorem Machine.traceLine_faithful :
    (∀ machine : Machine, ∃ line : TraceLine,
      machine.traceLine = line.text ∧ line.Shows machine) ∧
    ∀ machine machine' : Machine, machine.traceLine = machine'.traceLine ↔
      machine.pc = machine'.pc ∧ machine.registers = machine'.registers ∧
        machine.window = machine'.window := by
  constructor
  · intro machine
    exact ⟨_, TraceLine.traceLine_eq machine, TraceLine.shows_ofMachine machine⟩
  · intro machine machine'
    constructor
    · intro hSame
      have hShows := TraceLine.shows_ofMachine machine
      have hShows' := TraceLine.shows_ofMachine machine'
      rw [TraceLine.traceLine_eq, TraceLine.traceLine_eq] at hSame
      rw [hShows.eq_of_text_eq hShows' hSame] at hShows
      exact hShows.same hShows'
    · rintro ⟨hPc, hRegisters, hWindow⟩
      simp only [TraceLine.traceLine_eq, TraceLine.ofMachine, hPc, hRegisters, hWindow]

example : ({ Machine.new {} with pc := 254 } : Machine).traceLine =
    "TRACE: FE | 00 00 -- | 00 00 00 00 00 00 00 00" := by
  decide +kernel

end Ls8
