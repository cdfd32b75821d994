import Ls8.Proofs.Operations

/-!
# Last in, first out

Registers pushed one after another, and the values popped again.

* `Machine.inTurn`: an operation carried out with several operands in turn.
* `Machine.pushed`, `Machine.popped`: a machine after a single push and after a single pop.
  `inTurn_push`, `inTurn_pop`: several of them come to these in turn, if all registers exist.
* `cell_pushes`: where pushed values are. The cells lie below the stack pointer, wherever that is, and
  wrap around below 0; up to 256 values have a cell each.
* `Unstacked`: what is left of pushes and as many pops. `last_in_first_out`: that is what they leave.
-/

namespace Ls8.Machine

open Ls8.Action

variable {a b : UInt8} {machine : Machine}

/-! ## One push and one pop -/

/-- The machine with a value pushed, by an instruction. -/
def pushed (machine : Machine) (value : UInt8) : Machine :=
  { machine with
    memory := machine.memory.store (machine.sp - 1) value
    sp := machine.sp - 1
    pc := machine.pc + 2 }

/-- The machine with a value popped into a register, by an instruction. -/
def popped (machine : Machine) (index : Nat) : Machine :=
  { machine with
    registers := machine.registers.put index (machine.memory.cell machine.sp)
    sp := machine.sp + 1
    pc := machine.pc + 2 }

theorem alu_push (ha : a.toNat < Registers.count) :
    alu .push a b machine = .ok () (machine.pushed (machine.registers.value a.toNat)) := by
  have hEnding := alu_eq .push a b machine
  have hNeeds : AluOp.needs machine.config.aluMode a b .push = [a] := rfl
  rw [hNeeds, ending_cons_of_lt ha] at hEnding
  exact hEnding

theorem alu_pop (ha : a.toNat < Registers.count) :
    alu .pop a b machine = .ok () (machine.popped a.toNat) := by
  have hEnding := alu_eq .pop a b machine
  have hNeeds : AluOp.needs machine.config.aluMode a b .pop = [a] := rfl
  rw [hNeeds, ending_cons_of_lt ha] at hEnding
  exact hEnding

/-! ## Several of them -/

/-- An operation with some pairs of operand bytes in turn. -/
def inTurn (op : AluOp) (operands : List (UInt8 × UInt8)) : Action Fault Machine Unit :=
  operands.forM fun operand => alu op operand.1 operand.2

/-- The first operand of each names a register. -/
def AllExist (operands : List (UInt8 × UInt8)) : Prop :=
  ∀ operand ∈ operands, operand.1.toNat < Registers.count

instance (operands : List (UInt8 × UInt8)) : Decidable (AllExist operands) :=
  List.decidableBAll (fun operand : UInt8 × UInt8 => operand.1.toNat < Registers.count) operands

/-- The machine with some values pushed in turn. -/
def pushes (machine : Machine) (values : List UInt8) : Machine := values.foldl pushed machine

/-- The machine with values popped into some registers in turn. -/
def pops (machine : Machine) (operands : List (UInt8 × UInt8)) : Machine :=
  operands.foldl (fun machine operand => machine.popped operand.1.toNat) machine

/-- What the registers hold that the first operands name. -/
def named (machine : Machine) (operands : List (UInt8 × UInt8)) : List UInt8 :=
  operands.map fun operand => machine.registers.value operand.1.toNat

variable {operands : List (UInt8 × UInt8)} {values : List UInt8}

/-- No push changes what the next one finds in its register. -/
theorem inTurn_push (h : AllExist operands) (machine : Machine) :
    inTurn .push operands machine = .ok () (machine.pushes (machine.named operands)) := by
  induction operands generalizing machine with
  | nil => rfl
  | cons operand operands ih =>
    obtain ⟨hFirst, hRest⟩ := List.forall_mem_cons.mp h
    have hPush : alu .push operand.1 operand.2 machine = .ok () _ := alu_push hFirst
    exact (bind_of_ok hPush).trans (ih hRest _)

theorem inTurn_pop (h : AllExist operands) (machine : Machine) :
    inTurn .pop operands machine = .ok () (machine.pops operands) := by
  induction operands generalizing machine with
  | nil => rfl
  | cons operand operands ih =>
    obtain ⟨hFirst, hRest⟩ := List.forall_mem_cons.mp h
    have hPop : alu .pop operand.1 operand.2 machine = .ok () _ := alu_pop hFirst
    exact (bind_of_ok hPop).trans (ih hRest _)

/-! ## Where pushed values are -/

/-- The cell `n` below a stack pointer. Below the first cell is the last one. -/
def below (sp : UInt8) (n : Nat) : UInt8 := sp - .ofNat n

theorem below_succ (sp : UInt8) (n : Nat) : below sp (n + 1) = below (sp - 1) n := by
  apply UInt8.toNat_inj.mp
  simp only [below, UInt8.toNat_sub, UInt8.toNat_one, UInt8.toNat_ofNat']
  omega

/-- How far below the top of the stack a cell is. -/
def depth (sp address : UInt8) : Nat := (sp - 1 - address).toNat

theorem depth_below (sp : UInt8) {n : Nat} (h : n < 256) : depth sp (below sp (n + 1)) = n := by
  simp only [depth, below, UInt8.toNat_sub, UInt8.toNat_one, UInt8.toNat_ofNat']
  omega

theorem below_depth (sp address : UInt8) : below sp (depth sp address + 1) = address := by
  have hAddress := address.toNat_lt
  apply UInt8.toNat_inj.mp
  simp only [depth, below, UInt8.toNat_sub, UInt8.toNat_one, UInt8.toNat_ofNat']
  omega

/-- The cell of the next push is as far from the one after it as a cell can be. -/
theorem depth_pred_self (sp : UInt8) : depth (sp - 1) (sp - 1) = 255 := by
  simp only [depth, UInt8.toNat_sub, UInt8.toNat_one]
  omega

theorem depth_pred {sp address : UInt8} (h : sp - 1 ≠ address) :
    depth sp address = depth (sp - 1) address + 1 := by
  have hSp := sp.toNat_lt
  have hAddress := address.toNat_lt
  rw [Ne, ← UInt8.toNat_inj] at h
  simp only [depth, UInt8.toNat_sub, UInt8.toNat_one] at h ⊢
  omega

theorem sp_pushes (machine : Machine) (values : List UInt8) :
    (machine.pushes values).sp = below machine.sp values.length := by
  induction values generalizing machine with
  | nil => exact (UInt8.sub_zero machine.sp).symm
  | cons value values ih =>
    rw [List.length_cons, below_succ]
    exact ih (machine.pushed value)

/-- **A pushed value stays in its cell**, until 256 others have followed it. -/
theorem cell_pushes (h : values.length ≤ 256) (machine : Machine) (address : UInt8) :
    (machine.pushes values).memory.cell address =
      values[depth machine.sp address]?.getD (machine.memory.cell address) := by
  induction values generalizing machine with
  | nil => rfl
  | cons value values ih =>
    rw [List.length_cons] at h
    have hRest : (machine.pushes (value :: values)).memory.cell address =
        values[depth (machine.sp - 1) address]?.getD
          ((machine.memory.store (machine.sp - 1) value).cell address) :=
      ih (by omega) (machine.pushed value)
    rw [hRest, Memory.cell_store]
    by_cases hHere : machine.sp - 1 = address
    · -- The other values are too few to come around to this cell.
      subst hHere
      have hNone : values[depth (machine.sp - 1) (machine.sp - 1)]? = none := by
        rw [depth_pred_self]
        exact List.getElem?_eq_none (by omega)
      have hTop : depth machine.sp (machine.sp - 1) = 0 := by
        rw [depth, UInt8.sub_self]
        rfl
      rw [hNone, hTop, if_pos rfl]
      rfl
    · rw [if_neg hHere, depth_pred hHere, List.getElem?_cons_succ]

/-! ## What pops find -/

theorem below_add_one (sp : UInt8) (n : Nat) : below sp (n + 1) + 1 = below sp n := by
  apply UInt8.toNat_inj.mp
  simp only [below, UInt8.toNat_sub, UInt8.toNat_add, UInt8.toNat_one, UInt8.toNat_ofNat']
  omega

/-- What no push changes. -/
theorem pushes_keeps {τ : Type} (view : Machine → τ)
    (h : ∀ machine value, view (pushed machine value) = view machine) (machine : Machine)
    (values : List UInt8) : view (machine.pushes values) = view machine := by
  induction values generalizing machine with
  | nil => rfl
  | cons value values ih => exact (ih (machine.pushed value)).trans (h machine value)

/-- What no pop changes that is into one of these registers. -/
theorem pops_keeps {τ : Type} (view : Machine → τ)
    (h : ∀ operand ∈ operands, ∀ machine, view (popped machine operand.1.toNat) = view machine)
    (machine : Machine) : view (machine.pops operands) = view machine := by
  induction operands generalizing machine with
  | nil => rfl
  | cons operand operands ih =>
    obtain ⟨hFirst, hRest⟩ := List.forall_mem_cons.mp h
    exact (ih hRest (machine.popped operand.1.toNat)).trans (hFirst machine)

/-- Pops go back up the stack, one cell each. -/
theorem sp_pops {sp : UInt8} {n : Nat} (h : operands.length ≤ n) (machine : Machine)
    (hStart : machine.sp = below sp n) :
    (machine.pops operands).sp = below sp (n - operands.length) := by
  induction operands generalizing machine n with
  | nil => exact hStart
  | cons operand operands ih =>
    rw [List.length_cons] at h ⊢
    obtain ⟨m, rfl⟩ : ∃ m, n = m + 1 := ⟨n - 1, by omega⟩
    have hNext : (machine.popped operand.1.toNat).sp = below sp m := by
      rw [← below_add_one, ← hStart]
      rfl
    rw [Nat.add_sub_add_right]
    exact ih (by omega) (machine.popped operand.1.toNat) hNext

theorem pc_pushes (machine : Machine) (values : List UInt8) :
    Grown machine.pc (machine.pushes values).pc (2 * values.length) := by
  induction values generalizing machine with
  | nil => exact .refl _
  | cons value values ih =>
    rw [List.length_cons, Nat.mul_succ, Nat.add_comm]
    exact (grown_add machine.pc 2).trans (ih (machine.pushed value))

theorem pc_pops (machine : Machine) (operands : List (UInt8 × UInt8)) :
    Grown machine.pc (machine.pops operands).pc (2 * operands.length) := by
  induction operands generalizing machine with
  | nil => exact .refl _
  | cons operand operands ih =>
    rw [List.length_cons, Nat.mul_succ, Nat.add_comm]
    exact (grown_add machine.pc 2).trans (ih (machine.popped operand.1.toNat))

/-! ## Pushes and as many pops -/

/-- Registers pushed in turn, and then the values popped. -/
def throughStack (sources targets : List (UInt8 × UInt8)) : Action Fault Machine Unit := do
  inTurn .push sources
  inTurn .pop targets

variable {sources targets : List (UInt8 × UInt8)}

theorem throughStack_eq (hSources : AllExist sources) (hTargets : AllExist targets)
    (machine : Machine) : throughStack sources targets machine =
      .ok () ((machine.pushes (machine.named sources)).pops targets) :=
  (bind_of_ok (inTurn_push hSources machine)).trans (inTurn_pop hTargets _)

theorem length_named (machine : Machine) (operands : List (UInt8 × UInt8)) :
    (machine.named operands).length = operands.length :=
  List.length_map ..

/-- What is left of some pushes and as many pops: the values have come out in reverse order, and
remain in the cells below the stack pointer, which is back where it was. -/
structure Unstacked (sources targets : List (UInt8 × UInt8)) (before after : Machine) :
    Prop where
  /-- A pop puts the value away that was pushed as far from the end, and nothing else. -/
  pop {j : Nat} {target source : UInt8 × UInt8} (target_eq : targets[j]? = some target)
    (source_eq : sources.reverse[j]? = some source) : ∃ between next,
      throughStack sources (targets.take j) before = .ok () between ∧
      throughStack sources (targets.take (j + 1)) before = .ok () next ∧
      next.registers = between.registers.put target.1.toNat
        (before.registers.value source.1.toNat)
  sp : after.sp = before.sp
  cell {j : Nat} {source : UInt8 × UInt8} (source_eq : sources[j]? = some source) :
    after.memory.cell (before.sp - .ofNat (j + 1)) = before.registers.value source.1.toNat
  otherCell {address : UInt8} (other : ∀ j < sources.length, address ≠ before.sp - .ofNat (j + 1)) :
    after.memory.cell address = before.memory.cell address
  otherRegister {index : Nat} (exists_register : index < Registers.count)
    (other : ∀ target ∈ targets, target.1.toNat ≠ index) :
    after.registers.value index = before.registers.value index
  pc : Grown before.pc after.pc (2 * sources.length + 2 * targets.length)
  halted : after.halted = before.halted
  steps : after.steps = before.steps
  config : after.config = before.config

theorem pushes_named_cell (hFits : sources.length ≤ 256) (machine : Machine) {j : Nat}
    {source : UInt8 × UInt8} (hSource : sources[j]? = some source) :
    (machine.pushes (machine.named sources)).memory.cell (below machine.sp (j + 1)) =
      machine.registers.value source.1.toNat := by
  have hLess : j < sources.length := (List.getElem?_eq_some_iff.mp hSource).1
  have hLength := machine.length_named sources
  rw [cell_pushes (hLength ▸ hFits), depth_below _ (by omega), named, List.getElem?_map, hSource]
  rfl

theorem pop_unstacked (hLength : targets.length = sources.length) (hFits : sources.length ≤ 256)
    (hSources : AllExist sources) (hTargets : AllExist targets) (machine : Machine) {j : Nat}
    {target source : UInt8 × UInt8} (hTarget : targets[j]? = some target)
    (hSource : sources.reverse[j]? = some source) : ∃ between next,
      throughStack sources (targets.take j) machine = .ok () between ∧
      throughStack sources (targets.take (j + 1)) machine = .ok () next ∧
      next.registers = between.registers.put target.1.toNat
        (machine.registers.value source.1.toNat) := by
  have hTake (n : Nat) : AllExist (targets.take n) :=
    fun operand hOperand => hTargets operand (List.mem_of_mem_take hOperand)
  have hLess : j < targets.length := (List.getElem?_eq_some_iff.mp hTarget).1
  refine ⟨_, _, throughStack_eq hSources (hTake j) machine,
    throughStack_eq hSources (hTake (j + 1)) machine, ?_⟩
  have hCount : (targets.take j).length = j := List.length_take_of_le (Nat.le_of_lt hLess)
  have hOne : targets.take (j + 1) = targets.take j ++ [target] := by
    rw [List.take_add_one, hTarget]
    rfl
  -- The pop finds the stack pointer at the cell where its value was put.
  obtain ⟨m, hm⟩ : ∃ m, sources.length - j = m + 1 := ⟨sources.length - j - 1, by omega⟩
  have hFound : sources[m]? = some source := by
    rw [List.getElem?_reverse (by omega)] at hSource
    rw [← hSource]
    congr 1
    omega
  have hStart := machine.sp_pushes (machine.named sources)
  rw [length_named] at hStart
  have hSp := sp_pops (by omega : (targets.take j).length ≤ sources.length) _ hStart
  rw [hCount, hm] at hSp
  have hMemory : ((machine.pushes (machine.named sources)).pops (targets.take j)).memory = _ :=
    pops_keeps Machine.memory (fun _ _ _ => rfl) _
  have hCell := pushes_named_cell hFits machine hFound
  rw [hOne, pops, List.foldl_append, ← pops, ← hCell, ← hSp, ← hMemory]
  rfl

/-- **The stack is last-in first-out, over the whole memory.** Push up to 256 registers and pop as
many values: all of this succeeds, and each pop gets the value that was pushed as far from the end.
The stack pointer may be anywhere. -/
theorem last_in_first_out (hLength : targets.length = sources.length)
    (hFits : sources.length ≤ 256) (hSources : AllExist sources) (hTargets : AllExist targets)
    (machine : Machine) : ∃ after,
      throughStack sources targets machine = .ok () after ∧
      Unstacked sources targets machine after := by
  refine ⟨_, throughStack_eq hSources hTargets machine, ?_⟩
  have hPops {τ : Type} (view : Machine → τ)
      (h : ∀ machine index, view (popped machine index) = view machine) :
      view ((machine.pushes (machine.named sources)).pops targets) =
        view (machine.pushes (machine.named sources)) :=
    pops_keeps view (fun operand _ machine => h machine operand.1.toNat) _
  have hKept {τ : Type} (view : Machine → τ)
      (hPush : ∀ machine value, view (pushed machine value) = view machine)
      (hPop : ∀ machine index, view (popped machine index) = view machine) :
      view ((machine.pushes (machine.named sources)).pops targets) = view machine :=
    (hPops view hPop).trans (pushes_keeps view hPush machine _)
  have hMemory := hPops Machine.memory fun _ _ => rfl
  constructor
  case pop =>
    intro j target source hTarget hSource
    exact pop_unstacked hLength hFits hSources hTargets machine hTarget hSource
  case sp =>
    have hStart := machine.sp_pushes (machine.named sources)
    rw [length_named, ← hLength] at hStart
    rw [sp_pops (Nat.le_refl _) _ hStart, Nat.sub_self]
    exact UInt8.sub_zero machine.sp
  case cell =>
    intro j source hSource
    rw [hMemory]
    exact pushes_named_cell hFits machine hSource
  case otherCell =>
    intro address hOther
    have hDeep : sources.length ≤ depth machine.sp address := by
      refine Nat.not_lt.mp fun hShallow => ?_
      exact hOther _ hShallow (below_depth machine.sp address).symm
    rw [hMemory, cell_pushes (by rwa [length_named]),
      List.getElem?_eq_none (by rwa [length_named])]
    rfl
  case otherRegister =>
    intro index hIndex hOther
    have hPut : ∀ operand ∈ targets, ∀ machine : Machine,
        (machine.popped operand.1.toNat).registers.value index = machine.registers.value index := by
      intro operand hOperand machine
      exact (Registers.value_put _ _ _ hIndex).trans (if_neg (hOther operand hOperand))
    rw [pops_keeps (·.registers.value index) hPut]
    exact pushes_keeps (·.registers.value index) (fun _ _ => rfl) _ _
  case pc =>
    have hPushes := pc_pushes machine (machine.named sources)
    rw [length_named] at hPushes
    exact hPushes.trans (pc_pops _ targets)
  case halted => exact hKept Machine.halted (fun _ _ => rfl) fun _ _ => rfl
  case steps => exact hKept Machine.steps (fun _ _ => rfl) fun _ _ => rfl
  case config => exact hKept Machine.config (fun _ _ => rfl) fun _ _ => rfl

/-- Three registers through a stack that begins at cell 1 and goes on at the end of memory, into the
flags, the seed of the stack pointer, and a register that was pushed itself. -/
theorem last_in_first_out_around : ∃ after,
    throughStack [(0, 0), (1, 0), (2, 0)] [(4, 0), (7, 0), (0, 0)]
        (boot ⟨#v[10, 11, 12, 13, 14, 15, 16, 1]⟩ {}) = .ok () after ∧
      Unstacked [(0, 0), (1, 0), (2, 0)] [(4, 0), (7, 0), (0, 0)]
        (boot ⟨#v[10, 11, 12, 13, 14, 15, 16, 1]⟩ {}) after := by
  have hSources : AllExist [(0, 0), (1, 0), (2, 0)] := by decide
  have hTargets : AllExist [(4, 0), (7, 0), (0, 0)] := by decide
  exact last_in_first_out (by rfl) (by decide) hSources hTargets _

end Ls8.Machine
