/-
This file models the reset handler of the startup code, instruction by instruction,
with the part of the processor that it uses: four registers, the stack pointer, the
carry flag and the memory. The symbols are those of the linker script.

It settles that when the handler makes its first call, the initialised variables have
the values from the flash, the others are zero, and no other byte has changed. The
two loops are cut at their conditions, where the registers say how many bytes are
done; what the condition compares decides whether there is another round.
-/

import RtpLib.WordMachine

namespace RtpLib

namespace ResetHandler

/-! ### The processor -/

/-- The symbols of the linker script: the sections start and end at words, the load image of the
data lies in the flash, below the RAM, and the zeroed section above the data. -/
structure Symbols where
  sidata : UInt32
  sdata : UInt32
  edata : UInt32
  sbss : UInt32
  ebss : UInt32
  estack : UInt32
  dataWords : Nat
  bssWords : Nat
  data : sdata.toNat + 4 * dataWords = edata.toNat
  bss : sbss.toNat + 4 * bssWords = ebss.toNat
  flash_le : sidata.toNat + 4 * dataWords ≤ sdata.toNat
  data_le : edata.toNat ≤ sbss.toNat

/-- One word of data and two to clear. -/
def Symbols.small : Symbols where
  sidata := 0x08010000
  sdata := 0x20003cc8
  edata := 0x20003ccc
  sbss := 0x20003ccc
  ebss := 0x20003cd4
  estack := 0x20050000
  dataWords := 1
  bssWords := 2
  data := by decide
  bss := by decide
  flash_le := by decide
  data_le := by decide

inductive Register
  | r0
  | r1
  | r2
  | r3
  | sp

/-- The labels inside the handler. -/
inductive Label
  | copyDataInit
  | loopCopyDataInit
  | fillZerobss
  | loopFillZerobss

/-- The functions that the handler calls. -/
inductive Callee
  | systemInit
  | libcInitArray
  | main

inductive Instruction
  /-- `ldr rt, =value` -/
  | ldrValue (rt : Register) (value : UInt32)
  /-- `ldr rt, [rn, rm]` -/
  | ldr (rt rn rm : Register)
  /-- `str rt, [rn, rm]` -/
  | str (rt rn rm : Register)
  /-- `str rt, [rn], #offset` -/
  | strPost (rt rn : Register) (offset : UInt32)
  | movs (rd : Register) (value : UInt32)
  /-- `adds rd, rn, #value` -/
  | addsValue (rd rn : Register) (value : UInt32)
  | adds (rd rn rm : Register)
  | cmp (rn rm : Register)
  | b (label : Label)
  | bcc (label : Label)
  | bl (callee : Callee)
  | bx

/-- The processor, with the place of the next instruction in the handler. -/
structure Processor where
  r0 : UInt32
  r1 : UInt32
  r2 : UInt32
  r3 : UInt32
  sp : UInt32
  carry : Bool
  memory : UInt32 → UInt8
  pc : Nat

namespace Processor

def get (processor : Processor) : Register → UInt32
  | .r0 => processor.r0
  | .r1 => processor.r1
  | .r2 => processor.r2
  | .r3 => processor.r3
  | .sp => processor.sp

def set (processor : Processor) (register : Register) (value : UInt32) : Processor :=
  match register with
  | .r0 => { processor with r0 := value }
  | .r1 => { processor with r1 := value }
  | .r2 => { processor with r2 := value }
  | .r3 => { processor with r3 := value }
  | .sp => { processor with sp := value }

/-- Goes on with the next instruction. -/
def next (processor : Processor) : Processor := { processor with pc := processor.pc + 1 }

/-- The sum of two registers, with the carry out of it. -/
def sum (processor : Processor) (rd : Register) (first second : UInt32) : Processor :=
  { processor.set rd (first + second) with
    carry := decide (2 ^ 32 ≤ first.toNat + second.toNat) }

end Processor

/-! ### The handler -/

/-- `Reset_Handler` -/
def resetHandler (symbols : Symbols) : List Instruction := [
  .ldrValue .sp symbols.estack,
  .movs .r1 0,
  .b .loopCopyDataInit,
  -- CopyDataInit:
  .ldrValue .r3 symbols.sidata,
  .ldr .r3 .r3 .r1,
  .str .r3 .r0 .r1,
  .addsValue .r1 .r1 4,
  -- LoopCopyDataInit:
  .ldrValue .r0 symbols.sdata,
  .ldrValue .r3 symbols.edata,
  .adds .r2 .r0 .r1,
  .cmp .r2 .r3,
  .bcc .copyDataInit,
  .ldrValue .r2 symbols.sbss,
  .b .loopFillZerobss,
  -- FillZerobss:
  .movs .r3 0,
  .strPost .r3 .r2 4,
  -- LoopFillZerobss:
  .ldrValue .r3 symbols.ebss,
  .cmp .r2 .r3,
  .bcc .fillZerobss,
  .bl .systemInit,
  .bl .libcInitArray,
  .bl .main,
  .bx]

/-- The places of the labels. -/
def Label.place : Label → Nat
  | .copyDataInit => 3
  | .loopCopyDataInit => 7
  | .fillZerobss => 14
  | .loopFillZerobss => 16

/-- One instruction; the run ends at a call. -/
def execute (processor : Processor) : Instruction → Option Processor
  | .ldrValue rt value => some (processor.set rt value).next
  | .ldr rt rn rm =>
    let address := processor.get rn + processor.get rm
    some (processor.set rt (WordMachine.load processor.memory address)).next
  | .str rt rn rm =>
    let address := processor.get rn + processor.get rm
    some { processor with
      memory := WordMachine.store processor.memory address (processor.get rt) }.next
  | .strPost rt rn offset =>
    let address := processor.get rn
    let stored : Processor := { processor with
      memory := WordMachine.store processor.memory address (processor.get rt) }
    some (stored.set rn (address + offset)).next
  | .movs rd value => some (processor.set rd value).next
  | .addsValue rd rn value => some (processor.sum rd (processor.get rn) value).next
  | .adds rd rn rm => some (processor.sum rd (processor.get rn) (processor.get rm)).next
  | .cmp rn rm =>
    -- The carry says that there is no borrow.
    some { processor with carry := decide (processor.get rm ≤ processor.get rn) }.next
  | .b label => some { processor with pc := label.place }
  | .bcc label =>
    some (if processor.carry then processor.next else { processor with pc := label.place })
  | .bl _ => none
  | .bx => none

def step (symbols : Symbols) (processor : Processor) : Option Processor :=
  ((resetHandler symbols)[processor.pc]?).bind (execute processor)

/-! ### The stretches between the cuts -/

section Handler

variable {symbols : Symbols} {processor : Processor} {memory : UInt32 → UInt8} {turn : Nat}

/-- Up to the condition of the first loop. -/
theorem reaches_copy_test (symbols : Symbols) (here : processor.pc = 7) :
    StateTransition.Reaches (step symbols) processor
      { processor with
        r0 := symbols.sdata
        r2 := symbols.sdata + processor.r1
        r3 := symbols.edata
        carry := decide (symbols.edata ≤ symbols.sdata + processor.r1)
        pc := 11 } := by
  obtain ⟨r0, r1, r2, r3, sp, carry, memory, pc⟩ := processor
  cases here
  exact WordMachine.reaches_of_after 4 rfl

/-- A word is copied. -/
theorem reaches_copy_body (symbols : Symbols) (processor : Processor)
    (here : processor.pc = 11) (more : processor.carry = false) :
    ∃ r3 carry, StateTransition.Reaches (step symbols) processor
      { processor with
        r1 := processor.r1 + 4
        r3 := r3
        carry := carry
        memory := WordMachine.store processor.memory (processor.r0 + processor.r1)
          (WordMachine.load processor.memory (symbols.sidata + processor.r1))
        pc := 7 } := by
  obtain ⟨r0, r1, r2, r3, sp, carry, memory, pc⟩ := processor
  cases here
  cases more
  exact ⟨_, _, WordMachine.reaches_of_after 5 rfl⟩

/-- No word is left, and the second loop begins. -/
theorem reaches_copy_end (symbols : Symbols) (processor : Processor)
    (here : processor.pc = 11) (done : processor.carry = true) :
    StateTransition.Reaches (step symbols) processor
      { processor with r2 := symbols.sbss, pc := 16 } := by
  obtain ⟨r0, r1, r2, r3, sp, carry, memory, pc⟩ := processor
  cases here
  cases done
  exact WordMachine.reaches_of_after 3 rfl

/-- Up to the condition of the second loop. -/
theorem reaches_fill_test (symbols : Symbols) (here : processor.pc = 16) :
    StateTransition.Reaches (step symbols) processor
      { processor with
        r3 := symbols.ebss
        carry := decide (symbols.ebss ≤ processor.r2)
        pc := 18 } := by
  obtain ⟨r0, r1, r2, r3, sp, carry, memory, pc⟩ := processor
  cases here
  exact WordMachine.reaches_of_after 2 rfl

/-- A word is cleared. -/
theorem reaches_fill_body (symbols : Symbols) (processor : Processor)
    (here : processor.pc = 18) (more : processor.carry = false) :
    StateTransition.Reaches (step symbols) processor
      { processor with
        r2 := processor.r2 + 4
        r3 := 0
        memory := WordMachine.store processor.memory processor.r2 0
        pc := 16 } := by
  obtain ⟨r0, r1, r2, r3, sp, carry, memory, pc⟩ := processor
  cases here
  cases more
  exact WordMachine.reaches_of_after 3 rfl

/-- The first loop, with some words copied. -/
structure Copying (symbols : Symbols) (memory : UInt32 → UInt8) (turn : Nat)
    (processor : Processor) : Prop where
  pc : processor.pc = 7
  sp : processor.sp = symbols.estack
  r1 : processor.r1 = .ofNat (4 * turn)
  memory : processor.memory = WordMachine.copied memory symbols.sidata symbols.sdata (4 * turn)

/-- The second loop, with some words cleared. -/
structure Filling (symbols : Symbols) (memory : UInt32 → UInt8) (turn : Nat)
    (processor : Processor) : Prop where
  pc : processor.pc = 16
  sp : processor.sp = symbols.estack
  r2 : processor.r2 = symbols.sbss + .ofNat (4 * turn)
  memory : processor.memory = WordMachine.cleared
    (WordMachine.copied memory symbols.sidata symbols.sdata (4 * symbols.dataWords)) symbols.sbss
    (4 * turn)

/-! ### Rounds -/

theorem Symbols.toNat_data (symbols : Symbols) (within : turn ≤ symbols.dataWords) :
    (symbols.sdata + .ofNat (4 * turn)).toNat = symbols.sdata.toNat + 4 * turn := by
  have ends := symbols.data
  have bounded := symbols.edata.toNat_lt
  rw [UInt32.toNat_add, UInt32.toNat_ofNat_of_lt' (show 4 * turn < 2 ^ 32 by omega)]
  omega

theorem Symbols.toNat_bss (symbols : Symbols) (within : turn ≤ symbols.bssWords) :
    (symbols.sbss + .ofNat (4 * turn)).toNat = symbols.sbss.toNat + 4 * turn := by
  have ends := symbols.bss
  have bounded := symbols.ebss.toNat_lt
  rw [UInt32.toNat_add, UInt32.toNat_ofNat_of_lt' (show 4 * turn < 2 ^ 32 by omega)]
  omega

/-- The load image lies outside the data. -/
theorem Symbols.image_apart (symbols : Symbols) (within : turn < symbols.dataWords) (index : Nat)
    (inside : index < 4 * turn + 4) :
    4 * turn ≤ (symbols.sidata + .ofNat index - symbols.sdata).toNat := by
  have ends := symbols.data
  have below := symbols.flash_le
  have bounded := symbols.edata.toNat_lt
  rw [UInt32.toNat_sub, UInt32.toNat_add,
    UInt32.toNat_ofNat_of_lt' (show index < 2 ^ 32 by omega)]
  omega

theorem Copying.round (copying : Copying symbols memory turn processor)
    (more : turn < symbols.dataWords) :
    ∃ next, StateTransition.Reaches (step symbols) processor next ∧
      Copying symbols memory (turn + 1) next := by
  have ends := symbols.data
  have bounded := symbols.edata.toNat_lt
  have test := reaches_copy_test symbols copying.pc
  have below : ¬ symbols.edata ≤ symbols.sdata + processor.r1 := by
    rw [copying.r1, UInt32.le_iff_toNat_le, symbols.toNat_data more.le]
    omega
  obtain ⟨r3, carry, body⟩ := reaches_copy_body symbols
    { processor with
      r0 := symbols.sdata
      r2 := symbols.sdata + processor.r1
      r3 := symbols.edata
      carry := decide (symbols.edata ≤ symbols.sdata + processor.r1)
      pc := 11 } rfl (decide_eq_false below)
  refine ⟨_, test.trans body, rfl, copying.sp, ?_, ?_⟩
  · show processor.r1 + 4 = .ofNat (4 * turn + 4)
    rw [copying.r1, UInt32.ofNat_add]
    rfl
  · show WordMachine.store processor.memory (symbols.sdata + processor.r1)
      (WordMachine.load processor.memory (symbols.sidata + processor.r1)) = _
    rw [copying.r1, copying.memory,
      WordMachine.store_load_copied (by omega) (symbols.image_apart more)]
    rfl

/-- Behind the last word the first loop ends. -/
theorem Copying.finish (copying : Copying symbols memory symbols.dataWords processor) :
    ∃ next, StateTransition.Reaches (step symbols) processor next ∧
      Filling symbols memory 0 next := by
  have ends := symbols.data
  have test := reaches_copy_test symbols copying.pc
  have through : symbols.edata ≤ symbols.sdata + processor.r1 := by
    rw [copying.r1, UInt32.le_iff_toNat_le, symbols.toNat_data le_rfl]
    omega
  have finish := reaches_copy_end symbols
    { processor with
      r0 := symbols.sdata
      r2 := symbols.sdata + processor.r1
      r3 := symbols.edata
      carry := decide (symbols.edata ≤ symbols.sdata + processor.r1)
      pc := 11 } rfl (decide_eq_true through)
  refine ⟨_, test.trans finish, rfl, copying.sp, (UInt32.add_zero _).symm, ?_⟩
  exact copying.memory.trans WordMachine.cleared_zero.symm

theorem Filling.round (filling : Filling symbols memory turn processor)
    (more : turn < symbols.bssWords) :
    ∃ next, StateTransition.Reaches (step symbols) processor next ∧
      Filling symbols memory (turn + 1) next := by
  have ends := symbols.bss
  have bounded := symbols.ebss.toNat_lt
  have test := reaches_fill_test symbols filling.pc
  have below : ¬ symbols.ebss ≤ processor.r2 := by
    rw [filling.r2, UInt32.le_iff_toNat_le, symbols.toNat_bss more.le]
    omega
  have body := reaches_fill_body symbols
    { processor with
      r3 := symbols.ebss
      carry := decide (symbols.ebss ≤ processor.r2)
      pc := 18 } rfl (decide_eq_false below)
  refine ⟨_, test.trans body, rfl, filling.sp, ?_, ?_⟩
  · show processor.r2 + 4 = symbols.sbss + .ofNat (4 * turn + 4)
    rw [filling.r2, UInt32.ofNat_add, UInt32.add_assoc]
    rfl
  · show WordMachine.store processor.memory processor.r2 0 = _
    rw [filling.r2, filling.memory, WordMachine.store_zero_cleared (by omega)]
    rfl

/-! ### The whole handler -/

/-- What the reset handler leaves when it makes its first call. -/
structure Initialized (symbols : Symbols) (before : UInt32 → UInt8) (last : Processor) : Prop where
  calls : (resetHandler symbols)[last.pc]? = some (.bl .systemInit)
  sp : last.sp = symbols.estack
  data : ∀ place, symbols.sdata ≤ place → place < symbols.edata →
    last.memory place = before (symbols.sidata + (place - symbols.sdata))
  bss : ∀ place, symbols.sbss ≤ place → place < symbols.ebss → last.memory place = 0
  kept : ∀ place, ¬ (symbols.sdata ≤ place ∧ place < symbols.edata) →
    ¬ (symbols.sbss ≤ place ∧ place < symbols.ebss) → last.memory place = before place

theorem Filling.finish (filling : Filling symbols memory symbols.bssWords processor) :
    ∃ last, StateTransition.Reaches (step symbols) processor last ∧ last.pc = 19 ∧
      last.sp = symbols.estack ∧ last.memory = processor.memory := by
  have ends := symbols.bss
  have test := reaches_fill_test symbols filling.pc
  have through : symbols.ebss ≤ processor.r2 := by
    rw [filling.r2, UInt32.le_iff_toNat_le, symbols.toNat_bss le_rfl]
    omega
  rw [decide_eq_true through] at test
  exact ⟨_, test.tail rfl, rfl, filling.sp, rfl⟩

theorem initialized_of_memory {last : Processor} (calls : last.pc = 19)
    (sp : last.sp = symbols.estack)
    (all : last.memory = WordMachine.cleared
      (WordMachine.copied memory symbols.sidata symbols.sdata (4 * symbols.dataWords)) symbols.sbss
      (4 * symbols.bssWords)) : Initialized symbols memory last := by
  have inBss := fun place => WordMachine.toNat_sub_lt_iff place symbols.bss
  have inData := fun place => WordMachine.toNat_sub_lt_iff place symbols.data
  refine ⟨by rw [calls]; rfl, sp, ?_, ?_, ?_⟩
  · intro place after before
    have apart : ¬ (symbols.sbss ≤ place ∧ place < symbols.ebss) := fun inside =>
      absurd (symbols.data_le.trans inside.1) (Nat.not_le_of_lt before)
    rw [all, WordMachine.cleared, if_neg (mt (inBss place).mp apart), WordMachine.copied,
      if_pos ((inData place).mpr ⟨after, before⟩)]
  · intro place after before
    rw [all, WordMachine.cleared, if_pos ((inBss place).mpr ⟨after, before⟩)]
  · intro place notData notBss
    rw [all, WordMachine.cleared, if_neg (mt (inBss place).mp notBss), WordMachine.copied,
      if_neg (mt (inData place).mp notData)]

/-- Whatever the registers and the memory hold at reset, the handler comes to its first call with
the stack pointer set, the data copied from the flash, the zeroed section zero and nothing else
changed. -/
theorem resetHandler_initializes (symbols : Symbols) (reset : Processor) :
    ∃ last ∈ StateTransition.eval (step symbols) { reset with pc := 0 },
      Initialized symbols reset.memory last := by
  obtain ⟨entered, entry, copying⟩ : ∃ entered,
      StateTransition.Reaches (step symbols) { reset with pc := 0 } entered ∧
        Copying symbols reset.memory 0 entered :=
    ⟨_, WordMachine.reaches_of_after 3 rfl, rfl, rfl, rfl, WordMachine.copied_zero.symm⟩
  obtain ⟨copied, copies, copying⟩ := WordMachine.reaches_of_rounds
    (fun _ more _ copying => Copying.round copying more) copying
  obtain ⟨cut, between, filling⟩ := copying.finish
  obtain ⟨filled, fills, filling⟩ := WordMachine.reaches_of_rounds
    (fun _ more _ filling => Filling.round filling more) filling
  obtain ⟨last, finish, calls, sp, memory⟩ := filling.finish
  have reaches := entry.trans (copies.trans (between.trans (fills.trans finish)))
  have stops : step symbols last = none := by
    rw [step, calls]
    rfl
  exact ⟨last, StateTransition.mem_eval.mpr ⟨reaches, stops⟩,
    initialized_of_memory calls sp (memory.trans filling.memory)⟩

/-- A processor at reset: a register and the memory hold what the power-up left in them. -/
def Processor.atReset : Processor where
  r0 := 0xdeadbeef
  r1 := 4
  r2 := 0
  r3 := 0
  sp := 0
  carry := true
  memory place := place.toUInt8
  pc := 0

/-- The word of data comes from the flash, and both words behind it are cleared. -/
theorem resetHandler_initializes_small :
    ∃ last ∈ StateTransition.eval (step .small) .atReset,
      last.sp = 0x20050000 ∧ last.memory 0x20003cc9 = 0x01 ∧ last.memory 0x20003cd3 = 0 ∧
        last.memory 0x20003cd4 = 0xd4 := by
  obtain ⟨last, ends, initialized⟩ := resetHandler_initializes .small .atReset
  refine ⟨last, ends, initialized.sp, ?_, ?_, ?_⟩
  · exact initialized.data 0x20003cc9 (by decide) (by decide)
  · exact initialized.bss 0x20003cd3 (by decide) (by decide)
  · exact initialized.kept 0x20003cd4 (by decide) (by decide)

end Handler

end ResetHandler

end RtpLib
