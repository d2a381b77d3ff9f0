import OsModel.Cpu.Isolation
import OsModel.Cpu.Threads

/-!
Where an instruction leaves the program counter and the flags.

The program counter is advanced in two places: by a syscall for which the process stops,
before it sends its context, and in the cycle, unless `hasJumped` says that it has been set.

* `Flow.stays`, `Flow.stops`: a context is sent by the instructions that stop the process, and
  it is the one that they leave.
* `Flow.next`: after the cycle the program counter is at the next instruction, or at the one that
  an instruction of `MayJump` has set.
-/

namespace OsModel.Cpu

open Threads KernelMemory

/-- The flags as the cycle leaves them to an instruction. -/
structure Execution.Calm (cpu : Execution) : Prop where
  hasJumped : cpu.hasJumped = false
  shouldExit : cpu.shouldExit = false
  shouldStop : cpu.shouldStop = false
  contexts : cpu.contexts = []

/-- The instructions that may set the program counter: `JNZ`, and those that write to a
register when it is `PC`. -/
def MayJump (decoded : List String) : Prop :=
  decoded[0]? = some "JNZ" ∨
    decoded[0]? ∈ [some "SET", some "MOV_IN", some "SUM", some "SUB"] ∧
      decoded[1]?.map String.toLower = some "pc"

instance (decoded : List String) : Decidable (MayJump decoded) := by
  unfold MayJump
  infer_instance

/-- How an instruction leaves the flags, the connection to Kernel Memory, and the program
counter. -/
structure Flow (decoded : List String) (args : ExecutionArgs) (cpu cpu' : Execution) : Prop where
  stays : cpu'.shouldStop = false → cpu'.contexts = []
  stops : cpu'.shouldStop = true → cpu'.shouldExit = false ∧ cpu'.hasJumped = true ∧
    cpu'.contexts = [(args.pid, cpu'.context)]
  next : (advance cpu').context.pc = cpu.context.pc + 1 ∨ MayJump decoded

@[simp]
theorem advance_shouldExit (cpu : Execution) : (advance cpu).shouldExit = cpu.shouldExit := by
  unfold advance
  split <;> rfl

@[simp]
theorem advance_shouldStop (cpu : Execution) : (advance cpu).shouldStop = cpu.shouldStop := by
  unfold advance
  split <;> rfl

@[simp]
theorem advance_contexts (cpu : Execution) : (advance cpu).contexts = cpu.contexts := by
  unfold advance
  split <;> rfl

@[simp]
theorem advance_devices (cpu : Execution) : (advance cpu).devices = cpu.devices := by
  unfold advance
  split <;> rfl

@[simp]
theorem advance_hasJumped (cpu : Execution) : (advance cpu).hasJumped = false := by
  unfold advance
  split
  · rfl
  · rename_i stayed
    exact Bool.eq_false_of_not_eq_true stayed

section Instructions

variable {decoded : List String} {args : ExecutionArgs} {cpu cpu' cpu'' : Execution}

/-- What neither jumps nor stops. -/
theorem Flow.straight (calm : cpu.Calm) (jumped : cpu'.hasJumped = cpu.hasJumped)
    (stop : cpu'.shouldStop = cpu.shouldStop) (contexts : cpu'.contexts = cpu.contexts)
    (context : cpu'.context.pc = cpu.context.pc) : Flow decoded args cpu cpu' where
  stays _ := contexts.trans calm.contexts
  stops stopped := by
    rw [stop, calm.shouldStop] at stopped
    cases stopped
  next := by
    left
    rw [calm.hasJumped] at jumped
    simp [advance, jumped, context]

/-- A syscall for which the process stops. -/
theorem Flow.stopFor (calm : cpu.Calm) (reason : InterruptReason) (syscall : Syscall) :
    Flow decoded args cpu (cpu.stopFor args reason syscall) where
  stays going := by cases going
  stops _ := ⟨calm.shouldExit, rfl, by simp [Execution.stopFor, calm.contexts]⟩
  next := .inl rfl

theorem getRegisterDescriptor_pc {name : String} (found : getRegisterDescriptor name = some .pc) :
    name.toLower = "pc" := by
  unfold getRegisterDescriptor at found
  split at found <;> first | assumption | cases found

/-- A write to a register that is not `PC` leaves the program counter. -/
theorem writeRegisterValue_pc {name : String} (other : name.toLower ≠ "pc") (context : CpuContext)
    (value : UInt32) : (writeRegisterValue context name value).pc = context.pc := by
  unfold writeRegisterValue
  cases found : getRegisterDescriptor name with
  | none => rfl
  | some register =>
      have ne : Register.pc ≠ register := by
        rintro rfl
        exact other (getRegisterDescriptor_pc found)
      exact Register.read_write_of_ne ne context value

theorem Flow.assign (calm : cpu.Calm) {mnemonic name : String}
    (writes : some mnemonic ∈ [some "SET", some "MOV_IN", some "SUM", some "SUB"])
    (first : decoded[0]? = some mnemonic) (second : decoded[1]? = some name) (value : UInt32) :
    Flow decoded args cpu (cpu.assign name value) where
  stays _ := calm.contexts
  stops stopped := by
    rw [Execution.assign, calm.shouldStop] at stopped
    cases stopped
  next := by
    by_cases pc : name.toLower = "pc"
    · exact .inr (.inr ⟨first ▸ writes, by rw [second, Option.map_some, pc]⟩)
    · left
      simp [Execution.assign, advance, calm.hasJumped, pc, writeRegisterValue_pc pc]

/-- The flags, the contexts sent and the context are as they were; the process may have to exit. -/
structure Steady (cpu cpu' : Execution) : Prop where
  hasJumped : cpu'.hasJumped = cpu.hasJumped
  shouldStop : cpu'.shouldStop = cpu.shouldStop
  contexts : cpu'.contexts = cpu.contexts
  context : cpu'.context = cpu.context

namespace Steady

theorem refl (cpu : Execution) : Steady cpu cpu := ⟨rfl, rfl, rfl, rfl⟩

theorem trans (first : Steady cpu cpu') (second : Steady cpu' cpu'') : Steady cpu cpu'' where
  hasJumped := second.hasJumped.trans first.hasJumped
  shouldStop := second.shouldStop.trans first.shouldStop
  contexts := second.contexts.trans first.contexts
  context := second.context.trans first.context

theorem calm (steady : Steady cpu cpu') (calm : cpu.Calm) (stays : ¬ cpu'.shouldExit = true) :
    cpu'.Calm where
  hasJumped := steady.hasJumped.trans calm.hasJumped
  shouldExit := Bool.eq_false_of_not_eq_true stays
  shouldStop := steady.shouldStop.trans calm.shouldStop
  contexts := steady.contexts.trans calm.contexts

theorem flow (steady : Steady cpu cpu') (calm : cpu.Calm) : Flow decoded args cpu cpu' :=
  .straight calm steady.hasJumped steady.shouldStop steady.contexts
    (congrArg CpuContext.pc steady.context)

/-- What comes after a part that is steady. -/
theorem followed (steady : Steady cpu cpu') (flow : Flow decoded args cpu' cpu'') :
    Flow decoded args cpu cpu'' where
  stays := flow.stays
  stops := flow.stops
  next := by
    rw [← steady.context]
    exact flow.next

end Steady

theorem steady_mmuTranslate (cpu : Execution) (args : ExecutionArgs)
    (logicalAddress size : UInt32) :
    Steady cpu (cpu.mmuTranslate args logicalAddress size).2 := by
  unfold Execution.mmuTranslate
  cases translate cpu.segmentMaxSize args.segmentTable logicalAddress size with
  | some physicalAddress => exact .refl cpu
  | none => exact ⟨rfl, rfl, rfl, rfl⟩

theorem steady_memoryRead (cpu : Execution) (physicalAddress size : UInt32) :
    Steady cpu (cpu.memoryRead physicalAddress size).2 := ⟨rfl, rfl, rfl, rfl⟩

theorem steady_memoryWrite (cpu : Execution) (physicalAddress : UInt32) (data : List UInt8)
    (size : UInt32) : Steady cpu (cpu.memoryWrite physicalAddress data size).2 :=
  ⟨rfl, rfl, rfl, rfl⟩

/-! ### Every instruction -/

theorem instructionSet_flow (calm : cpu.Calm) (named : decoded[0]? = some "SET")
    (executed : instructionSet decoded cpu = some cpu') : Flow decoded args cpu cpu' := by
  obtain ⟨name, operand, executed⟩ := Option.bind_eq_some_iff.mp executed
  split at executed
  · obtain ⟨value, -, rfl⟩ := Option.map_eq_some_iff.mp executed
    exact .assign calm (by simp) named operand _
  · cases executed
    exact (Steady.refl cpu).flow calm

theorem instructionMovIn_flow (calm : cpu.Calm) (named : decoded[0]? = some "MOV_IN")
    (executed : instructionMovIn decoded cpu args = some cpu') : Flow decoded args cpu cpu' := by
  obtain ⟨name, operand, rfl⟩ := Option.map_eq_some_iff.mp executed
  split
  · exact (Steady.refl cpu).flow calm
  · rename_i register _
    have translated := steady_mmuTranslate cpu args cpu.context.si register.fieldSize
    cases translation : cpu.mmuTranslate args cpu.context.si register.fieldSize with
    | mk physicalAddress cpu₁ =>
        rw [translation] at translated
        dsimp only
        split
        · exact translated.flow calm
        · rename_i stays
          have read := steady_memoryRead cpu₁ physicalAddress register.fieldSize
          have calm₁ := translated.calm calm stays
          cases reading : cpu₁.memoryRead physicalAddress register.fieldSize with
          | mk data cpu₂ =>
              have same : cpu₂.shouldExit = cpu₁.shouldExit :=
                congrArg (fun p => p.2.shouldExit) reading.symm
              rw [reading] at read
              cases data with
              | none => exact (translated.trans read).flow calm
              | some data =>
                  have calm₂ := read.calm calm₁ (same ▸ stays)
                  exact (translated.trans read).followed (.assign calm₂ (by simp) named operand _)

theorem instructionMovOut_flow (calm : cpu.Calm)
    (executed : instructionMovOut decoded cpu args = some cpu') : Flow decoded args cpu cpu' := by
  obtain ⟨name, -, rfl⟩ := Option.map_eq_some_iff.mp executed
  split
  · exact (Steady.refl cpu).flow calm
  · rename_i register _
    have translated := steady_mmuTranslate cpu args cpu.context.di register.fieldSize
    cases translation : cpu.mmuTranslate args cpu.context.di register.fieldSize with
    | mk physicalAddress cpu₁ =>
        rw [translation] at translated
        dsimp only
        split
        · exact translated.flow calm
        · exact (translated.trans (steady_memoryWrite ..)).flow calm

theorem instructionArithmetic_flow (calm : cpu.Calm) {f : UInt32 → UInt32 → UInt32}
    {mnemonic : String} (named : decoded[0]? = some mnemonic)
    (writes : some mnemonic ∈ [some "SET", some "MOV_IN", some "SUM", some "SUB"])
    (executed : instructionArithmetic decoded cpu f = some cpu') :
    Flow decoded args cpu cpu' := by
  obtain ⟨left, operand, executed⟩ := Option.bind_eq_some_iff.mp executed
  split at executed
  · obtain ⟨right, -, rfl⟩ := Option.map_eq_some_iff.mp executed
    split
    · exact .assign calm writes named operand _
    · exact (Steady.refl cpu).flow calm
  · cases executed
    exact (Steady.refl cpu).flow calm

theorem instructionJnz_flow (calm : cpu.Calm) (named : decoded[0]? = some "JNZ")
    (executed : instructionJnz decoded cpu = some cpu') : Flow decoded args cpu cpu' := by
  obtain ⟨name, -, executed⟩ := Option.bind_eq_some_iff.mp executed
  split at executed
  · obtain ⟨target, -, rfl⟩ := Option.map_eq_some_iff.mp executed
    split
    · exact (Steady.refl cpu).flow calm
    · split
      · refine ⟨fun _ => calm.contexts, fun stopped => ?_, .inr (.inl named)⟩
        rw [calm.shouldStop] at stopped
        cases stopped
      · exact (Steady.refl cpu).flow calm
  · cases executed
    exact (Steady.refl cpu).flow calm

theorem instructionCopyMem_flow (calm : cpu.Calm)
    (executed : instructionCopyMem decoded cpu args = some cpu') : Flow decoded args cpu cpu' := by
  obtain ⟨name, -, rfl⟩ := Option.map_eq_some_iff.mp executed
  split
  · dsimp only
    have source := steady_mmuTranslate cpu args cpu.context.si (readRegisterValue cpu.context name)
    cases sourceEq : cpu.mmuTranslate args cpu.context.si (readRegisterValue cpu.context name) with
    | mk physicalSrc cpu₁ =>
        rw [sourceEq] at source
        dsimp only
        split
        · exact source.flow calm
        · have destination := source.trans (steady_mmuTranslate cpu₁ args cpu₁.context.di
            (readRegisterValue cpu.context name))
          cases destinationEq : cpu₁.mmuTranslate args cpu₁.context.di
              (readRegisterValue cpu.context name) with
          | mk physicalDst cpu₂ =>
              rw [destinationEq] at destination
              dsimp only
              split
              · exact destination.flow calm
              · have read := destination.trans (steady_memoryRead cpu₂ physicalSrc
                  (readRegisterValue cpu.context name))
                cases reading : cpu₂.memoryRead physicalSrc
                    (readRegisterValue cpu.context name) with
                | mk data cpu₃ =>
                    rw [reading] at read
                    cases data with
                    | none => exact read.flow calm
                    | some data => exact (read.trans (steady_memoryWrite ..)).flow calm
  · exact (Steady.refl cpu).flow calm

theorem instructionIo_flow (calm : cpu.Calm) {syscall : UInt32 → UInt32 → UInt32 → Syscall}
    (executed : instructionIo decoded cpu args syscall = some cpu') :
    Flow decoded args cpu cpu' := by
  obtain ⟨addressName, -, executed⟩ := Option.bind_eq_some_iff.mp executed
  split at executed
  · obtain ⟨sizeName, -, rfl⟩ := Option.map_eq_some_iff.mp executed
    split
    · dsimp only
      have translated := steady_mmuTranslate cpu args (readRegisterValue cpu.context addressName)
        (readRegisterValue cpu.context sizeName)
      cases translation : cpu.mmuTranslate args (readRegisterValue cpu.context addressName)
          (readRegisterValue cpu.context sizeName) with
      | mk physicalAddress cpu₁ =>
          rw [translation] at translated
          dsimp only
          split
          · exact translated.flow calm
          · rename_i stays
            obtain ⟨goes, stops, next⟩ : Flow decoded args cpu₁ (cpu₁.stopFor args .ioRequest
                (syscall args.pid physicalAddress (readRegisterValue cpu.context sizeName))) :=
              .stopFor (translated.calm calm stays) ..
            exact translated.followed ⟨goes, stops, next⟩
    · exact (Steady.refl cpu).flow calm
  · cases executed
    exact (Steady.refl cpu).flow calm

/-- **Where every instruction leaves the flags and the program counter.** -/
theorem executeInstruction_flow (calm : cpu.Calm)
    (executed : executeInstruction decoded cpu args = some cpu') : Flow decoded args cpu cpu' := by
  obtain ⟨mnemonic, named, executed⟩ := Option.bind_eq_some_iff.mp executed
  split at executed
  · cases executed
    exact (Steady.refl cpu).flow calm
  · exact instructionSet_flow calm named executed
  · exact instructionMovIn_flow calm named executed
  · exact instructionMovOut_flow calm executed
  · exact instructionArithmetic_flow calm named (by simp) executed
  · exact instructionArithmetic_flow calm named (by simp) executed
  · exact instructionJnz_flow calm named executed
  · exact instructionCopyMem_flow calm executed
  · obtain ⟨name, -, rfl⟩ := Option.map_eq_some_iff.mp executed
    exact .stopFor calm ..
  · obtain ⟨name, -, rfl⟩ := Option.map_eq_some_iff.mp executed
    exact .stopFor calm ..
  · obtain ⟨name, -, rfl⟩ := Option.map_eq_some_iff.mp executed
    exact .stopFor calm ..
  · obtain ⟨segmentId, -, executed⟩ := Option.bind_eq_some_iff.mp executed
    obtain ⟨size, -, rfl⟩ := Option.map_eq_some_iff.mp executed
    exact .stopFor calm ..
  · obtain ⟨address, -, rfl⟩ := Option.map_eq_some_iff.mp executed
    exact .stopFor calm ..
  · obtain ⟨time, -, rfl⟩ := Option.map_eq_some_iff.mp executed
    exact .stopFor calm ..
  · exact instructionIo_flow calm executed
  · exact instructionIo_flow calm executed
  · obtain ⟨priority, -, executed⟩ := Option.bind_eq_some_iff.mp executed
    obtain ⟨path, -, rfl⟩ := Option.map_eq_some_iff.mp executed
    exact Steady.flow ⟨rfl, rfl, rfl, rfl⟩ calm
  · cases executed
    exact Steady.flow ⟨rfl, rfl, rfl, rfl⟩ calm
  · cases executed
    exact (Steady.refl cpu).flow calm

end Instructions

end OsModel.Cpu
