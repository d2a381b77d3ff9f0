import OsModel.Cpu.InstructionFlow

/-!
Which instruction comes next (`instructions_cicle` in `cpu/src/manage_instructions.c`).

The program counter is data of the program: `JNZ` jumps, and `SET`, `SUM`, `SUB` and `MOV_IN` can
have it as their register. Every other instruction is followed by the next line.

* `executeInstruction_nextPc`: the program counter after any instruction.
* `executeInstruction_ends`: the instructions that end their process.
-/

namespace OsModel.Cpu

open Threads

section Targets

variable (decoded : List String) (cpu : Execution) (args : ExecutionArgs)

/-- The first operand is `PC`. -/
def NamesPc : Prop := decoded[1]?.map String.toLower = some "pc"

instance : Decidable (NamesPc decoded) := by
  unfold NamesPc
  infer_instance

/-- What `MOV_IN` reads for `PC`, at the logical address in `SI`. -/
def loadedTarget : Option UInt32 :=
  let size := Register.pc.fieldSize
  (translate cpu.segmentMaxSize args.segmentTable cpu.context.si size).bind fun physicalAddress =>
    (KernelMemory.memoryRead cpu.devices physicalAddress size).1.map uint32OfBytes

/-- What an instruction writes to the program counter, if it writes anything. -/
def jumpTarget : Option UInt32 :=
  match decoded[0]? with
  | some "JNZ" =>
      if (decoded[1]?.map (readRegisterValue cpu.context)).getD 0 = 0 then none
      else (decoded[2]?.map atoi).bind fun target =>
        if 0 < target then some (uint32OfInt target) else none
  | some "SET" =>
      if NamesPc decoded then decoded[2]?.map fun value => uint32OfInt (atoi value) else none
  | some "SUM" =>
      if NamesPc decoded then
        (decoded[2]?.filter checkIfRegister).map fun right =>
          cpu.context.pc + readRegisterValue cpu.context right
      else none
  | some "SUB" =>
      if NamesPc decoded then
        (decoded[2]?.filter checkIfRegister).map fun right =>
          cpu.context.pc - readRegisterValue cpu.context right
      else none
  | some "MOV_IN" => if NamesPc decoded then loadedTarget cpu args else none
  | _ => none

/-- The program counter that an instruction leaves. -/
def nextPc : UInt32 := (jumpTarget decoded cpu args).getD (cpu.context.pc + 1)

/-- The logical addresses that an instruction has translated, each with a size. -/
def logicalRanges : List (UInt32 × UInt32) :=
  match decoded[0]? with
  | some "MOV_IN" =>
      ((decoded[1]?.bind getRegisterDescriptor).map fun register =>
        (cpu.context.si, register.fieldSize)).toList
  | some "MOV_OUT" =>
      ((decoded[1]?.bind getRegisterDescriptor).map fun register =>
        (cpu.context.di, register.fieldSize)).toList
  | some "COPY_MEM" =>
      (decoded[1]?.filter checkIfRegister).toList.flatMap fun name =>
        [(cpu.context.si, readRegisterValue cpu.context name),
          (cpu.context.di, readRegisterValue cpu.context name)]
  | some "STDOUT" | some "STDIN" =>
      (decoded[1]?.filter checkIfRegister).toList.flatMap fun addressName =>
        (decoded[2]?.filter checkIfRegister).toList.map fun sizeName =>
          (readRegisterValue cpu.context addressName, readRegisterValue cpu.context sizeName)
  | _ => []

/-- The instruction ends its process: it is `EXIT`, or the MMU refuses one of its addresses. -/
def Ends : Prop :=
  decoded[0]? = some "EXIT" ∨ ∃ range ∈ logicalRanges decoded cpu,
    translate cpu.segmentMaxSize args.segmentTable range.1 range.2 = none

instance : Decidable (Ends decoded cpu args) := by
  unfold Ends
  infer_instance

end Targets

variable {decoded : List String} {args : ExecutionArgs} {cpu cpu' : Execution}

theorem mmuTranslate_of_some {logicalAddress size physicalAddress : UInt32}
    (found : translate cpu.segmentMaxSize args.segmentTable logicalAddress size =
      some physicalAddress) :
    cpu.mmuTranslate args logicalAddress size = (physicalAddress, cpu) := by
  rw [Execution.mmuTranslate, found]

theorem mmuTranslate_of_none {logicalAddress size : UInt32}
    (refused : translate cpu.segmentMaxSize args.segmentTable logicalAddress size = none) :
    cpu.mmuTranslate args logicalAddress size =
      (0, { cpu with
        syscalls := cpu.syscalls ++ [.segmentationFault args.pid]
        shouldExit := true }) := by
  rw [Execution.mmuTranslate, refused]

/-! ### The program counter -/

theorem jumpTarget_of_not_mayJump (stays : ¬ MayJump decoded) :
    jumpTarget decoded cpu args = none := by
  have other : decoded[0]? ∈ [some "SET", some "MOV_IN", some "SUM", some "SUB"] →
      ¬ NamesPc decoded := fun writes pc => stays (.inr ⟨writes, pc⟩)
  unfold jumpTarget
  split
  · rename_i named
    exact absurd (.inl named) stays
  · rename_i named
    rw [if_neg (other (by simp [named]))]
  · rename_i named
    rw [if_neg (other (by simp [named]))]
  · rename_i named
    rw [if_neg (other (by simp [named]))]
  · rename_i named
    rw [if_neg (other (by simp [named]))]
  · rfl

theorem getRegisterDescriptor_of_pc {name : String} (pc : name.toLower = "pc") :
    getRegisterDescriptor name = some .pc := by
  simp [getRegisterDescriptor, pc]

/-- A write to `PC` is a jump. -/
theorem pc_assign {name : String} (pc : name.toLower = "pc") (cpu : Execution) (value : UInt32) :
    (advance (cpu.assign name value)).context.pc = value := by
  simp [advance, Execution.assign, pc, writeRegisterValue, getRegisterDescriptor_of_pc pc,
    Register.write]

/-- An instruction that does not jump is followed by the next one. -/
theorem pc_advance (calm : cpu.Calm) : (advance cpu).context.pc = cpu.context.pc + 1 := by
  simp [advance, calm.hasJumped]

theorem instructionJnz_nextPc (calm : cpu.Calm) (named : decoded[0]? = some "JNZ")
    (executed : instructionJnz decoded cpu = some cpu') :
    (advance cpu').context.pc = nextPc decoded cpu args := by
  obtain ⟨name, first, executed⟩ := Option.bind_eq_some_iff.mp executed
  simp only [nextPc, jumpTarget, named, first, Option.map_some, Option.getD_some]
  split at executed
  · obtain ⟨target, second, rfl⟩ := Option.map_eq_some_iff.mp executed
    by_cases positive : atoi target ≤ 0
    · simp [positive, not_lt.mpr positive, pc_advance calm, second]
    · by_cases zero : readRegisterValue cpu.context name = 0
      · simp [positive, zero, pc_advance calm]
      · simp [positive, zero, second, not_le.mp positive, advance]
  · rename_i unknown
    cases executed
    have zero : readRegisterValue cpu.context name = 0 := by
      have missing : getRegisterDescriptor name = none := by
        simpa [checkIfRegister] using unknown
      simp [readRegisterValue, missing]
    simp [zero, pc_advance calm]

theorem instructionSet_nextPc (named : decoded[0]? = some "SET") (pc : NamesPc decoded)
    (executed : instructionSet decoded cpu = some cpu') :
    (advance cpu').context.pc = nextPc decoded cpu args := by
  obtain ⟨name, first, executed⟩ := Option.bind_eq_some_iff.mp executed
  have lower : name.toLower = "pc" := by simpa [NamesPc, first] using pc
  have register : checkIfRegister name = true := by
    simp [checkIfRegister, getRegisterDescriptor_of_pc lower]
  rw [if_pos register] at executed
  obtain ⟨value, second, rfl⟩ := Option.map_eq_some_iff.mp executed
  simp [nextPc, jumpTarget, named, pc, second, pc_assign lower]

theorem instructionMovIn_nextPc (calm : cpu.Calm) (named : decoded[0]? = some "MOV_IN")
    (pc : NamesPc decoded) (executed : instructionMovIn decoded cpu args = some cpu') :
    (advance cpu').context.pc = nextPc decoded cpu args := by
  obtain ⟨name, first, rfl⟩ := Option.map_eq_some_iff.mp executed
  have lower : name.toLower = "pc" := by simpa [NamesPc, first] using pc
  have target : jumpTarget decoded cpu args = loadedTarget cpu args := by
    simp [jumpTarget, named, pc]
  rw [nextPc, target, loadedTarget, getRegisterDescriptor_of_pc lower]
  dsimp only
  cases found : translate cpu.segmentMaxSize args.segmentTable cpu.context.si
      Register.pc.fieldSize with
  | none => simp [mmuTranslate_of_none found, advance, calm.hasJumped]
  | some physicalAddress =>
      simp only [mmuTranslate_of_some found, calm.shouldExit, Execution.memoryRead,
        Option.bind_some]
      cases KernelMemory.memoryRead cpu.devices physicalAddress Register.pc.fieldSize with
      | mk data d =>
          cases data with
          | none => simp [advance, calm.hasJumped]
          | some data => simp [pc_assign lower]

theorem instructionArithmetic_pc {f : UInt32 → UInt32 → UInt32} (calm : cpu.Calm)
    (pc : NamesPc decoded) (executed : instructionArithmetic decoded cpu f = some cpu') :
    (advance cpu').context.pc = ((decoded[2]?.filter checkIfRegister).map fun right =>
      f cpu.context.pc (readRegisterValue cpu.context right)).getD (cpu.context.pc + 1) := by
  obtain ⟨name, first, executed⟩ := Option.bind_eq_some_iff.mp executed
  have lower : name.toLower = "pc" := by simpa [NamesPc, first] using pc
  have found := getRegisterDescriptor_of_pc lower
  have register : checkIfRegister name = true := by simp [checkIfRegister, found]
  rw [if_pos register] at executed
  obtain ⟨right, second, rfl⟩ := Option.map_eq_some_iff.mp executed
  have left : readRegisterValue cpu.context name = cpu.context.pc := by
    simp [readRegisterValue, found, Register.read]
  split
  · rename_i known
    simp [second, known, pc_assign lower, left, Option.filter]
  · rename_i unknown
    simp [second, unknown, pc_advance calm, Option.filter]

/-- **Where every instruction leaves the program counter.** -/
theorem executeInstruction_nextPc (calm : cpu.Calm)
    (executed : executeInstruction decoded cpu args = some cpu') :
    (advance cpu').context.pc = nextPc decoded cpu args := by
  by_cases jumps : MayJump decoded
  · rcases jumps with named | ⟨writes, pc⟩
    · refine instructionJnz_nextPc calm named ?_
      simpa [executeInstruction, named] using executed
    · simp only [List.mem_cons, List.not_mem_nil, or_false] at writes
      have pc : NamesPc decoded := pc
      rcases writes with named | named | named | named
      · refine instructionSet_nextPc named pc ?_
        simpa [executeInstruction, named] using executed
      · refine instructionMovIn_nextPc calm named pc ?_
        simpa [executeInstruction, named] using executed
      · have sum : instructionSum decoded cpu = some cpu' := by
          simpa [executeInstruction, named] using executed
        rw [instructionArithmetic_pc calm pc sum]
        simp [nextPc, jumpTarget, named, pc]
      · have sub : instructionSub decoded cpu = some cpu' := by
          simpa [executeInstruction, named] using executed
        rw [instructionArithmetic_pc calm pc sub]
        simp [nextPc, jumpTarget, named, pc]
  · have straight := (executeInstruction_flow calm executed).next.resolve_right jumps
    rw [straight, nextPc, jumpTarget_of_not_mayJump jumps]
    rfl

/-! ### The end of a process -/

/-- What becomes of an instruction that has no address translated and is not `EXIT`. -/
theorem ends_of_nothing (calm : cpu.Calm) (other : decoded[0]? ≠ some "EXIT")
    (nothing : logicalRanges decoded cpu = []) (same : cpu'.shouldExit = cpu.shouldExit) :
    cpu'.shouldExit = true ↔ Ends decoded cpu args := by
  simp [Ends, other, nothing, same, calm.shouldExit]

/-- What becomes of an instruction that has one address translated, and then goes on. -/
theorem ends_of_translated {logicalAddress size : UInt32} (other : decoded[0]? ≠ some "EXIT")
    (asked : logicalRanges decoded cpu = [(logicalAddress, size)])
    (refused : translate cpu.segmentMaxSize args.segmentTable logicalAddress size = none →
      cpu'.shouldExit = true)
    (goes : ∀ physicalAddress,
      translate cpu.segmentMaxSize args.segmentTable logicalAddress size = some physicalAddress →
        cpu'.shouldExit = false) :
    cpu'.shouldExit = true ↔ Ends decoded cpu args := by
  simp only [Ends, other, asked, List.mem_singleton, exists_eq_left, false_or]
  cases found : translate cpu.segmentMaxSize args.segmentTable logicalAddress size with
  | none => simp [refused found]
  | some physicalAddress => simp [goes physicalAddress found]

theorem instructionSet_ends (calm : cpu.Calm) (named : decoded[0]? = some "SET")
    (executed : instructionSet decoded cpu = some cpu') :
    cpu'.shouldExit = true ↔ Ends decoded cpu args := by
  refine ends_of_nothing calm (by simp [named]) (by simp [logicalRanges, named]) ?_
  obtain ⟨name, first, executed⟩ := Option.bind_eq_some_iff.mp executed
  split at executed
  · obtain ⟨value, second, rfl⟩ := Option.map_eq_some_iff.mp executed
    rfl
  · cases executed
    rfl

theorem instructionJnz_ends (calm : cpu.Calm) (named : decoded[0]? = some "JNZ")
    (executed : instructionJnz decoded cpu = some cpu') :
    cpu'.shouldExit = true ↔ Ends decoded cpu args := by
  refine ends_of_nothing calm (by simp [named]) (by simp [logicalRanges, named]) ?_
  obtain ⟨name, first, executed⟩ := Option.bind_eq_some_iff.mp executed
  split at executed
  · obtain ⟨target, second, rfl⟩ := Option.map_eq_some_iff.mp executed
    split
    · rfl
    · split <;> rfl
  · cases executed
    rfl

theorem instructionArithmetic_shouldExit {f : UInt32 → UInt32 → UInt32}
    (executed : instructionArithmetic decoded cpu f = some cpu') :
    cpu'.shouldExit = cpu.shouldExit := by
  obtain ⟨name, first, executed⟩ := Option.bind_eq_some_iff.mp executed
  split at executed
  · obtain ⟨right, second, rfl⟩ := Option.map_eq_some_iff.mp executed
    split <;> rfl
  · cases executed
    rfl

theorem instructionMovIn_ends (calm : cpu.Calm) (named : decoded[0]? = some "MOV_IN")
    (executed : instructionMovIn decoded cpu args = some cpu') :
    cpu'.shouldExit = true ↔ Ends decoded cpu args := by
  obtain ⟨name, first, rfl⟩ := Option.map_eq_some_iff.mp executed
  cases found : getRegisterDescriptor name with
  | none =>
      have asked : logicalRanges decoded cpu = [] := by simp [logicalRanges, named, first, found]
      exact ends_of_nothing calm (by simp [named]) asked rfl
  | some register =>
      have other : decoded[0]? ≠ some "EXIT" := by simp [named]
      have asked : logicalRanges decoded cpu = [(cpu.context.si, register.fieldSize)] := by
        simp [logicalRanges, named, first, found]
      refine ends_of_translated other asked
        (fun refused => by simp [mmuTranslate_of_none refused]) fun physicalAddress translated => ?_
      simp only [mmuTranslate_of_some translated, calm.shouldExit]
      cases reading : cpu.memoryRead physicalAddress register.fieldSize with
      | mk data cpu₁ =>
          have same : cpu₁.shouldExit = false :=
            (congrArg (fun p => p.2.shouldExit) reading.symm).trans calm.shouldExit
          cases data with
          | none => exact same
          | some data => exact same

theorem instructionMovOut_ends (calm : cpu.Calm) (named : decoded[0]? = some "MOV_OUT")
    (executed : instructionMovOut decoded cpu args = some cpu') :
    cpu'.shouldExit = true ↔ Ends decoded cpu args := by
  obtain ⟨name, first, rfl⟩ := Option.map_eq_some_iff.mp executed
  cases found : getRegisterDescriptor name with
  | none =>
      have asked : logicalRanges decoded cpu = [] := by simp [logicalRanges, named, first, found]
      exact ends_of_nothing calm (by simp [named]) asked rfl
  | some register =>
      have other : decoded[0]? ≠ some "EXIT" := by simp [named]
      have asked : logicalRanges decoded cpu = [(cpu.context.di, register.fieldSize)] := by
        simp [logicalRanges, named, first, found]
      refine ends_of_translated other asked
        (fun refused => by simp [mmuTranslate_of_none refused]) fun physicalAddress translated => ?_
      simp [mmuTranslate_of_some translated, calm.shouldExit, Execution.memoryWrite]

theorem instructionCopyMem_ends (calm : cpu.Calm) (named : decoded[0]? = some "COPY_MEM")
    (executed : instructionCopyMem decoded cpu args = some cpu') :
    cpu'.shouldExit = true ↔ Ends decoded cpu args := by
  obtain ⟨name, first, rfl⟩ := Option.map_eq_some_iff.mp executed
  cases register : checkIfRegister name with
  | false =>
      exact ends_of_nothing calm (by simp [named])
        (by simp [logicalRanges, named, first, register, Option.filter]) rfl
  | true =>
      have asked : logicalRanges decoded cpu =
          [(cpu.context.si, readRegisterValue cpu.context name),
            (cpu.context.di, readRegisterValue cpu.context name)] := by
        simp [logicalRanges, named, first, register, Option.filter]
      simp only [Ends, named, asked]
      cases source : translate cpu.segmentMaxSize args.segmentTable cpu.context.si
          (readRegisterValue cpu.context name) with
      | none => simp [mmuTranslate_of_none source, source]
      | some physicalSrc =>
          cases destination : translate cpu.segmentMaxSize args.segmentTable cpu.context.di
              (readRegisterValue cpu.context name) with
          | none =>
              simp [mmuTranslate_of_some source, mmuTranslate_of_none destination,
                calm.shouldExit, destination]
          | some physicalDst =>
              simp only [mmuTranslate_of_some source, mmuTranslate_of_some destination,
                calm.shouldExit]
              cases reading : cpu.memoryRead physicalSrc (readRegisterValue cpu.context name) with
              | mk data cpu₁ =>
                  have same : cpu₁.shouldExit = false :=
                    (congrArg (fun p => p.2.shouldExit) reading.symm).trans calm.shouldExit
                  cases data with
                  | none => simp [same, source, destination]
                  | some data => simp [Execution.memoryWrite, same, source, destination]

theorem instructionIo_ends (calm : cpu.Calm) {syscall : UInt32 → UInt32 → UInt32 → Syscall}
    (named : decoded[0]? = some "STDOUT" ∨ decoded[0]? = some "STDIN")
    (executed : instructionIo decoded cpu args syscall = some cpu') :
    cpu'.shouldExit = true ↔ Ends decoded cpu args := by
  have other : decoded[0]? ≠ some "EXIT" := by rcases named with named | named <;> simp [named]
  have asked : logicalRanges decoded cpu =
      (decoded[1]?.filter checkIfRegister).toList.flatMap fun addressName =>
        (decoded[2]?.filter checkIfRegister).toList.map fun sizeName =>
          (readRegisterValue cpu.context addressName, readRegisterValue cpu.context sizeName) := by
    rcases named with named | named <;> simp [logicalRanges, named]
  obtain ⟨addressName, first, executed⟩ := Option.bind_eq_some_iff.mp executed
  cases address : checkIfRegister addressName with
  | false =>
      rw [address] at executed
      cases executed
      exact ends_of_nothing calm other (by simp [asked, first, address, Option.filter]) rfl
  | true =>
      rw [if_pos address] at executed
      obtain ⟨sizeName, second, rfl⟩ := Option.map_eq_some_iff.mp executed
      cases sized : checkIfRegister sizeName with
      | false =>
          exact ends_of_nothing calm other
            (by simp [asked, first, second, sized, Option.filter]) rfl
      | true =>
          have range : logicalRanges decoded cpu =
              [(readRegisterValue cpu.context addressName,
                readRegisterValue cpu.context sizeName)] := by
            simp [asked, first, second, address, sized, Option.filter]
          refine ends_of_translated other range
            (fun refused => by simp [mmuTranslate_of_none refused])
            fun physicalAddress translated => ?_
          simp [mmuTranslate_of_some translated, calm.shouldExit, Execution.stopFor]

/-- **Which instructions end their process.** -/
theorem executeInstruction_ends (calm : cpu.Calm)
    (executed : executeInstruction decoded cpu args = some cpu') :
    cpu'.shouldExit = true ↔ Ends decoded cpu args := by
  have plain : ∀ mnemonic, decoded[0]? = some mnemonic → mnemonic ≠ "EXIT" →
      logicalRanges decoded cpu = [] → cpu'.shouldExit = cpu.shouldExit →
      (cpu'.shouldExit = true ↔ Ends decoded cpu args) := by
    intro mnemonic named other nothing same
    exact ends_of_nothing calm (by simpa [named] using other) nothing same
  obtain ⟨mnemonic, named, executed⟩ := Option.bind_eq_some_iff.mp executed
  split at executed
  · cases executed
    exact plain _ named (by simp) (by simp [logicalRanges, named]) rfl
  · exact instructionSet_ends calm named executed
  · exact instructionMovIn_ends calm named executed
  · exact instructionMovOut_ends calm named executed
  · exact plain _ named (by simp) (by simp [logicalRanges, named])
      (instructionArithmetic_shouldExit executed)
  · exact plain _ named (by simp) (by simp [logicalRanges, named])
      (instructionArithmetic_shouldExit executed)
  · exact instructionJnz_ends calm named executed
  · exact instructionCopyMem_ends calm named executed
  · obtain ⟨name, -, rfl⟩ := Option.map_eq_some_iff.mp executed
    exact plain _ named (by simp) (by simp [logicalRanges, named]) rfl
  · obtain ⟨name, -, rfl⟩ := Option.map_eq_some_iff.mp executed
    exact plain _ named (by simp) (by simp [logicalRanges, named]) rfl
  · obtain ⟨name, -, rfl⟩ := Option.map_eq_some_iff.mp executed
    exact plain _ named (by simp) (by simp [logicalRanges, named]) rfl
  · obtain ⟨segmentId, -, executed⟩ := Option.bind_eq_some_iff.mp executed
    obtain ⟨size, -, rfl⟩ := Option.map_eq_some_iff.mp executed
    exact plain _ named (by simp) (by simp [logicalRanges, named]) rfl
  · obtain ⟨address, -, rfl⟩ := Option.map_eq_some_iff.mp executed
    exact plain _ named (by simp) (by simp [logicalRanges, named]) rfl
  · obtain ⟨time, -, rfl⟩ := Option.map_eq_some_iff.mp executed
    exact plain _ named (by simp) (by simp [logicalRanges, named]) rfl
  · exact instructionIo_ends calm (.inl named) executed
  · exact instructionIo_ends calm (.inr named) executed
  · obtain ⟨priority, -, executed⟩ := Option.bind_eq_some_iff.mp executed
    obtain ⟨path, -, rfl⟩ := Option.map_eq_some_iff.mp executed
    exact plain _ named (by simp) (by simp [logicalRanges, named]) rfl
  · cases executed
    simp [Ends, named]
  · rename_i unknown
    cases executed
    refine plain mnemonic named (by simpa using unknown) ?_ rfl
    unfold logicalRanges
    split <;> simp_all

end OsModel.Cpu
