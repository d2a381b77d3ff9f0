import OsModel.Cpu.Instructions

/-!
Memory isolation: what an instruction touches.

Every range an instruction reads, writes or names in an IO request comes out of
the MMU (`executeInstruction_touches`). `isolated_iff` puts this together with
`mmuCorrect_iff`; `isolation_lost` is a program that reaches over its segment.
-/

namespace OsModel.Cpu

open Lib KernelMemory

/-- The instruction touches these ranges, each translated by the MMU, and changes
no byte of the sticks outside them. -/
structure Touches (args : ExecutionArgs) (cpu cpu' : Execution) (new : List Access) : Prop where
  steady : cpu'.segmentMaxSize = cpu.segmentMaxSize
  touched : cpu'.touched = cpu.touched ++ new
  translated : ∀ a ∈ new, ∃ logicalAddress,
    translate cpu.segmentMaxSize args.segmentTable logicalAddress a.size = some a.physicalAddress
  total : stickTotal cpu.devices.listMemoryStick < 2 ^ 32 →
    stickTotal cpu'.devices.listMemoryStick = stickTotal cpu.devices.listMemoryStick
  frame : stickTotal cpu.devices.listMemoryStick < 2 ^ 32 → ∀ j : Nat,
    (∀ a ∈ new, j < a.physicalAddress.toNat ∨ a.physicalAddress.toNat + a.size.toNat ≤ j) →
      (flat cpu'.devices.listMemoryStick)[j]? = (flat cpu.devices.listMemoryStick)[j]?

section Touches

variable {args : ExecutionArgs} {cpu cpu' cpu'' : Execution} {new later : List Access}
  {logicalAddress physicalAddress size : UInt32}

/-- What leaves the sticks alone. -/
theorem Touches.none (steady : cpu'.segmentMaxSize = cpu.segmentMaxSize)
    (touched : cpu'.touched = cpu.touched) (devices : cpu'.devices = cpu.devices) :
    Touches args cpu cpu' [] :=
  ⟨steady, by simp [touched], by simp, fun _ => by rw [devices], fun _ j _ => by rw [devices]⟩

theorem Touches.trans (h : Touches args cpu cpu' new) (h' : Touches args cpu' cpu'' later) :
    Touches args cpu cpu'' (new ++ later) := by
  refine ⟨h'.steady.trans h.steady, ?_, fun a mem => ?_, fun fits => ?_, fun fits j out => ?_⟩
  · rw [h'.touched, h.touched, List.append_assoc]
  · rcases List.mem_append.mp mem with mem | mem
    · exact h.translated a mem
    · exact h.steady ▸ h'.translated a mem
  · exact (h'.total (h.total fits ▸ fits)).trans (h.total fits)
  · rw [h'.frame (h.total fits ▸ fits) j fun a mem => out a (List.mem_append_right _ mem)]
    exact h.frame fits j fun a mem => out a (List.mem_append_left _ mem)

/-- The MMU translates and changes nothing, or it makes the process exit. -/
theorem mmuTranslate_cases (cpu : Execution) (args : ExecutionArgs)
    (logicalAddress size : UInt32) :
    (∃ physicalAddress,
      translate cpu.segmentMaxSize args.segmentTable logicalAddress size = some physicalAddress ∧
        cpu.mmuTranslate args logicalAddress size = (physicalAddress, cpu)) ∨
      ∃ cpu', cpu.mmuTranslate args logicalAddress size = (0, cpu') ∧ cpu'.shouldExit = true ∧
        Touches args cpu cpu' [] := by
  unfold Execution.mmuTranslate
  cases translate cpu.segmentMaxSize args.segmentTable logicalAddress size with
  | some physicalAddress => exact .inl ⟨physicalAddress, rfl, rfl⟩
  | none => exact .inr ⟨_, rfl, rfl, .none rfl rfl rfl⟩

theorem memoryRead_sticks (cpu : Execution) (physicalAddress size : UInt32) :
    (cpu.memoryRead physicalAddress size).2.devices.listMemoryStick =
      cpu.devices.listMemoryStick := by
  simp only [Execution.memoryRead, memoryRead_snd]

theorem memoryRead_touches
    (translated : translate cpu.segmentMaxSize args.segmentTable logicalAddress size =
      some physicalAddress) :
    Touches args cpu (cpu.memoryRead physicalAddress size).2 [⟨physicalAddress, size⟩] := by
  have same := memoryRead_sticks cpu physicalAddress size
  exact ⟨rfl, rfl, List.forall_mem_singleton.mpr ⟨logicalAddress, translated⟩,
    fun _ => by rw [same], fun _ j _ => by rw [same]⟩

theorem memoryWrite_touches {data : List UInt8}
    (exact_size : stickTotal cpu.devices.listMemoryStick < 2 ^ 32 → data.length = size.toNat)
    (translated : translate cpu.segmentMaxSize args.segmentTable logicalAddress size =
      some physicalAddress) :
    Touches args cpu (cpu.memoryWrite physicalAddress data size).2 [⟨physicalAddress, size⟩] := by
  refine ⟨rfl, rfl, List.forall_mem_singleton.mpr ⟨logicalAddress, translated⟩, fun fits => ?_,
    fun fits j out => ?_⟩
  · exact (memoryWrite_spec cpu.devices physicalAddress fits (exact_size fits)).1.stickTotal_eq
  · have wrote := (memoryWrite_spec cpu.devices physicalAddress fits (exact_size fits)).1
    exact wrote.bytes.agree j (out _ (List.mem_singleton_self _))

/-- The data of a read has the size asked for. -/
theorem memoryRead_length {data : List UInt8}
    (fits : stickTotal cpu.devices.listMemoryStick < 2 ^ 32)
    (answered : (cpu.memoryRead physicalAddress size).1 = some data) :
    data.length = size.toNat := by
  obtain ⟨eq, inside⟩ := (memoryRead_spec cpu.devices physicalAddress size fits).1 data answered
  rw [eq]
  by_cases empty : size = 0
  · simp [empty]
  · refine length_slice ?_
    rw [length_flat]
    exact inside (UInt32.pos_iff_ne_zero.mpr empty)

end Touches

/-! ### Every instruction -/

section Instructions

variable {decoded : List String} {args : ExecutionArgs} {cpu cpu' : Execution}

theorem instructionSet_touches (executed : instructionSet decoded cpu = some cpu') :
    Touches args cpu cpu' [] := by
  obtain ⟨name, -, executed⟩ := Option.bind_eq_some_iff.mp executed
  split at executed
  · obtain ⟨value, -, rfl⟩ := Option.map_eq_some_iff.mp executed
    exact .none rfl rfl rfl
  · cases executed
    exact .none rfl rfl rfl

theorem instructionMovIn_touches (executed : instructionMovIn decoded cpu args = some cpu') :
    ∃ new, Touches args cpu cpu' new := by
  obtain ⟨name, -, rfl⟩ := Option.map_eq_some_iff.mp executed
  split
  · exact ⟨[], .none rfl rfl rfl⟩
  · rename_i register _
    rcases mmuTranslate_cases cpu args cpu.context.si register.fieldSize with
      ⟨physicalAddress, translated, eq⟩ | ⟨faulted, eq, exits, touches⟩
    · simp only [eq]
      split
      · exact ⟨[], .none rfl rfl rfl⟩
      · have touches := memoryRead_touches translated
        split
        · rename_i read
          rw [read] at touches
          exact ⟨_, touches⟩
        · rename_i read
          rw [read] at touches
          exact ⟨_, touches.trans (.none rfl rfl rfl)⟩
    · simp only [eq, if_pos exits]
      exact ⟨[], touches⟩

theorem instructionMovOut_touches (executed : instructionMovOut decoded cpu args = some cpu') :
    ∃ new, Touches args cpu cpu' new := by
  obtain ⟨name, -, rfl⟩ := Option.map_eq_some_iff.mp executed
  split
  · exact ⟨[], .none rfl rfl rfl⟩
  · rename_i register _
    rcases mmuTranslate_cases cpu args cpu.context.di register.fieldSize with
      ⟨physicalAddress, translated, eq⟩ | ⟨faulted, eq, exits, touches⟩
    · simp only [eq]
      split
      · exact ⟨[], .none rfl rfl rfl⟩
      · refine ⟨_, memoryWrite_touches (fun _ => ?_) translated⟩
        cases register <;> rfl
    · simp only [eq, if_pos exits]
      exact ⟨[], touches⟩

theorem instructionArithmetic_touches {f : UInt32 → UInt32 → UInt32}
    (executed : instructionArithmetic decoded cpu f = some cpu') : Touches args cpu cpu' [] := by
  obtain ⟨left, -, executed⟩ := Option.bind_eq_some_iff.mp executed
  split at executed
  · obtain ⟨right, -, rfl⟩ := Option.map_eq_some_iff.mp executed
    split <;> exact .none rfl rfl rfl
  · cases executed
    exact .none rfl rfl rfl

theorem instructionJnz_touches (executed : instructionJnz decoded cpu = some cpu') :
    Touches args cpu cpu' [] := by
  obtain ⟨name, -, executed⟩ := Option.bind_eq_some_iff.mp executed
  split at executed
  · obtain ⟨target, -, rfl⟩ := Option.map_eq_some_iff.mp executed
    split
    · exact .none rfl rfl rfl
    · split <;> exact .none rfl rfl rfl
  · cases executed
    exact .none rfl rfl rfl

theorem instructionCopyMem_touches (executed : instructionCopyMem decoded cpu args = some cpu') :
    ∃ new, Touches args cpu cpu' new := by
  obtain ⟨name, -, rfl⟩ := Option.map_eq_some_iff.mp executed
  split
  · simp only
    rcases mmuTranslate_cases cpu args cpu.context.si (readRegisterValue cpu.context name) with
      ⟨physicalSrc, source, eq⟩ | ⟨faulted, eq, exits, touches⟩
    · simp only [eq]
      split
      · exact ⟨[], .none rfl rfl rfl⟩
      · rcases mmuTranslate_cases cpu args cpu.context.di (readRegisterValue cpu.context name) with
          ⟨physicalDst, destination, eq'⟩ | ⟨faulted, eq', exits, touches⟩
        · simp only [eq']
          split
          · exact ⟨[], .none rfl rfl rfl⟩
          · have touches := memoryRead_touches source
            split
            · rename_i read
              rw [read] at touches
              exact ⟨_, touches⟩
            · rename_i data after read
              have same := memoryRead_sticks cpu physicalSrc (readRegisterValue cpu.context name)
              rw [read] at touches same
              refine ⟨_, touches.trans (memoryWrite_touches (fun fits => ?_)
                (touches.steady.symm ▸ destination))⟩
              exact memoryRead_length (same ▸ fits) (congrArg Prod.fst read)
        · simp only [eq', if_pos exits]
          exact ⟨[], touches⟩
    · simp only [eq, if_pos exits]
      exact ⟨[], touches⟩
  · exact ⟨[], .none rfl rfl rfl⟩

theorem instructionIo_touches {syscall : UInt32 → UInt32 → UInt32 → Syscall}
    (executed : instructionIo decoded cpu args syscall = some cpu') :
    ∃ new, Touches args cpu cpu' new := by
  obtain ⟨addressName, -, executed⟩ := Option.bind_eq_some_iff.mp executed
  split at executed
  · obtain ⟨sizeName, -, rfl⟩ := Option.map_eq_some_iff.mp executed
    split
    · simp only
      rcases mmuTranslate_cases cpu args (readRegisterValue cpu.context addressName)
        (readRegisterValue cpu.context sizeName) with
        ⟨physicalAddress, translated, eq⟩ | ⟨faulted, eq, exits, touches⟩
      · simp only [eq]
        split
        · exact ⟨[], .none rfl rfl rfl⟩
        · exact ⟨[⟨physicalAddress, _⟩], rfl, rfl,
            List.forall_mem_singleton.mpr ⟨_, translated⟩, fun _ => rfl, fun _ _ _ => rfl⟩
      · simp only [eq, if_pos exits]
        exact ⟨[], touches⟩
    · exact ⟨[], .none rfl rfl rfl⟩
  · cases executed
    exact ⟨[], .none rfl rfl rfl⟩

/-- Every range that an instruction touches comes out of the MMU. -/
theorem executeInstruction_touches (executed : executeInstruction decoded cpu args = some cpu') :
    ∃ new, Touches args cpu cpu' new := by
  obtain ⟨mnemonic, -, executed⟩ := Option.bind_eq_some_iff.mp executed
  split at executed
  · cases executed
    exact ⟨[], .none rfl rfl rfl⟩
  · exact ⟨[], instructionSet_touches executed⟩
  · exact instructionMovIn_touches executed
  · exact instructionMovOut_touches executed
  · exact ⟨[], instructionArithmetic_touches executed⟩
  · exact ⟨[], instructionArithmetic_touches executed⟩
  · exact ⟨[], instructionJnz_touches executed⟩
  · exact instructionCopyMem_touches executed
  · obtain ⟨name, -, rfl⟩ := Option.map_eq_some_iff.mp executed
    exact ⟨[], .none rfl rfl rfl⟩
  · obtain ⟨name, -, rfl⟩ := Option.map_eq_some_iff.mp executed
    exact ⟨[], .none rfl rfl rfl⟩
  · obtain ⟨name, -, rfl⟩ := Option.map_eq_some_iff.mp executed
    exact ⟨[], .none rfl rfl rfl⟩
  · obtain ⟨segmentId, -, executed⟩ := Option.bind_eq_some_iff.mp executed
    obtain ⟨size, -, rfl⟩ := Option.map_eq_some_iff.mp executed
    exact ⟨[], .none rfl rfl rfl⟩
  · obtain ⟨address, -, rfl⟩ := Option.map_eq_some_iff.mp executed
    exact ⟨[], .none rfl rfl rfl⟩
  · obtain ⟨time, -, rfl⟩ := Option.map_eq_some_iff.mp executed
    exact ⟨[], .none rfl rfl rfl⟩
  · exact instructionIo_touches executed
  · exact instructionIo_touches executed
  · obtain ⟨priority, -, executed⟩ := Option.bind_eq_some_iff.mp executed
    obtain ⟨path, -, rfl⟩ := Option.map_eq_some_iff.mp executed
    exact ⟨[], .none rfl rfl rfl⟩
  · cases executed
    exact ⟨[], .none rfl rfl rfl⟩
  · cases executed
    exact ⟨[], .none rfl rfl rfl⟩

end Instructions

/-- **Memory isolation**: the MMU is right about an address and a size, and a
range that an instruction touches is the process's own, exactly when the sum of
the bound check does not wrap into the segment. -/
theorem isolated_iff (segmentMaxSize : UInt32) (args : ExecutionArgs)
    (distinct : (args.segmentTable.map Segment.segmentId).Nodup) :
    (∀ logicalAddress size,
      MmuCorrect segmentMaxSize args.segmentTable logicalAddress size ↔
        ¬ Wraps segmentMaxSize args.segmentTable logicalAddress size) ∧
    ∀ decoded cpu cpu', cpu.segmentMaxSize = segmentMaxSize →
      executeInstruction decoded cpu args = some cpu' →
      ∃ new, Touches args cpu cpu' new ∧ ∀ a ∈ new, ∃ logicalAddress,
        translate segmentMaxSize args.segmentTable logicalAddress a.size =
            some a.physicalAddress ∧
          (Owns segmentMaxSize args.segmentTable logicalAddress a.size a.physicalAddress ↔
            ¬ Wraps segmentMaxSize args.segmentTable logicalAddress a.size) := by
  refine ⟨fun logicalAddress size => mmuCorrect_iff distinct, ?_⟩
  rintro decoded cpu cpu' rfl executed
  obtain ⟨new, touches⟩ := executeInstruction_touches executed
  refine ⟨new, touches, fun a mem => ?_⟩
  obtain ⟨logicalAddress, translated⟩ := touches.translated a mem
  exact ⟨logicalAddress, translated, owns_iff distinct translated⟩

/-- A CPU about to run the first instruction of a process that owns the lower
half of a memory of 32 bytes. -/
private def atStart : Execution :=
  ⟨16, { CpuContext.zero with eax := 0xFFFFFFFF, si := 1 }, false, false, false, .ioRequest,
    ⟨[], fun _ _ => 0, [], fun _ => 0⟩, [], [], []⟩

private def lowerHalf : ExecutionArgs := ⟨1, [⟨0, 0, 16⟩]⟩

/-- Fifteen bytes from address one on end with the segment. -/
theorem isolated_of_fit : MmuCorrect 16 lowerHalf.segmentTable 1 15 :=
  ((isolated_iff 16 lowerHalf (by decide)).1 1 15).mpr (by decide)

/-- All but one byte of the address space, from address one on: the bound check
lets it pass, and `STDOUT` names a range that ends far outside the segment. -/
theorem isolation_lost :
    ¬ MmuCorrect 16 lowerHalf.segmentTable 1 0xFFFFFFFF ∧
    (executeInstruction ["STDOUT", "SI", "EAX"] atStart lowerHalf).map Execution.touched =
      some [⟨1, 0xFFFFFFFF⟩] ∧
    ¬ Owns 16 lowerHalf.segmentTable 1 0xFFFFFFFF 1 := by
  have distinct : (lowerHalf.segmentTable.map Segment.segmentId).Nodup := by decide
  have translated : translate 16 lowerHalf.segmentTable 1 0xFFFFFFFF = some 1 := by decide
  have wraps : Wraps 16 lowerHalf.segmentTable 1 0xFFFFFFFF := by decide
  refine ⟨fun correct => (mmuCorrect_iff distinct).mp correct wraps, by decide +kernel,
    fun owns => ?_⟩
  exact (owns_iff distinct translated).mp owns wraps

end OsModel.Cpu
