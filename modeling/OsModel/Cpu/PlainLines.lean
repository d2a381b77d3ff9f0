import OsModel.Cpu.InstructionFlow
import OsModel.Cpu.MalformedLines

/-!
The lines that neither jump nor use memory (`execute_instruction` in
`cpu/src/manage_instructions.c`).

What such a line does is known from its words: the register that it writes (`effect`), and what
it asks the Kernel Scheduler for (`calls`). The segment table and the sticks have no part in it.

* `Plain.executed`: every plain line does this, and nothing else.
-/

namespace OsModel.Cpu

open Threads

/-! ### What a line does -/

/-- The registers that `SET`, `SUM` and `SUB` leave. -/
def assigned (decoded : List String) (context : CpuContext) : CpuContext :=
  match decoded with
  | "SET" :: name :: value :: _ =>
      writeRegisterValue context name (uint32OfInt (atoi value))
  | "SUM" :: left :: right :: _ =>
      if checkIfRegister right then
        writeRegisterValue context left
          (readRegisterValue context left + readRegisterValue context right)
      else context
  | "SUB" :: left :: right :: _ =>
      if checkIfRegister right then
        writeRegisterValue context left
          (readRegisterValue context left - readRegisterValue context right)
      else context
  | _ => context

/-- The registers after a line, and the program counter at the next one. -/
def effect (decoded : List String) (context : CpuContext) : CpuContext :=
  { assigned decoded context with pc := context.pc + 1 }

/-- What a line asks the Kernel Scheduler for. -/
def calls (pid : UInt32) (decoded : List String) : List Syscall :=
  match decoded with
  | "MUTEX_CREATE" :: name :: _ => [.mutexCreate pid name]
  | "MUTEX_LOCK" :: name :: _ => [.mutexLock pid name]
  | "MUTEX_UNLOCK" :: name :: _ => [.mutexUnlock pid name]
  | "MEM_ALLOC" :: segmentId :: size :: _ =>
      [.memAlloc pid (uint32OfInt (atoi segmentId)) (uint32OfInt (atoi size))]
  | "MEM_FREE" :: address :: _ => [.memFree pid (uint32OfInt (atoi address))]
  | "SLEEP" :: time :: _ => [.sleep pid (uint32OfInt (atoi time))]
  | "INIT_PROC" :: path :: priority :: _ =>
      [.processCreate pid (uint32OfInt (atoi priority)) path]
  | "EXIT" :: _ => [.processEnd pid]
  | _ => []

instance : (kinds : List Operand) → (words : List String) → Decidable (Reached kinds words)
  | [], _ => .isTrue trivial
  | _ :: _, [] => .isFalse id
  | .register :: kinds, word :: words =>
      have := instDecidableReached kinds words
      inferInstanceAs (Decidable (checkIfRegister word = true → Reached kinds words))
  | .text :: kinds, _ :: words => instDecidableReached kinds words

instance : (decoded : List String) → Decidable (Complete decoded)
  | [] => .isFalse id
  | mnemonic :: words =>
      inferInstanceAs (Decidable (∀ kinds ∈ operandsOf mnemonic, Reached kinds words))

/-- The instructions that may end the process, or use memory. -/
def Involved (decoded : List String) : Prop :=
  ∃ mnemonic ∈ ["EXIT", "MOV_IN", "MOV_OUT", "COPY_MEM", "STDOUT", "STDIN"],
    decoded[0]? = some mnemonic

/-- A line that has its operands, does not jump, does not end the process and does not use
memory. -/
structure Plain (decoded : List String) : Prop where
  complete : Complete decoded
  stays : ¬ MayJump decoded
  apart : ¬ Involved decoded

instance (decoded : List String) : Decidable (Involved decoded) := by
  unfold Involved
  infer_instance

instance (decoded : List String) : Decidable (Plain decoded) :=
  decidable_of_iff (Complete decoded ∧ ¬ MayJump decoded ∧ ¬ Involved decoded)
    ⟨fun ⟨complete, stays, apart⟩ => ⟨complete, stays, apart⟩,
      fun plain => ⟨plain.complete, plain.stays, plain.apart⟩⟩

/-! ### Every plain line does it -/

variable {decoded words : List String} {args : ExecutionArgs} {cpu cpu' : Execution}

/-- What is seen of a line: the registers, and the syscalls. -/
structure Follows (decoded : List String) (args : ExecutionArgs) (cpu cpu' : Execution) : Prop where
  context : (advance cpu').context = effect decoded cpu.context
  shouldExit : cpu'.shouldExit = false
  syscalls : cpu'.syscalls = cpu.syscalls ++ calls args.pid decoded

/-- A line that does nothing. -/
theorem Follows.nothing (calm : cpu.Calm) (same : assigned decoded cpu.context = cpu.context)
    (silent : calls args.pid decoded = []) : Follows decoded args cpu cpu where
  context := by simp [advance, calm.hasJumped, effect, same]
  shouldExit := calm.shouldExit
  syscalls := by rw [silent, List.append_nil]

/-- A line that writes to a register, which is not `PC`. -/
theorem Follows.assign (calm : cpu.Calm) {name : String} (other : name.toLower ≠ "pc")
    {value : UInt32}
    (written : assigned decoded cpu.context = writeRegisterValue cpu.context name value)
    (silent : calls args.pid decoded = []) :
    Follows decoded args cpu (cpu.assign name value) where
  context := by
    simp [advance, Execution.assign, calm.hasJumped, other, effect, written,
      writeRegisterValue_pc other]
  shouldExit := calm.shouldExit
  syscalls := by
    rw [silent, List.append_nil]
    rfl

/-- A syscall for which the process stops. -/
theorem Follows.stopFor (calm : cpu.Calm) {reason : InterruptReason} {syscall : Syscall}
    (same : assigned decoded cpu.context = cpu.context)
    (asked : calls args.pid decoded = [syscall]) :
    Follows decoded args cpu (cpu.stopFor args reason syscall) where
  context := by
    rw [effect, same]
    rfl
  shouldExit := calm.shouldExit
  syscalls := by
    rw [asked]
    rfl

theorem writeRegisterValue_of_not_register {name : String} (no : checkIfRegister name = false)
    (context : CpuContext) (value : UInt32) : writeRegisterValue context name value = context := by
  rw [writeRegisterValue, getRegisterDescriptor_eq_none no]

theorem instructionSet_follows (calm : cpu.Calm) (stays : ¬ MayJump ("SET" :: words))
    (executed : instructionSet ("SET" :: words) cpu = some cpu') :
    Follows ("SET" :: words) args cpu cpu' := by
  obtain ⟨name, first, executed⟩ := Option.bind_eq_some_iff.mp executed
  cases words with
  | nil => cases first
  | cons name' rest =>
      obtain rfl : name' = name := Option.some.inj first
      split at executed
      · obtain ⟨value, second, rfl⟩ := Option.map_eq_some_iff.mp executed
        cases rest with
        | nil => cases second
        | cons value' rest =>
            obtain rfl : value' = value := Option.some.inj second
            have other : name'.toLower ≠ "pc" := fun pc => stays (.inr ⟨by simp, by simp [pc]⟩)
            exact .assign calm other rfl rfl
      · rename_i no
        obtain rfl := Option.some.inj executed
        refine .nothing calm ?_ rfl
        cases rest with
        | nil => rfl
        | cons value rest =>
            exact writeRegisterValue_of_not_register (Bool.eq_false_of_not_eq_true no) _ _

/-- `SUM` and `SUB`; what they assign is the same but for the operation. -/
theorem instructionArithmetic_follows {mnemonic : String} {f : UInt32 → UInt32 → UInt32}
    (calm : cpu.Calm)
    (stays : ∀ left, left.toLower = "pc" → words[0]? = some left → False)
    (assigns : ∀ left right rest context, assigned (mnemonic :: left :: right :: rest) context =
      if checkIfRegister right then
        writeRegisterValue context left
          (f (readRegisterValue context left) (readRegisterValue context right))
      else context)
    (alone : ∀ left context, assigned [mnemonic, left] context = context)
    (silent : ∀ pid, calls pid (mnemonic :: words) = [])
    (executed : instructionArithmetic (mnemonic :: words) cpu f = some cpu') :
    Follows (mnemonic :: words) args cpu cpu' := by
  obtain ⟨left, first, executed⟩ := Option.bind_eq_some_iff.mp executed
  cases words with
  | nil => cases first
  | cons left' rest =>
      obtain rfl : left' = left := Option.some.inj first
      have other : left'.toLower ≠ "pc" := fun pc => stays left' pc rfl
      split at executed
      · obtain ⟨right, second, rfl⟩ := Option.map_eq_some_iff.mp executed
        cases rest with
        | nil => cases second
        | cons right' rest =>
            obtain rfl : right' = right := Option.some.inj second
            split
            · rename_i known
              exact .assign calm other ((assigns ..).trans (if_pos known)) (silent _)
            · rename_i unknown
              exact .nothing calm ((assigns ..).trans (if_neg unknown)) (silent _)
      · rename_i no
        obtain rfl := Option.some.inj executed
        refine .nothing calm ?_ (silent _)
        cases rest with
        | nil => exact alone left' _
        | cons right rest =>
            rw [assigns]
            split
            · exact writeRegisterValue_of_not_register (Bool.eq_false_of_not_eq_true no) _ _
            · rfl

theorem exists_of_two {first second : String} (at_first : words[0]? = some first)
    (at_second : words[1]? = some second) : ∃ rest, words = first :: second :: rest := by
  cases words with
  | nil => cases at_first
  | cons word words =>
      cases words with
      | nil => cases at_second
      | cons word' rest =>
          obtain rfl : word = first := Option.some.inj at_first
          obtain rfl : word' = second := Option.some.inj at_second
          exact ⟨rest, rfl⟩

/-- What a plain line does, when it is executed. -/
theorem Plain.follows (plain : Plain decoded) (calm : cpu.Calm)
    (executed : executeInstruction decoded cpu args = some cpu') :
    Follows decoded args cpu cpu' := by
  obtain ⟨complete, stays, apart⟩ := plain
  cases decoded with
  | nil => exact complete.elim
  | cons mnemonic words =>
      simp only [executeInstruction, List.getElem?_cons_zero, Option.bind_some] at executed
      split at executed
      case h_1 =>
        obtain rfl := Option.some.inj executed
        exact .nothing calm rfl rfl
      case h_2 => exact instructionSet_follows calm stays executed
      case h_5 | h_6 =>
        refine instructionArithmetic_follows calm (fun left pc first => stays (.inr ?_))
          (fun left right rest context => rfl) (fun left context => rfl) (fun pid => rfl) executed
        exact ⟨by simp, by simpa [first] using pc⟩
      case h_7 => exact absurd (.inl rfl) stays
      case h_3 | h_4 | h_8 | h_15 | h_16 | h_18 => exact absurd (by simp [Involved]) apart
      case h_9 | h_10 | h_11 | h_13 | h_14 =>
        obtain ⟨name, first, rfl⟩ := Option.map_eq_some_iff.mp executed
        cases words with
        | nil => cases first
        | cons name' rest =>
            obtain rfl : name' = name := Option.some.inj first
            exact .stopFor calm rfl rfl
      case h_12 =>
        obtain ⟨segmentId, first, executed⟩ := Option.bind_eq_some_iff.mp executed
        obtain ⟨size, second, rfl⟩ := Option.map_eq_some_iff.mp executed
        obtain ⟨rest, rfl⟩ := exists_of_two first second
        exact .stopFor calm rfl rfl
      case h_17 =>
        obtain ⟨priority, second, executed⟩ := Option.bind_eq_some_iff.mp executed
        obtain ⟨path, first, rfl⟩ := Option.map_eq_some_iff.mp executed
        obtain ⟨rest, rfl⟩ := exists_of_two first second
        refine ⟨?_, calm.shouldExit, rfl⟩
        simp [advance, calm.hasJumped, effect, assigned]
      case h_19 =>
        obtain rfl := Option.some.inj executed
        rename_i others
        refine .nothing calm ?_ ?_
        · unfold assigned
          split <;> simp_all
        · unfold calls
          split <;> simp_all

/-- **Every plain line is executed**, and does what is known from its words. -/
theorem Plain.executed (plain : Plain decoded) (calm : cpu.Calm) (args : ExecutionArgs) :
    ∃ cpu', executeInstruction decoded cpu args = some cpu' ∧ Follows decoded args cpu cpu' := by
  have defined : (runInstruction decoded cpu args).isSome :=
    ((harmless_iff decoded).mpr plain.complete).defined cpu args
  rw [runInstruction, Option.isSome_map] at defined
  obtain ⟨cpu', executed⟩ := Option.isSome_iff_exists.mp defined
  exact ⟨cpu', executed, plain.follows calm executed⟩

end OsModel.Cpu
