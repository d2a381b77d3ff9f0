import OsModel.Cpu.Threads

/-!
Lines that are no instructions (`decode_instruction`, `execute_instruction` and the functions
that it calls, in `cpu/src/manage_instructions.c`).

Each instruction takes its operands from the array of words on its own, and checks those that
must be registers one after another, before it takes the next one or after it.

* `line_harmless_iff`: a line is harmless exactly when every operand that is reached is there.
* `operand_missing`: a line of two words, of which the CPU reads a third one.
-/

namespace OsModel.Cpu

/-! ### Well-formed lines -/

/-- What an instruction uses an operand as. -/
inductive Operand where
  | register
  | text
  deriving DecidableEq, Repr

/-- The operands that an instruction uses; `none` is `UNKNOWN`. -/
def operandsOf : String → Option (List Operand)
  | "NOOP" | "EXIT" => some []
  | "MOV_IN" | "MOV_OUT" | "COPY_MEM" => some [.register]
  | "MUTEX_CREATE" | "MUTEX_LOCK" | "MUTEX_UNLOCK" | "MEM_FREE" | "SLEEP" => some [.text]
  | "SET" | "JNZ" => some [.register, .text]
  | "SUM" | "SUB" | "STDOUT" | "STDIN" => some [.register, .register]
  | "MEM_ALLOC" | "INIT_PROC" => some [.text, .text]
  | _ => none

/-- The words are there, and are registers where they must be. -/
def Fit : List Operand → List String → Prop
  | [], _ => True
  | _ :: _, [] => False
  | .register :: kinds, word :: words => checkIfRegister word = true ∧ Fit kinds words
  | .text :: kinds, _ :: words => Fit kinds words

/-- The words are there as far as they are reached: up to the first that must be a register and
is not one. -/
def Reached : List Operand → List String → Prop
  | [], _ => True
  | _ :: _, [] => False
  | .register :: kinds, word :: words => checkIfRegister word = true → Reached kinds words
  | .text :: kinds, _ :: words => Reached kinds words

/-- The mnemonic of a line is known, and its operands are as the instruction uses them. -/
def WellFormed : List String → Prop
  | [] => False
  | mnemonic :: words => ∃ kinds ∈ operandsOf mnemonic, Fit kinds words

/-- The line has a word, and the operands that its instruction reaches. -/
def Complete : List String → Prop
  | [] => False
  | mnemonic :: words => ∀ kinds ∈ operandsOf mnemonic, Reached kinds words

/-- `decode_instruction`: the words between spaces. -/
def decodeInstruction (content : String) : List String :=
  ((content.toList.splitOn ' ').filter fun word => !word.isEmpty).map String.ofList

/-- An instruction is executed, and the program counter advanced. `none` is an operand that the
line does not have, read through a `NULL` pointer or behind the array. -/
def runInstruction (decoded : List String) (cpu : Execution) (args : ExecutionArgs) :
    Option Execution :=
  (executeInstruction decoded cpu args).map Threads.advance

/-- A line that is executed without operands that it does not have; if it is not well-formed,
the program counter goes on, and everything else is as it was: the registers, the sticks, and the
messages to Kernel Memory and to the scheduler. -/
structure Harmless (decoded : List String) : Prop where
  defined : ∀ cpu args, (runInstruction decoded cpu args).isSome
  unchanged : ¬ WellFormed decoded → ∀ cpu args, cpu.hasJumped = false →
    runInstruction decoded cpu args =
      some { cpu with context.pc := cpu.context.pc + 1 }

/-! ### Operands, one after another -/

section Operands

variable {mnemonic : String} {words : List String} {cpu : Execution} {kinds : List Operand}

/-- An instruction takes its operands as they are reached, and does nothing with those that are
not as it uses them. -/
def Takes (kinds : List Operand) (words : List String) (cpu : Execution)
    (result : Option Execution) : Prop :=
  (result.isSome ↔ Reached kinds words) ∧ (¬ Fit kinds words → ∀ cpu' ∈ result, cpu' = cpu)

theorem Takes.nothing (next : Execution) : Takes [] words cpu (some next) :=
  ⟨by simp [Reached], fun bad => absurd trivial bad⟩

theorem Takes.text (next : String → Execution) :
    Takes [.text] words cpu (words[0]?.map next) := by
  cases words with
  | nil => exact ⟨by simp [Reached], by simp⟩
  | cons first rest => exact ⟨by simp [Reached], fun bad => absurd trivial bad⟩

theorem Takes.register {next : String → Execution}
    (checked : ∀ first, checkIfRegister first = false → next first = cpu) :
    Takes [.register] words cpu (words[0]?.map next) := by
  cases words with
  | nil => exact ⟨by simp [Reached], by simp⟩
  | cons first rest =>
      refine ⟨by simp [Reached], fun bad cpu' executed => ?_⟩
      obtain rfl : next first = cpu' := Option.some.inj executed
      exact checked first (Bool.eq_false_of_not_eq_true fun register => bad ⟨register, trivial⟩)

theorem Takes.texts (next : String → String → Execution) :
    Takes [.text, .text] words cpu
      (words[0]?.bind fun first => words[1]?.map fun second => next first second) := by
  cases words with
  | nil => exact ⟨by simp [Reached], by simp⟩
  | cons first rest =>
      cases rest with
      | nil => exact ⟨by simp [Reached], by simp⟩
      | cons second rest => exact ⟨by simp [Reached], fun bad => absurd trivial bad⟩

/-- The first operand is checked before the second is taken. -/
theorem Takes.register_text (next : String → String → Execution) :
    Takes [.register, .text] words cpu
      (words[0]?.bind fun first =>
        if checkIfRegister first then words[1]?.map fun second => next first second
        else some cpu) := by
  cases words with
  | nil => exact ⟨by simp [Reached], by simp⟩
  | cons first rest =>
      by_cases register : checkIfRegister first = true
      · cases rest with
        | nil => exact ⟨by simp [Reached, register], by simp [register]⟩
        | cons second rest =>
            exact ⟨by simp [Reached, register], fun bad => absurd ⟨register, trivial⟩ bad⟩
      · exact ⟨by simp [Reached, register], by simp [register]⟩

theorem Takes.registers {next : String → String → Execution}
    (checked : ∀ first second, checkIfRegister second = false → next first second = cpu) :
    Takes [.register, .register] words cpu
      (words[0]?.bind fun first =>
        if checkIfRegister first then words[1]?.map fun second => next first second
        else some cpu) := by
  cases words with
  | nil => exact ⟨by simp [Reached], by simp⟩
  | cons first rest =>
      by_cases register : checkIfRegister first = true
      · cases rest with
        | nil => exact ⟨by simp [Reached, register], by simp [register]⟩
        | cons second rest =>
            refine ⟨by simp [Reached, register], fun bad cpu' executed => ?_⟩
            obtain rfl : next first second = cpu' := by simpa [register] using executed
            refine checked first second (Bool.eq_false_of_not_eq_true fun register' => ?_)
            exact bad ⟨register, register', trivial⟩
      · exact ⟨by simp [Reached, register], by simp [register]⟩

/-! ### The instructions -/

variable {args : ExecutionArgs}

theorem getRegisterDescriptor_eq_none {name : String} (no : checkIfRegister name = false) :
    getRegisterDescriptor name = none := by
  unfold checkIfRegister at no
  exact Option.isNone_iff_eq_none.mp (by simpa using no)

theorem instructionMovIn_takes :
    Takes [.register] words cpu (instructionMovIn (mnemonic :: words) cpu args) := by
  refine Takes.register fun name no => ?_
  rw [getRegisterDescriptor_eq_none no]

theorem instructionMovOut_takes :
    Takes [.register] words cpu (instructionMovOut (mnemonic :: words) cpu args) := by
  refine Takes.register fun name no => ?_
  rw [getRegisterDescriptor_eq_none no]

theorem instructionCopyMem_takes :
    Takes [.register] words cpu (instructionCopyMem (mnemonic :: words) cpu args) := by
  refine Takes.register fun name no => ?_
  simp [no]

theorem instructionArithmetic_takes (f : UInt32 → UInt32 → UInt32) :
    Takes [.register, .register] words cpu (instructionArithmetic (mnemonic :: words) cpu f) := by
  refine Takes.registers fun left right no => ?_
  simp [no]

theorem instructionIo_takes (syscall : UInt32 → UInt32 → UInt32 → Syscall) :
    Takes [.register, .register] words cpu
      (instructionIo (mnemonic :: words) cpu args syscall) := by
  refine Takes.registers fun addressName sizeName no => ?_
  simp [no]

/-- `INIT_PROC` takes its second operand first. -/
theorem instructionInitProc_takes :
    Takes [.text, .text] words cpu (instructionInitProc (mnemonic :: words) cpu args) := by
  cases words with
  | nil => exact ⟨by simp [Reached, instructionInitProc], by simp [instructionInitProc]⟩
  | cons first rest =>
      cases rest with
      | nil => exact ⟨by simp [Reached, instructionInitProc], by simp [instructionInitProc]⟩
      | cons second rest =>
          exact ⟨by simp [Reached, instructionInitProc], fun bad => absurd trivial bad⟩

/-- Every instruction takes the operands that it uses, as they are reached. -/
theorem executeInstruction_takes (known : operandsOf mnemonic = some kinds) :
    Takes kinds words cpu (executeInstruction (mnemonic :: words) cpu args) := by
  unfold operandsOf at known
  split at known
  all_goals cases known
  · exact .nothing cpu
  · exact .nothing _
  · exact instructionMovIn_takes
  · exact instructionMovOut_takes
  · exact instructionCopyMem_takes
  · exact .text _
  · exact .text _
  · exact .text _
  · exact .text _
  · exact .text _
  · exact .register_text _
  · exact .register_text _
  · exact instructionArithmetic_takes _
  · exact instructionArithmetic_takes _
  · exact instructionIo_takes _
  · exact instructionIo_takes _
  · exact .texts _
  · exact instructionInitProc_takes

/-- What is no instruction does nothing. -/
theorem executeInstruction_unknown (unknown : operandsOf mnemonic = none) :
    executeInstruction (mnemonic :: words) cpu args = some cpu := by
  simp only [executeInstruction, List.getElem?_cons_zero, Option.bind_some]
  split
  all_goals first
    | rfl
    | exact absurd unknown (by decide)

theorem reached_of_fit {kinds : List Operand} {words : List String} (fit : Fit kinds words) :
    Reached kinds words := by
  induction kinds, words using Fit.induct with
  | case1 words => trivial
  | case2 kind kinds => exact fit.elim
  | case3 kinds word words ih => exact fun _ => ih fit.2
  | case4 kinds word words ih => exact ih fit

/-- What is well-formed is complete. -/
theorem WellFormed.complete {decoded : List String} (formed : WellFormed decoded) :
    Complete decoded := by
  cases decoded with
  | nil => exact formed
  | cons mnemonic words =>
      obtain ⟨kinds, known, fit⟩ := formed
      intro kinds' known'
      obtain rfl := Option.mem_unique known known'
      exact reached_of_fit fit

end Operands

/-! ### Lines -/

/-- A CPU that has executed nothing, without memory. -/
def idle : Execution := (Threads.initial 16 ⟨[], fun _ _ => 0, [], fun _ => 0⟩).cpu

theorem harmless_iff (decoded : List String) : Harmless decoded ↔ Complete decoded := by
  cases decoded with
  | nil =>
      constructor
      · intro harmless
        have executed := harmless.defined idle ⟨0, []⟩
        cases executed
      · exact False.elim
  | cons mnemonic words =>
      constructor
      · intro harmless kinds known
        have executed := harmless.defined idle ⟨0, []⟩
        rw [runInstruction, Option.isSome_map] at executed
        exact (executeInstruction_takes known).1.mp executed
      · intro complete
        cases known : operandsOf mnemonic with
        | none =>
            have executed : ∀ cpu args,
                runInstruction (mnemonic :: words) cpu args = some (Threads.advance cpu) := by
              intro cpu args
              rw [runInstruction, executeInstruction_unknown known, Option.map_some]
            refine ⟨fun cpu args => by rw [executed]; rfl, fun _ cpu args straight => ?_⟩
            rw [executed, Threads.advance, if_neg (by rw [straight]; decide)]
        | some kinds =>
            have taken : ∀ cpu args, Takes kinds words cpu
                (executeInstruction (mnemonic :: words) cpu args) :=
              fun cpu args => executeInstruction_takes known
            have reached := complete kinds known
            refine ⟨fun cpu args => ?_, fun bad cpu args straight => ?_⟩
            · rw [runInstruction, Option.isSome_map]
              exact (taken cpu args).1.mpr reached
            · obtain ⟨cpu', executed⟩ := Option.isSome_iff_exists.mp ((taken cpu args).1.mpr reached)
              have unfit : ¬ Fit kinds words := fun fit => bad ⟨kinds, known, fit⟩
              obtain rfl := (taken cpu args).2 unfit cpu' executed
              rw [runInstruction, executed, Option.map_some, Threads.advance,
                if_neg (by rw [straight]; decide)]

/-- **Which lines are harmless**: those that have a word and, when it is the mnemonic of an
instruction, the operands that it reaches. -/
theorem line_harmless_iff (line : String) :
    Harmless (decodeInstruction line) ↔ Complete (decodeInstruction line) :=
  harmless_iff _

/-- **An operand that is missing**: the value of a `SET` is read through a `NULL` pointer. -/
theorem operand_missing : ¬ Harmless (decodeInstruction "SET AX") := by
  intro harmless
  have executed := harmless.defined idle ⟨0, []⟩
  have died : runInstruction (decodeInstruction "SET AX") idle ⟨0, []⟩ = none := by
    decide +kernel
  rw [died] at executed
  cases executed

end OsModel.Cpu
