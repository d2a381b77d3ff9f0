import OsModel.Cpu.Registers
import OsModel.Cpu.Mmu
import OsModel.KernelMemory.MemoryAccess

/-!
The instructions (`execute_instruction` in `cpu/src/manage_instructions.c`).

`Execution` is what an instruction reads and writes: the context, the flags of the
execution thread, the memory sticks and the two connections. A result of `none`
is an operand that the line does not have, read through a `NULL` pointer.
-/

namespace OsModel.Cpu

open Lib KernelMemory

/-- What the CPU sends to the Kernel Scheduler. -/
inductive Syscall where
  | mutexCreate (pid : UInt32) (name : String)
  | mutexLock (pid : UInt32) (name : String)
  | mutexUnlock (pid : UInt32) (name : String)
  | memAlloc (pid segmentId size : UInt32)
  | memFree (pid address : UInt32)
  | sleep (pid time : UInt32)
  | stdout (pid physicalAddress size : UInt32)
  | stdin (pid physicalAddress size : UInt32)
  | processCreate (pid priority : UInt32) (path : String)
  | processEnd (pid : UInt32)
  | segmentationFault (pid : UInt32)
  deriving DecidableEq, Repr

/-- A range of physical memory. -/
structure Access where
  physicalAddress : UInt32
  size : UInt32
  deriving DecidableEq, Repr

/-- The state of an execution. `contexts` are the `CONTEXT_TRANSFER`s sent to
Kernel Memory, and `touched` the ranges that were read, written or named in an
IO request. -/
structure Execution where
  segmentMaxSize : UInt32
  context : CpuContext
  hasJumped : Bool
  shouldExit : Bool
  shouldStop : Bool
  stopReason : InterruptReason
  devices : Devices
  contexts : List (UInt32 × CpuContext)
  syscalls : List Syscall
  touched : List Access

/-- `t_process_execution_args`, the context apart. -/
structure ExecutionArgs where
  pid : UInt32
  segmentTable : List Segment

namespace Execution

/-- `mmu_translate`: a fault is reported, and zero returned. -/
def mmuTranslate (cpu : Execution) (args : ExecutionArgs) (logicalAddress size : UInt32) :
    UInt32 × Execution :=
  match translate cpu.segmentMaxSize args.segmentTable logicalAddress size with
  | some physicalAddress => (physicalAddress, cpu)
  | none =>
      (0, { cpu with
        syscalls := cpu.syscalls ++ [.segmentationFault args.pid]
        shouldExit := true })

/-- The CPU's copy of `memory_read`. -/
def memoryRead (cpu : Execution) (physicalAddress size : UInt32) : Option (List UInt8) × Execution :=
  match KernelMemory.memoryRead cpu.devices physicalAddress size with
  | (data, d) =>
      (data, { cpu with devices := d, touched := cpu.touched ++ [⟨physicalAddress, size⟩] })

/-- The CPU's copy of `memory_write`. -/
def memoryWrite (cpu : Execution) (physicalAddress : UInt32) (data : List UInt8) (size : UInt32) :
    Bool × Execution :=
  match KernelMemory.memoryWrite cpu.devices physicalAddress data size with
  | (ok, d) =>
      (ok, { cpu with devices := d, touched := cpu.touched ++ [⟨physicalAddress, size⟩] })

/-- What every syscall does before its message is sent: the program counter is
advanced, so that the context saved does not repeat the instruction. -/
def stopFor (cpu : Execution) (args : ExecutionArgs) (reason : InterruptReason) (syscall : Syscall) :
    Execution :=
  let context := { cpu.context with pc := cpu.context.pc + 1 }
  { cpu with
    context := context
    hasJumped := true
    stopReason := reason
    shouldStop := true
    contexts := cpu.contexts ++ [(args.pid, context)]
    syscalls := cpu.syscalls ++ [syscall] }

/-- The write to the register of an instruction, and whether it was a jump. -/
def assign (cpu : Execution) (registerName : String) (value : UInt32) : Execution :=
  { cpu with
    context := writeRegisterValue cpu.context registerName value
    hasJumped := cpu.hasJumped || registerName.toLower == "pc" }

end Execution

/-! ### The bytes of a register -/

/-- The object representation of a `uint32_t`, lowest byte first. -/
def bytesOfUInt32 (value : UInt32) : List UInt8 :=
  [value.toUInt8, (value >>> 8).toUInt8, (value >>> 16).toUInt8, (value >>> 24).toUInt8]

/-- The `uint8_t` or `uint32_t` at the front of a buffer. -/
def uint32OfBytes (data : List UInt8) : UInt32 :=
  data.foldr (fun byte value => byte.toUInt32 ||| (value <<< 8)) 0

section Instructions

variable (decoded : List String) (cpu : Execution) (args : ExecutionArgs)

def instructionSet : Option Execution :=
  decoded[1]?.bind fun name =>
    if checkIfRegister name then
      decoded[2]?.map fun value => cpu.assign name (uint32OfInt (atoi value))
    else some cpu

def instructionMovIn : Option Execution :=
  decoded[1]?.map fun name =>
    match getRegisterDescriptor name with
    | none => cpu
    | some register =>
        match cpu.mmuTranslate args cpu.context.si register.fieldSize with
        | (physicalAddress, cpu) =>
            if cpu.shouldExit then cpu
            else
              match cpu.memoryRead physicalAddress register.fieldSize with
              | (none, cpu) => cpu
              | (some data, cpu) => cpu.assign name (uint32OfBytes data)

/-- `instruction_mov_out`: the first `field_size` bytes of the value. -/
def instructionMovOut : Option Execution :=
  decoded[1]?.map fun name =>
    match getRegisterDescriptor name with
    | none => cpu
    | some register =>
        match cpu.mmuTranslate args cpu.context.di register.fieldSize with
        | (physicalAddress, cpu) =>
            if cpu.shouldExit then cpu
            else
              (cpu.memoryWrite physicalAddress
                ((bytesOfUInt32 (register.read cpu.context)).take register.fieldSize.toNat)
                register.fieldSize).2

/-- `instruction_sum` and `instruction_sub`. -/
def instructionArithmetic (f : UInt32 → UInt32 → UInt32) : Option Execution :=
  decoded[1]?.bind fun left =>
    if checkIfRegister left then
      decoded[2]?.map fun right =>
        if checkIfRegister right then
          cpu.assign left
            (f (readRegisterValue cpu.context left) (readRegisterValue cpu.context right))
        else cpu
    else some cpu

def instructionSum : Option Execution := instructionArithmetic decoded cpu fun left right => left + right

def instructionSub : Option Execution := instructionArithmetic decoded cpu fun left right => left - right

def instructionJnz : Option Execution :=
  decoded[1]?.bind fun name =>
    if checkIfRegister name then
      decoded[2]?.map fun target =>
        if atoi target ≤ 0 then cpu
        else if readRegisterValue cpu.context name ≠ 0 then
          { cpu with
            context := { cpu.context with pc := uint32OfInt (atoi target) }
            hasJumped := true }
        else cpu
    else some cpu

def instructionCopyMem : Option Execution :=
  decoded[1]?.map fun name =>
    if checkIfRegister name then
      let size := readRegisterValue cpu.context name
      match cpu.mmuTranslate args cpu.context.si size with
      | (physicalSrc, cpu) =>
          if cpu.shouldExit then cpu
          else
            match cpu.mmuTranslate args cpu.context.di size with
            | (physicalDst, cpu) =>
                if cpu.shouldExit then cpu
                else
                  match cpu.memoryRead physicalSrc size with
                  | (none, cpu) => cpu
                  | (some data, cpu) => (cpu.memoryWrite physicalDst data size).2
    else cpu

/-- The three mutex instructions: the name is sent as it stands. -/
def instructionMutex (syscall : UInt32 → String → Syscall) : Option Execution :=
  decoded[1]?.map fun name => cpu.stopFor args .mutexRequest (syscall args.pid name)

def instructionMutexCreate : Option Execution := instructionMutex decoded cpu args .mutexCreate

def instructionMutexLock : Option Execution := instructionMutex decoded cpu args .mutexLock

def instructionMutexUnlock : Option Execution := instructionMutex decoded cpu args .mutexUnlock

def instructionMemAlloc : Option Execution :=
  decoded[1]?.bind fun segmentId =>
    decoded[2]?.map fun size =>
      cpu.stopFor args .memoryRequest
        (.memAlloc args.pid (uint32OfInt (atoi segmentId)) (uint32OfInt (atoi size)))

def instructionMemFree : Option Execution :=
  decoded[1]?.map fun address =>
    cpu.stopFor args .memoryRequest (.memFree args.pid (uint32OfInt (atoi address)))

def instructionSleep : Option Execution :=
  decoded[1]?.map fun time =>
    cpu.stopFor args .ioRequest (.sleep args.pid (uint32OfInt (atoi time)))

/-- `instruction_stdout` and `instruction_stdin`: the range is translated here
and its physical address sent. -/
def instructionIo (syscall : UInt32 → UInt32 → UInt32 → Syscall) : Option Execution :=
  decoded[1]?.bind fun addressName =>
    if checkIfRegister addressName then
      decoded[2]?.map fun sizeName =>
        if checkIfRegister sizeName then
          let size := readRegisterValue cpu.context sizeName
          match cpu.mmuTranslate args (readRegisterValue cpu.context addressName) size with
          | (physicalAddress, cpu) =>
              if cpu.shouldExit then cpu
              else
                { cpu.stopFor args .ioRequest (syscall args.pid physicalAddress size) with
                  touched := cpu.touched ++ [⟨physicalAddress, size⟩] }
        else cpu
    else some cpu

def instructionStdout : Option Execution := instructionIo decoded cpu args .stdout

def instructionStdin : Option Execution := instructionIo decoded cpu args .stdin

def instructionInitProc : Option Execution :=
  decoded[2]?.bind fun priority =>
    decoded[1]?.map fun path =>
      { cpu with
        syscalls := cpu.syscalls ++
          [.processCreate args.pid (uint32OfInt (atoi priority)) path] }

def instructionExit : Option Execution :=
  some { cpu with
    syscalls := cpu.syscalls ++ [.processEnd args.pid]
    shouldExit := true }

/-- `execute_instruction`, with the comparisons of `instruction_to_type`. -/
def executeInstruction : Option Execution :=
  decoded[0]?.bind fun mnemonic =>
    match mnemonic with
    | "NOOP" => some cpu
    | "SET" => instructionSet decoded cpu
    | "MOV_IN" => instructionMovIn decoded cpu args
    | "MOV_OUT" => instructionMovOut decoded cpu args
    | "SUM" => instructionSum decoded cpu
    | "SUB" => instructionSub decoded cpu
    | "JNZ" => instructionJnz decoded cpu
    | "COPY_MEM" => instructionCopyMem decoded cpu args
    | "MUTEX_CREATE" => instructionMutexCreate decoded cpu args
    | "MUTEX_LOCK" => instructionMutexLock decoded cpu args
    | "MUTEX_UNLOCK" => instructionMutexUnlock decoded cpu args
    | "MEM_ALLOC" => instructionMemAlloc decoded cpu args
    | "MEM_FREE" => instructionMemFree decoded cpu args
    | "SLEEP" => instructionSleep decoded cpu args
    | "STDOUT" => instructionStdout decoded cpu args
    | "STDIN" => instructionStdin decoded cpu args
    | "INIT_PROC" => instructionInitProc decoded cpu args
    | "EXIT" => instructionExit cpu args
    | _ => some cpu

end Instructions

end OsModel.Cpu
