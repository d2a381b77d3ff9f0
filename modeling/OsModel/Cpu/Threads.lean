import OsModel.Cpu.Instructions
import OsModel.Lib.Run

/-!
The two threads of a CPU: `kernel_scheduler_handler` (`cpu/src/main.c`) and the execution
thread, which runs `instructions_cicle` (`cpu/src/manage_instructions.c`). Each critical
section and each semaphore operation is a step.

What the other modules send arrives in a step of its own: the messages of the Kernel
Scheduler, and the contexts and the instructions of Kernel Memory.
-/

namespace OsModel.Cpu.Threads

open Lib

/-- Where `kernel_scheduler_handler` is. -/
inductive HandlerAt where
  /-- Before it receives a message. -/
  | receiving
  /-- `PROCESS_EXECUTE`: at `sem_wait(&sem_execution_finished)`. -/
  | awaitFinished
  /-- Before `is_executing = true`. -/
  | start
  /-- Before it reads `interruptPending`. -/
  | readInterrupt
  /-- At `sem_wait(&sem_eviction_handled)`. -/
  | awaitHandled
  /-- `CONTEXT_SEEK` has been sent. -/
  | awaitContext
  /-- There is no context: before `is_executing = false`. -/
  | giveUp
  /-- Before `sem_post(&sem_execution_finished)`. -/
  | postFinished
  /-- `PROCESS_EVICT`: before `interruptPending = true`. -/
  | interrupt (reason : InterruptReason)
  /-- Before it reads `is_executing`. -/
  | readExecuting
  /-- Nothing is executed: before `interruptPending = false`. -/
  | clearInterrupt
  /-- At `sem_wait(&sem_eviction_ready)`. -/
  | awaitReady
  /-- Before `send_confirmation`. -/
  | confirm
  /-- Before `sem_post(&sem_eviction_handled)`. -/
  | postHandled
  deriving DecidableEq, Repr

/-- Where the execution thread is; `interrupt` is its local variable. -/
inductive ThreadAt where
  /-- At the head of the loop, before it reads `interruptPending`. -/
  | head
  /-- Before the section that checks `should_exit`. -/
  | checkExit (interrupt : Bool)
  /-- Before `send_process_interrupted(pid, PROCESS_EXIT)`. -/
  | sendExit
  /-- Before the section that checks `should_stop`. -/
  | checkStop (interrupt : Bool)
  /-- `INSTRUCTION_FETCH` has been sent. -/
  | awaitInstruction
  /-- It has the words of an instruction. -/
  | execute (decoded : List String)
  /-- Before it reads `should_exit || should_stop`. -/
  | checkFinishing
  /-- Before it reads `interruptPending` again. -/
  | checkInterrupt
  /-- There is an interruption: before it reads its reason. -/
  | interrupted
  /-- The context is saved: before `sem_post(&sem_eviction_ready)`. -/
  | postReady
  /-- Before `interruptPending = 0`. -/
  | clearInterrupt
  /-- Out of the loop: before `is_executing = false`. -/
  | finish
  /-- Before `sem_post(&sem_execution_finished)`. -/
  | postFinished
  deriving DecidableEq, Repr

/-- What a CPU sends to the Kernel Scheduler besides the syscalls. -/
inductive Reply where
  | processInterrupted (pid : UInt32) (reason : InterruptReason)
  | confirmation (pid : UInt32)
  deriving DecidableEq, Repr

/-- The globals of the CPU and its threads: `cpu` and `args` are those of the last execution
thread, and `thread` says where it is. `evictions` counts the `PROCESS_EVICT`s received: it is
read by no step. -/
structure State where
  interruptPending : Bool
  interruptReason : InterruptReason
  isExecuting : Bool
  evictionReady : ℕ
  evictionHandled : ℕ
  executionFinished : ℕ
  currentPid : UInt32
  handler : HandlerAt
  thread : Option ThreadAt
  cpu : Execution
  args : ExecutionArgs
  replies : List Reply
  evictions : ℕ

/-- What can happen next. -/
inductive Action where
  /-- `PROCESS_EXECUTE` arrives. -/
  | processExecute (pid : UInt32)
  /-- `PROCESS_EVICT` arrives. -/
  | processEvict (reason : InterruptReason)
  /-- `CONTEXT_TRANSFER` arrives: the context is `NULL`, or the thread is created. -/
  | contextTransfer (context : Option (CpuContext × List Segment))
  /-- An instruction arrives: it is `NULL`, or it is split into words. -/
  | instruction (decoded : Option (List String))
  /-- The handler goes on. -/
  | handler
  /-- The execution thread goes on. -/
  | thread
  deriving DecidableEq

/-- The next step of `kernel_scheduler_handler`. -/
def handlerStep (s : State) : Option State :=
  match s.handler with
  | .receiving | .awaitContext => none
  | .awaitFinished =>
      if 0 < s.executionFinished then
        some { s with executionFinished := s.executionFinished - 1, handler := .start }
      else none
  | .start => some { s with isExecuting := true, handler := .readInterrupt }
  | .readInterrupt =>
      some { s with handler := if s.interruptPending then .awaitHandled else .awaitContext }
  | .awaitHandled =>
      if 0 < s.evictionHandled then
        some { s with evictionHandled := s.evictionHandled - 1, handler := .awaitContext }
      else none
  | .giveUp => some { s with isExecuting := false, handler := .postFinished }
  | .postFinished =>
      some { s with executionFinished := s.executionFinished + 1, handler := .receiving }
  | .interrupt reason =>
      some { s with
        interruptPending := true, interruptReason := reason, handler := .readExecuting }
  | .readExecuting =>
      some { s with handler := if s.isExecuting then .awaitReady else .clearInterrupt }
  | .clearInterrupt => some { s with interruptPending := false, handler := .confirm }
  | .awaitReady =>
      if 0 < s.evictionReady then
        some { s with evictionReady := s.evictionReady - 1, handler := .confirm }
      else none
  | .confirm =>
      some { s with
        replies := s.replies ++ [.confirmation s.currentPid], handler := .postHandled }
  | .postHandled =>
      some { s with evictionHandled := s.evictionHandled + 1, handler := .receiving }

/-- The program counter after an instruction. -/
def advance (cpu : Execution) : Execution :=
  if cpu.hasJumped then { cpu with hasJumped := false }
  else { cpu with context := { cpu.context with pc := cpu.context.pc + 1 } }

/-- An interruption that the thread has seen is over before it leaves the loop. -/
def State.acknowledge (s : State) (interrupt : Bool) : State :=
  if interrupt then { s with interruptPending := false, evictionReady := s.evictionReady + 1 }
  else s

/-- The next step of the execution thread. -/
def threadStep (s : State) : ThreadAt → Option State
  | .head => some { s with thread := some (.checkExit s.interruptPending) }
  | .checkExit interrupt =>
      if s.cpu.shouldExit then
        some { s.acknowledge interrupt with
          cpu := { s.cpu with shouldExit := false }, thread := some .sendExit }
      else some { s with thread := some (.checkStop interrupt) }
  | .sendExit =>
      some { s with
        replies := s.replies ++ [.processInterrupted s.args.pid .processExit]
        thread := some .finish }
  | .checkStop interrupt =>
      if s.cpu.shouldStop then
        some { s.acknowledge interrupt with
          cpu := { s.cpu with shouldStop := false }
          replies := s.replies ++ [.processInterrupted s.args.pid s.cpu.stopReason]
          thread := some .finish }
      else some { s with thread := some .awaitInstruction }
  | .awaitInstruction => none
  | .execute decoded =>
      match executeInstruction decoded s.cpu s.args with
      | none => none
      | some cpu => some { s with cpu := advance cpu, thread := some .checkFinishing }
  | .checkFinishing =>
      some { s with
        thread := some (if s.cpu.shouldExit || s.cpu.shouldStop then .head else .checkInterrupt) }
  | .checkInterrupt =>
      some { s with thread := some (if s.interruptPending then .interrupted else .head) }
  | .interrupted =>
      some { s with
        cpu := { s.cpu with contexts := s.cpu.contexts ++ [(s.args.pid, s.cpu.context)] }
        replies := s.replies ++ [.processInterrupted s.args.pid s.interruptReason]
        thread := some .postReady }
  | .postReady =>
      some { s with evictionReady := s.evictionReady + 1, thread := some .clearInterrupt }
  | .clearInterrupt => some { s with interruptPending := false, thread := some .finish }
  | .finish => some { s with isExecuting := false, thread := some .postFinished }
  | .postFinished =>
      some { s with executionFinished := s.executionFinished + 1, thread := none }

def step (s : State) : Action → Option State
  | .processExecute pid =>
      match s.handler with
      | .receiving => some { s with currentPid := pid, handler := .awaitFinished }
      | _ => none
  | .processEvict reason =>
      match s.handler with
      | .receiving =>
          some { s with evictions := s.evictions + 1, handler := .interrupt reason }
      | _ => none
  | .contextTransfer context =>
      match s.handler, context with
      | .awaitContext, none => some { s with handler := .giveUp }
      | .awaitContext, some (context, segmentTable) =>
          some { s with
            cpu := { s.cpu with context, hasJumped := false }
            args := ⟨s.currentPid, segmentTable⟩
            thread := some .head
            handler := .receiving }
      | _, _ => none
  | .instruction decoded =>
      match s.thread, decoded with
      | some .awaitInstruction, none =>
          some { s with
            cpu := { s.cpu with context := { s.cpu.context with pc := s.cpu.context.pc + 1 } }
            thread := some .finish }
      | some .awaitInstruction, some decoded => some { s with thread := some (.execute decoded) }
      | _, _ => none
  | .handler => handlerStep s
  | .thread => s.thread.bind (threadStep s)

/-- A CPU as `main` starts it, with the memory it reaches. -/
def initial (segmentMaxSize : UInt32) (devices : KernelMemory.Devices) : State where
  interruptPending := false
  interruptReason := .quantumExpired
  isExecuting := false
  evictionReady := 0
  evictionHandled := 0
  executionFinished := 1
  currentPid := 0
  handler := .receiving
  thread := none
  cpu :=
    { segmentMaxSize, context := .zero, hasJumped := false, shouldExit := false,
      shouldStop := false, stopReason := .quantumExpired, devices, contexts := [],
      syscalls := [], touched := [] }
  args := ⟨0, []⟩
  replies := []
  evictions := 0

end OsModel.Cpu.Threads
