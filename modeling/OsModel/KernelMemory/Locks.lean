import OsModel.Lib.Locks

/-!
The locks of the kernel memory: what each of its threads does with them.

As for the kernel scheduler, a function is modelled by the locks that it takes and gives back,
by what it calls, and by where it waits. The list of processes is taken before the record of
a process, and left once that is taken, so that the record cannot go away; the other lists,
the memory sticks and the connections come after it.

A process is suspended with its record taken, and the thread waits then for what the memory
sticks and SWAP reply. So a lock may be taken for as long as that lasts. The threads that
bring the replies take only locks above the records, and behind these some thread can always
go on: no reply waits for the record (`no_circle_of_memory_locks`).
-/

namespace OsModel.KernelMemory.Locks

open OsModel.Lib.Locks

/-- Who is connected, apart from the memory sticks, whose own lock is used to send. -/
inductive Client where
  | kernelScheduler
  | cpu (i : ℕ)
  | swap
  deriving DecidableEq

inductive Lock where
  | listProcessesMutex
  | pcbMutex (pcb : ℕ)
  | listSuspendedProcessesMutex
  | listMemoryStickMutex
  | listMemoryStickCredentialsMutex
  | listCpuMutex
  | totalMemorySizeMutex
  | nextMemoryStickIdMutex
  | swapReadResponseMutex
  | memoryStickMutex (i : ℕ)
  | memoryStickNetworkMutex (i : ℕ)
  | networkMutex (client : Client)
  deriving DecidableEq

def Lock.rank : Lock → ℕ
  | listProcessesMutex => 0
  | pcbMutex _ => 1
  | listSuspendedProcessesMutex | listMemoryStickMutex | listMemoryStickCredentialsMutex
  | listCpuMutex | totalMemorySizeMutex | nextMemoryStickIdMutex | swapReadResponseMutex => 2
  | memoryStickMutex _ | memoryStickNetworkMutex _ | networkMutex _ => 3

/-- Only the record of a process may be kept while a thread waits. -/
def order : Order Lock where
  rank := Lock.rank
  patient l := l.rank = 1
  top := 3
  bounded l := by cases l <;> simp [Lock.rank]

@[grind =]
theorem order_rank (l : Lock) : order.rank l = l.rank := rfl

@[grind =]
theorem order_patient (l : Lock) : order.patient l ↔ l.rank = 1 := Iff.rfl

attribute [grind =] Lock.rank

/-! ### Messages, semaphores and time -/

abbrev operationReceive : Code Lock := .wait

abbrev bufferReceive : Code Lock := .wait

abbrev semWait : Code Lock := .wait

abbrev usleep : Code Lock := .wait

/-- A package for a client. Every function that sends one comes to this. -/
def packageSend (client : Client) : Code Lock := .critical (.networkMutex client)

theorem packageSend_fits (client : Client) : (packageSend client).Fits order (order.Below 3) := by
  apply Code.Fits.critical
  grind

theorem listProcessesMutex_fits :
    (Code.critical Lock.listProcessesMutex).Fits order (order.Below 0) := by
  apply Code.Fits.critical
  grind

theorem critical_fits {l : Lock} (list : l.rank = 2) :
    (Code.critical l).Fits order (order.Below 2) := by
  apply Code.Fits.critical
  grind

theorem memoryStickMutex_fits (i : ℕ) :
    (Code.critical (Lock.memoryStickMutex i)).Fits order (order.Below 3) := by
  apply Code.Fits.critical
  grind

/-- What is done with the record of a process: it is found in the list, which is given back
once the record is taken, or it is not there. -/
def withPcb (found : List (Code Lock)) : Code Lock :=
  .block
    [.lock .listProcessesMutex,
      .either
        [.unlock .listProcessesMutex]
        [.any fun pcb => .block
          [.lock (.pcbMutex pcb),
            .unlock .listProcessesMutex,
            .block found,
            .unlock (.pcbMutex pcb)]]]

theorem withPcb_fits {found : List (Code Lock)}
    (fits : (Code.block found).Fits order order.patient) :
    (withPcb found).Fits order (order.Below 0) := by
  intro held allowed
  obtain rfl : held = [] := by
    rw [List.eq_nil_iff_forall_not_mem]
    intro k has
    exact Nat.not_lt_zero _ (allowed k has)
  apply Code.Has.lock
  · simp
  · apply Code.Has.last
    apply Code.Has.either
    · exact .unlock .nil
    · apply Code.Has.last
      apply Code.Has.any
      intro pcb
      apply Code.Has.lock (by grind)
      apply Code.Has.unlockBelow (by simp)
      apply Code.Has.call fits (by grind)
      exact .unlock .nil

/-! ### `memory_manage.c` -/

def getFreeHoles : Code Lock :=
  .block
    [.lock .listProcessesMutex,
      .loop (.any fun pcb => .critical (.pcbMutex pcb)),
      .unlock .listProcessesMutex]

theorem getFreeHoles_has : getFreeHoles.Has order [] [] := by
  apply Code.Has.lock
  · simp
  · apply Code.Has.seq
    · apply Code.Has.loop
      apply Code.Has.any
      intro pcb
      apply Code.Has.lock
      · simp [order_rank, Lock.rank]
      · exact .unlock .nil
    · exact .unlock .nil

def getMemoryStickByAddress : Code Lock := .critical .listMemoryStickMutex

theorem getMemoryStickByAddress_fits : getMemoryStickByAddress.Fits order (order.Below 2) :=
  critical_fits rfl

/-- Each piece is asked for under the lock of its stick, which is given back while the thread
waits for the reply. -/
def memoryAccess : Code Lock :=
  .loop (.block
    [getMemoryStickByAddress,
      .either
        [] -- there is no such address
        [.any fun i => .block
          [.critical (.memoryStickMutex i), semWait, .critical (.memoryStickMutex i)]]])

theorem memoryAccess_fits : memoryAccess.Fits order order.patient := by
  apply Code.Fits.loop
  intro held allowed
  apply Code.Has.call getMemoryStickByAddress_fits
  · grind
  · apply Code.Has.last
    apply Code.Has.either
    · exact .nil
    · apply Code.Has.last
      apply Code.Has.any
      intro i
      apply Code.Has.call (memoryStickMutex_fits i) (by grind)
      apply Code.Has.wait allowed
      exact .call (memoryStickMutex_fits i) (by grind) .nil

def memoryRead : Code Lock := memoryAccess

def memoryWrite : Code Lock := memoryAccess

/-- The list of processes is left while a segment is moved. -/
def compactMemory : Code Lock :=
  .block
    [.lock .listProcessesMutex,
      .loop (.block
        [.unlock .listProcessesMutex,
          memoryRead,
          .either [memoryWrite] [],
          .lock .listProcessesMutex]),
      .unlock .listProcessesMutex]

theorem compactMemory_has : compactMemory.Has order [] [] := by
  apply Code.Has.lock
  · simp
  · apply Code.Has.seq
    · apply Code.Has.loop
      apply Code.Has.unlock
      apply Code.Has.seq memoryAccess_fits.thread
      apply Code.Has.seq
      · apply Code.Has.either
        · exact .last memoryAccess_fits.thread
        · exact .nil
      · apply Code.Has.lock
        · simp
        · exact .nil
    · exact .unlock .nil

def requestAndCompact : Code Lock :=
  .block
    [packageSend .kernelScheduler, semWait, compactMemory, usleep, packageSend .kernelScheduler]

theorem requestAndCompact_has : requestAndCompact.Has order [] [] := by
  have sent := (packageSend_fits .kernelScheduler).thread
  apply Code.Has.seq sent
  apply Code.Has.idle
  apply Code.Has.seq compactMemory_has
  apply Code.Has.idle
  exact .last sent

def segmentCreate : Code Lock :=
  .block
    [getFreeHoles,
      .either
        [] -- there is no space
        [.either [] [requestAndCompact, getFreeHoles],
          .either
            [] -- no hole is large enough
            [.critical .listProcessesMutex,
              .either [] [.any fun pcb => .critical (.pcbMutex pcb)]]]]

theorem segmentCreate_has : segmentCreate.Has order [] [] := by
  apply Code.Has.seq getFreeHoles_has
  apply Code.Has.last
  apply Code.Has.either
  · exact .nil
  · apply Code.Has.seq
    · apply Code.Has.either
      · exact .nil
      · apply Code.Has.seq requestAndCompact_has
        exact .last getFreeHoles_has
    · apply Code.Has.last
      apply Code.Has.either
      · exact .nil
      · apply Code.Has.seq listProcessesMutex_fits.thread
        apply Code.Has.last
        apply Code.Has.either
        · exact .nil
        · apply Code.Has.last
          apply Code.Has.any
          intro pcb
          apply Code.Has.lock
          · simp
          · exact .unlock .nil

theorem nil_fits {may : Lock → Prop} : (Code.block []).Fits order may := fun _ _ => .nil

def segmentDelete : Code Lock := withPcb []

def getFreeSwapBlocks : Code Lock := .critical .listSuspendedProcessesMutex

def writeSegmentToSwap : Code Lock := .loop (.block [packageSend .swap, semWait])

def readSegmentFromSwap : Code Lock :=
  .loop (.block [packageSend .swap, semWait, .critical .swapReadResponseMutex])

theorem writeSegmentToSwap_fits : writeSegmentToSwap.Fits order order.patient := by
  apply Code.Fits.loop
  intro held allowed
  apply Code.Has.call (packageSend_fits .swap)
  · grind
  · exact .wait allowed .nil

theorem readSegmentFromSwap_fits : readSegmentFromSwap.Fits order order.patient := by
  have response : (Code.critical Lock.swapReadResponseMutex).Fits order (order.Below 2) :=
    critical_fits rfl
  apply Code.Fits.loop
  intro held allowed
  apply Code.Has.call (packageSend_fits .swap)
  · grind
  · apply Code.Has.wait allowed
    exact .call response (by grind) .nil

/-- The segments go to SWAP one by one, with the record of the process taken. -/
def processSuspend : Code Lock :=
  .block
    [withPcb [.loop (.block [getFreeSwapBlocks, memoryRead, writeSegmentToSwap])],
      .either [] [.critical .listSuspendedProcessesMutex]]

theorem processSuspend_has : processSuspend.Has order [] [] := by
  have suspended : (Code.critical Lock.listSuspendedProcessesMutex).Fits order (order.Below 2) :=
    critical_fits rfl
  have segments : (Code.block
      [.loop (.block [getFreeSwapBlocks, memoryRead, writeSegmentToSwap])]).Fits order
        order.patient := by
    intro held allowed
    apply Code.Has.last
    apply Code.Has.loop
    apply Code.Has.call suspended
    · grind
    · apply Code.Has.call memoryAccess_fits allowed
      exact .call writeSegmentToSwap_fits allowed .nil
  apply Code.Has.seq (withPcb_fits segments).thread
  apply Code.Has.last
  apply Code.Has.either
  · exact .nil
  · exact .last suspended.thread

/-- What SWAP has is read and written back before the record of the process is taken. -/
def processDesuspend : Code Lock :=
  .block
    [.critical .listSuspendedProcessesMutex,
      .either
        [] -- it is not suspended
        [.loop (.block [getFreeHoles, .either [] [readSegmentFromSwap, .either [] [memoryWrite]]]),
          .either
            [] -- a segment could not be brought back
            [withPcb [], .either [] [.critical .listSuspendedProcessesMutex]]]]

theorem processDesuspend_has : processDesuspend.Has order [] [] := by
  have suspended : (Code.critical Lock.listSuspendedProcessesMutex).Has order [] [] :=
    (critical_fits rfl).thread
  apply Code.Has.seq suspended
  apply Code.Has.last
  apply Code.Has.either
  · exact .nil
  · apply Code.Has.seq
    · apply Code.Has.loop
      apply Code.Has.seq getFreeHoles_has
      apply Code.Has.last
      apply Code.Has.either
      · exact .nil
      · apply Code.Has.seq readSegmentFromSwap_fits.thread
        apply Code.Has.last
        apply Code.Has.either
        · exact .nil
        · exact .last memoryAccess_fits.thread
    · apply Code.Has.last
      apply Code.Has.either
      · exact .nil
      · apply Code.Has.seq (withPcb_fits nil_fits).thread
        apply Code.Has.last
        apply Code.Has.either
        · exact .nil
        · exact .last suspended

/-! ### The handlers of the connections -/

def processGetSegmentCount : Code Lock := withPcb []

def segmentCreateThread : Code Lock := .block [segmentCreate, packageSend .kernelScheduler]

theorem segmentCreateThread_has : segmentCreateThread.Has order [] [] := by
  apply Code.Has.seq segmentCreate_has
  exact .last (packageSend_fits _).thread

def kernelSchedulerHandler : Code Lock :=
  .loop (.block
    [operationReceive,
      .switch
        [ -- PROCESS_CREATE
          [bufferReceive,
            .either [] [.critical .listProcessesMutex, packageSend .kernelScheduler]],
          -- PROCESS_END
          [bufferReceive, withPcb []],
          -- SEGMENT_CREATE, which another thread does
          [bufferReceive, .either [] [packageSend .kernelScheduler]],
          -- SEGMENT_DELETE
          [bufferReceive, segmentDelete, packageSend .kernelScheduler],
          -- COMPACTION_READY
          [bufferReceive],
          -- IO_MEMORY_READ
          [bufferReceive, memoryRead, packageSend .kernelScheduler],
          -- IO_MEMORY_WRITE
          [bufferReceive, memoryWrite, packageSend .kernelScheduler],
          -- SWAP_OUT
          [bufferReceive, processGetSegmentCount, processSuspend, packageSend .kernelScheduler],
          -- SWAP_IN
          [bufferReceive, .loop processDesuspend, packageSend .kernelScheduler]]])

theorem kernelSchedulerHandler_has : kernelSchedulerHandler.Has order [] [] := by
  have reply := (packageSend_fits .kernelScheduler).thread
  have pcb := (withPcb_fits nil_fits).thread
  apply Code.Has.loop
  apply Code.Has.idle
  apply Code.Has.last
  apply Code.Has.switch
  simp only [List.mem_cons, List.not_mem_nil, or_false, forall_eq_or_imp, forall_eq]
  refine ⟨?create, ?exit, ?segment, ?delete, ?ready, ?read, ?write, ?swapOut, ?swapIn⟩ <;>
    apply Code.Has.idle
  case create =>
    apply Code.Has.last
    apply Code.Has.either
    · exact .nil
    · apply Code.Has.seq listProcessesMutex_fits.thread
      exact .last reply
  case exit => exact .last pcb
  case segment => exact .last (.either .nil (.last reply))
  case delete => exact .seq pcb (.last reply)
  case ready => exact .nil
  case read => exact .seq memoryAccess_fits.thread (.last reply)
  case write => exact .seq memoryAccess_fits.thread (.last reply)
  case swapOut =>
    apply Code.Has.seq pcb
    apply Code.Has.seq processSuspend_has
    exact .last reply
  case swapIn =>
    apply Code.Has.seq
    · apply Code.Has.loop
      exact processDesuspend_has
    · exact .last reply

/-- The context is sent with the record of the process taken. -/
def cpuHandler (cpu : Client) : Code Lock :=
  .loop (.block
    [operationReceive,
      .switch
        [ -- CONTEXT_TRANSFER
          [bufferReceive, withPcb []],
          -- CONTEXT_SEEK
          [bufferReceive, .either [] [withPcb [packageSend cpu]]],
          -- INSTRUCTION_FETCH
          [bufferReceive,
            .either
              []
              [.critical .listProcessesMutex, .either [] [usleep, packageSend cpu]]]]])

theorem cpuHandler_has (cpu : Client) : (cpuHandler cpu).Has order [] [] := by
  have context : (Code.block [packageSend cpu]).Fits order order.patient := by
    intro held allowed
    exact .call (packageSend_fits cpu) (by grind) .nil
  apply Code.Has.loop
  apply Code.Has.idle
  apply Code.Has.last
  apply Code.Has.switch
  simp only [List.mem_cons, List.not_mem_nil, or_false, forall_eq_or_imp, forall_eq]
  refine ⟨?transfer, ?seek, ?fetch⟩ <;> apply Code.Has.idle
  case transfer => exact .last (withPcb_fits nil_fits).thread
  case seek => exact .last (.either .nil (.last (withPcb_fits context).thread))
  case fetch =>
    apply Code.Has.last
    apply Code.Has.either
    · exact .nil
    · apply Code.Has.seq listProcessesMutex_fits.thread
      apply Code.Has.last
      apply Code.Has.either
      · exact .nil
      · apply Code.Has.idle
        exact .last (packageSend_fits cpu).thread

def swapHandler : Code Lock :=
  .block
    [bufferReceive,
      bufferReceive,
      .loop (.block
        [operationReceive,
          .switch
            [ -- SWAP_IN
              [bufferReceive, .critical .swapReadResponseMutex],
              -- SWAP_OUT
              [bufferReceive]]])]

theorem swapHandler_has : swapHandler.Has order [] [] := by
  have response : (Code.critical Lock.swapReadResponseMutex).Has order [] [] :=
    (critical_fits rfl).thread
  apply Code.Has.idle
  apply Code.Has.idle
  apply Code.Has.last
  apply Code.Has.loop
  apply Code.Has.idle
  apply Code.Has.last
  apply Code.Has.switch
  simp only [List.mem_cons, List.not_mem_nil, or_false, forall_eq_or_imp, forall_eq]
  constructor
  · exact .idle (.last response)
  · exact .idle .nil

def memoryStickHandler (i : ℕ) : Code Lock :=
  .block
    [.loop (.block
      [operationReceive,
        .switch
          [ -- MS_WRITE_RESPONSE
            [bufferReceive,
              .critical .listMemoryStickMutex,
              .either [] [.critical (.memoryStickMutex i)]],
            -- MS_READ_RESPONSE
            [.critical .listMemoryStickMutex,
              .either [bufferReceive, .critical (.memoryStickMutex i)] []]]]),
      operationReceive,
      -- The stick is gone.
      .critical .listMemoryStickMutex,
      .either [.critical .totalMemorySizeMutex, .either [packageSend .kernelScheduler] []] []]

theorem memoryStickHandler_has (i : ℕ) : (memoryStickHandler i).Has order [] [] := by
  have list : (Code.critical Lock.listMemoryStickMutex).Has order [] [] :=
    (critical_fits rfl).thread
  have total : (Code.critical Lock.totalMemorySizeMutex).Has order [] [] :=
    (critical_fits rfl).thread
  have stick := (memoryStickMutex_fits i).thread
  apply Code.Has.seq
  · apply Code.Has.loop
    apply Code.Has.idle
    apply Code.Has.last
    apply Code.Has.switch
    simp only [List.mem_cons, List.not_mem_nil, or_false, forall_eq_or_imp, forall_eq]
    constructor
    · apply Code.Has.idle
      apply Code.Has.seq list
      exact .last (.either .nil (.last stick))
    · apply Code.Has.seq list
      exact .last (.either (.idle (.last stick)) .nil)
  · apply Code.Has.idle
    apply Code.Has.seq list
    apply Code.Has.last
    apply Code.Has.either
    · apply Code.Has.seq total
      exact .last (.either (.last (packageSend_fits _).thread) .nil)
    · exact .nil

/-! ### `main.c` -/

def updateCpuList : Code Lock :=
  .block [.critical .listCpuMutex, .loop (.any fun i => packageSend (.cpu i))]

def memoryStickProtocol (i : ℕ) : Code Lock :=
  .block
    [.critical .nextMemoryStickIdMutex,
      .critical (.memoryStickNetworkMutex i),
      bufferReceive,
      .critical .totalMemorySizeMutex,
      .either [packageSend .kernelScheduler] [],
      .critical .listMemoryStickMutex,
      bufferReceive,
      bufferReceive,
      .critical .listMemoryStickCredentialsMutex,
      .critical .listCpuMutex,
      .either [updateCpuList] []]

theorem memoryStickProtocol_has (i : ℕ) : (memoryStickProtocol i).Has order [] [] := by
  have list : ∀ l : Lock, l.rank = 2 → (Code.critical l).Has order [] [] :=
    fun l rank => (critical_fits rank).thread
  have network : (Code.critical (Lock.memoryStickNetworkMutex i)).Fits order (order.Below 3) := by
    apply Code.Fits.critical
    grind
  have update : updateCpuList.Has order [] [] := by
    apply Code.Has.seq (list _ rfl)
    exact .last (Code.Fits.any fun i => packageSend_fits (.cpu i)).loop.thread
  apply Code.Has.seq (list _ rfl)
  apply Code.Has.seq network.thread
  apply Code.Has.idle
  apply Code.Has.seq (list _ rfl)
  apply Code.Has.seq
  · exact .either (.last (packageSend_fits _).thread) .nil
  · apply Code.Has.seq (list _ rfl)
    apply Code.Has.idle
    apply Code.Has.idle
    apply Code.Has.seq (list _ rfl)
    apply Code.Has.seq (list _ rfl)
    exact .last (.either (.last update) .nil)

/-- What a thread may be created for; `handle_module` by the module that has connected. -/
inductive Role where
  | main
  | handleKernelScheduler
  | handleCpu (i : ℕ)
  | handleSwap
  | handleMemoryStick (i : ℕ)
  | segmentCreateThread

/-- Where `handle_module` starts: a handshake, or nothing more. -/
def handleModule (module : List (Code Lock)) : Code Lock :=
  .block [operationReceive, .either [] [bufferReceive, .block module]]

theorem handleModule_has {module : List (Code Lock)}
    (handled : (Code.block module).Has order [] []) : (handleModule module).Has order [] [] := by
  apply Code.Has.idle
  exact .last (.either .nil (.idle (.last handled)))

def Role.code : Role → Code Lock
  | main => .loop .wait
  | handleKernelScheduler =>
      handleModule
        [.critical .totalMemorySizeMutex,
          .either [packageSend .kernelScheduler] [],
          kernelSchedulerHandler]
  | handleCpu i =>
      handleModule
        [bufferReceive,
          .critical .listCpuMutex,
          .lock .listMemoryStickCredentialsMutex,
          packageSend (.cpu i),
          .unlock .listMemoryStickCredentialsMutex,
          packageSend (.cpu i),
          cpuHandler (.cpu i)]
  | handleSwap => handleModule [swapHandler]
  | handleMemoryStick i => handleModule [memoryStickProtocol i, memoryStickHandler i]
  | segmentCreateThread => Locks.segmentCreateThread

/-- Every thread keeps the order, and has no lock in the end. -/
theorem Role.code_has (role : Role) : role.code.Has order [] [] := by
  have list : ∀ l : Lock, l.rank = 2 → (Code.critical l).Has order [] [] :=
    fun l rank => (critical_fits rank).thread
  cases role with
  | main => exact .loop ⟨by simp [Code.Ordered], rfl⟩
  | handleKernelScheduler =>
      apply handleModule_has
      apply Code.Has.seq (list _ rfl)
      apply Code.Has.seq
      · exact .either (.last (packageSend_fits _).thread) .nil
      · exact .last kernelSchedulerHandler_has
  | handleCpu i =>
      have credentials := packageSend_fits (.cpu i)
      apply handleModule_has
      apply Code.Has.idle
      apply Code.Has.seq (list _ rfl)
      apply Code.Has.lock
      · simp
      · apply Code.Has.call credentials (by grind)
        apply Code.Has.unlock
        apply Code.Has.seq credentials.thread
        exact .last (cpuHandler_has _)
  | handleSwap => exact handleModule_has (.last swapHandler_has)
  | handleMemoryStick i =>
      apply handleModule_has
      exact .seq (memoryStickProtocol_has i) (.last (memoryStickHandler_has i))
  | segmentCreateThread => exact segmentCreateThread_has

/-- The threads that bring the replies of the memory sticks and of SWAP. -/
def Role.replies : Role → Prop
  | handleSwap | handleMemoryStick _ => True
  | _ => False

/-- They take no record of a process, nor the list of processes. -/
theorem Role.replies_takes {role : Role} (replies : role.replies) :
    role.code.Takes fun l => 1 < l.rank := by
  cases role with
  | main | handleKernelScheduler | handleCpu | segmentCreateThread => exact replies.elim
  | handleSwap =>
      simp [Role.code, handleModule, swapHandler, Code.Takes, Code.block, Code.either,
        Code.switch, Code.critical, Lock.rank]
  | handleMemoryStick i =>
      simp [Role.code, handleModule, memoryStickProtocol, memoryStickHandler, updateCpuList,
        packageSend, Code.Takes, Code.block, Code.either, Code.switch, Code.critical, Lock.rank]

section

variable {τ : Type} [DecidableEq τ]

/-- **The threads of the kernel memory never wait for each other in a circle**, whichever
threads there are, and however their steps are ordered. A thread that waits for something
that is not a lock has nothing but records of processes. Behind each lock that is taken, some
thread can go on or waits in this way; and each thread that brings a reply waits for its next
message, or some thread can go on for it. -/
theorem no_circle_of_memory_locks (roles : τ → Role) {s : Threads τ Lock}
    (reached : Threads.Reachable (fun t => (roles t).code) s) :
    (∀ t, ¬ Relation.TransGen s.WaitsFor t t) ∧
      (∀ t, s.AtWait t → ∀ l, s.owner l = some t → ∃ pcb, l = .pcbMutex pcb) ∧
      (∀ t l, s.owner l = some t →
        ∃ u, Relation.ReflTransGen s.WaitsFor t u ∧ (s.CanMove u ∨ s.AtWait u)) ∧
      (∀ t, (roles t).replies → s.todo t ≠ .skip → ¬ s.AtWait t →
        ∃ u, Relation.ReflTransGen s.WaitsFor t u ∧ s.CanMove u) := by
  have fits : ∀ t, ((roles t).code).Has order [] [] := fun t => (roles t).code_has
  refine ⟨?_, ?_, ?_, ?_⟩
  · intro t
    exact Threads.acyclic fits reached t
  · intro t waits l owned
    have patient := Threads.patient_of_atWait fits reached waits owned
    cases l with
    | pcbMutex pcb => exact ⟨pcb, rfl⟩
    | _ => simp [order_patient, Lock.rank] at patient
  · intro t l owned
    obtain ⟨u, chain, ends⟩ := Threads.leads_to_patient fits reached owned
    exact ⟨u, chain, ends.imp_right And.left⟩
  · intro t replies busy wants
    apply Threads.leads_to_mover_of_takes fits reached _ busy wants
    apply (Role.replies_takes replies).mono
    intro l above k patient
    rw [order_rank, order_rank, (order_patient k).mp patient]
    exact above

end

/-- A process is being suspended: the thread has its record, and waits for a memory stick. -/
theorem no_circle_of_memory_locks_suspending :
    ∃ s : Threads Bool Lock, (s.owner (.pcbMutex 7) = some true ∧ s.AtWait true) ∧
      (∀ t, ¬ Relation.TransGen s.WaitsFor t t) ∧
      (∀ t, s.AtWait t → ∀ l, s.owner l = some t → ∃ pcb, l = .pcbMutex pcb) ∧
      (∀ t l, s.owner l = some t →
        ∃ u, Relation.ReflTransGen s.WaitsFor t u ∧ (s.CanMove u ∨ s.AtWait u)) ∧
      (s.todo false ≠ .skip → ¬ s.AtWait false →
        ∃ u, Relation.ReflTransGen s.WaitsFor false u ∧ s.CanMove u) := by
  let roles : Bool → Role
    | true => .handleKernelScheduler
    | false => .handleMemoryStick 2
  -- The handshake, a message of the scheduler, its kind, and the first piece of a segment.
  obtain ⟨s, run, suspending⟩ := OsModel.Lib.Run.exists_of_exec Threads.step (fun _ _ => True)
    (([0, 0, 1, 0, 0, 0, 0, 0, 0, 0, 1, 0, 1, 0, 0, 1, 1, 1, 1, 1, 1, 1, 0, 0] ++
      [0, 0, 0, 0, 0, 0, 0, 0, 0, 0, 1, 7, 0, 0, 0, 0, 1, 0, 0, 0, 0, 0, 1] ++
      [0, 0, 0, 0, 0, 1, 2, 0, 0, 0, 0, 0]).map (true, ·))
    (Threads.start fun t => (roles t).code)
    (fun s => s.owner (.pcbMutex 7) = some true ∧ (s.todo true).head = some .wait)
    (by decide)
  simp only [decide_eq_true_eq] at suspending
  obtain ⟨circle, waits, chains, replies⟩ := no_circle_of_memory_locks roles ⟨_, run⟩
  exact ⟨s, suspending, circle, waits, chains, replies false trivial⟩

end OsModel.KernelMemory.Locks
