import OsModel.System.SwapRequests

/-!
Which swap-ins are lost.

A process that waits for a `SWAP_IN`, and for which there is room, is asked for only through a
`MEMORY_UPDATE`, which Kernel Memory sends when a memory stick connects and at no other time.

* `swapIn_triggered`: in a run in which no step makes room for a process that waits, and no
  process begins to wait while there is room for it, but for the steps that are followed by a
  `MEMORY_UPDATE` or come while one is under way, every process that waits and for which there
  is room has its `SWAP_IN` under way.
* `swapIn_lost`: a process that is woken after its `SWAP_OUT` stays where it is.
-/

namespace OsModel.SwapRequests

open Lib KernelMemory

variable {ι : Type} {s t : System ι} {pid : UInt32}

/-! ### Requests under way -/

/-- Messages that are sent, and a `SWAP_IN` that is read, stay under way. -/
theorem System.Triggered.mono (triggered : s.Triggered pid)
    (answers : s.scheduler.memory.fromMemory ⊆ t.scheduler.memory.fromMemory)
    (requests : ∀ message ∈ s.scheduler.memory.toMemory, message.asksFor pid = true →
      message ∈ t.scheduler.memory.toMemory ∨ t.Triggered pid)
    (loop : ∀ loop ∈ s.swapIn, pid ∈ loop.pids ∨ pid ∈ loop.desuspendedPids → t.Triggered pid) :
    t.Triggered pid := by
  rcases triggered with ⟨message, mem, brings⟩ | ⟨message, mem, asks⟩ | ⟨here, mem, which⟩
  · exact .inl ⟨message, answers mem, brings⟩
  · rcases requests message mem asks with still | done
    · exact .inr (.inl ⟨message, still, asks⟩)
    · exact done
  · exact loop here mem which

theorem not_triggered_of_quiet (quiet : s.Quiet) : ¬ s.Triggered pid := by
  obtain ⟨toMemory, fromMemory, swapIn⟩ := quiet
  simp [System.Triggered, toMemory, fromMemory, swapIn]

/-! ### The invariant -/

/-- Every process that waits, and for which there is room, is brought back. -/
structure Inv (s : System ι) : Prop where
  known : s.scheduler.suspendedProcesses ⊆ s.scheduler.listProcesses
  triggered : ∀ pid, s.scheduler.Awaits pid → HasRoom s.memory pid → s.Triggered pid

/-! ### Steps of the scheduler -/

section Scheduler

variable {scheduler : KernelScheduler.State ι}

/-- The scheduler sends, and reads nothing. -/
theorem System.Triggered.of_sent (triggered : s.Triggered pid)
    (sent : s.scheduler.memory.Sends scheduler.memory) :
    ({ s with scheduler } : System ι).Triggered pid := by
  obtain ⟨sent, memory⟩ := sent
  refine triggered.mono (fun message mem => ?_) (fun message mem _ => .inl ?_)
    fun loop mem which => .inr (.inr ⟨loop, mem, which⟩)
  · show message ∈ scheduler.memory.fromMemory
    rw [memory]
    exact mem
  · show message ∈ scheduler.memory.toMemory
    rw [memory]
    exact List.mem_append_left _ mem

/-- The scheduler after it has taken a message, before it handles it. -/
def System.taken (s : System ι) (rest : List KernelScheduler.FromMemory) : System ι :=
  { s with scheduler := { s.scheduler with memory.fromMemory := rest } }

theorem System.Triggered.of_taken {message : KernelScheduler.FromMemory}
    {rest : List KernelScheduler.FromMemory} (triggered : s.Triggered pid)
    (next : s.scheduler.memory.fromMemory = message :: rest)
    (other : message.bringsBack pid = false) : (s.taken rest).Triggered pid := by
  rcases triggered with ⟨first, mem, brings⟩ | later
  · rw [next] at mem
    rcases List.mem_cons.mp mem with rfl | mem
    · rw [other] at brings
      cases brings
    · exact .inl ⟨first, mem, brings⟩
  · exact .inr later

theorem Inv.taken {message : KernelScheduler.FromMemory} {rest : List KernelScheduler.FromMemory}
    (inv : Inv s) (next : s.scheduler.memory.fromMemory = message :: rest)
    (other : ∀ pid, message.bringsBack pid = false) : Inv (s.taken rest) :=
  ⟨inv.known, fun pid awaits room => (inv.triggered pid awaits room).of_taken next (other pid)⟩

variable {config : KernelScheduler.Config}

theorem Inv.of_sent (inv : Inv s) (sent : s.scheduler.memory.Sends scheduler.memory)
    (known : scheduler.suspendedProcesses ⊆ scheduler.listProcesses)
    (waits : ∀ pid, scheduler.Awaits pid → HasRoom s.memory pid →
      s.scheduler.Awaits pid ∨ s.Triggered pid) : Inv { s with scheduler } := by
  refine ⟨known, fun pid awaits room => ?_⟩
  rcases waits pid awaits room with before | triggered
  · exact (inv.triggered pid before room).of_sent sent
  · exact triggered.of_sent sent

/-- A process that is woken while there is room for it has its `SWAP_IN` under way. -/
theorem Inv.frame {woken : Option UInt32} (inv : Inv s)
    (frame : KernelScheduler.Frame woken s.scheduler.suspensions scheduler.suspensions)
    (wakes : ∀ pid ∈ s.scheduler.suspendedProcesses, woken = some pid →
      (s.scheduler.process pid).state = .suspBlock → HasRoom s.memory pid → s.Triggered pid) :
    Inv { s with scheduler } := by
  have suspended : scheduler.suspendedProcesses = s.scheduler.suspendedProcesses :=
    frame.suspendedProcesses
  refine inv.of_sent frame.memory ?_ ?_
  · rw [suspended]
    exact List.Subset.trans inv.known frame.listProcesses
  · rintro pid ⟨mem, ready⟩ room
    rw [suspended] at mem
    have before : (scheduler.process pid).state = (s.scheduler.process pid).state ∨
        woken = some pid ∧ (s.scheduler.process pid).state = .suspBlock :=
      frame.state pid (congrArg KernelScheduler.ProcessState.isSuspended ready)
    rcases before with same | ⟨woke, blocked⟩
    · exact .inl ⟨mem, same ▸ ready⟩
    · exact .inr (wakes pid mem woke blocked room)

/-- `SWAP_OUT` has been answered. -/
theorem Inv.swapOut {other : UInt32} {ok : Bool} {rest : List KernelScheduler.FromMemory}
    (inv : Inv s) (next : s.scheduler.memory.fromMemory = .swapOut other ok :: rest)
    (prompt : ok = true → other ∈ s.scheduler.listProcesses →
      (s.scheduler.process other).state = .suspReady → HasRoom s.memory other →
        s.Triggered other) :
    Inv { s with
      scheduler :=
        KernelScheduler.waitConfirmationSwapOut config (s.taken rest).scheduler other ok } := by
  have inv' : Inv (s.taken rest) := inv.taken next fun _ => rfl
  obtain ⟨memory, list, listed, ready⟩ :=
    KernelScheduler.waitConfirmationSwapOut_frame config (s.taken rest).scheduler other ok
  refine inv'.of_sent (memory ▸ .refl _) (fun pid mem => ?_) ?_
  · rw [list]
    rcases listed pid mem with before | ⟨rfl, -, known⟩
    · exact inv'.known before
    · exact known
  · rintro pid ⟨mem, still⟩ room
    rcases listed pid mem with before | ⟨rfl, rfl, known⟩
    · exact .inl ⟨before, ready pid still⟩
    · exact .inr ((prompt rfl known (ready pid still) room).of_taken next rfl)

/-- `SWAP_IN` has been answered: the processes that are back do not wait any more. -/
theorem Inv.swapIn {pids : List UInt32} {rest : List KernelScheduler.FromMemory} (inv : Inv s)
    (next : s.scheduler.memory.fromMemory = .swapIn pids :: rest) :
    Inv { s with
      scheduler :=
        KernelScheduler.waitConfirmationSwapIn config (s.taken rest).scheduler pids } := by
  obtain ⟨memory, list, fewer, ready⟩ :=
    KernelScheduler.waitConfirmationSwapIn_frame config (s.taken rest).scheduler pids
  constructor
  · intro pid mem
    rw [list]
    exact inv.known (fewer mem)
  · rintro pid ⟨mem, still⟩ room
    obtain ⟨before, gone⟩ := ready pid still
    have mem : pid ∈ s.scheduler.suspendedProcesses := fewer mem
    have absent : pid ∉ pids := fun named => gone named (inv.known mem)
    have other : (KernelScheduler.FromMemory.swapIn pids).bringsBack pid = false := by
      simpa [KernelScheduler.FromMemory.bringsBack] using absent
    have triggered := (inv.triggered pid ⟨mem, before⟩ room).of_taken next other
    exact triggered.of_sent (memory ▸ .refl _)

/-- `MEMORY_UPDATE` asks for every process that waits. -/
theorem Inv.memoryUpdate (inv : Inv s) (rest : List KernelScheduler.FromMemory) :
    Inv { s with scheduler := KernelScheduler.requestSwapIn (s.taken rest).scheduler } := by
  have frame : KernelScheduler.Frame none (s.taken rest).scheduler.suspensions
      (KernelScheduler.requestSwapIn (s.taken rest).scheduler).suspensions :=
    KernelScheduler.frame_requestSwapIn _
  have suspended : (KernelScheduler.requestSwapIn (s.taken rest).scheduler).suspendedProcesses =
      s.scheduler.suspendedProcesses := frame.suspendedProcesses
  constructor
  · show (KernelScheduler.requestSwapIn (s.taken rest).scheduler).suspendedProcesses ⊆ _
    rw [suspended]
    exact List.Subset.trans inv.known frame.listProcesses
  · rintro pid ⟨mem, ready⟩ -
    have mem : pid ∈ s.scheduler.suspendedProcesses := suspended ▸ mem
    have before := frame.state pid (congrArg KernelScheduler.ProcessState.isSuspended ready)
    have same := before.resolve_right fun woke => by cases woke.1
    have awaits : (s.taken rest).scheduler.Awaits pid := ⟨mem, same.symm.trans ready⟩
    exact .inr (.inl (KernelScheduler.requestSwapIn_asks awaits))

/-- Any other message is handled. -/
theorem Inv.message [DecidableEq ι] {message : KernelScheduler.FromMemory}
    {rest : List KernelScheduler.FromMemory} (inv : Inv s)
    (next : s.scheduler.memory.fromMemory = message :: rest)
    (other : ∀ pid, message.bringsBack pid = false) (swapOut : ∀ pid ok, message ≠ .swapOut pid ok)
    (swapIn : ∀ pids, message ≠ .swapIn pids) :
    Inv { s with
      scheduler := KernelScheduler.handleMemory config (s.taken rest).scheduler message } := by
  have update : ∀ newSize, message ≠ .memoryUpdate newSize := by
    rintro newSize rfl
    cases other 0
  have frame : KernelScheduler.Frame none (s.taken rest).scheduler.suspensions
      (KernelScheduler.handleMemory config (s.taken rest).scheduler message).suspensions :=
    KernelScheduler.frame_handleMemory swapOut swapIn update
  exact (inv.taken next other).frame frame fun pid _ woke => by cases woke

/-- A step of the scheduler. -/
theorem Inv.step_scheduler [DecidableEq ι] {files : String → Option (List String)}
    {a : KernelScheduler.Action ι} (inv : Inv s) (own : ∀ st, a ≠ .memory st)
    (taken : KernelScheduler.step config s.scheduler a = some scheduler)
    (prompt : Prompt config files s (.scheduler a)) : Inv { s with scheduler } := by
  by_cases suspend : a = .suspend
  · subst suspend
    obtain rfl := Option.some.inj taken
    obtain ⟨sent, list, suspended, ready⟩ :=
      KernelScheduler.suspensionManager_frame config s.scheduler
    refine inv.of_sent sent ?_ ?_
    · rw [suspended, list]
      exact inv.known
    · rintro pid ⟨mem, still⟩ -
      exact .inl ⟨suspended ▸ mem, ready pid still⟩
  by_cases message : a = .handleMemory
  · subst message
    cases next : s.scheduler.memory.fromMemory with
    | nil => simp [KernelScheduler.step, next] at taken
    | cons message rest =>
        simp only [KernelScheduler.step, next, Option.some.injEq] at taken
        subst taken
        cases message with
        | swapOut pid ok =>
            refine inv.swapOut next fun confirmed known ready room => ?_
            refine prompt pid known (.inr ⟨?_, ready⟩) room
            subst confirmed
            simp only [KernelScheduler.State.swappedOut, next, List.head?_cons]
        | swapIn pids => exact inv.swapIn next
        | memoryUpdate newSize => exact inv.memoryUpdate rest
        | processCreate | segmentResult | ioMemoryRead | ioMemoryWrite | compactionRequest
        | compactionFinished | corruptedMemory =>
            exact inv.message next (fun _ => rfl) (by simp) (by simp)
  refine inv.frame (KernelScheduler.step_frame taken suspend message own) ?_
  intro pid mem woke blocked room
  exact prompt pid (inv.known mem) (.inl ⟨woke, mem, blocked⟩) room

end Scheduler

/-! ### Steps of Kernel Memory -/

section Memory

/-- Kernel Memory reads a request that is no `SWAP_IN`. -/
theorem System.Triggered.of_read {request : KernelScheduler.ToMemory} (triggered : s.Triggered pid)
    (queue : s.scheduler.memory.toMemory = request :: t.scheduler.memory.toMemory)
    (other : request.asksFor pid = false)
    (answers : s.scheduler.memory.fromMemory ⊆ t.scheduler.memory.fromMemory)
    (loop : t.swapIn = s.swapIn) : t.Triggered pid := by
  refine triggered.mono answers (fun message mem asks => .inl ?_) fun loop' mem which => ?_
  · rw [queue] at mem
    rcases List.mem_cons.mp mem with rfl | mem
    · rw [other] at asks
      cases asks
    · exact mem
  · exact .inr (.inr ⟨loop', loop ▸ mem, which⟩)

/-- Kernel Memory sends, and reads nothing. -/
theorem System.Triggered.of_send (triggered : s.Triggered pid)
    (requests : t.scheduler.memory.toMemory = s.scheduler.memory.toMemory)
    (answers : s.scheduler.memory.fromMemory ⊆ t.scheduler.memory.fromMemory)
    (loop : t.swapIn = s.swapIn) : t.Triggered pid :=
  triggered.mono answers (fun _ mem _ => .inl (requests ▸ mem))
    fun loop' mem which => .inr (.inr ⟨loop', loop ▸ mem, which⟩)

/-- `kernel_scheduler_handler` has handled a request in one critical section. -/
theorem Inv.answer {request : KernelScheduler.ToMemory} {rest : List KernelScheduler.ToMemory}
    {handled : List KernelScheduler.FromMemory × State} (inv : Inv s)
    (queue : s.scheduler.memory.toMemory = request :: rest)
    (other : ∀ pid, request.asksFor pid = false)
    (triggered : ∀ pid, s.scheduler.Awaits pid → HasRoom handled.2 pid → s.Triggered pid) :
    Inv (s.answer rest handled) :=
  ⟨inv.known, fun pid awaits room => (triggered pid awaits room).of_read queue (other pid)
    (List.subset_append_left _ _) rfl⟩

variable [DecidableEq ι] {config : KernelScheduler.Config}
  {files : String → Option (List String)} {a : Action ι}

/-- A process for which there is room after a step has had room before, or it is the step that
makes it. -/
theorem Inv.triggered_of_room (inv : Inv s) (taken : step config files s a = some t)
    (prompt : ∀ pid ∈ s.scheduler.listProcesses, s.scheduler.Awaits pid →
      s.MakesRoom config files a pid → s.Triggered pid)
    (awaits : s.scheduler.Awaits pid) (room : HasRoom t.memory pid) : s.Triggered pid := by
  by_cases before : HasRoom s.memory pid
  · exact inv.triggered pid awaits before
  · exact prompt pid (inv.known awaits.1) awaits ⟨before, t, taken, room⟩

/-- `kernel_scheduler_handler` reads a request. -/
theorem Inv.handle {heap : List UInt8} (inv : Inv s)
    (taken : step config files s (.handle heap) = some t)
    (prompt : Prompt config files s (.handle heap)) : Inv t := by
  have triggered : ∀ pid, s.scheduler.Awaits pid → HasRoom t.memory pid → s.Triggered pid :=
    fun pid awaits room => inv.triggered_of_room taken prompt awaits room
  simp only [step] at taken
  split at taken
  · rename_i request rest idle queue
    cases request with
    | segmentCreate pid segmentId segmentSize =>
        obtain rfl := Option.some.inj taken
        exact ⟨inv.known, fun pid awaits room => (triggered pid awaits room).of_read queue rfl
          (List.Subset.refl _) rfl⟩
    | swapIn pids =>
        obtain rfl := Option.some.inj taken
        refine ⟨inv.known, fun pid awaits room => ?_⟩
        refine (triggered pid awaits room).mono (List.Subset.refl _) (fun message mem asks => ?_)
          fun loop mem _ => ?_
        · rw [queue] at mem
          rcases List.mem_cons.mp mem with rfl | mem
          · exact .inr (.inr (.inr ⟨_, rfl, .inl (List.contains_iff_mem.mp asks)⟩))
          · exact .inl mem
        · rw [idle] at mem
          cases mem
    | compactionReady =>
        obtain rfl := Option.some.inj taken
        exact ⟨inv.known, fun pid awaits room => (triggered pid awaits room).of_read queue rfl
          (List.Subset.refl _) rfl⟩
    | processCreate | processEnd | segmentDelete | ioMemoryRead | ioMemoryWrite | swapOut =>
        simp only [handleRequest] at taken
        obtain ⟨handled, -, rfl⟩ := Option.map_eq_some_iff.mp taken
        exact inv.answer queue (fun _ => rfl) triggered
  · cases taken

/-- `kernel_scheduler_handler` goes on with a `SWAP_IN`: a process for which there is room at
its turn comes back. -/
theorem Inv.continueSwapIn (inv : Inv s) (taken : step config files s .swapIn = some t)
    (prompt : Prompt config files s .swapIn) : Inv t := by
  obtain ⟨loop, here, rfl⟩ := Option.map_eq_some_iff.mp taken
  obtain ⟨pids, desuspendedPids⟩ := loop
  cases pids with
  | nil =>
      refine ⟨inv.known, fun pid awaits room => ?_⟩
      refine (inv.triggered pid awaits room).mono (List.subset_append_left _ _)
        (fun message mem _ => .inl mem) fun loop mem which => .inl ?_
      obtain rfl : SwapIn.mk [] desuspendedPids = loop := Option.some.inj (here.symm.trans mem)
      refine ⟨_, List.mem_append_right _ (List.mem_singleton_self _), ?_⟩
      exact List.contains_iff_mem.mpr (which.resolve_left (List.not_mem_nil))
  | cons first rest =>
      refine ⟨inv.known, fun pid awaits room => ?_⟩
      have waits : s.scheduler.Awaits pid := awaits
      by_cases before : HasRoom s.memory pid
      · refine (inv.triggered pid waits before).mono (List.Subset.refl _)
          (fun message mem _ => .inl mem) fun loop mem which => .inr (.inr ⟨_, rfl, ?_⟩)
        obtain rfl : SwapIn.mk (first :: rest) desuspendedPids = loop :=
          Option.some.inj (here.symm.trans mem)
        rcases which with todo | done
        · rcases List.mem_cons.mp todo with rfl | later
          · have ok : (processDesuspend s.memory pid).1 = true := before
            rw [ok]
            exact .inr (List.mem_append_right _ (List.mem_singleton_self _))
          · exact .inl later
        · exact .inr (SwapIn.mem_tried done)
      · have other := prompt pid (inv.known waits.1) waits ⟨before, _, taken, room⟩
        refine other.mono (List.Subset.refl _) (fun message mem _ => .inl mem)
          fun loop passed which => .inr (.inr ⟨_, rfl, ?_⟩)
        obtain ⟨loop, mem, rfl⟩ := Option.map_eq_some_iff.mp passed
        obtain rfl : SwapIn.mk (first :: rest) desuspendedPids = loop :=
          Option.some.inj (here.symm.trans mem)
        rcases which with later | done
        · exact .inl later
        · exact .inr (SwapIn.mem_tried done)

/-- A step of the scheduler is none of what Kernel Memory does in its model. -/
theorem scheduler_step {a : KernelScheduler.Action ι}
    (taken : step config files s (.scheduler a) = some t) :
    (∀ st, a ≠ .memory st) ∧
      ∃ scheduler, KernelScheduler.step config s.scheduler a = some scheduler ∧
      { s with scheduler } = t := by
  cases a with
  | memory st => cases taken
  | tick | process0 | connectCpu | cpu | handleCpu | disconnectCpu | confirm | wake | schedule
  | quantum | suspend | connectIo | handleIo | disconnectIo | written | handleMemory | compaction =>
      refine ⟨fun st same => ?_, Option.map_eq_some_iff.mp taken⟩
      cases same

/-- A step of anyone. -/
theorem Inv.step (inv : Inv s) (prompt : Prompt config files s a)
    (taken : step config files s a = some t) : Inv t := by
  cases a with
  | scheduler a =>
      obtain ⟨own, scheduler, steps, rfl⟩ := scheduler_step taken
      exact inv.step_scheduler own steps prompt
  | handle heap => exact inv.handle taken prompt
  | swapIn => exact inv.continueSwapIn taken prompt
  | create i =>
      have triggered : ∀ pid, s.scheduler.Awaits pid → HasRoom t.memory pid → s.Triggered pid :=
        fun pid awaits room => inv.triggered_of_room taken prompt awaits room
      obtain ⟨th, -, run⟩ := Option.bind_eq_some_iff.mp taken
      unfold runCreate at run
      split at run
      · cases run
      · obtain ⟨next, -, rfl⟩ := Option.map_eq_some_iff.mp run
        exact ⟨inv.known, fun pid awaits room =>
          (triggered pid awaits room).of_send rfl (List.subset_append_left _ _) rfl⟩
  | connectStick id size =>
      obtain rfl := Option.some.inj taken
      refine ⟨inv.known, fun pid _ _ =>
        .inl ⟨.memoryUpdate (s.memory.totalMemorySize + size), ?_, rfl⟩⟩
      exact List.mem_append_right _ (List.mem_singleton_self _)
  | addStick i =>
      have triggered : ∀ pid, s.scheduler.Awaits pid → HasRoom t.memory pid → s.Triggered pid :=
        fun pid awaits room => inv.triggered_of_room taken prompt awaits room
      obtain ⟨⟨id, size⟩, -, rfl⟩ := Option.map_eq_some_iff.mp taken
      exact ⟨inv.known, triggered⟩
  | disconnectStick id =>
      have triggered : ∀ pid, s.scheduler.Awaits pid → HasRoom t.memory pid → s.Triggered pid :=
        fun pid awaits room => inv.triggered_of_room taken prompt awaits room
      obtain ⟨stick, -, rfl⟩ := Option.map_eq_some_iff.mp taken
      exact ⟨inv.known, fun pid awaits room =>
          (triggered pid awaits room).of_send rfl (List.subset_append_left _ _) rfl⟩
  | contextTransfer pid context =>
      have triggered : ∀ pid, s.scheduler.Awaits pid → HasRoom t.memory pid → s.Triggered pid :=
        fun pid awaits room => inv.triggered_of_room taken prompt awaits room
      obtain rfl := Option.some.inj taken
      exact ⟨inv.known, triggered⟩
  | cpuWrite physicalAddress size data =>
      have triggered : ∀ pid, s.scheduler.Awaits pid → HasRoom t.memory pid → s.Triggered pid :=
        fun pid awaits room => inv.triggered_of_room taken prompt awaits room
      obtain rfl := Option.some.inj taken
      exact ⟨inv.known, triggered⟩

end Memory

/-! ### Runs -/

theorem start_inv (memory : State) (connecting : List (UInt32 × UInt32)) :
    Inv (start memory connecting : System ι) :=
  ⟨List.nil_subset _, fun _ awaits _ => absurd awaits.1 List.not_mem_nil⟩

variable [DecidableEq ι] {config : KernelScheduler.Config}
  {files : String → Option (List String)}

/-- **Which swap-ins are triggered**: in a run of prompt steps every process that waits, and for
which there is room, has its `SWAP_IN` under way; so none is left when nothing is under way. -/
theorem swapIn_triggered {memory : State} {connecting : List (UInt32 × UInt32)}
    {as : List (Action ι)}
    (run : Run (step config files) (Prompt config files) (start memory connecting) as s) :
    (∀ pid, s.scheduler.Awaits pid → HasRoom s.memory pid → s.Triggered pid) ∧
      (s.Quiet → ∀ pid, s.scheduler.Awaits pid → ¬ HasRoom s.memory pid) := by
  have inv : Inv s := run.invariant (fun inv prompt taken => inv.step prompt taken)
    (start_inv memory connecting)
  refine ⟨inv.triggered, fun quiet pid awaits room => ?_⟩
  exact not_triggered_of_quiet quiet (inv.triggered pid awaits room)

/-! ### Two runs -/

/-- Kernel Memory with a stick of 16 bytes. -/
def sixteen : State := KernelMemory.connectStick
  (initial .best 4 64 (fun _ _ => 0) [] fun _ => 0) 0 16

/-- The only program. -/
def oneFile (path : String) : Option (List String) := if path = "p0" then some ["EXIT"] else none

/-- The first process has a segment of 16 bytes, sleeps and is swapped out. -/
def asleep : List (Action ℕ) :=
  [.scheduler .handleMemory, .scheduler (.process0 "p0"), .handle [], .scheduler .handleMemory,
    .scheduler (.connectCpu 0), .scheduler .wake, .scheduler .schedule,
    .scheduler (.cpu 0 .execute),
    .scheduler (.cpu 0 (.stop (.memAlloc 0 16))), .scheduler (.handleCpu 0), .handle [], .create 0,
    .create 0, .scheduler .handleMemory, .scheduler (.cpu 0 .execute),
    .scheduler (.connectIo 0 .sleep), .scheduler (.cpu 0 (.stop (.sleep 5))),
    .scheduler (.handleCpu 0), .scheduler .suspend, .handle [], .scheduler .handleMemory]

/-- It wakes up after a stick has connected, and is brought back. -/
theorem swapIn_triggered_of_update :
    ∃ s : System ℕ, s.Quiet ∧ (s.scheduler.process 0).state = .ready ∧
      ∀ pid, s.scheduler.Awaits pid → ¬ HasRoom s.memory pid := by
  obtain ⟨s, run, test⟩ := Run.exists_of_exec (step KernelScheduler.impatient oneFile)
    (Prompt KernelScheduler.impatient oneFile)
    (asleep.append [.connectStick 1 16, .scheduler (.handleIo 0 ""), .addStick 0,
      .scheduler .handleMemory, .handle [], .swapIn, .swapIn, .scheduler .handleMemory])
    (start sixteen [])
    (fun s => decide (s.Quiet ∧ (s.scheduler.process 0).state = .ready)) (by decide +kernel)
  obtain ⟨quiet, ready⟩ := of_decide_eq_true test
  exact ⟨s, quiet, ready, (swapIn_triggered run).2 quiet⟩

/-- **A lost swap-in**: it wakes up when nothing is under way, and stays `SUSP_READY`, with all
of the memory free. -/
theorem swapIn_lost :
    ∃ (as : List (Action ℕ)) (s : System ℕ),
      Run (step KernelScheduler.impatient oneFile) (fun _ _ => True) (start sixteen []) as s ∧
        s.Quiet ∧ s.scheduler.Awaits 0 ∧ HasRoom s.memory 0 := by
  obtain ⟨s, run, test⟩ := Run.exists_of_exec (step KernelScheduler.impatient oneFile)
    (fun _ _ => True) (asleep.append [.scheduler (.handleIo 0 "")]) (start sixteen [])
    (fun s => decide (s.Quiet ∧ s.scheduler.Awaits 0 ∧ HasRoom s.memory 0)) (by decide +kernel)
  exact ⟨_, s, run, of_decide_eq_true test⟩

end OsModel.SwapRequests
