import OsModel.System.SchedulerSections

/-!
The Kernel Scheduler refines its critical sections.

* `handlers_refine_sections`: a run of the handlers is brought about by a run of the sections, in
  which the CPUs do the same and the records say the same.
-/

namespace OsModel.SchedulerSections

open Lib KernelScheduler

variable {ι : Type} [DecidableEq ι] {config : Config} {m : UInt32 → Mode} {s s' : State ι}
  {d : Dispatch.State ι} {place : UInt32 → Option (Place ι)} {pid : UInt32} {cpu : ι}

/-! ### The short-term scheduler -/

theorem Shows.setInRound {v : View ι} {inRound : Bool} (shows : Shows v d) :
    Shows { v with inRound } { d with inRound } :=
  { shows with inRound := rfl }

/-- A process is assigned to a CPU, and sent to it. -/
theorem dispatch_reaches (shows : Shows (seen s) d) (quiet : Quiet d) (owned : s.board.Owned)
    (inRound : s.inRound = true) (next : getNextProcessToExecute config s = some pid)
    (free : getAvailableCpu s = some cpu) : Reaches d [] (seen (dispatch config s pid cpu)) := by
  obtain ⟨outstanding, told⟩ := shows.told cpu
  have ready := getNextProcessToExecute_ready next
  have known := record_seen (congrArg stateSeen ready)
  obtain ⟨p, found, agrees, -⟩ := shows.found known
  have connected : (s.cpu cpu).connection = .connected :=
    owned.listed cpu (List.mem_of_find?_eq_some free)
  obtain ⟨available, calm⟩ : (s.cpu cpu).isAvailable = true ∧ (s.cpu cpu).isEvicting = false := by
    simpa using List.find?_some free
  let taken := cpuSeen { s.cpu cpu with isAvailable := false } outstanding
  let assigned : Dispatch.State ι :=
    { d.updateProcess pid fun p => { p with state := .exec, cpu := some cpu } with
      readyQueue := d.readyQueue.erase pid
      execProcesses := s.execProcesses ++ [pid] }
  have pick : Dispatch.step d (.pick pid cpu) =
      some ((assigned.setCpu cpu taken).setThread .shortTerm (.sendToExecute pid cpu false)) := by
    simp only [Dispatch.step, found]
    rw [if_pos]
    · rw [shows.execProcesses, told]
      rfl
    · refine ⟨shows.inRound.trans inRound, quiet _, (shows.ready pid).mpr ⟨_, known, rfl⟩,
        agrees.state (by simp), ?_⟩
      rw [told]
      exact ⟨cpuSeen_connected.mpr connected, available, by simp [cpuSeen, calm]⟩
  have left : Shows ((seen s).setRecord pid
      (some ⟨.exec, some cpu, (s.process pid).pendingMemorySyscall⟩))
      { d.updateProcess pid fun p => { p with state := .exec, cpu := some cpu } with
        readyQueue := d.readyQueue.erase pid } :=
    shows.dequeue known (fun _ => rfl) (fun p before => .of_eq rfl rfl before.pending) (by simp) rfl
  have told' : Shows _ (assigned.setCpu cpu taken) :=
    Shows.setCpu (Shows.setExec left)
  refine .step pick rfl ?_
  unfold KernelScheduler.dispatch
  refine sendPidToExecute_reaches ?_ quiet
  let reserved := (removeProcessFromReadyQueue config s pid).setCpu cpu fun c =>
    { c with isAvailable := false }
  have moved := congrArg (fun v : View ι => { v with execProcesses := s.execProcesses ++ [pid] })
    (seen_setProcess reserved pid fun p =>
      { p with
        state := .exec
        cpu := some cpu
        startExecTime := if config.schedulerAlgorithm = .fifo then p.startExecTime else s.now })
  exact (congrArg (Shows · (assigned.setCpu cpu taken)) moved).mpr told'

theorem inRound_preempt : (preempt config s pid).inRound = s.inRound := by
  have evicted {cpu : Option ι} : (evictProcess s cpu .priorityPreemption).inRound = s.inRound := by
    unfold evictProcess
    cases sent : sendProcessEvict s .priorityPreemption .handleState cpu with
    | none => rfl
    | some s' =>
        obtain ⟨cpu, -, -, -, rfl⟩ := sendProcessEvict_some sent
        rfl
  unfold preempt
  split
  · split
    · rfl
    · split
      · exact evicted
      · rfl
  · rfl

theorem endRound_reaches (shows : Shows (seen s) d) (quiet : Quiet d) (inRound : s.inRound = true) :
    Reaches d [] (seen { s with inRound := false }) := by
  have ended : Dispatch.step d .endRound = some { d with inRound := false } := by
    simp only [Dispatch.step]
    rw [if_pos ⟨shows.inRound.trans inRound, quiet _⟩]
  exact .step ended rfl (.stay shows.setInRound quiet)

/-- A turn of the inner loop of the short-term scheduler. -/
theorem shortTermTurn_reaches (shows : Shows (seen s) d) (quiet : Quiet d) (owned : s.board.Owned)
    (inRound : s.inRound = true) : Reaches d [] (seen (shortTermTurn config s)) := by
  unfold shortTermTurn
  split
  · rename_i pid cpu next free
    exact dispatch_reaches shows quiet owned inRound next free
  · rename_i pid next full
    have preempted : Reaches d [] (seen (preempt config s pid)) := by
      unfold preempt
      split
      · split
        · exact .stay shows quiet
        · split
          · exact evictProcess_reaches shows quiet
          · exact .stay shows quiet
      · exact .stay shows quiet
    exact preempted.trans fun d' shows' quiet' =>
      endRound_reaches shows' quiet' (inRound_preempt.trans inRound)
  · exact endRound_reaches shows quiet inRound

/-- The short-term scheduler wakes up. -/
theorem wake_reaches (shows : Shows (seen s) d) (quiet : Quiet d) (outside : s.inRound = false) :
    Reaches d [] (seen { s with
      inRound := s.canSchedule
      shortTermSchedulerSem := s.shortTermSchedulerSem - 1 }) := by
  by_cases opened : s.canSchedule = true
  · have start : Dispatch.step d .startRound = some { d with inRound := s.canSchedule } := by
      have opened' : d.canSchedule = true := shows.canSchedule.trans opened
      have outside' : d.inRound = false := shows.inRound.trans outside
      simp [Dispatch.step, opened, opened', outside']
    exact .step start rfl (.stay shows.setInRound quiet)
  · have same : seen { s with
        inRound := s.canSchedule
        shortTermSchedulerSem := s.shortTermSchedulerSem - 1 } = seen s := by
      have closed : s.canSchedule = s.inRound := by
        rw [outside, Bool.eq_false_iff]
        exact opened
      exact View.ext rfl rfl rfl closed rfl rfl rfl rfl
    rw [same]
    exact .stay shows quiet

/-! ### Suspensions and IO devices -/

omit [DecidableEq ι] in
theorem seen_suspensionScan (pids : List UInt32) (s : State ι) :
    seen (suspensionScan config pids s).2.2 = seen s := by
  induction pids generalizing s with
  | nil => rfl
  | cons pid rest ih =>
      unfold suspensionScan
      split
      · rename_i expired
        exact (ih _).trans (seen_processSetState s (by rw [expired.1]; rfl))
      · exact ih s

omit [DecidableEq ι] in
theorem seen_suspensionManager : seen (suspensionManager config s) = seen s := by
  have swaps : ∀ (pids : List UInt32) (s : State ι),
      seen (pids.foldl (fun s pid => s.sendMemory (.swapOut pid)) s) = seen s := by
    intro pids
    induction pids with
    | nil => intro s; rfl
    | cons pid rest ih => intro s; exact (ih _).trans (seen_sendMemory s (by simp))
  unfold suspensionManager
  split
  · exact (swaps _ _).trans (seen_suspensionScan s.blockProcesses s)
  · rfl

/-- An IO device answers: its process goes on. -/
theorem handleIo_reaches {io : Nat} {request : IoRequest} {value : String}
    (shows : Shows (seen s) d) (quiet : Quiet d) (ends : (m request.pid).endsWaiting = false)
    (waits : (s.process request.pid).Waits (m request.pid)) :
    Reaches d [] (seen (handleIo config s io request value)) := by
  have finished : Reaches d [] (seen (ioFinishProcess config s request.pid io)) := by
    unfold ioFinishProcess
    split
    · exact finishBlock_reaches request.pid shows quiet (blocked_of_waits ends waits)
    · exact .stay shows quiet
  unfold handleIo
  dsimp only
  split
  · rw [seen_handleNextOperation]
    exact finished
  · rw [seen_handleNextOperation]
    exact finished
  · split
    · exact .stay shows quiet
    · rw [seen_handleNextOperation, seen_setIo, seen_sendMemory _ (by simp)]
      exact .stay shows quiet

/-- Kernel Memory has written what a device has read: the process goes on. -/
theorem waitMemoryWriteConfirmation_reaches (shows : Shows (seen s) d) (quiet : Quiet d)
    (ends : (m pid).endsWaiting = false) (waits : (s.process pid).Waits (m pid)) :
    Reaches d [] (seen (waitMemoryWriteConfirmation config s pid)) := by
  have posted : seen (s.setProcess pid fun p =>
      { p with memoryRequestSem := p.memoryRequestSem - 1 }) = seen s := seen_setProcess_same s rfl
  rw [← posted] at shows
  have waits' := blocked_of_waits ends waits
  exact finishBlock_reaches pid shows quiet (by simpa using waits')

/-! ### Kernel Memory -/

omit [DecidableEq ι] in
theorem compacting_send (memory : Memory) (message : FromMemory) :
    compacting (memory.send message) =
      compacting memory + [message].count .compactionFinished := by
  simp only [compacting, Memory.send, List.count_append]
  omega

omit [DecidableEq ι] in
theorem compacting_send_of_ne (memory : Memory) {message : FromMemory}
    (other : message ≠ .compactionFinished) :
    compacting (memory.send message) = compacting memory := by
  rw [compacting_send, List.count_singleton, if_neg (by simpa using other), Nat.add_zero]

omit [DecidableEq ι] in
/-- A request other than `COMPACTION_READY` is served. -/
theorem compacting_serve {memory memory' : Memory} {message : ToMemory} {answer : Answer}
    (served : memory.serve message answer = some memory') :
    compacting memory' = compacting memory + [message].count .compactionReady := by
  cases message with
  | compactionReady =>
      obtain rfl := Option.some.inj served
      simp only [compacting, List.count_singleton_self]
      omega
  | processEnd | segmentCreate =>
      obtain rfl := Option.some.inj served
      rfl
  | processCreate =>
      cases answer with
      | ok ok =>
          obtain rfl := Option.some.inj served
          split
          · exact compacting_send_of_ne memory (by simp)
          · rfl
      | result | value | desuspended => cases served
  | segmentDelete =>
      cases answer with
      | result =>
          obtain rfl := Option.some.inj served
          exact compacting_send_of_ne memory (by simp)
      | ok | value | desuspended => cases served
  | ioMemoryRead =>
      cases answer with
      | value =>
          obtain rfl := Option.some.inj served
          exact compacting_send_of_ne memory (by simp)
      | ok | result | desuspended => cases served
  | ioMemoryWrite | swapOut =>
      cases answer with
      | ok =>
          obtain rfl := Option.some.inj served
          exact compacting_send_of_ne _ (by simp)
      | result | value | desuspended => cases served
  | swapIn =>
      cases answer with
      | desuspended =>
          obtain rfl := Option.some.inj served
          exact compacting_send_of_ne _ (by simp)
      | ok | result | value => cases served

omit [DecidableEq ι] in
/-- What Kernel Memory does is not seen. -/
theorem compacting_step {memory memory' : Memory} {st : MemoryStep}
    (taken : memory.step st = some memory') : compacting memory' = compacting memory := by
  cases st with
  | serve answer =>
      simp only [Memory.step] at taken
      split at taken
      · cases taken
      · rename_i message rest next
        rw [compacting_serve taken]
        simp only [compacting, next, List.count_cons, List.count_nil]
        omega
  | segmentCreated i result =>
      simp only [Memory.step] at taken
      split at taken
      · cases taken
      · obtain rfl := Option.some.inj taken
        exact compacting_send_of_ne _ (by simp)
  | memoryUpdate | corruptedMemory =>
      obtain rfl := Option.some.inj taken
      exact compacting_send_of_ne memory (by simp)
  | compactionRequest =>
      simp only [Memory.step] at taken
      split at taken
      · cases taken
      · obtain rfl := Option.some.inj taken
        exact compacting_send_of_ne memory (by simp)
  | compactionFinished =>
      simp only [Memory.step] at taken
      split at taken
      · rename_i posted
        obtain rfl := Option.some.inj taken
        rw [compacting_send]
        simp only [compacting, List.count_singleton_self]
        omega
      · cases taken

omit [DecidableEq ι] in
theorem seen_setMemory {memory : Memory} (same : compacting memory = compacting s.memory) :
    seen { s with memory } = seen s :=
  View.ext rfl rfl rfl rfl rfl rfl same rfl

omit [DecidableEq ι] in
theorem compacting_read {message : FromMemory} {rest : List FromMemory}
    (next : s.memory.fromMemory = message :: rest) :
    compacting s.memory =
      compacting { s.memory with fromMemory := rest } + [message].count .compactionFinished := by
  simp only [compacting, next, List.count_cons, List.count_nil]
  omega

theorem Shows.unknown {v : View ι} (shows : Shows v d) (unseen : v.record pid = none) :
    Dispatch.getProcessFromPid d pid = none := by
  have agrees := shows.record pid
  rw [unseen] at agrees
  cases found : Dispatch.getProcessFromPid d pid with
  | none => rfl
  | some p =>
      rw [found] at agrees
      cases agrees

/-- A process is created. -/
theorem Shows.create {v : View ι} (shows : Shows v d) (unseen : v.record pid = none) :
    Shows (v.setRecord pid (some ⟨.ready, none, false⟩))
      { d with
        listProcesses := d.listProcesses ++ [⟨pid, .ready, none, false⟩]
        readyQueue := d.readyQueue ++ [pid] } where
  pids := by
    rw [List.map_append, List.map_singleton, List.nodup_append_comm, List.singleton_append,
      List.nodup_cons]
    refine ⟨fun there => ?_, shows.pids⟩
    obtain ⟨p, mem, same⟩ := List.mem_map.mp there
    have absent := List.find?_eq_none.mp (shows.unknown unseen) p mem
    exact absent (by simpa using same)
  record other := by
    have found : Dispatch.getProcessFromPid { d with
        listProcesses := d.listProcesses ++ [⟨pid, .ready, none, false⟩]
        readyQueue := d.readyQueue ++ [pid] } other =
        (Dispatch.getProcessFromPid d other).or
          (if pid = other then some ⟨pid, .ready, none, false⟩ else none) := by
      simp only [Dispatch.getProcessFromPid, List.find?_append, List.find?_singleton, beq_iff_eq]
    rw [found, View.record_setRecord]
    split
    · rename_i here
      rw [here, shows.unknown unseen, if_pos rfl, Option.none_or]
      exact .same ⟨pid, .ready, none, false⟩
    · rename_i ne
      rw [if_neg fun eq => ne eq.symm, Option.or_none]
      exact shows.record other
  ready other := by
    rw [List.mem_append, List.mem_singleton, View.record_setRecord]
    split
    · rename_i here
      simp [here]
    · rename_i ne
      simp [ne, shows.ready other]
  readyOnce := by
    rw [List.nodup_append_comm, List.singleton_append, List.nodup_cons]
    refine ⟨?_, shows.readyOnce⟩
    rw [shows.ready, unseen]
    simp
  requests other := by
    rw [View.record_setRecord]
    split
    · rename_i here
      rw [here, shows.requests, unseen]
      simp
    · exact shows.requests other
  requestOnce := shows.requestOnce
  execProcesses := shows.execProcesses
  canSchedule := shows.canSchedule
  inRound := shows.inRound
  cpus := shows.cpus
  compactions := shows.compactions
  compacting := shows.compacting
  compactionFinishedSem := shows.compactionFinishedSem

/-- A process ends while it waits, and goes on waiting in the sections. -/
theorem Shows.ended {v : View ι} {assigned : Option ι} {pending : Bool} (shows : Shows v d)
    (known : v.record pid = some ⟨.block, assigned, pending⟩) :
    Shows (v.setRecord pid (some ⟨.exit, assigned, pending⟩)) d :=
  { shows with
    record := fun other => by
      rw [View.record_setRecord]
      split
      · rename_i here
        subst here
        obtain ⟨p, found, agrees, -⟩ := shows.found known
        rw [found]
        have waits := agrees.state (by simp)
        obtain rfl := agrees.assigned
        obtain rfl := agrees.pending
        exact .ended waits
      · exact shows.record other
    ready := fun other => by
      rw [View.record_setRecord]
      split
      · rename_i here
        rw [here, shows.ready, known]
        simp
      · exact shows.ready other
    requests := fun other => by
      rw [View.record_setRecord]
      split
      · rename_i here
        rw [here, shows.requests, known]
        simp
      · exact shows.requests other }

/-- Kernel Memory has created a process. -/
theorem waitProcessCreateConfirmation_reaches (shows : Shows (seen s) d) (quiet : Quiet d)
    (listed : pid ∈ s.listProcesses) (new : (s.process pid).state = .new)
    (unassigned : (s.process pid).cpu = none)
    (settled : (s.process pid).pendingMemorySyscall = false) :
    Reaches d [] (seen (waitProcessCreateConfirmation config s pid)) := by
  have unseen : (seen s).record pid = none := by simp [seen, recordSeen, stateSeen, new]
  have created : Dispatch.step d (.created pid) = some { d with
      listProcesses := d.listProcesses ++ [⟨pid, .ready, none, false⟩]
      readyQueue := d.readyQueue ++ [pid] } := by
    simp only [Dispatch.step, shows.unknown unseen]
  refine .step created rfl (.stay ?_ quiet)
  rw [waitProcessCreateConfirmation, if_pos listed, seen_postShortTerm, makeReady,
    seen_addProcessToReadyQueue, processSetState, seen_setProcess]
  have ready : recordSeen { s.process pid with state := .ready } = some ⟨.ready, none, false⟩ := by
    simp [recordSeen, stateSeen, unassigned, settled]
  rw [ready]
  exact shows.create unseen

/-- A process that has a CPU ends, and its CPU is available unless it is being evicted. -/
theorem terminateProcess_reaches (shows : Shows (seen s) d) (quiet : Quiet d)
    (known : (seen s).record pid = some ⟨.exec, some cpu, false⟩)
    (settled : (s.process pid).pendingMemorySyscall = false) :
    Reaches (d.setThread .memoryHandler (.endProcess pid cpu)) []
      (seen (terminateProcess config s pid cpu)) := by
  obtain ⟨outstanding, told⟩ := shows.told cpu
  let ended : Dispatch.State ι :=
    { d.updateProcess pid fun p => { p with state := .exit, cpu := none } with
      execProcesses := s.execProcesses.erase pid
      readyQueue := d.readyQueue.erase pid }
  let released := cpuSeen
    { s.cpu cpu with isAvailable := (s.cpu cpu).isAvailable || !(s.cpu cpu).isEvicting } outstanding
  have finish : Dispatch.step (d.setThread .memoryHandler (.endProcess pid cpu))
      (.proceed .memoryHandler) = some (ended.setThread .memoryHandler (.release cpu)) := by
    simp only [Dispatch.step, Dispatch.proceed, threads_setThread]
    simp [Dispatch.State.setThread, Dispatch.State.updateProcess, ended, shows.execProcesses, seen]
  have release : Dispatch.step (ended.setThread .memoryHandler (.release cpu))
      (.proceed .memoryHandler) = some (ended.setCpu cpu released) := by
    have done : ((ended.setThread .memoryHandler (.release cpu)).setCpu cpu released).setThread
        .memoryHandler .idle = ended.setCpu cpu released :=
      Quiet.done (d := ended.setCpu cpu released) quiet
    have told : (ended.setThread .memoryHandler (.release cpu)).cpus cpu =
        cpuSeen (s.cpu cpu) outstanding := told
    simp only [Dispatch.step, Dispatch.proceed, threads_setThread, told]
    exact congrArg some done
  have left : Shows ((seen s).setRecord pid (some ⟨.exit, none, false⟩))
      { d.updateProcess pid fun p => { p with state := .exit, cpu := none } with
        readyQueue := d.readyQueue.erase pid } :=
    shows.dequeue known (fun _ => rfl) (fun p before => .of_eq rfl rfl before.pending) (by simp) rfl
  refine .step finish rfl (.step release rfl (.stay ?_ quiet))
  have closed : Shows _ (ended.setCpu cpu released) :=
    Shows.setCpu (Shows.setExec left)
  have written : recordSeen ({ s.process pid with state := .exit, cpu := none } : Process ι) =
      some ⟨.exit, none, false⟩ := by
    simp [recordSeen, stateSeen, settled]
  rw [terminateProcess, seen_postShortTerm, seen_sendMemory _ (by simp), seen_setCpu,
    seen_removeProcessFromReadyQueue, seen_removeFromExec, seen_setProcess, written]
  exact closed

/-- Kernel Memory has created or deleted a segment, or it could not. -/
theorem handleSegmentResult_reaches {result : SegmentResult} (shows : Shows (seen s) d)
    (quiet : Quiet d) (listed : pid ∈ s.listProcesses) (executing : (s.process pid).state = .exec)
    (waits : (s.process pid).pendingMemorySyscall = true) :
    Reaches d [] (seen (handleSegmentResult config s pid result)) := by
  have known : (seen s).record pid = some ⟨.exec, (s.process pid).cpu, true⟩ :=
    waits ▸ record_seen (congrArg stateSeen executing)
  obtain ⟨p, found, agrees, rfl⟩ := shows.found known
  let answered : State ι := s.setProcess p.pid fun p => { p with pendingMemorySyscall := false }
  let d' : Dispatch.State ι :=
    { d.updateProcess p.pid fun p => { p with pendingMemorySyscall := false } with
      memoryRequests := d.memoryRequests.erase p.pid }
  have known' : (seen answered).record p.pid = some ⟨.exec, (s.process p.pid).cpu, false⟩ := by
    simp [answered, seen, recordSeen, stateSeen, executing]
  have shows' : Shows (seen answered) d' := by
    have written : seen answered =
        (seen s).setRecord p.pid (some ⟨.exec, (s.process p.pid).cpu, false⟩) := by
      rw [seen_setProcess]
      simp [recordSeen, stateSeen, executing]
    rw [written]
    refine shows.answer d.readyQueue known (fun _ => rfl) (fun q before => ?_) shows.readyOnce
      (fun other => ?_) rfl
    · exact .of_eq (before.state (by simp)) before.assigned rfl
    · split
      · rename_i here
        rw [here, shows.ready, known]
        simp
      · rfl
  have answer : Dispatch.step d (.segmentResult p.pid (decide (result = .segmentOk))) =
      some (Dispatch.handleSegmentResult { d with memoryRequests := d.memoryRequests.erase p.pid } p
        (decide (result = .segmentOk))) := by
    simp only [Dispatch.step, found]
    rw [if_pos ⟨quiet _, (shows.requests p.pid).mpr ⟨_, known, rfl⟩⟩]
  refine .step answer rfl ?_
  unfold Dispatch.handleSegmentResult handleSegmentResult
  rw [if_pos listed, agrees.assigned]
  cases assigned : (s.process p.pid).cpu with
  | none =>
      -- It was evicted while it waited, and is `EXEC` without a CPU.
      by_cases ok : result = .segmentOk
      · have executed : p.state = .exec := agrees.state (by simp)
        simp only [ok, decide_true, if_true, if_pos executed, if_pos executing]
        rw [seen_postShortTerm, makeReady, seen_addProcessToReadyQueue, processSetState,
          seen_setProcess]
        have ready : recordSeen { answered.process p.pid with state := .ready } =
            some ⟨.ready, none, false⟩ := by
          simp [answered, recordSeen, stateSeen, assigned]
        rw [ready]
        refine .stay (shows'.enqueue known' (fun _ => rfl) (fun q before => ?_) (by simp) rfl rfl)
          quiet
        exact .of_eq rfl (before.assigned.trans assigned) before.pending
      · simp only [ok, decide_false, Bool.false_eq_true, if_false]
        rw [seen_postShortTerm, seen_sendMemory _ (by simp), seen_removeFromExec, processSetState,
          seen_setProcess]
        have ended : recordSeen { answered.process p.pid with state := .exit } =
            some ⟨.exit, none, false⟩ := by
          simp [answered, recordSeen, stateSeen, assigned]
        rw [ended]
        have left : Shows ((seen answered).setRecord p.pid (some ⟨.exit, none, false⟩))
            (d'.updateProcess p.pid fun p => { p with state := .exit }) :=
          shows'.rewrite known' (fun _ => rfl)
            (fun q before => .of_eq rfl (before.assigned.trans assigned) before.pending) (by simp)
            rfl
        have gone : Shows _ { d'.updateProcess p.pid fun p => { p with state := .exit } with
            execProcesses := s.execProcesses.erase p.pid } := left.setExec
        rw [shows.execProcesses]
        exact .stay gone quiet
  | some cpu =>
      by_cases ok : result = .segmentOk
      · simp only [ok, decide_true, if_true]
        exact sendPidToExecute_reaches shows' quiet
      · simp only [ok, decide_false, Bool.false_eq_true, if_false]
        exact terminateProcess_reaches shows' quiet (known'.trans (by rw [assigned])) (by simp)

/-- Kernel Memory has suspended a process, or it could not. -/
theorem waitConfirmationSwapOut_reaches {ok : Bool} (shows : Shows (seen s) d) (quiet : Quiet d) :
    Reaches d [] (seen (waitConfirmationSwapOut config s pid ok)) := by
  unfold waitConfirmationSwapOut
  split
  · split
    · rename_i ready
      rw [seen_postShortTerm]
      exact makeReady_reaches pid shows quiet (by rw [ready]; rfl)
    · rename_i suspended
      have same : seen (s.setProcess pid fun p =>
          { p with state := .block, startBlockTime := s.now }) = seen s :=
        seen_setProcess_same s (by simp [recordSeen, suspended, stateSeen])
      rw [← same] at shows
      exact .stay shows quiet
    · exact .stay shows quiet
    · exact .stay shows quiet
    · exact .stay shows quiet
  · exact .stay shows quiet

theorem swappedIn_reaches (shows : Shows (seen s) d) (quiet : Quiet d) :
    Reaches d [] (seen (swappedIn config s pid)) := by
  unfold swappedIn
  split
  · dsimp only
    split
    · rename_i ready
      exact makeReady_reaches (s := { s with
        suspendedProcesses := s.suspendedProcesses.erase pid }) pid shows quiet
        (by simp [ready, stateSeen])
    · rename_i suspended
      have same : seen (s.setProcess pid fun p =>
          { p with state := .block, startBlockTime := s.now }) = seen s :=
        seen_setProcess_same s (by simp [recordSeen, suspended, stateSeen])
      rw [← same] at shows
      exact .stay shows quiet
    · exact .stay shows quiet
  · exact .stay shows quiet

/-- Kernel Memory has brought processes in. -/
theorem waitConfirmationSwapIn_reaches {pids : List UInt32} (shows : Shows (seen s) d)
    (quiet : Quiet d) : Reaches d [] (seen (waitConfirmationSwapIn config s pids)) := by
  have swapped : Reaches d [] (seen (pids.foldl (swappedIn config) s)) := by
    induction pids generalizing s d with
    | nil => exact .stay shows quiet
    | cons pid rest ih =>
        exact (swappedIn_reaches shows quiet).trans fun d' shows' quiet' => ih shows' quiet'
  unfold waitConfirmationSwapIn
  dsimp only
  split
  · exact swapped
  · exact swapped

omit [DecidableEq ι] in
theorem seen_requestSwapIn : seen (requestSwapIn s) = seen s := by
  unfold requestSwapIn
  dsimp only
  split
  · rfl
  · exact seen_sendMemory s (by simp)

/-- Kernel Memory has written what a device has read, or it could not. -/
theorem handleIoMemoryWrite_reaches {writeSuccesful : Bool} (shows : Shows (seen s) d)
    (quiet : Quiet d)
    (waits : (s.process pid).state = .block ∨ (s.process pid).state = .suspBlock) :
    Reaches d [] (seen (handleIoMemoryWrite s pid writeSuccesful)) := by
  cases writeSuccesful with
  | true =>
      have same : seen (s.setProcess pid fun p =>
          { p with memoryRequestSem := p.memoryRequestSem + 1 }) = seen s :=
        seen_setProcess_same s rfl
      rw [← same] at shows
      exact .stay shows quiet
  | false =>
      have waiting : stateSeen (s.process pid).state = some .block :=
        waits.elim (congrArg stateSeen) (congrArg stateSeen)
      have known := record_seen waiting
      have ended : seen (handleIoMemoryWrite s pid false) = (seen s).setRecord pid
          (some ⟨.exit, (s.process pid).cpu, (s.process pid).pendingMemorySyscall⟩) := by
        simp only [handleIoMemoryWrite, Bool.false_eq_true, if_false]
        rw [seen_sendMemory _ (by simp), processSetState, seen_setProcess]
        rfl
      rw [ended]
      exact .stay (shows.ended known) quiet

theorem Shows.requestCompaction {reason : InterruptReason} (shows : Shows (seen s) d) :
    Shows (seen { s with compactions := s.compactions ++ [.requested reason] })
      { d with compactions := d.compactions ++ [.requested] } :=
  { shows with
    compactions := by
      rw [shows.compactions]
      simp [seen, compactionSeen] }

/-- `kernel_memory_handler` reads a message. -/
theorem handleMemory_reaches {message : FromMemory} {rest : List FromMemory}
    (shows : Shows (seen s) d) (quiet : Quiet d) (inv : Inv config m none s place)
    (ends : ∀ pid, (m pid).endsWaiting = false) (next : s.memory.fromMemory = message :: rest)
    (allowed : message.Allowed m) :
    Reaches d [] (seen (handleMemory config { s with memory.fromMemory := rest } message)) := by
  have read := compacting_read next
  -- `COMPACTION_FINISHED` is the only message whose reading is seen.
  by_cases finished : message = .compactionFinished
  · subst finished
    have compacts : compacting s.memory =
        compacting { s.memory with fromMemory := rest } + 1 := read
    have fewer : compacting { s.memory with fromMemory := rest } = d.compacting - 1 := by
      rw [shows.compacting]
      exact Nat.eq_sub_of_add_eq compacts.symm
    have finish : Dispatch.step d .finished = some { d with
        compacting := d.compacting - 1
        compactionFinishedSem := d.compactionFinishedSem + 1 } := by
      simp only [Dispatch.step]
      rw [if_pos]
      rw [shows.compacting]
      exact Nat.lt_of_lt_of_eq (Nat.succ_pos _) compacts.symm
    refine .step finish rfl (.stay ?_ quiet)
    exact { shows with
      compacting := fewer.symm
      compactionFinishedSem := congrArg (· + 1) shows.compactionFinishedSem }
  · have same : seen { s with memory.fromMemory := rest } = seen s := by
      refine seen_setMemory ?_
      rw [read, List.count_singleton, if_neg (by simpa using finished), Nat.add_zero]
    rw [← same] at shows
    cases message with
    | processCreate pid =>
        obtain ⟨⟨new, unassigned, settled⟩, listed, -⟩ := inv.takeAnswer next rfl
        exact waitProcessCreateConfirmation_reaches shows quiet listed new unassigned settled
    | segmentResult pid segmentId result =>
        obtain ⟨there, listed, executing⟩ := inv.segmentResult next
        have fits := inv.fit pid
        rw [there] at fits
        exact handleSegmentResult_reaches shows quiet listed executing fits.2
    | ioMemoryRead pid value =>
        have written : value ≠ "" := by
          intro empty
          have ended := allowed empty
          rw [ends pid] at ended
          cases ended
        simp only [handleMemory, stdoutWaitMemoryRead, if_neg written, seen_requestIo]
        exact .stay shows quiet
    | ioMemoryWrite pid writeSuccesful =>
        obtain ⟨⟨waits, -⟩, -⟩ := inv.takeAnswer next rfl
        exact handleIoMemoryWrite_reaches shows quiet (blocked_of_waits (ends pid) waits)
    | swapOut pid ok => exact waitConfirmationSwapOut_reaches shows quiet
    | swapIn pids => exact waitConfirmationSwapIn_reaches shows quiet
    | memoryUpdate newSize =>
        rw [handleMemory, seen_requestSwapIn]
        exact .stay shows quiet
    | compactionRequest | corruptedMemory =>
        exact .step (a := .compactionRequest) rfl rfl (.stay shows.requestCompaction quiet)
    | compactionFinished => exact absurd rfl finished

/-! ### Compaction threads -/

def View.setCompaction (v : View ι) (i : Nat) (now : Dispatch.Compaction ι) : View ι :=
  { v with compactions := v.compactions.set i now }

omit [DecidableEq ι] in
theorem View.setCompaction_setCompaction (v : View ι) (i : Nat) (now now' : Dispatch.Compaction ι) :
    (v.setCompaction i now).setCompaction i now' = v.setCompaction i now' := by
  simp [View.setCompaction]

theorem Shows.setCompaction {v : View ι} {i : Nat} {now : Dispatch.Compaction ι}
    (shows : Shows v d) : Shows (v.setCompaction i now) (Dispatch.setCompaction d i now) :=
  { shows with compactions := congrArg (·.set i now) shows.compactions }

omit [DecidableEq ι] in
theorem seen_setCompaction {i : Nat} {now : Compaction ι} :
    seen (s.setCompaction i now) = (seen s).setCompaction i (compactionSeen now) :=
  View.ext rfl rfl rfl rfl rfl List.map_set rfl rfl

theorem Shows.compaction {i : Nat} {now : Compaction ι} (shows : Shows (seen s) d)
    (here : s.compactions[i]? = some now) : d.compactions[i]? = some (compactionSeen now) := by
  rw [shows.compactions, seen, List.getElem?_map, here]
  rfl

/-- A compaction thread is in `evict_all_processes`. -/
def evictingView (s : State ι) (i : Nat) (todo evicted : List ι) : View ι :=
  { seen s with canSchedule := false }.setCompaction i (.evictAll todo none evicted)

section EvictAll

variable {reason : InterruptReason} {i : Nat} {todo evicted : List ι}

theorem Shows.evicting (shows : Shows (evictingView s i todo evicted) d)
    (there : i < s.compactions.length) :
    d.compactions[i]? = some (.evictAll todo none evicted) := by
  rw [shows.compactions]
  exact List.getElem?_set_self (by simpa [seen] using there)

/-- A CPU that is being evicted, or has gone, is left alone. -/
theorem sendProcessEvict_none_reaches (shows : Shows (evictingView s i (cpu :: todo) evicted) d)
    (quiet : Quiet d) (there : i < s.compactions.length)
    (refused : sendProcessEvict s reason .all (some cpu) = none) :
    Reaches d [] (evictingView s i todo evicted) := by
  obtain ⟨outstanding, told⟩ := shows.cpus cpu
  have told : d.cpus cpu = cpuSeen (s.cpu cpu) outstanding := told
  have mark : Dispatch.step d (.mark i) =
      some (Dispatch.setCompaction d i (.evictAll todo none evicted)) := by
    simp only [Dispatch.step, shows.evicting there]
    rw [if_neg]
    rintro ⟨connected, calm⟩
    rw [told] at connected calm
    simp only [sendProcessEvict] at refused
    split at refused
    · rename_i out
      rcases out with evicting | gone
      · simp [cpuSeen, evicting] at calm
      · exact gone (cpuSeen_connected.mp connected)
    · cases refused
  have shows' : Shows (View.setCompaction _ i _)
      (Dispatch.setCompaction d i (.evictAll todo none evicted)) := shows.setCompaction
  rw [evictingView, View.setCompaction_setCompaction] at shows'
  exact .step mark rfl (.stay shows' quiet)

/-- A CPU is marked, and `PROCESS_EVICT` is sent to it. -/
theorem sendProcessEvict_reaches (shows : Shows (evictingView s i (cpu :: todo) evicted) d)
    (quiet : Quiet d) (there : i < s.compactions.length)
    (sent : sendProcessEvict s reason .all (some cpu) = some s') :
    Reaches d [] (evictingView s' i todo (evicted ++ [cpu])) := by
  obtain ⟨other, same, calm, connected, rfl⟩ := sendProcessEvict_some sent
  obtain rfl := Option.some.inj same
  obtain ⟨outstanding, told⟩ := shows.cpus cpu
  have told : d.cpus cpu = cpuSeen (s.cpu cpu) outstanding := told
  let marked : Dispatch.Cpu :=
    { cpuSeen (s.cpu cpu) outstanding with isEvicting := true, evictor := some ⟨true, false⟩ }
  let ordered : Cpu :=
    { s.cpu cpu with
      isEvicting := true
      evictor := some .all
      toCpu := (s.cpu cpu).toCpu ++ [.processEvict reason] }
  let d' : Dispatch.State ι :=
    Dispatch.setCompaction (d.setCpu cpu marked) i (.evictAll todo (some cpu) evicted)
  have mark : Dispatch.step d (.mark i) = some d' := by
    simp only [Dispatch.step, shows.evicting there, told]
    rw [if_pos ⟨cpuSeen_connected.mpr connected, by simp [cpuSeen, calm]⟩]
  have send : Dispatch.step d' (.sendEvictAll i) =
      some ((Dispatch.setCompaction d i (.evictAll todo none (evicted ++ [cpu]))).setCpu cpu
        (cpuSeen ordered outstanding)) := by
    have here : d'.compactions[i]? = some (.evictAll todo (some cpu) evicted) :=
      List.getElem?_set_self (List.getElem?_eq_some_iff.mp (shows.evicting there)).1
    have told' : d'.cpus cpu = marked := Function.update_self ..
    simp only [Dispatch.step, here, told']
    rw [if_pos (cpuSeen_connected.mpr connected), if_pos rfl]
    simp [d', marked, ordered, cpuSeen, evictorSeen, orderSeen, Dispatch.setCompaction,
      Dispatch.State.setCpu]
  have shows' : Shows (View.setCpu (View.setCompaction _ i _) cpu ordered)
      ((Dispatch.setCompaction d i (.evictAll todo none (evicted ++ [cpu]))).setCpu cpu
        (cpuSeen ordered outstanding)) := shows.setCompaction.setCpu
  rw [evictingView, View.setCompaction_setCompaction] at shows'
  exact .step mark rfl (.step send rfl (.stay shows' quiet))

/-- `evict_all_processes` goes through the processes that run. -/
theorem evictAllProcesses_reaches {pids : List UInt32} (shows : Shows
      (evictingView s i (pids.filterMap fun pid => (s.process pid).cpu) evicted) d)
    (quiet : Quiet d) (there : i < s.compactions.length) :
    Reaches d [] (evictingView (evictAllProcesses reason pids s).2 i []
      (evicted ++ (evictAllProcesses reason pids s).1)) := by
  -- The CPUs were read before the loop, and no order changes which process has a CPU.
  induction pids generalizing s d evicted with
  | nil =>
      rw [evictAllProcesses, List.append_nil]
      exact .stay shows quiet
  | cons pid rest ih =>
      cases has : (s.process pid).cpu with
      | none =>
          simp only [List.filterMap_cons, has] at shows
          simp only [evictAllProcesses, has]
          exact ih shows quiet there
      | some cpu =>
          simp only [List.filterMap_cons, has] at shows
          cases sent : sendProcessEvict s reason .all (some cpu) with
          | none =>
              simp only [evictAllProcesses, has, sent]
              exact (sendProcessEvict_none_reaches shows quiet there sent).trans
                fun d' shows' quiet' => ih shows' quiet' there
          | some s' =>
              simp only [evictAllProcesses, has, sent]
              refine (sendProcessEvict_reaches shows quiet there sent).trans
                fun d' shows' quiet' => ?_
              obtain ⟨_, -, -, -, rfl⟩ := sendProcessEvict_some sent
              have more := ih shows' quiet' there
              rwa [List.append_assoc] at more

end EvictAll

/-- The CPU that a search by pid finds. -/
theorem Shows.cpu_eq (shows : Shows (seen s) d) (owned : s.board.Owned) (pid : UInt32) :
    (Dispatch.getProcessFromPid d pid).bind Dispatch.Process.cpu = (s.process pid).cpu := by
  cases known : (seen s).record pid with
  | none =>
      rw [shows.unknown known]
      cases has : (s.process pid).cpu with
      | none => rfl
      | some cpu =>
          have executing : (s.process pid).state = .exec :=
            owned.executing pid (by simp [State.board, Process.holder, has])
          rw [record_seen (congrArg stateSeen executing)] at known
          cases known
  | some r =>
      obtain ⟨p, found, agrees, -⟩ := shows.found known
      obtain ⟨state, -, same⟩ := Option.map_eq_some_iff.mp known
      rw [found, Option.bind_some, agrees.assigned, ← same]

theorem requeue_setCpu {p : Dispatch.Process ι} {c : Dispatch.Cpu} :
    (Dispatch.requeue d p).setCpu cpu c = Dispatch.requeue (d.setCpu cpu c) p := by
  unfold Dispatch.requeue
  dsimp only
  split <;> rfl

theorem seen_evicted (executing : (s.process pid).state = .exec) :
    seen ((if (s.process pid).pendingMemorySyscall then
        processSetCpu (removeFromExec s pid) pid none
      else addProcessAtStartOfReadyQueue config
        (processSetState (processSetCpu (removeFromExec s pid) pid none) pid .ready) pid).setCpu cpu
          Cpu.confirmed) =
      ({ (seen s).setRecord pid
          (some ⟨if (s.process pid).pendingMemorySyscall then .exec else .ready, none,
            (s.process pid).pendingMemorySyscall⟩) with
        execProcesses := s.execProcesses.erase pid }).setCpu cpu (s.cpu cpu).confirmed := by
  have left := seen_leaveCpu config executing
  rw [seen_setCpu, ← left]
  split
  · rfl
  · rw [seen_addProcessAtStartOfReadyQueue, makeReady, seen_addProcessToReadyQueue]
    unfold addProcessAtStartOfReadyQueue
    split <;> rfl

/-- A CPU that was evicted for a compaction has confirmed. -/
theorem handleEvicted_reaches {reason : InterruptReason} {i : Nat} {rest : List ι}
    (shows : Shows (seen s) d) (quiet : Quiet d) (inv : Inv config m none s place)
    (owned : s.board.Owned) (here : s.compactions[i]? = some (.evicting reason (cpu :: rest)))
    (connected : (s.cpu cpu).connection = .connected) (waits : (s.cpu cpu).evictor = some .all)
    (posted : 0 < (s.cpu cpu).responseSem) :
    Reaches d [] (seen ((handleEvicted config s cpu).setCompaction i (.evicting reason rest))) := by
  obtain ⟨outstanding, told⟩ := shows.told cpu
  have search := getProcessFromCpu_seen cpu shows inv owned
  have waiting : d.compactions[i]? = some (.evictAll [] none (cpu :: rest)) := shows.compaction here
  have reached : (d.cpus cpu).connection = .connected ∧ (d.cpus cpu).evictor = some ⟨true, true⟩ ∧
      0 < (d.cpus cpu).responseSem := told ▸ cpuSeen_waits connected waits posted
  rw [seen_setCompaction]
  unfold handleEvicted
  cases found : getProcessFromCpu s cpu with
  | none =>
      rw [found] at search
      have kept : (d.cpus cpu).confirmed false = cpuSeen
          { s.cpu cpu with responseSem := (s.cpu cpu).responseSem - 1, evictor := none } [] := by
        simp [told, Dispatch.Cpu.confirmed, cpuSeen]
      have await : Dispatch.step d (.await i) = some (Dispatch.setCompaction (d.setCpu cpu (cpuSeen
          { s.cpu cpu with responseSem := (s.cpu cpu).responseSem - 1, evictor := none } [])) i
          (.evictAll [] none rest)) := by
        simp only [Dispatch.step, waiting, kept, if_pos reached, search]
      exact .step await rfl (.stay shows.setCpu.setCompaction quiet)
  | some pid =>
      rw [found] at search
      obtain ⟨p, search, there, rfl⟩ := search
      have handled : (d.cpus cpu).confirmed true = cpuSeen (s.cpu cpu).confirmed [] :=
        told ▸ confirmed_cpuSeen ..
      have await : Dispatch.step d (.await i) = some (Dispatch.setCompaction
          (Dispatch.requeue (d.setCpu cpu (cpuSeen (s.cpu cpu).confirmed [])) p) i
          (.evictAll [] none rest)) := by
        simp only [Dispatch.step, waiting, handled, if_pos reached, search]
      refine .step await rfl (.stay ?_ ?_)
      · rw [← requeue_setCpu, seen_evicted (executing_of_cpu owned found)]
        exact (Shows.setCpu (shows.requeue (known_of_cpu owned found) there)).setCompaction
      · unfold Dispatch.requeue
        dsimp only
        split <;> exact quiet

/-- A compaction thread closes the scheduler and evicts the CPUs of the processes that run. -/
theorem evictAll_reaches {reason : InterruptReason} {i : Nat} (shows : Shows (seen s) d)
    (quiet : Quiet d) (owned : s.board.Owned)
    (here : s.compactions[i]? = some (.requested reason)) :
    Reaches d [] (evictingView (evictAllProcesses reason s.execProcesses s).2 i []
      (evictAllProcesses reason s.execProcesses s).1) := by
  let cpus := s.execProcesses.filterMap fun pid => (s.process pid).cpu
  let shut : Dispatch.State ι := { d with canSchedule := false }
  let closed := Dispatch.setCompaction shut i .closed
  have requested : d.compactions[i]? = some .requested := shows.compaction here
  have close : Dispatch.step d (.close i) = some closed := by
    simp only [Dispatch.step, requested]
    rfl
  have collect : Dispatch.step closed (.collect i) =
      some (Dispatch.setCompaction closed i (.evictAll cpus none [])) := by
    have there : closed.compactions[i]? = some .closed :=
      List.getElem?_set_self (List.getElem?_eq_some_iff.mp requested).1
    have assigned : (d.execProcesses.filterMap fun pid =>
        (Dispatch.getProcessFromPid d pid).bind Dispatch.Process.cpu) = cpus := by
      rw [shows.execProcesses]
      exact List.filterMap_congr fun pid _ => shows.cpu_eq owned pid
    simp only [Dispatch.step, there]
    exact congrArg (fun cpus => some (Dispatch.setCompaction closed i (.evictAll cpus none [])))
      assigned
  have shows' : Shows { seen s with canSchedule := false } shut :=
    { shows with canSchedule := rfl }
  have collected : Shows (evictingView s i cpus [])
      (Dispatch.setCompaction closed i (.evictAll cpus none [])) := by
    rw [evictingView, ← View.setCompaction_setCompaction]
    exact shows'.setCompaction.setCompaction
  refine .step close rfl (.step collect rfl ?_)
  exact evictAllProcesses_reaches collected quiet (List.getElem?_eq_some_iff.mp here).1

/-- A step of a compaction thread. -/
theorem stepCompaction_reaches {i : Nat} {st : CompactionStep} (shows : Shows (seen s) d)
    (quiet : Quiet d) (inv : Inv config m none s place) (owned : s.board.Owned)
    (taken : stepCompaction config s i st = some s') : Reaches d [] (seen s') := by
  cases st with
  | evictAll =>
      simp only [stepCompaction] at taken
      split at taken
      · rename_i reason here
        obtain rfl := Option.some.inj taken
        rw [seen_setCompaction]
        exact evictAll_reaches shows quiet owned here
      · cases taken
  | handleEvicted =>
      simp only [stepCompaction] at taken
      split at taken
      · rename_i reason cpu rest here
        split at taken
        · rename_i reached
          obtain rfl := Option.some.inj taken
          exact handleEvicted_reaches shows quiet inv owned here reached.1 reached.2.1 reached.2.2
        · cases taken
      · cases taken
  | compactionReady =>
      simp only [stepCompaction] at taken
      split at taken
      · rename_i here
        obtain rfl := Option.some.inj taken
        have confirmed : d.compactions[i]? = some (.evictAll [] none []) := shows.compaction here
        have ready : Dispatch.step d (.ready i) =
            some (Dispatch.setCompaction { d with compacting := d.compacting + 1 } i .ready) := by
          simp only [Dispatch.step, confirmed]
        have more : compacting (s.sendMemory .compactionReady).memory =
            compacting s.memory + 1 := by
          simp only [compacting, State.sendMemory, List.count_append, List.count_singleton_self]
          omega
        have sent : Shows (seen (s.sendMemory .compactionReady))
            { d with compacting := d.compacting + 1 } :=
          { shows with
            compacting := (congrArg (· + 1) shows.compacting).trans more.symm }
        refine .step ready rfl (.stay ?_ quiet)
        rw [seen_setCompaction]
        exact sent.setCompaction
      · cases taken
  | reopen =>
      simp only [stepCompaction] at taken
      split at taken
      · rename_i here
        split at taken
        · rename_i posted
          obtain rfl := Option.some.inj taken
          have ready : d.compactions[i]? = some .ready := shows.compaction here
          have reopen : Dispatch.step d (.reopen i) = some { d with
              canSchedule := true
              compactionFinishedSem := d.compactionFinishedSem - 1
              compactions := d.compactions.eraseIdx i } := by
            have posted' : 0 < d.compactionFinishedSem :=
              Nat.lt_of_lt_of_eq posted shows.compactionFinishedSem.symm
            simp only [Dispatch.step, ready, if_pos posted']
          refine .step reopen rfl (.stay ?_ quiet)
          exact { shows with
            canSchedule := rfl
            compactions := by
              rw [shows.compactions]
              exact List.eraseIdx_map ..
            compactionFinishedSem := congrArg (· - 1) shows.compactionFinishedSem }
        · cases taken
      · cases taken

/-! ### Steps and runs -/

/-- What a step does, some sections do. -/
theorem step_reaches {a : Action ι} (runs : Runs config m s) (owned : s.board.Owned)
    (leaves : ∀ pid, (m pid).keepsCpu = false) (ends : ∀ pid, (m pid).endsWaiting = false)
    (shows : Shows (seen s) d) (quiet : Quiet d) (allowed : Allowed m s a)
    (taken : step config s a = some s') : Reaches d (handlerEvent a).toList (seen s') := by
  obtain ⟨⟨place, inv⟩, fresh⟩ := runs
  cases a with
  | tick =>
      obtain rfl := Option.some.inj taken
      exact .stay shows quiet
  | process0 path =>
      simp only [step] at taken
      split at taken
      · rw [seen_longTermScheduler fresh taken]
        exact .stay shows quiet
      · cases taken
  | connectCpu cpu =>
      simp only [step] at taken
      split at taken
      · rename_i absent
        obtain rfl := Option.some.inj taken
        exact connectCpu_reaches shows quiet absent
      · cases taken
  | cpu cpu st =>
      obtain ⟨c, stepped, rfl⟩ := Option.map_eq_some_iff.mp taken
      exact stepCpu_reaches shows quiet stepped
  | handleCpu cpu =>
      simp only [step] at taken
      split at taken
      · cases taken
      · rename_i message rest next
        refine handleCpu_reaches shows quiet inv fresh ends next ?_ taken
        rintro pid syscall rfl keeps
        have told : (ToScheduler.syscall pid syscall).Allowed m s cpu :=
          allowed _ (by rw [next]; rfl)
        have kept := told.1 keeps
        rw [leaves pid] at kept
        cases kept
  | disconnectCpu cpu =>
      simp only [step] at taken
      split at taken
      · rename_i gone
        obtain rfl := Option.some.inj taken
        exact handleCpuDisconnection_reaches shows quiet inv owned gone.1 gone.2
      · cases taken
  | confirm cpu =>
      simp only [step] at taken
      split at taken
      · rename_i reached
        obtain rfl := Option.some.inj taken
        exact waitConfirmation_reaches shows quiet inv owned reached.1 reached.2.1 reached.2.2
      · cases taken
  | wake =>
      simp only [step] at taken
      split at taken
      · rename_i woken
        obtain rfl := Option.some.inj taken
        exact wake_reaches shows quiet woken.1
      · cases taken
  | schedule =>
      simp only [step] at taken
      split at taken
      · rename_i inRound
        obtain rfl := Option.some.inj taken
        exact shortTermTurn_reaches shows quiet owned inRound
      · cases taken
  | quantum pid =>
      simp only [step] at taken
      split at taken
      · obtain rfl := Option.some.inj taken
        exact evictProcess_reaches shows quiet
      · cases taken
  | suspend =>
      obtain rfl := Option.some.inj taken
      rw [seen_suspensionManager]
      exact .stay shows quiet
  | connectIo io ioType =>
      simp only [step] at taken
      split at taken
      · obtain rfl := Option.some.inj taken
        rw [seen_handleNextOperation]
        exact .stay shows quiet
      · cases taken
  | handleIo io value =>
      simp only [step] at taken
      split at taken
      · cases taken
      · rename_i request rest next
        obtain rfl := Option.some.inj taken
        obtain ⟨⟨waits, -⟩, -⟩ := inv.takeDevice next
        exact handleIo_reaches (s := s.setIo io fun d => { d with requests := rest }) shows quiet
          (ends request.pid) waits
  | disconnectIo io =>
      simp only [step] at taken
      split at taken
      · obtain rfl := Option.some.inj taken
        exact .stay shows quiet
      · cases taken
  | written pid =>
      simp only [step] at taken
      split at taken
      · rename_i posted
        obtain rfl := Option.some.inj taken
        obtain ⟨⟨waits, -⟩, -⟩ := inv.takeWritten posted.2
        exact waitMemoryWriteConfirmation_reaches (s := { s with
          writeThreads := s.writeThreads.erase pid }) shows quiet (ends pid) waits
      · cases taken
  | memory st =>
      obtain ⟨memory, stepped, rfl⟩ := Option.map_eq_some_iff.mp taken
      rw [seen_setMemory (compacting_step stepped)]
      exact .stay shows quiet
  | handleMemory =>
      simp only [step] at taken
      split at taken
      · cases taken
      · rename_i message rest next
        obtain rfl := Option.some.inj taken
        exact handleMemory_reaches shows quiet inv ends next (allowed _ (by rw [next]; rfl))
  | compaction i st => exact stepCompaction_reaches shows quiet inv owned taken

/-- The states of a run of the handlers, and those of the sections that have what is seen. -/
structure Related (config : Config) (m : UInt32 → Mode) (s : State ι) (d : Dispatch.State ι) :
    Prop where
  runs : Runs config m s
  owned : s.board.Owned
  shows : Shows (seen s) d
  quiet : Quiet d

theorem initial_related : Related config m (initial : State ι) Dispatch.initial where
  runs := initial_runs
  owned := initial_owned
  shows :=
    { pids := List.nodup_nil
      record := fun _ => .unseen
      ready := fun _ => by
        simp [Dispatch.initial, seen, initial, createProcess, recordSeen, stateSeen]
      readyOnce := List.nodup_nil
      requests := fun _ => by
        simp [Dispatch.initial, seen, initial, createProcess, recordSeen, stateSeen]
      requestOnce := List.nodup_nil
      execProcesses := rfl
      canSchedule := rfl
      inRound := rfl
      cpus := fun _ => ⟨[], rfl⟩
      compactions := rfl
      compacting := rfl
      compactionFinishedSem := rfl }
  quiet _ := rfl

/-- The critical sections bring about every step of a handler. -/
theorem handlers_refine (leaves : ∀ pid, (m pid).keepsCpu = false)
    (ends : ∀ pid, (m pid).endsWaiting = false) :
    Refinement (step config) (Allowed m) Dispatch.step (fun _ _ => True) handlerEvent sectionEvent
      (Related (ι := ι) config m) where
  steps := by
    intro s s' d a related allowed taken
    obtain ⟨runs, owned, shows, quiet⟩ := related
    obtain ⟨bs, d', run, shown, shows', quiet'⟩ :=
      step_reaches runs owned leaves ends shows quiet allowed taken
    obtain ⟨runs', owned'⟩ := runs.keeps (fun move _ => move.owned leaves) owned
      (.single allowed taken)
    exact ⟨bs, d', run, shown, runs', owned', shows', quiet'⟩

/-- While processes end only when they leave their CPU and wait for nothing, a run of the
handlers is brought about by a run of the critical sections, in which the CPUs do the same, and
which ends with every thread between two handlers and with the records that the handlers leave. -/
theorem handlers_refine_sections {as : List (Action ι)}
    (run : Run (step config) (Allowed fun _ => .strict) initial as s) :
    ∃ bs d, Run Dispatch.step (fun _ _ => True) (Dispatch.initial : Dispatch.State ι) bs d ∧
      bs.filterMap sectionEvent = as.filterMap handlerEvent ∧ Shows (seen s) d ∧ Quiet d := by
  obtain ⟨bs, d, run', shown, related⟩ :=
    (handlers_refine (fun _ => rfl) fun _ => rfl).run initial_related run
  exact ⟨bs, d, run', shown, related.shows, related.quiet⟩

/-- A process waits for a segment, its CPU is evicted for a compaction, and then it goes on. -/
theorem handlers_refine_sections_of_compaction :
    ∃ bs d, Run Dispatch.step (fun _ _ => True) (Dispatch.initial : Dispatch.State ℕ) bs d ∧
      bs.filterMap sectionEvent =
        [.connect 0, .execute 0, .stop 0 (.memAlloc 16), .evicted 0, .execute 0] ∧
        d.execProcesses = [0] ∧ d.canSchedule = true := by
  obtain ⟨s, run, again⟩ := Run.exists_of_exec (step fifo) (Allowed fun _ => .strict)
    (started.append [.schedule, .cpu 0 (.stop (.memAlloc 0 16)), .handleCpu 0,
      .memory (.serve (.ok true)), .memory .compactionRequest, .handleMemory,
      .compaction 0 .evictAll, .cpu 0 .evict, .handleCpu 0, .compaction 0 .handleEvicted,
      .compaction 0 .compactionReady, .memory (.serve (.ok true)), .memory .compactionFinished,
      .memory (.segmentCreated 0 .segmentOk), .handleMemory, .compaction 0 .reopen,
      .handleMemory, .wake, .schedule, .cpu 0 .execute]) initial
    (fun s => decide (s.execProcesses = [0] ∧ s.canSchedule = true)) (by decide)
  obtain ⟨executing, opened⟩ := of_decide_eq_true again
  obtain ⟨bs, d, run', shown, shows, -⟩ := handlers_refine_sections run
  exact ⟨bs, d, run', shown, shows.execProcesses.trans executing, shows.canSchedule.trans opened⟩

end OsModel.SchedulerSections
