import OsModel.Dispatch.Places
import OsModel.Lib.Run

/-!
One execution at a time.

Every critical section keeps a process in one place (`step_inv`), as long as no
order is sent to a CPU that is being evicted or has gone: `executions_exclusive`
says what follows for the executions of a process, and `execution_doubled` is a run
with a late order.
-/

namespace OsModel.Dispatch

open Lib

variable {ι : Type} [Fintype ι]

/-! ### The sections -/

section Sections

variable [DecidableEq ι] {s s' : State ι} {pid : UInt32} {cpu : ι} {p : Process ι} {t : Thread ι}

omit [DecidableEq ι] in
theorem Inv.makeReady (inv : Inv s) (nowhere : s.places pid = 0)
    (found : getProcessFromPid s pid = some p) (unassigned : p.cpu = none) :
    Inv (s.makeReady pid) := by
  have written : Inv (s.updateProcess pid fun p => { p with state := .ready }) := by
    refine inv.writeProcess nowhere (fun _ => rfl) fun q found' _ => ?_
    obtain rfl := Option.some.inj (found.symm.trans found')
    exact unassigned
  exact written.enqueue (p := { p with state := .ready }) nowhere
    (found_updateProcess (fun _ => rfl) found) rfl

omit [DecidableEq ι] in
theorem Inv.requeue (inv : Inv s) (found : getProcessFromPid s p.pid = some p)
    (elsewhere : ∀ place, s.At p.pid place → place = .memory) :
    Inv (requeue s p) := by
  have left : Inv (s.updateProcess p.pid fun p => { p with cpu := none }) := by
    refine inv.updateProcess (fun _ => rfl) (fun _ _ _ => rfl) fun q place _ here fits => ?_
    obtain rfl := elsewhere place here
    exact fits
  have left := left.execute (s.execProcesses.erase p.pid)
  unfold Dispatch.requeue
  split
  · exact left
  · rename_i free
    have nowhere : s.places p.pid = 0 := places_eq_zero fun place here => by
      have fits := inv.fits_found found here
      obtain rfl := elsewhere place here
      exact free fits.2
    exact left.makeReady (p := { p with cpu := none }) nowhere
      (found_updateProcess (fun _ => rfl) found) rfl

/-- What a syscall does with the process that made it. -/
theorem Inv.handleSyscall {mutex : MutexCase} {syscall : Syscall} (inv : Inv s)
    (nowhere : s.places p.pid = 0) (found : getProcessFromPid s p.pid = some p)
    (runs : p.Fits (.cpu cpu)) : Inv (handleSyscall s cpu p mutex syscall) := by
  have resumed : Inv (resume s (.cpuHandler cpu) p.pid (some cpu)) :=
    inv.hold nowhere found runs ⟨rfl, rfl⟩ (by simp)
  have left : ∀ state, Inv (s.updateProcess p.pid fun p => { p with state, cpu := none }) :=
    fun state => inv.writeProcess nowhere (fun _ => rfl) fun _ _ _ => rfl
  have blocked : Inv (blockSyscall s (.cpuHandler cpu) p.pid cpu) :=
    ((left .block).execute _).release rfl
  have unknown : Inv (unknownMutex s (.cpuHandler cpu) p.pid cpu) := by
    refine Inv.hold (inv.runCpu ((inv.cpus cpu).available true) rfl rfl) ?_ found runs
      ⟨rfl, rfl⟩ (by simp)
    exact (places_runCpu cpu { s.cpus cpu with isAvailable := true } rfl).trans nowhere
  have ended : Inv (endSyscall s p.pid cpu) :=
    ((left .exit).execute _).runCpu ((inv.cpus cpu).available true) rfl rfl
  have requested : Inv (memorySyscall s p.pid) :=
    Inv.request (p := { p with pendingMemorySyscall := true })
      (inv.writeProcess nowhere (fun _ => rfl) fun q found' => by
        obtain rfl := Option.some.inj (found.symm.trans found')
        exact inv.assigned p (List.mem_of_find?_eq_some found))
      nowhere (found_updateProcess (fun _ => rfl) found) ⟨runs.1, rfl⟩
  cases syscall with
  | processEnd | segmentationFault => exact ended
  | mutexCreate => exact resumed
  | mutexLock =>
      simp only [Dispatch.handleSyscall, runs.2]
      cases mutex with
      | granted => exact resumed
      | taken => exact blocked
      | unknown => exact unknown
      | refused => exact inv
  | mutexUnlock =>
      simp only [Dispatch.handleSyscall, runs.2]
      cases mutex with
      | granted => exact resumed
      | unknown => exact unknown
      | taken | refused => exact inv
  | sleep | stdout => exact blocked
  | stdin toRead =>
      simp only [Dispatch.handleSyscall]
      split
      · exact (inv.exit nowhere).execute _
      · exact blocked
  | memAlloc segmentSize =>
      simp only [Dispatch.handleSyscall]
      split
      · exact inv
      · exact requested
  | memFree => exact requested

/-- What `SEGMENT_RESULT` does with the process it is about. -/
theorem Inv.handleSegmentResult {ok : Bool} (inv : Inv s) (nowhere : s.places p.pid = 0)
    (found : getProcessFromPid s p.pid = some p) (executing : p.state = .exec) :
    Inv (handleSegmentResult s p ok) := by
  have cleared : Inv (s.updateProcess p.pid fun p => { p with pendingMemorySyscall := false }) := by
    refine inv.writeProcess nowhere (fun _ => rfl) fun q found' => ?_
    obtain rfl := Option.some.inj (found.symm.trans found')
    exact inv.assigned p (List.mem_of_find?_eq_some found)
  have found' := found_updateProcess (f := fun p => { p with pendingMemorySyscall := false })
    (fun _ => rfl) found
  unfold Dispatch.handleSegmentResult
  cases assigned : p.cpu with
  | some cpu =>
      dsimp only
      split
      · exact cleared.hold nowhere found' ⟨executing, assigned⟩ ⟨rfl, rfl⟩ (by simp)
      · exact cleared.hold nowhere found' ⟨executing, assigned⟩ ⟨rfl, rfl⟩ (by simp)
  | none =>
      simp only [executing, if_true]
      split
      · exact cleared.makeReady nowhere found' assigned
      · exact (cleared.exit nowhere).execute _

/-- A thread ends its process, or marks its CPU as available. -/
theorem Inv.proceed (inv : Inv s) (taken : proceed s t = some s') : Inv s' := by
  have free : ∀ {t pid cpu}, s.threads t = .endProcess pid cpu →
      (s.setThread t .idle).places pid = 0 := by
    intro t pid cpu doing
    have moved := places_setThread s t .idle pid
    have once := inv.once pid
    rw [doing] at moved
    simp only [Activity.held, List.count_cons_self, List.count_nil] at moved
    omega
  cases t with
  | memoryHandler =>
      simp only [Dispatch.proceed] at taken
      split at taken
      · rename_i pid cpu doing
        obtain rfl := Option.some.inj taken
        have ended := Inv.writeProcess (f := fun p => { p with state := .exit, cpu := none })
          (inv.release (t := .memoryHandler) (a := .idle) rfl) (free doing) (fun _ => rfl)
          fun _ _ _ => rfl
        have left := (ended.dequeue pid).release (t := .memoryHandler) (a := .release cpu) rfl
        refine left.congr rfl rfl rfl rfl ?_
        simp [State.setThread, State.updateProcess]
      · rename_i cpu doing
        obtain rfl := Option.some.inj taken
        exact Inv.release (inv.runCpu ((inv.cpus cpu).available _) rfl rfl) rfl
      · simp at taken
  | shortTerm | cpuHandler =>
      simp only [Dispatch.proceed] at taken
      split at taken
      · rename_i pid cpu doing
        obtain rfl := Option.some.inj taken
        exact ((inv.release (a := .idle) rfl).exit (free doing)).execute _
      · rename_i cpu doing
        obtain rfl := Option.some.inj taken
        exact Inv.release (inv.runCpu ((inv.cpus cpu).available true) rfl rfl) rfl
      · simp at taken

end Sections

/-! ### Runs in time -/

section Runs

variable [DecidableEq ι] {s s' : State ι} {a : Action ι}

/-- The CPU on which a thread sends or ends a process. -/
def Activity.cpu : Activity ι → Option ι
  | .sendToExecute _ cpu _ | .endProcess _ cpu => some cpu
  | _ => none

/-- The CPU a thread sends a process to, once it has read `is_evicting`. -/
def Activity.checkedCpu : Activity ι → Option ι
  | .sendToExecute _ cpu true => some cpu
  | _ => none

/-- No thread sends or ends a process on the CPU. -/
def State.Unattended (s : State ι) (cpu : ι) : Prop := ∀ t, (s.threads t).cpu ≠ some cpu

/-- No thread is past its check of `is_evicting` of the CPU. -/
def State.Unchecked (s : State ι) (cpu : ι) : Prop := ∀ t, (s.threads t).checkedCpu ≠ some cpu

/-- The CPU whose `is_evicting` a compaction thread has just set. -/
def Compaction.marked : Compaction ι → Option ι
  | .evictAll _ marked _ => marked
  | _ => none

/-- The CPU whose confirmation it waits for. -/
def Compaction.awaited : Compaction ι → Option ι
  | .evictAll _ _ evicted => evicted.head?
  | _ => none

/-- `PROCESS_EVICT` is not sent, and no eviction or disconnection handled, while a
thread sends or ends a process on the CPU; and no CPU disconnects whose process
waits for Kernel Memory. -/
def Timely (s : State ι) : Action ι → Prop
  | .sendEvict cpu => s.Unchecked cpu
  | .sendEvictAll i => ∀ cpu ∈ s.compactions[i]?.bind Compaction.marked, s.Unchecked cpu
  | .confirm cpu => s.Unattended cpu
  | .await i => ∀ cpu ∈ s.compactions[i]?.bind Compaction.awaited, s.Unattended cpu
  | .disconnect cpu =>
      s.Unattended cpu ∧ ∀ p ∈ getProcessFromCpu s cpu, p.pendingMemorySyscall = false
  | _ => True

instance (cpu : ι) : Decidable (s.Unattended cpu) := by
  unfold State.Unattended
  infer_instance

instance (cpu : ι) : Decidable (s.Unchecked cpu) := by
  unfold State.Unchecked
  infer_instance

instance (s : State ι) (a : Action ι) : Decidable (Timely s a) := by
  cases a <;> unfold Timely <;> infer_instance

omit [Fintype ι] [DecidableEq ι] in
theorem State.Unattended.not_on {cpu : ι} {pid : UInt32} {t : Thread ι}
    (unattended : s.Unattended cpu) : ¬ (s.threads t).On pid cpu := by
  have idle := unattended t
  cases doing : s.threads t with
  | idle | release => exact id
  | sendToExecute | endProcess =>
      rintro ⟨rfl, rfl⟩
      simp [doing, Activity.cpu] at idle

omit [Fintype ι] [DecidableEq ι] in
theorem State.Unchecked.not_checked {cpu : ι} {pid : UInt32} {t : Thread ι}
    (unchecked : s.Unchecked cpu) : s.threads t ≠ .sendToExecute pid cpu true := by
  intro doing
  have idle := unchecked t
  simp [doing, Activity.checkedCpu] at idle

omit [DecidableEq ι] in
theorem initial_inv : Inv (initial : State ι) where
  pids := List.nodup_nil
  assigned := by simp [initial]
  once pid := by simp [State.places, initial, tokens, Activity.held, Cpu.absent]
  fits pid place here := by
    cases place with
    | ready | memory => simp [State.At, initial] at here
    | cpu => simp [State.At, initial, Cpu.absent, Activity.On] at here
  cpus _ := Cpu.ordered_absent
  checked t pid cpu doing := by simp [initial] at doing

/-- A confirmed eviction. -/
theorem Inv.confirm {cpu : ι} (inv : Inv s) (connected : (s.cpus cpu).connection = .connected)
    (posted : 0 < (s.cpus cpu).responseSem) (free : Bool) :
    Inv (s.setCpu cpu ((s.cpus cpu).confirmed free)) := by
  obtain ⟨orders, running, messages, one⟩ := ((inv.cpus cpu).stage connected).finished posted
  refine inv.moveCpu ⟨?_, ?_, fun _ => ?_, ?_, fun _ => rfl⟩ (List.nil_sublist _) fun _ _ _ => rfl
  · simp [Cpu.inFlight, Cpu.confirmed, orders, running, messages]
  · simp [Cpu.inFlight, Cpu.confirmed, orders, running, messages]
  · simp only [Cpu.confirmed, Cpu.evictSent, orders, messages, one]
    exact .calm (by simp) (by simp)
  · simp [Cpu.confirmed]

/-- The process that a confirmed eviction finds. -/
theorem Inv.requeueOf {cpu : ι} {p : Process ι} (inv : Inv s) {now : Cpu}
    (inv' : Inv (s.setCpu cpu now)) (stopped : now.outstanding = []) (unattended : s.Unattended cpu)
    (found : getProcessFromCpu s cpu = some p) : Inv (Dispatch.requeue (s.setCpu cpu now) p) := by
  obtain ⟨found, assigned⟩ := inv.found_on found
  refine inv'.requeue found fun place here => ?_
  have fits := inv'.fits_found (s := s.setCpu cpu now) found here
  cases place with
  | memory => rfl
  | ready =>
      have none := inv.assigned p (List.mem_of_find?_eq_some found) (.inl fits)
      simp [assigned] at none
  | cpu other =>
      obtain rfl := Option.some.inj (assigned.symm.trans fits.2)
      rcases here with outstanding | ⟨t, on⟩
      · simp [State.setCpu, stopped] at outstanding
      · exact absurd on unattended.not_on

/-- `handle_cpu_disconnection`. -/
theorem Inv.disconnect {cpu : ι} (inv : Inv s) (noMessages : (s.cpus cpu).toScheduler = [])
    (timely : Timely s (.disconnect cpu)) : Inv (handleCpuDisconnection s cpu) := by
  obtain ⟨unattended, settled⟩ := timely
  have closed := inv.moveCpu ((inv.cpus cpu).close noMessages) (List.nil_sublist _)
    fun t pid doing => inv.checked t pid cpu doing
  unfold handleCpuDisconnection
  cases found : getProcessFromCpu s cpu with
  | none => exact closed
  | some p =>
      obtain ⟨here, assigned⟩ := inv.found_on found
      have nowhere := places_eq_zero fun place at_ => by
        have fits := closed.fits_found here at_
        cases place with
        | memory =>
            have none := settled p found
            simp [fits.2] at none
        | ready =>
            have none := inv.assigned p (List.mem_of_find?_eq_some found) (.inl fits)
            simp [assigned] at none
        | cpu other =>
            obtain rfl := Option.some.inj (assigned.symm.trans fits.2)
            rcases at_ with outstanding | ⟨t, on⟩
            · simp [State.setCpu] at outstanding
            · exact unattended.not_on on
      have written := closed.writeProcess (f := fun p => { p with state := .ready, cpu := none })
        nowhere (fun _ => rfl) fun _ _ _ => rfl
      exact (written.enqueue nowhere (found_updateProcess (fun _ => rfl) here) rfl).execute _

omit [DecidableEq ι] in
/-- `wait_process_create_confirmation`. -/
theorem Inv.created {pid : UInt32} (inv : Inv s) (new : getProcessFromPid s pid = none) :
    Inv { s with
      listProcesses := s.listProcesses ++ [⟨pid, .ready, none, false⟩]
      readyQueue := s.readyQueue ++ [pid] } := by
  have absent := List.find?_eq_none.mp new
  have listed : Inv { s with listProcesses := s.listProcesses ++ [⟨pid, .ready, none, false⟩] } := by
    refine ⟨?_, fun p mem => ?_, inv.once, fun other place here => ?_, inv.cpus, inv.checked⟩
    · rw [List.map_append, List.nodup_append]
      refine ⟨inv.pids, by simp, fun other before added last => ?_⟩
      have eq : added = pid := by simpa using last
      obtain ⟨p, mem, rfl⟩ := List.mem_map.mp before
      rw [eq]
      simpa using absent p mem
    · rcases List.mem_append.mp mem with before | last
      · exact inv.assigned p before
      · obtain rfl := List.mem_singleton.mp last
        exact fun _ => rfl
    · obtain ⟨p, found, fits⟩ := inv.fits other place here
      refine ⟨p, ?_, fits⟩
      unfold getProcessFromPid at found ⊢
      rw [List.find?_append, found]
      rfl
  refine listed.enqueue (p := ⟨pid, .ready, none, false⟩) (places_eq_zero fun place here => ?_) ?_ rfl
  · obtain ⟨p, found, -⟩ := inv.fits pid place here
    simp [new] at found
  · unfold getProcessFromPid at new ⊢
    simp [List.find?_append, new]

/-- A syscall is read. -/
theorem Inv.handle {cpu : ι} {pid : UInt32} {syscall : Syscall} {rest : List ToScheduler}
    (inv : Inv s) (messages : (s.cpus cpu).toScheduler = .syscall pid syscall :: rest) :
    let s' := s.setCpu cpu
      { s.cpus cpu with
        toScheduler := rest
        outstanding := (s.cpus cpu).outstanding.erase pid }
    Inv s' ∧ s'.places pid = 0 ∧ ∃ p, getProcessFromPid s pid = some p ∧ p.Fits (.cpu cpu) := by
  intro s'
  have known : pid ∈ (s.cpus cpu).outstanding :=
    (inv.cpus cpu).known pid (by simp [Cpu.inFlight, messages, ToScheduler.pid])
  have read : Inv s' := inv.moveCpu ((inv.cpus cpu).handle messages) List.erase_sublist
    fun t other doing => inv.checked t other cpu doing
  refine ⟨read, inv.nowhere_of_once ?_, inv.fits pid (.cpu cpu) (.inl known)⟩
  have moved : s'.places pid + (s.cpus cpu).outstanding.count pid =
    s.places pid + ((s.cpus cpu).outstanding.erase pid).count pid := places_setCpu s cpu _ pid
  have one := List.count_pos_iff.mpr known
  rw [List.count_erase_self] at moved
  omega

/-- `PROCESS_EVICT` is sent. -/
theorem Inv.sendEvict {cpu : ι} {all : Bool} (inv : Inv s) (unchecked : s.Unchecked cpu)
    (marked : (s.cpus cpu).evictor = some ⟨all, false⟩) :
    Inv (s.setCpu cpu
      { s.cpus cpu with
        toCpu := (s.cpus cpu).toCpu ++ [.processEvict]
        evictor := some ⟨all, true⟩ }) :=
  inv.moveCpu ((inv.cpus cpu).evict marked) (List.Sublist.refl _)
    fun _ _ doing => absurd doing unchecked.not_checked

/-- `is_evicting` is set. -/
theorem Inv.mark {cpu : ι} (inv : Inv s) (free : (s.cpus cpu).isEvicting = false) (all : Bool) :
    Inv (s.setCpu cpu { s.cpus cpu with isEvicting := true, evictor := some ⟨all, false⟩ }) :=
  inv.moveCpu ((inv.cpus cpu).mark free all) (List.Sublist.refl _) fun _ _ _ => rfl

/-- Every section that is taken in time keeps a process in one place. -/
theorem step_inv (inv : Inv s) (timely : Timely s a) (taken : step s a = some s') : Inv s' := by
  cases a with
  | connect cpu =>
      simp only [step] at taken
      split at taken
      · rename_i absent
        obtain rfl := Option.some.inj taken
        have none := (inv.cpus cpu).absent (by simp [absent])
        refine inv.moveCpu Cpu.ordered_create ?_ fun _ _ _ => rfl
        rw [none]
        exact List.Sublist.refl _
      · simp at taken
  | created pid =>
      simp only [step] at taken
      split at taken
      · simp at taken
      · rename_i new
        obtain rfl := Option.some.inj taken
        exact inv.created new
  | wake pid =>
      simp only [step] at taken
      split at taken
      · rename_i p found
        split at taken
        · rename_i waits
          obtain rfl := Option.some.inj taken
          have nowhere : s.places pid = 0 := places_eq_zero fun place here => by
            have fits := inv.fits_found found here
            cases place with
            | ready => simp [Process.Fits, waits] at fits
            | memory | cpu => simp [Process.Fits, waits] at fits
          exact inv.makeReady nowhere found
            (inv.assigned p (List.mem_of_find?_eq_some found) (.inr waits))
        · simp at taken
      · simp at taken
  | startRound =>
      simp only [step] at taken
      split at taken
      · obtain rfl := Option.some.inj taken
        exact inv.congr rfl rfl rfl rfl rfl
      · simp at taken
  | pick pid cpu =>
      simp only [step] at taken
      split at taken
      · simp at taken
      · rename_i p found
        split at taken
        · rename_i ready
          obtain rfl := Option.some.inj taken
          obtain ⟨-, -, queued, state, -⟩ := ready
          have dequeued := inv.dequeue pid
          have nowhere : State.places { s with readyQueue := s.readyQueue.erase pid } pid = 0 := by
            refine inv.nowhere_of_once ?_
            have one := List.count_pos_iff.mpr queued
            simp only [State.places, List.count_erase_self]
            omega
          have written := dequeued.writeProcess
            (f := fun p => { p with state := .exec, cpu := some cpu }) nowhere (fun _ => rfl)
            fun _ _ => by simp [Process.Assigned]
          have executing := written.execute (s.execProcesses ++ [pid])
          refine Inv.hold (executing.runCpu ((inv.cpus cpu).available false) rfl rfl) ?_
            (found_updateProcess (fun _ => rfl) found) ⟨rfl, rfl⟩ ⟨rfl, rfl⟩
            (by simp)
          calc _ = State.places { s with readyQueue := s.readyQueue.erase pid } pid :=
                places_runCpu cpu { s.cpus cpu with isAvailable := false } rfl
            _ = 0 := nowhere
        · simp at taken
  | endRound =>
      simp only [step] at taken
      split at taken
      · obtain rfl := Option.some.inj taken
        exact inv.congr rfl rfl rfl rfl rfl
      · simp at taken
  | check t =>
      simp only [step] at taken
      split at taken
      · rename_i pid cpu doing
        obtain rfl := Option.some.inj taken
        split
        · exact inv.release rfl
        · rename_i free
          have on : (s.threads t).On pid cpu := by
            rw [doing]
            exact ⟨rfl, rfl⟩
          refine inv.setThread (fun other held => ?_) (fun other cpu' on' => ?_)
            (fun other cpu' eq => ?_)
          · obtain rfl := List.mem_singleton.mp held
            have once := inv.once other
            have sending : s.At other (.cpu cpu) := .inr ⟨t, on⟩
            have counted := places_pos_of_at sending
            have here : (s.threads t).held.count other = 1 := by simp [doing, Activity.held]
            omega
          · obtain ⟨rfl, rfl⟩ := on'
            exact inv.fits _ _ (.inr ⟨t, on⟩)
          · obtain ⟨rfl, rfl, -⟩ := Activity.sendToExecute.inj eq
            exact (inv.cpus _).unsent (by simpa using free)
      · simp at taken
  | send t =>
      simp only [step] at taken
      split at taken
      · rename_i pid cpu doing
        have dropped : Inv (s.setThread t .idle) := inv.release rfl
        have on : (s.threads t).On pid cpu := by
          rw [doing]
          exact ⟨rfl, rfl⟩
        obtain ⟨p, found, fits⟩ := inv.fits pid (.cpu cpu) (.inr ⟨t, on⟩)
        have nowhere : (s.setThread t .idle).places pid = 0 := by
          refine inv.nowhere_of_once ?_
          have moved := places_setThread s t .idle pid
          rw [doing] at moved
          simp only [Activity.held, List.count_singleton_self, List.count_nil] at moved
          omega
        split at taken
        · rename_i connected
          obtain rfl := Option.some.inj taken
          have unsent := inv.checked t pid cpu doing
          exact dropped.order nowhere found fits ((inv.cpus cpu).send connected unsent fun mem =>
            not_at nowhere (.cpu cpu) (.inl mem)) rfl unsent
        · obtain rfl := Option.some.inj taken
          exact dropped
      · simp at taken
  | proceed t => exact inv.proceed taken
  | evict cpu =>
      simp only [step] at taken
      split at taken
      · split at taken
        · obtain rfl := Option.some.inj taken
          exact inv
        · rename_i free
          obtain rfl := Option.some.inj taken
          exact inv.mark (by simpa using free) false
      · simp at taken
  | sendEvict cpu =>
      simp only [step] at taken
      split at taken
      · rename_i marked
        obtain rfl := Option.some.inj taken
        exact inv.sendEvict timely marked.2
      · simp at taken
  | confirm cpu =>
      simp only [step] at taken
      split at taken
      · rename_i posted
        have confirmed := inv.confirm posted.1 posted.2.2 true
        split at taken
        · obtain rfl := Option.some.inj taken
          exact confirmed
        · rename_i p found
          obtain rfl := Option.some.inj taken
          exact inv.requeueOf confirmed rfl timely found
      · simp at taken
  | execute cpu =>
      simp only [step] at taken
      split at taken
      · rename_i pid rest orders free
        obtain rfl := Option.some.inj taken
        exact inv.runCpu ((inv.cpus cpu).execute orders free) rfl rfl
      · simp at taken
  | stop cpu syscall =>
      simp only [step] at taken
      split at taken
      · simp at taken
      · rename_i pid running
        obtain rfl := Option.some.inj taken
        exact inv.runCpu ((inv.cpus cpu).stop running) rfl rfl
  | evicted cpu =>
      simp only [step] at taken
      split at taken
      · rename_i rest orders
        obtain rfl := Option.some.inj taken
        exact inv.runCpu ((inv.cpus cpu).evicted orders) rfl rfl
      · simp at taken
  | handle cpu mutex =>
      simp only [step] at taken
      split at taken
      · rename_i pid syscall rest idle messages
        obtain ⟨read, nowhere, p, found, runs⟩ := inv.handle messages
        rw [found] at taken
        obtain rfl := Option.some.inj taken
        obtain rfl := pid_of_found found
        exact read.handleSyscall nowhere found runs
      · simp at taken
  | post cpu =>
      simp only [step] at taken
      split at taken
      · rename_i rest idle messages
        obtain rfl := Option.some.inj taken
        exact inv.runCpu ((inv.cpus cpu).post messages) rfl rfl
      · simp at taken
  | disconnect cpu =>
      simp only [step] at taken
      split at taken
      · rename_i closing
        obtain rfl := Option.some.inj taken
        exact inv.disconnect closing.2.2 timely
      · simp at taken
  | segmentResult pid ok =>
      simp only [step] at taken
      split at taken
      · rename_i pending
        obtain ⟨p, found, runs⟩ := inv.fits pid .memory pending.2
        have answered := inv.answer pid
        have nowhere :
            State.places { s with memoryRequests := s.memoryRequests.erase pid } pid = 0 := by
          refine inv.nowhere_of_once ?_
          have one := List.count_pos_iff.mpr pending.2
          simp only [State.places, List.count_erase_self]
          omega
        rw [found] at taken
        obtain rfl := Option.some.inj taken
        obtain rfl := pid_of_found found
        exact answered.handleSegmentResult nowhere found runs.1
      · simp at taken
  | compactionRequest =>
      obtain rfl := Option.some.inj taken
      exact inv.congr rfl rfl rfl rfl rfl
  | close i =>
      simp only [step] at taken
      split at taken
      · obtain rfl := Option.some.inj taken
        exact inv.congr rfl rfl rfl rfl rfl
      · simp at taken
  | collect i =>
      simp only [step] at taken
      split at taken
      · obtain rfl := Option.some.inj taken
        exact inv.congr rfl rfl rfl rfl rfl
      · simp at taken
  | mark i =>
      simp only [step] at taken
      split at taken
      · rename_i cpu todo evicted phase
        split at taken
        · rename_i free
          obtain rfl := Option.some.inj taken
          exact (inv.mark (by simpa using free.2) true).congr rfl rfl rfl rfl rfl
        · obtain rfl := Option.some.inj taken
          exact inv.congr rfl rfl rfl rfl rfl
      · simp at taken
  | sendEvictAll i =>
      simp only [step] at taken
      split at taken
      · rename_i todo cpu evicted phase
        have unchecked : s.Unchecked cpu := timely cpu (by simp [phase, Compaction.marked])
        split at taken
        · split at taken
          · rename_i marked
            obtain rfl := Option.some.inj taken
            exact (inv.sendEvict unchecked marked).congr rfl rfl rfl rfl rfl
          · simp at taken
        · obtain rfl := Option.some.inj taken
          exact inv.congr rfl rfl rfl rfl rfl
      · simp at taken
  | await i =>
      simp only [step] at taken
      split at taken
      · rename_i cpu rest phase
        have unattended : s.Unattended cpu := timely cpu (by simp [phase, Compaction.awaited])
        split at taken
        · rename_i posted
          split at taken
          · obtain rfl := Option.some.inj taken
            exact (inv.confirm posted.1 posted.2.2 false).congr rfl rfl rfl rfl rfl
          · rename_i p found
            obtain rfl := Option.some.inj taken
            have confirmed := inv.confirm posted.1 posted.2.2 true
            exact (inv.requeueOf confirmed rfl unattended found).congr rfl rfl rfl rfl rfl
        · simp at taken
      · simp at taken
  | ready i =>
      simp only [step] at taken
      split at taken
      · obtain rfl := Option.some.inj taken
        exact inv.congr rfl rfl rfl rfl rfl
      · simp at taken
  | finished =>
      simp only [step] at taken
      split at taken
      · obtain rfl := Option.some.inj taken
        exact inv.congr rfl rfl rfl rfl rfl
      · simp at taken
  | reopen i =>
      simp only [step] at taken
      split at taken
      · split at taken
        · obtain rfl := Option.some.inj taken
          exact inv.congr rfl rfl rfl rfl rfl
        · simp at taken
      · simp at taken

/-- In every run whose sections are taken in time no process is with two CPUs, or
twice with one. A thread about to send it finds it with no CPU and in no ready
queue, and sends it to the CPU it is assigned to. -/
theorem executions_exclusive {as : List (Action ι)} (run : Run step Timely initial as s)
    (pid : UInt32) :
    tokens (fun cpu => (s.cpus cpu).outstanding) pid ≤ 1 ∧
      ∀ t cpu, s.threads t = .sendToExecute pid cpu true →
        (∀ other, pid ∉ (s.cpus other).outstanding) ∧ pid ∉ s.readyQueue ∧
          ∃ p, getProcessFromPid s pid = some p ∧ p.state = .exec ∧ p.cpu = some cpu := by
  have inv : Inv s := run.invariant step_inv initial_inv
  have once := inv.once pid
  constructor
  · unfold State.places at once
    omega
  · intro t cpu doing
    have on : (s.threads t).On pid cpu := by
      rw [doing]
      exact ⟨rfl, rfl⟩
    have held := count_le_tokens (fun t => (s.threads t).held) t pid
    have one := List.count_pos_iff.mpr (Activity.mem_held on)
    unfold State.places at once
    refine ⟨fun other outstanding => ?_, fun queued => ?_, inv.fits pid (.cpu cpu) (.inr ⟨t, on⟩)⟩
    · have there := count_le_tokens (fun cpu => (s.cpus cpu).outstanding) other pid
      have two := List.count_pos_iff.mpr outstanding
      omega
    · have two := List.count_pos_iff.mpr queued
      omega

end Runs

/-! ### Two runs -/

/-- A process runs on the first CPU and asks for memory. -/
def allocation : List (Action (Fin 2)) :=
  [.connect 0, .created 0, .startRound, .pick 0 0, .check .shortTerm, .send .shortTerm, .endRound,
    .execute 0, .stop 0 (.memAlloc 4), .handle 0 .granted]

/-- The first CPU is evicted, and the process goes to one of the two. -/
def eviction (cpu : Fin 2) : List (Action (Fin 2)) :=
  [.evict 0, .sendEvict 0, .evicted 0, .post 0, .confirm 0, .connect 1, .startRound, .pick 0 cpu,
    .check .shortTerm, .send .shortTerm]

/-- A memory syscall is answered, and then its CPU is evicted. -/
theorem executions_exclusive_of_eviction :
    ∃ s, Run step Timely initial (allocation ++ [.segmentResult 0 true, .check .memoryHandler,
      .send .memoryHandler, .execute 0] ++ eviction 1) s ∧
      (∀ other, other ≠ 1 → 0 ∉ (s.cpus other).outstanding) ∧
        tokens (fun cpu => (s.cpus cpu).outstanding) 0 ≤ 1 := by
  obtain ⟨s, run, sent⟩ := Run.exists_of_exec step Timely
    (allocation.append [.segmentResult 0 true, .check .memoryHandler, .send .memoryHandler,
      .execute 0] ++ eviction 1) initial
    (fun s => decide (0 ∈ (s.cpus 1).outstanding)) (by decide)
  have once := (executions_exclusive run 0).1
  exact ⟨s, run, fun other ne here => ne (eq_of_held once here (of_decide_eq_true sent)), once⟩

/-- The thread of Kernel Memory reads the CPU of a process, which is evicted and
dispatched to that CPU again, the first free one, before the thread sends it there
once more. -/
theorem execution_doubled :
    ∃ as s, Run step (fun _ _ => True) (initial : State (Fin 2)) as s ∧
      1 < tokens (fun cpu => (s.cpus cpu).outstanding) 0 := by
  obtain ⟨s, run, sent⟩ := Run.exists_of_exec step (fun _ _ => True)
    ((allocation.append [.segmentResult 0 true] ++ eviction 0).append
      [.check .memoryHandler, .send .memoryHandler])
    initial (fun s => decide (1 < tokens (fun cpu => (s.cpus cpu).outstanding) 0)) (by decide)
  exact ⟨_, s, run, of_decide_eq_true sent⟩

end OsModel.Dispatch
