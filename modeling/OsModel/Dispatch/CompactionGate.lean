import OsModel.Dispatch.Evictions

/-!
The compaction gate.

While Kernel Memory compacts, no CPU has a process. `Gate` follows a compaction
thread through its phases: once `can_schedule` is false and no round is under way,
no process gets a CPU, and each process that has one is on a CPU still to be evicted
or awaited (`Compaction.Holds`). `compaction_quiet` is what follows for the runs
whose compactions do not overlap with a round, another compaction or another
eviction; `compaction_gate_open` is a run where a round was under way.
-/

namespace OsModel.Dispatch

open Lib

variable {ι : Type}

/-! ### Processes on CPUs -/

/-- The process is executing and has the CPU. -/
def State.RunsOn (s : State ι) (pid : UInt32) (cpu : ι) : Prop :=
  ∃ p, getProcessFromPid s pid = some p ∧ p.Fits (.cpu cpu)

/-- What a compaction thread relies on, by phase. -/
def Compaction.Holds (s : State ι) : Compaction ι → Prop
  | .requested => True
  | .closed => s.canSchedule = false
  | .evictAll todo marked evicted =>
      s.canSchedule = false ∧ s.inRound = false ∧ ∀ pid cpu, s.RunsOn pid cpu →
        cpu ∈ todo ∨ marked = some cpu ∨ cpu ∈ evicted
  | .ready => s.canSchedule = false ∧ s.inRound = false ∧ ∀ pid cpu, ¬ s.RunsOn pid cpu

/-- The thread has run `can_schedule_write(false)`. -/
def Compaction.active : Compaction ι → Bool
  | .requested => false
  | _ => true

/-- The thread has sent `COMPACTION_READY`. -/
def Compaction.isReady : Compaction ι → Bool
  | .ready => true
  | _ => false

/-- What the sections keep. -/
structure Gate (s : State ι) : Prop where
  listed : ∀ pid cpu, s.RunsOn pid cpu → pid ∈ s.execProcesses
  single : s.compactions.countP Compaction.active ≤ 1
  holds : ∀ c ∈ s.compactions, c.Holds s
  counted : s.compacting + s.compactionFinishedSem = s.compactions.countP Compaction.isReady

/-- A section after which no more processes have a CPU, and which the compaction
threads do not see. -/
structure Quieter (s s' : State ι) : Prop where
  runs : ∀ pid cpu, s'.RunsOn pid cpu → s.RunsOn pid cpu
  listed : ∀ pid cpu, s'.RunsOn pid cpu → pid ∈ s.execProcesses → pid ∈ s'.execProcesses
  compactions : s'.compactions = s.compactions
  canSchedule : s'.canSchedule = s.canSchedule
  inRound : s.inRound = false → s'.inRound = false
  compacting : s'.compacting = s.compacting
  finished : s'.compactionFinishedSem = s.compactionFinishedSem

section Quieter

variable {s s' s'' : State ι} {pid : UInt32} {cpu : ι} {p : Process ι} {t : Thread ι}

theorem Compaction.Holds.quieter {c : Compaction ι} (holds : c.Holds s) (quieter : Quieter s s') :
    c.Holds s' := by
  cases c with
  | requested => trivial
  | closed => exact quieter.canSchedule.trans holds
  | evictAll todo marked evicted =>
      obtain ⟨closed, noRound, covered⟩ := holds
      exact ⟨quieter.canSchedule.trans closed, quieter.inRound noRound,
        fun pid cpu runs => covered pid cpu (quieter.runs pid cpu runs)⟩
  | ready =>
      obtain ⟨closed, noRound, none⟩ := holds
      exact ⟨quieter.canSchedule.trans closed, quieter.inRound noRound,
        fun pid cpu runs => none pid cpu (quieter.runs pid cpu runs)⟩

theorem Gate.quieter (gate : Gate s) (quieter : Quieter s s') : Gate s' where
  listed pid cpu runs :=
    quieter.listed pid cpu runs (gate.listed pid cpu (quieter.runs pid cpu runs))
  single := by
    rw [quieter.compactions]
    exact gate.single
  holds c mem := by
    rw [quieter.compactions] at mem
    exact (gate.holds c mem).quieter quieter
  counted := by
    rw [quieter.compacting, quieter.finished, quieter.compactions]
    exact gate.counted

namespace Quieter

theorem trans (first : Quieter s s') (second : Quieter s' s'') : Quieter s s'' where
  runs pid cpu runs := first.runs pid cpu (second.runs pid cpu runs)
  listed pid cpu runs mem :=
    second.listed pid cpu runs (first.listed pid cpu (second.runs pid cpu runs) mem)
  compactions := second.compactions.trans first.compactions
  canSchedule := second.canSchedule.trans first.canSchedule
  inRound noRound := second.inRound (first.inRound noRound)
  compacting := second.compacting.trans first.compacting
  finished := second.finished.trans first.finished

/-- Nothing the compaction threads see is changed. -/
theorem frame (processes : s'.listProcesses = s.listProcesses)
    (execProcesses : s'.execProcesses = s.execProcesses)
    (compactions : s'.compactions = s.compactions) (canSchedule : s'.canSchedule = s.canSchedule)
    (inRound : s'.inRound = s.inRound) (compacting : s'.compacting = s.compacting)
    (finished : s'.compactionFinishedSem = s.compactionFinishedSem) : Quieter s s' := by
  have same : ∀ pid, getProcessFromPid s' pid = getProcessFromPid s pid := fun pid => by
    rw [getProcessFromPid, getProcessFromPid, processes]
  refine ⟨fun pid cpu runs => ?_, fun pid cpu runs mem => ?_, compactions, canSchedule, ?_,
    compacting, finished⟩
  · obtain ⟨p, found, fits⟩ := runs
    exact ⟨p, (same pid).symm.trans found, fits⟩
  · rw [execProcesses]
    exact mem
  · rw [inRound]
    exact id

/-- A record is written that gives the process no CPU it did not have. -/
theorem write {f : Process ι → Process ι} (keeps : ∀ p, (f p).pid = p.pid)
    (quiet : ∀ p cpu, (f p).Fits (.cpu cpu) → p.Fits (.cpu cpu)) :
    Quieter s (s.updateProcess pid f) := by
  refine ⟨fun other cpu runs => ?_, fun other cpu runs => id, rfl, rfl, id, rfl, rfl⟩
  obtain ⟨p, found, fits⟩ := runs
  rw [getProcessFromPid_updateProcess keeps] at found
  split at found
  · rename_i eq
    subst eq
    obtain ⟨q, here, rfl⟩ := Option.map_eq_some_iff.mp found
    exact ⟨q, here, quiet q cpu fits⟩
  · exact ⟨p, found, fits⟩

/-- A record is written that takes the CPU from the process, and the process leaves
`exec_processes`. -/
theorem leave {f : Process ι → Process ι} (keeps : ∀ p, (f p).pid = p.pid)
    (quiet : ∀ p cpu, ¬ (f p).Fits (.cpu cpu)) :
    Quieter s { s.updateProcess pid f with execProcesses := s.execProcesses.erase pid } := by
  have written : Quieter s (s.updateProcess pid f) :=
    write keeps fun p cpu fits => absurd fits (quiet p cpu)
  refine ⟨written.runs, fun other cpu runs mem => ?_, rfl, rfl, id, rfl, rfl⟩
  refine (List.mem_erase_of_ne ?_).mpr mem
  rintro rfl
  obtain ⟨p, found, fits⟩ := runs
  change getProcessFromPid (s.updateProcess other f) other = some p at found
  rw [getProcessFromPid_updateProcess keeps, if_pos rfl] at found
  obtain ⟨q, -, rfl⟩ := Option.map_eq_some_iff.mp found
  exact quiet q cpu fits

theorem ready : Quieter s (s.makeReady pid) := by
  have written : Quieter s (s.updateProcess pid fun p => { p with state := .ready }) :=
    write (fun _ => rfl) fun p cpu fits => by simp [Process.Fits] at fits
  exact written.trans (frame rfl rfl rfl rfl rfl rfl rfl)

theorem requeue : Quieter s (requeue s p) := by
  have left : Quieter s { s.updateProcess p.pid fun p => { p with cpu := none } with
      execProcesses := s.execProcesses.erase p.pid } :=
    leave (fun _ => rfl) fun p cpu fits => by simp [Process.Fits] at fits
  unfold Dispatch.requeue
  split
  · exact left
  · exact left.trans ready

/-- The process leaves its CPU. -/
theorem unassign (state : ProcessState) :
    Quieter s { s.updateProcess pid fun p => { p with state, cpu := none } with
      execProcesses := s.execProcesses.erase pid } :=
  leave (fun _ => rfl) fun p cpu fits => by simp [Process.Fits] at fits

/-- The process ends, with the CPU it has. -/
theorem exit : Quieter s { s.updateProcess pid fun p => { p with state := .exit } with
    execProcesses := s.execProcesses.erase pid } :=
  leave (fun _ => rfl) fun p cpu fits => by simp [Process.Fits] at fits

variable [DecidableEq ι]

theorem handleSyscall {mutex : MutexCase} {syscall : Syscall} :
    Quieter s (handleSyscall s cpu p mutex syscall) := by
  have same : Quieter s s := frame rfl rfl rfl rfl rfl rfl rfl
  have blocked : ∀ t cpu, Quieter s (blockSyscall s t p.pid cpu) := fun t cpu =>
    (unassign .block).trans (frame rfl rfl rfl rfl rfl rfl rfl)
  have pending : Quieter s (s.updateProcess p.pid fun p => { p with pendingMemorySyscall := true }) :=
    write (fun _ => rfl) fun p cpu fits => fits
  have requested : Quieter s (memorySyscall s p.pid) :=
    pending.trans (frame rfl rfl rfl rfl rfl rfl rfl)
  have unknown : Quieter s (unknownMutex s (.cpuHandler cpu) p.pid cpu) :=
    frame rfl rfl rfl rfl rfl rfl rfl
  have resumed : ∀ assigned, Quieter s (resume s (.cpuHandler cpu) p.pid assigned) := by
    rintro (_ | assigned)
    · exact same
    · exact frame rfl rfl rfl rfl rfl rfl rfl
  cases syscall with
  | processEnd | segmentationFault =>
      exact (unassign .exit).trans (frame rfl rfl rfl rfl rfl rfl rfl)
  | mutexCreate => exact resumed (some cpu)
  | mutexLock =>
      cases mutex with
      | granted => exact resumed p.cpu
      | unknown => exact unknown
      | refused => exact same
      | taken =>
          cases assigned : p.cpu with
          | none => simpa only [Dispatch.handleSyscall, assigned] using same
          | some cpu => simpa only [Dispatch.handleSyscall, assigned] using blocked _ cpu
  | mutexUnlock =>
      cases mutex with
      | granted => exact resumed p.cpu
      | unknown => exact unknown
      | taken | refused => exact same
  | sleep | stdout => exact blocked _ cpu
  | stdin toRead =>
      simp only [Dispatch.handleSyscall]
      split
      · exact exit
      · exact blocked _ cpu
  | memAlloc segmentSize =>
      simp only [Dispatch.handleSyscall]
      split
      · exact same
      · exact requested
  | memFree => exact requested

theorem handleSegmentResult {ok : Bool} : Quieter s (handleSegmentResult s p ok) := by
  have cleared : Quieter s (s.updateProcess p.pid fun p => { p with pendingMemorySyscall := false }) :=
    write (fun _ => rfl) fun p cpu fits => fits
  unfold Dispatch.handleSegmentResult
  cases p.cpu with
  | some cpu => exact cleared.trans (frame rfl rfl rfl rfl rfl rfl rfl)
  | none =>
      dsimp only
      split
      · split
        · exact cleared.trans ready
        · exact cleared
      · exact cleared.trans exit

theorem proceed (taken : proceed s t = some s') : Quieter s s' := by
  cases t with
  | memoryHandler =>
      simp only [Dispatch.proceed] at taken
      split at taken
      · obtain rfl := Option.some.inj taken
        exact (unassign .exit).trans (frame rfl rfl rfl rfl rfl rfl rfl)
      · obtain rfl := Option.some.inj taken
        exact frame rfl rfl rfl rfl rfl rfl rfl
      · simp at taken
  | shortTerm | cpuHandler =>
      simp only [Dispatch.proceed] at taken
      split at taken
      · obtain rfl := Option.some.inj taken
        exact exit.trans (frame rfl rfl rfl rfl rfl rfl rfl)
      · obtain rfl := Option.some.inj taken
        exact frame rfl rfl rfl rfl rfl rfl rfl
      · simp at taken

theorem disconnect : Quieter s (handleCpuDisconnection s cpu) := by
  unfold handleCpuDisconnection
  cases getProcessFromCpu s cpu with
  | none => exact frame rfl rfl rfl rfl rfl rfl rfl
  | some p => exact (unassign .ready).trans (frame rfl rfl rfl rfl rfl rfl rfl)

omit [DecidableEq ι] in
theorem created :
    Quieter s { s with
      listProcesses := s.listProcesses ++ [⟨pid, .ready, none, false⟩]
      readyQueue := s.readyQueue ++ [pid] } := by
  refine ⟨fun other cpu runs => ?_, fun other cpu runs => id, rfl, rfl, id, rfl, rfl⟩
  obtain ⟨p, found, fits⟩ := runs
  refine ⟨p, ?_, fits⟩
  simp only [getProcessFromPid, List.find?_append] at found ⊢
  cases here : s.listProcesses.find? fun p => p.pid == other with
  | some q => simpa [here] using found
  | none =>
      simp only [here, Option.none_or] at found
      obtain rfl := List.mem_singleton.mp (List.mem_of_find?_eq_some found)
      simp [Process.Fits] at fits

end Quieter

end Quieter

/-! ### The compaction threads -/

section Compactions

variable {s s' : State ι} {i : Nat} {c c' : Compaction ι}

/-- While `can_schedule` is true no compaction thread is past `can_schedule_write`. -/
theorem Gate.inactive (gate : Gate s) (schedule : s.canSchedule = true) (mem : c ∈ s.compactions) :
    c = .requested := by
  have holds := gate.holds c mem
  cases c with
  | requested => rfl
  | closed => simp [Compaction.Holds, schedule] at holds
  | evictAll | ready => simp [Compaction.Holds, schedule] at holds

theorem Compaction.holds_of_inactive (inactive : c.active = false) : c.Holds s := by
  cases c with
  | requested => trivial
  | closed | evictAll | ready => simp [Compaction.active] at inactive

/-- The other threads, next to one that is past `can_schedule_write`. -/
theorem Gate.others (gate : Gate s) {rest : List (Compaction ι)}
    (perm : s.compactions.Perm (c :: rest))
    (alone : c.active = true ∨ ∀ d ∈ s.compactions, d.active = false) :
    rest.countP Compaction.active = 0 := by
  rcases alone with active | none
  · have single := gate.single
    rw [perm.countP_eq, List.countP_cons_of_pos active] at single
    omega
  · refine List.countP_eq_zero.mpr fun d mem => ?_
    simp [none d (perm.mem_iff.mpr (List.mem_cons_of_mem _ mem))]

/-- One thread goes on to its next phase. -/
theorem Gate.advance (gate : Gate s) (phase : s.compactions[i]? = some c)
    (alone : c.active = true ∨ ∀ d ∈ s.compactions, d.active = false)
    (compactions : s'.compactions = s.compactions.set i c')
    (listed : ∀ pid cpu, s'.RunsOn pid cpu → pid ∈ s'.execProcesses) (holds : c'.Holds s')
    (counted : s'.compacting + s'.compactionFinishedSem + c.isReady.toNat =
      s.compacting + s.compactionFinishedSem + c'.isReady.toNat) : Gate s' := by
  obtain ⟨rest, before, after⟩ := perm_set phase c'
  have others := gate.others before alone
  rw [← compactions] at after
  refine ⟨listed, ?_, fun d mem => ?_, ?_⟩
  · rw [after.countP_eq, List.countP_cons, others]
    split <;> omega
  · rcases List.mem_cons.mp (after.mem_iff.mp mem) with rfl | mem
    · exact holds
    · refine Compaction.holds_of_inactive ?_
      simpa using List.countP_eq_zero.mp others d mem
  · have before' := gate.counted
    rw [before.countP_eq, List.countP_cons] at before'
    rw [after.countP_eq, List.countP_cons]
    cases ready : c.isReady <;> cases ready' : c'.isReady <;>
      simp only [ready, ready', Bool.toNat_false, Bool.toNat_true, if_true, if_false,
        Bool.false_eq_true] at before' counted ⊢ <;> omega

end Compactions

/-! ### Runs -/

section Runs

variable [DecidableEq ι] {s s' : State ι} {a : Action ι}

/-- The CPU that `evict_all_processes` turns to next. -/
def Compaction.next : Compaction ι → Option ι
  | .evictAll todo none _ => todo.head?
  | _ => none

/-- A compaction is alone: no other compaction is under way when it closes the gate,
no round of the short-term scheduler when it reads `exec_processes`, and no other
eviction when it evicts a CPU with a process; and a CPU has no process but the one
that its confirmation finds. -/
def Alone (s : State ι) : Action ι → Prop
  | .close _ => ∀ c ∈ s.compactions, c.active = false
  | .collect _ => s.inRound = false
  | .mark i => ∀ cpu ∈ s.compactions[i]?.bind Compaction.next,
      (s.cpus cpu).connection = .connected ∧ (s.cpus cpu).isEvicting = false ∨
        ∀ p ∈ s.listProcesses, ¬ (p.state = .exec ∧ p.cpu = some cpu)
  | .await i => ∀ cpu ∈ s.compactions[i]?.bind Compaction.awaited,
      ∀ p ∈ s.listProcesses, p.state = .exec → p.cpu = some cpu →
        getProcessFromCpu s cpu = some p
  | _ => True

instance (s : State ι) : (a : Action ι) → Decidable (Alone s a)
  | .close _ => inferInstanceAs (Decidable (∀ c ∈ s.compactions, c.active = false))
  | .collect _ => inferInstanceAs (Decidable (s.inRound = false))
  | .mark _ | .await _ => Option.decidableForallMem _
  | .connect _ | .created _ | .wake _ | .startRound | .pick .. | .endRound | .check _ | .send _
  | .proceed _ | .evict _ | .sendEvict _ | .confirm _ | .execute _ | .stop .. | .evicted _
  | .handle .. | .post _ | .disconnect _ | .segmentResult .. | .compactionRequest
  | .sendEvictAll _ | .ready _ | .finished | .reopen _ => .isTrue trivial

variable [Fintype ι]

/-- Taken in time, and with compactions that are alone. -/
def Gated (s : State ι) (a : Action ι) : Prop := Timely s a ∧ Alone s a

instance (s : State ι) (a : Action ι) : Decidable (Gated s a) := by
  unfold Gated
  infer_instance

omit [DecidableEq ι] [Fintype ι] in
theorem State.RunsOn.listed {pid : UInt32} {cpu : ι} (runs : s.RunsOn pid cpu) :
    ∃ p ∈ s.listProcesses, p.pid = pid ∧ p.state = .exec ∧ p.cpu = some cpu := by
  obtain ⟨p, found, executing, assigned⟩ := runs
  exact ⟨p, List.mem_of_find?_eq_some found, pid_of_found found, executing, assigned⟩

omit [DecidableEq ι] [Fintype ι] in
/-- A process whose eviction is confirmed has no CPU. -/
theorem requeue_not_runsOn {p : Process ι} (found : getProcessFromPid s p.pid = some p) (cpu : ι) :
    ¬ (requeue s p).RunsOn p.pid cpu := by
  have left : getProcessFromPid (s.updateProcess p.pid fun p => { p with cpu := none }) p.pid =
      some { p with cpu := none } := found_updateProcess (fun _ => rfl) found
  rintro ⟨q, here, -, assigned⟩
  unfold requeue at here
  split at here
  · obtain rfl := Option.some.inj (left.symm.trans here)
    simp at assigned
  · have ready := found_updateProcess (f := fun p => { p with state := .ready }) (fun _ => rfl) left
    obtain rfl := Option.some.inj (ready.symm.trans here)
    simp at assigned

/-- Every section of a gated run keeps the gate. -/
theorem step_gate (inv : Inv s) (gate : Gate s) (alone : Alone s a) (taken : step s a = some s') :
    Gate s' := by
  cases a with
  | connect cpu =>
      simp only [step] at taken
      split at taken
      · obtain rfl := Option.some.inj taken
        exact gate.quieter (.frame rfl rfl rfl rfl rfl rfl rfl)
      · simp at taken
  | created pid =>
      simp only [step] at taken
      split at taken
      · simp at taken
      · obtain rfl := Option.some.inj taken
        exact gate.quieter .created
  | wake pid =>
      simp only [step] at taken
      split at taken
      · split at taken
        · obtain rfl := Option.some.inj taken
          exact gate.quieter .ready
        · simp at taken
      · simp at taken
  | startRound =>
      simp only [step] at taken
      split at taken
      · rename_i starts
        obtain rfl := Option.some.inj taken
        have schedule : s.canSchedule = true := by
          simp only [Bool.and_eq_true] at starts
          exact starts.1
        refine ⟨gate.listed, gate.single, fun c mem => ?_, gate.counted⟩
        obtain rfl := gate.inactive schedule mem
        trivial
      · simp at taken
  | pick pid cpu =>
      simp only [step] at taken
      split at taken
      · simp at taken
      · rename_i p found
        split at taken
        · rename_i ready
          obtain rfl := Option.some.inj taken
          refine ⟨fun other cpu' runs => ?_, gate.single, fun c mem => ?_, gate.counted⟩
          · by_cases eq : other = pid
            · subst eq
              exact List.mem_append_right _ (List.mem_singleton_self _)
            · refine List.mem_append_left _ (gate.listed other cpu' ?_)
              obtain ⟨q, here, fits⟩ := runs
              change getProcessFromPid (s.updateProcess pid fun p =>
                { p with state := .exec, cpu := some cpu }) other = some q at here
              exact ⟨q, found_of_updateProcess here eq fun _ => rfl, fits⟩
          · have holds := gate.holds c mem
            cases c with
            | requested | closed => exact holds
            | evictAll | ready =>
                have noRound := holds.2.1
                simp [ready.1] at noRound
        · simp at taken
  | endRound =>
      simp only [step] at taken
      split at taken
      · obtain rfl := Option.some.inj taken
        exact gate.quieter ⟨fun _ _ => id, fun _ _ _ => id, rfl, rfl, fun _ => rfl, rfl, rfl⟩
      · simp at taken
  | check t =>
      simp only [step] at taken
      split at taken
      · obtain rfl := Option.some.inj taken
        exact gate.quieter (.frame rfl rfl rfl rfl rfl rfl rfl)
      · simp at taken
  | send t =>
      simp only [step] at taken
      split at taken
      · split at taken
        · obtain rfl := Option.some.inj taken
          exact gate.quieter (.frame rfl rfl rfl rfl rfl rfl rfl)
        · obtain rfl := Option.some.inj taken
          exact gate.quieter (.frame rfl rfl rfl rfl rfl rfl rfl)
      · simp at taken
  | proceed t => exact gate.quieter (.proceed taken)
  | evict cpu =>
      simp only [step] at taken
      split at taken
      · split at taken
        · obtain rfl := Option.some.inj taken
          exact gate
        · obtain rfl := Option.some.inj taken
          exact gate.quieter (.frame rfl rfl rfl rfl rfl rfl rfl)
      · simp at taken
  | sendEvict cpu | execute cpu | evicted cpu | post cpu =>
      simp only [step] at taken
      split at taken
      · obtain rfl := Option.some.inj taken
        exact gate.quieter (.frame rfl rfl rfl rfl rfl rfl rfl)
      · simp at taken
  | confirm cpu =>
      simp only [step] at taken
      split at taken
      · have confirmed : Quieter s (s.setCpu cpu ((s.cpus cpu).confirmed true)) :=
          .frame rfl rfl rfl rfl rfl rfl rfl
        split at taken
        · obtain rfl := Option.some.inj taken
          exact gate.quieter confirmed
        · obtain rfl := Option.some.inj taken
          exact gate.quieter (confirmed.trans .requeue)
      · simp at taken
  | stop cpu syscall =>
      simp only [step] at taken
      split at taken
      · simp at taken
      · obtain rfl := Option.some.inj taken
        exact gate.quieter (.frame rfl rfl rfl rfl rfl rfl rfl)
  | handle cpu mutex =>
      simp only [step] at taken
      split at taken
      · rename_i pid syscall rest idle messages
        have read : Quieter s (s.setCpu cpu { s.cpus cpu with
            toScheduler := rest
            outstanding := (s.cpus cpu).outstanding.erase pid }) :=
          .frame rfl rfl rfl rfl rfl rfl rfl
        split at taken
        · obtain rfl := Option.some.inj taken
          exact gate.quieter read
        · obtain rfl := Option.some.inj taken
          exact gate.quieter (read.trans .handleSyscall)
      · simp at taken
  | disconnect cpu =>
      simp only [step] at taken
      split at taken
      · obtain rfl := Option.some.inj taken
        exact gate.quieter .disconnect
      · simp at taken
  | segmentResult pid ok =>
      simp only [step] at taken
      split at taken
      · have read : Quieter s { s with memoryRequests := s.memoryRequests.erase pid } :=
          .frame rfl rfl rfl rfl rfl rfl rfl
        split at taken
        · obtain rfl := Option.some.inj taken
          exact gate.quieter read
        · obtain rfl := Option.some.inj taken
          exact gate.quieter (read.trans .handleSegmentResult)
      · simp at taken
  | compactionRequest =>
      obtain rfl := Option.some.inj taken
      refine ⟨gate.listed, ?_, fun c mem => ?_, ?_⟩
      · simpa [List.countP_append, Compaction.active] using gate.single
      · rcases List.mem_append.mp mem with before | last
        · exact gate.holds c before
        · obtain rfl := List.mem_singleton.mp last
          trivial
      · simpa [List.countP_append, Compaction.isReady] using gate.counted
  | close i =>
      simp only [step] at taken
      split at taken
      · rename_i phase
        obtain rfl := Option.some.inj taken
        exact gate.advance phase (.inr alone) rfl gate.listed rfl rfl
      · simp at taken
  | collect i =>
      simp only [step] at taken
      split at taken
      · rename_i phase
        obtain rfl := Option.some.inj taken
        have closed : s.canSchedule = false := gate.holds _ (List.mem_of_getElem? phase)
        refine gate.advance phase (.inl rfl) rfl gate.listed ⟨closed, alone, ?_⟩ rfl
        intro pid cpu runs
        left
        obtain ⟨p, found, executing, assigned⟩ := runs
        refine List.mem_filterMap.mpr ⟨pid, gate.listed pid cpu ⟨p, found, executing, assigned⟩, ?_⟩
        change getProcessFromPid s pid = some p at found
        rw [found]
        exact assigned
      · simp at taken
  | mark i =>
      simp only [step] at taken
      split at taken
      · rename_i cpu todo evicted phase
        obtain ⟨closed, noRound, covered⟩ := gate.holds _ (List.mem_of_getElem? phase)
        split at taken
        · obtain rfl := Option.some.inj taken
          have marked : Quieter s (s.setCpu cpu
              { s.cpus cpu with isEvicting := true, evictor := some ⟨true, false⟩ }) :=
            .frame rfl rfl rfl rfl rfl rfl rfl
          refine (gate.quieter marked).advance phase (.inl rfl) rfl gate.listed
            ⟨closed, noRound, fun pid cpu' runs => ?_⟩ rfl
          rcases covered pid cpu' runs with here | here | here
          · rcases List.mem_cons.mp here with rfl | later
            · exact .inr (.inl rfl)
            · exact .inl later
          · simp at here
          · exact .inr (.inr here)
        · rename_i skipped
          obtain rfl := Option.some.inj taken
          refine gate.advance phase (.inl rfl) rfl gate.listed
            ⟨closed, noRound, fun pid cpu' runs => ?_⟩ rfl
          rcases covered pid cpu' runs with here | here | here
          · rcases List.mem_cons.mp here with rfl | later
            · rcases alone cpu' (by simp [phase, Compaction.next]) with free | none
              · exact absurd ⟨free.1, by simp [free.2]⟩ skipped
              · obtain ⟨p, mem, -, executing, assigned⟩ := State.RunsOn.listed runs
                exact absurd ⟨executing, assigned⟩ (none p mem)
            · exact .inl later
          · simp at here
          · exact .inr (.inr here)
      · simp at taken
  | sendEvictAll i =>
      simp only [step] at taken
      split at taken
      · rename_i todo cpu evicted phase
        obtain ⟨closed, noRound, covered⟩ := gate.holds _ (List.mem_of_getElem? phase)
        have moved : ∀ pid cpu', s.RunsOn pid cpu' →
            cpu' ∈ todo ∨ none = some cpu' ∨ cpu' ∈ evicted ++ [cpu] := by
          intro pid cpu' runs
          rcases covered pid cpu' runs with here | here | here
          · exact .inl here
          · obtain rfl := Option.some.inj here
            exact .inr (.inr (List.mem_append_right _ (List.mem_singleton_self _)))
          · exact .inr (.inr (List.mem_append_left _ here))
        split at taken
        · split at taken
          · obtain rfl := Option.some.inj taken
            have sent : Quieter s (s.setCpu cpu { s.cpus cpu with
                toCpu := (s.cpus cpu).toCpu ++ [.processEvict]
                evictor := some ⟨true, true⟩ }) := .frame rfl rfl rfl rfl rfl rfl rfl
            exact (gate.quieter sent).advance phase (.inl rfl) rfl gate.listed
              ⟨closed, noRound, moved⟩ rfl
          · simp at taken
        · obtain rfl := Option.some.inj taken
          exact gate.advance phase (.inl rfl) rfl gate.listed ⟨closed, noRound, moved⟩ rfl
      · simp at taken
  | await i =>
      simp only [step] at taken
      split at taken
      · rename_i cpu rest phase
        obtain ⟨closed, noRound, covered⟩ := gate.holds _ (List.mem_of_getElem? phase)
        have only := alone cpu (by simp [phase, Compaction.awaited])
        split at taken
        · split at taken
          · rename_i absent
            obtain rfl := Option.some.inj taken
            have confirmed : Quieter s (s.setCpu cpu ((s.cpus cpu).confirmed false)) :=
              .frame rfl rfl rfl rfl rfl rfl rfl
            refine (gate.quieter confirmed).advance phase (.inl rfl) rfl gate.listed
              ⟨closed, noRound, fun pid cpu' runs => ?_⟩ rfl
            rcases covered pid cpu' runs with here | here | here
            · simp at here
            · simp at here
            · rcases List.mem_cons.mp here with rfl | later
              · obtain ⟨p, mem, -, executing, assigned⟩ := State.RunsOn.listed runs
                have found := only p mem executing assigned
                simp [absent] at found
              · exact .inr (.inr later)
          · rename_i p found
            obtain rfl := Option.some.inj taken
            have read : Quieter s (s.setCpu cpu ((s.cpus cpu).confirmed true)) :=
              .frame rfl rfl rfl rfl rfl rfl rfl
            have confirmed : Quieter s (requeue (s.setCpu cpu ((s.cpus cpu).confirmed true)) p) :=
              read.trans .requeue
            have gate' := gate.quieter confirmed
            have phase' := phase
            rw [← confirmed.compactions] at phase'
            refine gate'.advance phase' (.inl rfl) rfl gate'.listed
              ⟨confirmed.canSchedule.trans closed, confirmed.inRound noRound,
                fun pid cpu' runs => ?_⟩ rfl
            rcases covered pid cpu' (confirmed.runs pid cpu' runs) with here | here | here
            · simp at here
            · simp at here
            · rcases List.mem_cons.mp here with rfl | later
              · obtain ⟨q, mem, rfl, executing, assigned⟩ :=
                  State.RunsOn.listed (confirmed.runs pid cpu' runs)
                obtain rfl := Option.some.inj (found.symm.trans (only q mem executing assigned))
                have gone := requeue_not_runsOn (s := s.setCpu cpu' ((s.cpus cpu').confirmed true))
                  (inv.found_on found).1 cpu'
                exact absurd runs gone
              · exact .inr (.inr later)
        · simp at taken
      · simp at taken
  | ready i =>
      simp only [step] at taken
      split at taken
      · rename_i phase
        obtain rfl := Option.some.inj taken
        obtain ⟨closed, noRound, covered⟩ := gate.holds _ (List.mem_of_getElem? phase)
        refine gate.advance phase (.inl rfl) rfl gate.listed
          ⟨closed, noRound, fun pid cpu runs => ?_⟩ ?_
        · rcases covered pid cpu runs with here | here | here <;> simp at here
        · simp only [setCompaction, Compaction.isReady, Bool.toNat_false, Bool.toNat_true]
          omega
      · simp at taken
  | finished =>
      simp only [step] at taken
      split at taken
      · rename_i compacting
        obtain rfl := Option.some.inj taken
        refine ⟨gate.listed, gate.single, fun c mem => ?_, ?_⟩
        · exact gate.holds c mem
        · have counted := gate.counted
          simp only
          omega
      · simp at taken
  | reopen i =>
      simp only [step] at taken
      split at taken
      · rename_i phase
        split at taken
        · rename_i posted
          obtain rfl := Option.some.inj taken
          obtain ⟨bound, at_⟩ := List.getElem?_eq_some_iff.mp phase
          have perm := (List.getElem_cons_eraseIdx_perm bound).symm
          rw [at_] at perm
          have others := gate.others perm (.inl rfl)
          refine ⟨gate.listed, ?_, fun c mem => ?_, ?_⟩
          · simp only [others]
            exact Nat.zero_le 1
          · refine Compaction.holds_of_inactive ?_
            simpa using List.countP_eq_zero.mp others c mem
          · have counted := gate.counted
            rw [perm.countP_eq, List.countP_cons_of_pos rfl] at counted
            simp only
            omega
        · simp at taken
      · simp at taken

omit [DecidableEq ι] [Fintype ι] in
theorem initial_gate : Gate (initial : State ι) where
  listed pid cpu runs := by
    obtain ⟨p, mem, -⟩ := runs.listed
    simp [initial] at mem
  single := Nat.zero_le 1
  holds c mem := by simp [initial] at mem
  counted := rfl

/-- In every gated run no CPU has a process while Kernel Memory compacts, and no
thread is about to send one to it. -/
theorem compaction_quiet {as : List (Action ι)} (run : Run step Gated initial as s)
    (compacting : 0 < s.compacting) (cpu : ι) :
    (s.cpus cpu).outstanding = [] ∧ (s.cpus cpu).inFlight = [] ∧
      ∀ t pid, s.threads t ≠ .sendToExecute pid cpu true := by
  have keeps : ∀ {s s' : State ι} {a}, Inv s ∧ Gate s → Gated s a → step s a = some s' →
      Inv s' ∧ Gate s' := fun both gated taken =>
    ⟨step_inv both.1 gated.1 taken, step_gate both.1 both.2 gated.2 taken⟩
  obtain ⟨inv, gate⟩ := run.invariant keeps ⟨initial_inv, initial_gate⟩
  have counted := gate.counted
  obtain ⟨c, mem, ready⟩ := List.countP_pos_iff.mp (show
    0 < s.compactions.countP Compaction.isReady by omega)
  have none : ∀ pid, ¬ s.At pid (.cpu cpu) := by
    intro pid here
    have holds := gate.holds c mem
    cases c with
    | requested | closed | evictAll => simp [Compaction.isReady] at ready
    | ready => exact holds.2.2 pid cpu (inv.fits pid (.cpu cpu) here)
  have idle : (s.cpus cpu).outstanding = [] :=
    List.eq_nil_iff_forall_not_mem.mpr fun pid mem => none pid (.inl mem)
  refine ⟨idle, List.eq_nil_iff_forall_not_mem.mpr fun pid mem => ?_, fun t pid doing => ?_⟩
  · have known := (inv.cpus cpu).known pid mem
    simp [idle] at known
  · refine none pid (.inr ⟨t, ?_⟩)
    rw [doing]
    exact ⟨rfl, rfl⟩

end Runs

/-- A compaction evicts the process that runs on the only CPU. -/
theorem compaction_quiet_of_eviction :
    ∃ s, Run step Gated initial
      (dispatched ++ compaction ++ [.evicted 0, .post 0, .await 0, .ready 0]) s ∧
        0 < s.compacting ∧ (s.cpus 0).outstanding = [] := by
  obtain ⟨s, run, compacting⟩ := Run.exists_of_exec step Gated
    (dispatched ++ compaction ++ [.evicted 0, .post 0, .await 0, .ready 0])
    (initial : State (Fin 1)) (fun s => decide (0 < s.compacting)) (by decide)
  have compacting := of_decide_eq_true compacting
  exact ⟨s, run, compacting, (compaction_quiet run compacting 0).1⟩

/-- The short-term scheduler has read `can_schedule` before the compaction closes
it, and dispatches a process after `COMPACTION_READY`. -/
theorem compaction_gate_open :
    ∃ as s, Run step (fun _ _ => True) (initial : State (Fin 1)) as s ∧
      0 < s.compacting ∧ (s.cpus 0).outstanding = [0] := by
  obtain ⟨s, run, compacting⟩ := Run.exists_of_exec step (fun _ _ => True)
    [.connect 0, .created 0, .startRound, .compactionRequest, .close 0, .collect 0, .ready 0,
      .pick 0 0, .check .shortTerm, .send .shortTerm]
    (initial : State (Fin 1)) (fun s => decide (0 < s.compacting ∧ (s.cpus 0).outstanding = [0]))
    (by decide)
  exact ⟨_, s, run, of_decide_eq_true compacting⟩

end OsModel.Dispatch
