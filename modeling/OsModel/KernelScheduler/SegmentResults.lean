import OsModel.KernelScheduler.Ownership

/-!
A process waits for a segment while its CPU is evicted.

The result and the confirmation come in any order. Whichever is handled last hands the
process over: `Queued`, `Sent`, or, while the confirmation is still missing, `Held`; and
while the result is missing, `Deferred`.

* `segment_result_kept`: the process is never lost, whatever happens in between.
-/

namespace OsModel.KernelScheduler

open Lib

variable {ι : Type} [DecidableEq ι] {config : Config} {m m' : UInt32 → Mode} {s t : State ι}
  {place : UInt32 → Option (Place ι)} {pid : UInt32} {cpu : ι} {a : Action ι}
  {as : List (Action ι)}

/-! ### What becomes of the process -/

/-- The process is `READY`, and in the ready queues. -/
structure Queued (config : Config) (s : State ι) (pid : UInt32) : Prop where
  ready : (s.process pid).state = .ready
  queued : (s.readyQueues config).count pid = 1
  settled : (s.process pid).pendingMemorySyscall = false

/-- `PROCESS_EXECUTE` is sent for the process. -/
structure Sent (s : State ι) (cpu : ι) (pid : UInt32) : Prop where
  executing : (s.process pid).state = .exec
  has : (s.process pid).cpu = some cpu
  settled : (s.process pid).pendingMemorySyscall = false
  sent : .processExecute pid ∈ (s.cpu cpu).toCpu

/-- The process waits for the confirmation of its CPU. -/
structure Held (s : State ι) (cpu : ι) (pid : UInt32) : Prop where
  executing : (s.process pid).state = .exec
  has : (s.process pid).cpu = some cpu
  settled : (s.process pid).pendingMemorySyscall = false
  evicting : (s.cpu cpu).isEvicting = true

/-- The process has lost its CPU, and its request is under way. -/
structure Deferred (s : State ι) (pid : UInt32) : Prop where
  executing : (s.process pid).state = .exec
  free : (s.process pid).cpu = none
  pending : (s.process pid).pendingMemorySyscall = true
  asked : (pid, .segment) ∈ s.memory.requests
  unlisted : pid ∉ s.execProcesses
  unqueued : ∀ i, pid ∉ s.readyQueue i

structure Ended (s : State ι) (pid : UInt32) : Prop where
  exit : (s.process pid).state = .exit
  unlisted : pid ∉ s.execProcesses
  unqueued : ∀ i, pid ∉ s.readyQueue i

theorem Inv.queued (inv : Inv config m none s place) (ready : (s.process pid).state = .ready) :
    Queued config s pid := by
  have fits := inv.fit pid
  rw [inv.place_ready ready] at fits
  refine ⟨ready, ?_, fits.2.2.1⟩
  unfold State.readyQueues
  rw [inv.count_queues pid config.queueAlgorithmsCount]
  simp [ready, queueIndex_lt]

theorem Inv.unqueued (inv : Inv config m none s place) (other : (s.process pid).state ≠ .ready)
    (i : ℕ) : pid ∉ s.readyQueue i := by
  intro queued
  exact other (inv.mem_readyQueue queued)

omit [DecidableEq ι] in
theorem Board.Listed.unlisted (listed : s.board.Listed)
    (free : (s.process pid).state = .exec → (s.process pid).cpu = none) :
    pid ∉ s.execProcesses := by
  have count := listed pid
  refine List.count_eq_zero.mp (count.trans (if_neg ?_))
  rintro ⟨executing, has⟩
  exact has (free executing)

/-- A process that waits for a segment is `EXEC`, and its request is under way. -/
theorem Inv.place_pending (inv : Inv config m none s place)
    (pending : (s.process pid).pendingMemorySyscall = true) :
    (s.process pid).state = .exec ∧ (pid, .segment) ∈ s.memory.requests := by
  have fits := inv.fit pid
  rcases there : place pid with _ | (_ | _ | _ | _ | _ | (_ | _ | _)) <;>
    rw [there] at fits <;> simp [Fits, pending] at fits
  refine ⟨fits, List.count_pos_iff.mp ?_⟩
  have asked := inv.located pid (.memory .segment)
  simp only [State.tokens, there, reduceCtorEq, if_false, if_true, Nat.add_zero] at asked
  rw [asked]
  exact Nat.one_pos

/-! ### The confirmation -/

/-- The process loses its CPU, and is `READY` unless it waits for a segment. -/
structure Released (s t : State ι) (pid : UInt32) : Prop where
  state : (t.process pid).state =
    if (s.process pid).pendingMemorySyscall then (s.process pid).state else .ready
  free : (t.process pid).cpu = none
  pending : (t.process pid).pendingMemorySyscall = (s.process pid).pendingMemorySyscall

theorem waitConfirmation_released (found : getProcessFromCpu s cpu = some pid) :
    Released s (waitConfirmationThreadAndHandleState config s cpu) pid := by
  simp only [waitConfirmationThreadAndHandleState, found]
  split
  · rename_i pending
    constructor <;> simp [removeFromExec, pending]
  · rename_i settled
    constructor <;>
      simp [makeReady, addProcessToReadyQueue, removeFromExec, State.setReadyQueue, settled]

theorem handleEvicted_released (found : getProcessFromCpu s cpu = some pid) :
    Released s (handleEvicted config s cpu) pid := by
  simp only [handleEvicted, found]
  split
  · rename_i pending
    constructor <;> simp [removeFromExec, pending]
  · rename_i settled
    have same : ∀ s : State ι, (addProcessAtStartOfReadyQueue config s pid).process = s.process := by
      intro s
      unfold addProcessAtStartOfReadyQueue
      split <;> rfl
    constructor <;> simp [same, removeFromExec, settled]

theorem handleCpuDisconnection_released (found : getProcessFromCpu s cpu = some pid)
    (settled : (s.process pid).pendingMemorySyscall = false) :
    Released s (handleCpuDisconnection config s cpu) pid := by
  simp only [handleCpuDisconnection, found]
  constructor <;>
    simp [addProcessToReadyQueue, removeFromExec, State.setReadyQueue, settled]

/-- A step that handles an eviction, or a disconnection, takes the CPU from its process. -/
theorem step_released (found : getProcessFromCpu s cpu = some pid)
    (ends : (a.concerns s).cpu = some cpu) (allowed : Allowed m s a)
    (taken : step config s a = some t) : Released s t pid := by
  cases a with
  | confirm other =>
      obtain rfl := Option.some.inj ends
      simp only [step] at taken
      split at taken
      · obtain rfl := Option.some.inj taken
        exact waitConfirmation_released found
      · simp at taken
  | disconnectCpu other =>
      obtain rfl := Option.some.inj ends
      simp only [step] at taken
      split at taken
      · obtain rfl := Option.some.inj taken
        exact handleCpuDisconnection_released found (allowed pid found)
      · simp at taken
  | compaction i st =>
      cases st with
      | handleEvicted =>
          simp only [step, stepCompaction] at taken
          simp only [Action.concerns] at ends
          split at taken
          · rename_i reason other rest there
            rw [there] at ends
            obtain rfl := Option.some.inj ends
            split at taken
            · obtain rfl := Option.some.inj taken
              obtain ⟨state, free, pending⟩ : Released s (handleEvicted config s other) pid :=
                handleEvicted_released found
              exact ⟨state, free, pending⟩
            · simp at taken
          · simp at taken
      | evictAll | compactionReady | reopen => simp [Action.concerns] at ends
  | handleMemory =>
      simp only [Action.concerns] at ends
      split at ends
      · simp at ends
      · rename_i message _ _
        cases message <;> simp [FromMemory.concerns] at ends
  | tick | process0 | connectCpu | cpu | handleCpu | wake | schedule | quantum | suspend
  | connectIo | handleIo | disconnectIo | written | memory => simp [Action.concerns] at ends

/-! ### Between the result and the confirmation -/

/-- The board of a process that is `Held`: nothing is under way to it. -/
structure Board.Held (b : Board ι) (cpu : ι) (pid : UInt32) : Prop where
  executing : (b.process pid).state = .exec
  has : (b.process pid).cpu = some cpu
  settled : (b.process pid).pending = false
  evicting : (b.cpu cpu).isEvicting = true
  present : (b.cpu cpu).connection ≠ .absent
  left : (b.cpu cpu).inFlight.count pid = 0

theorem Move.held {about : About ι} {b b' : Board ι} (move : Move m about b b')
    (subject : about.subject ≠ some pid) (other : about.cpu ≠ some cpu) (fresh : b.Fresh)
    (held : b.Held cpu pid) : b'.Held cpu pid := by
  have new := fresh pid
  obtain ⟨executing, has, settled, evicting, present, left⟩ := held
  cases move <;> constructor <;> grind

/-- A process that is `Held` is nowhere. -/
theorem Inv.nowhere_of_held (inv : Inv config m none s place) (held : s.board.Held cpu pid) :
    place pid = none := by
  have has : (s.process pid).cpu = some cpu := held.has
  have settled : (s.process pid).pendingMemorySyscall = false := held.settled
  rcases inv.place_of_cpu has with ⟨nowhere, -⟩ | ⟨there, -⟩ | ⟨-, pending⟩
  · exact nowhere
  · have left : (s.cpu cpu).inFlight.count pid = 0 := held.left
    have count := inv.located pid (.cpu cpu)
    rw [there, if_pos rfl] at count
    exact absurd (left.symm.trans count) Nat.zero_ne_one
  · simp [settled] at pending

/-- Until its eviction is handled, a process that is `Held` stays so. -/
theorem Runs.held {ok : State ι → Action ι → Prop} (runs : Runs config m s)
    (held : s.board.Held cpu pid)
    (guard : ∀ s b, ok s b → Allowed m s b ∧ (b.concerns s).cpu ≠ some cpu)
    (run : Run (step config) ok s as t) : Runs config m t ∧ t.board.Held cpu pid := by
  have keeps : ∀ {s : State ι} {b : Action ι} {t : State ι},
      Runs config m s ∧ s.board.Held cpu pid → ok s b → step config s b = some t →
      Runs config m t ∧ t.board.Held cpu pid := by
    rintro s b t ⟨⟨⟨place, inv⟩, fresh⟩, held⟩ ok taken
    obtain ⟨allowed, other⟩ := guard s b ok
    have subject : (b.concerns s).subject ≠ some pid := by
      intro subject
      have nowhere := inv.nowhere_of_held held
      rcases inv.place_of_subject subject with ⟨cpu, there⟩ | there
      · simp [nowhere] at there
      · simp [nowhere] at there
    have kept := (step_moves inv fresh allowed taken).keeps
      (P := fun b => b.Fresh ∧ b.Held cpu pid)
      (fun move both => ⟨move.fresh both.1, move.held subject other both.1 both.2⟩) ⟨fresh, held⟩
    exact ⟨⟨step_inv inv allowed taken, kept.1⟩, kept.2⟩
  exact run.invariant keeps ⟨runs, held⟩

/-! ### The result -/

/-- A process without a CPU is `READY` after `SEGMENT_OK`. -/
theorem handleSegmentResult_ready (known : pid ∈ s.listProcesses)
    (executing : (s.process pid).state = .exec) (free : (s.process pid).cpu = none) :
    ((handleSegmentResult config s pid .segmentOk).process pid).state = .ready := by
  simp [handleSegmentResult, known, free, executing, makeReady, addProcessToReadyQueue,
    State.setReadyQueue]

/-- A process with a CPU keeps it after `SEGMENT_OK`. -/
theorem handleSegmentResult_kept (known : pid ∈ s.listProcesses)
    (has : (s.process pid).cpu = some cpu) :
    (handleSegmentResult config s pid .segmentOk).process pid =
      { s.process pid with pendingMemorySyscall := false } := by
  simp only [handleSegmentResult, known, has, if_true, sendPidToExecute]
  split
  · simp [has]
  · split <;> simp [has]

/-- It is sent to the CPU, unless the CPU is being evicted. -/
theorem handleSegmentResult_cpu (known : pid ∈ s.listProcesses)
    (has : (s.process pid).cpu = some cpu) (connected : (s.cpu cpu).connection = .connected) :
    (handleSegmentResult config s pid .segmentOk).cpu cpu =
      if (s.cpu cpu).isEvicting then s.cpu cpu
      else { s.cpu cpu with toCpu := (s.cpu cpu).toCpu ++ [.processExecute pid] } := by
  have same : (s.setProcess pid fun p => { p with pendingMemorySyscall := false }).cpu = s.cpu := rfl
  simp only [handleSegmentResult, known, has, if_true, sendPidToExecute, same, connected]
  split
  · rw [same]
  · rw [setCpu_self, same, connected]

/-- After an error the process has ended, and has no CPU. -/
theorem handleSegmentResult_failed {result : SegmentResult} (known : pid ∈ s.listProcesses)
    (failed : result ≠ .segmentOk) :
    ((handleSegmentResult config s pid result).process pid).state = .exit ∧
      ((handleSegmentResult config s pid result).process pid).cpu = none := by
  simp only [handleSegmentResult, known, if_true]
  cases has : (s.process pid).cpu with
  | none => simp [failed, removeFromExec, has]
  | some cpu =>
      simp [failed, terminateProcess, removeProcessFromReadyQueue, State.setReadyQueue,
        removeFromExec]

/-! ### A process that has ended -/

/-- The process does not end while something it waits for is under way. -/
def settle (m : UInt32 → Mode) (pid : UInt32) : UInt32 → Mode :=
  Function.update m pid { m pid with endsWaiting := false }

@[simp]
theorem settle_self : settle m pid pid = { m pid with endsWaiting := false } :=
  Function.update_self ..

@[simp]
theorem settle_of_ne {other : UInt32} (ne : other ≠ pid) : settle m pid other = m other :=
  Function.update_of_ne ne ..

theorem settle_keepsCpu (other : UInt32) : (settle m pid other).keepsCpu = (m other).keepsCpu := by
  by_cases eq : other = pid
  · simp [eq]
  · simp [eq]

theorem settle_losesCpu (other : UInt32) : (settle m pid other).losesCpu = (m other).losesCpu := by
  by_cases eq : other = pid
  · simp [eq]
  · simp [eq]

theorem Inv.settle_of_fits (inv : Inv config m none s place)
    (fits : Fits config (settle m pid pid) (place pid) (s.process pid)) :
    Inv config (settle m pid) none s place where
  located := inv.located
  fits other _ := by
    by_cases eq : other = pid
    · rw [eq]
      exact fits
    · rw [settle_of_ne eq]
      exact inv.fit other
  nowhere := inv.nowhere
  known := inv.known
  assigned := inv.assigned
  staged := inv.staged
  unlisted := inv.unlisted

/-- A process that waits for a segment waits for nothing else. -/
theorem Inv.settle (inv : Inv config m none s place)
    (there : place pid = some (.memory .segment)) :
    Inv config (settle m pid) none s place := by
  refine inv.settle_of_fits ?_
  have fits := inv.fit pid
  rw [there] at fits ⊢
  exact fits

/-- No answer is under way for a process that has not asked for one. -/
theorem Allowed.settle_of_place {m' : UInt32 → Mode} (inv : Inv config m' none s place)
    (elsewhere : place pid ≠ some (.memory .access)) (allowed : Allowed m s a) :
    Allowed (settle m pid) s a := by
  cases a with
  | handleCpu cpu =>
      intro message next
      cases message with
      | syscall other stop =>
          obtain ⟨keeps, loses⟩ : ToScheduler.Allowed m s cpu (.syscall other stop) :=
            allowed _ next
          constructor
          · rw [settle_keepsCpu]
            exact keeps
          · rw [settle_losesCpu]
            exact loses
      | processCreate | confirmation => exact trivial
  | handleMemory =>
      intro message next
      cases message with
      | ioMemoryRead other value =>
          have ends : FromMemory.Allowed m (.ioMemoryRead other value) := allowed _ next
          intro empty
          by_cases eq : other = pid
          · subst eq
            have asked : 0 < s.tokens other (.memory .access) := by
              refine Nat.lt_of_lt_of_le (List.count_pos_iff.mpr ?_) (Nat.le_add_right _ _)
              refine List.mem_append_right _ (List.mem_filterMap.mpr ?_)
              exact ⟨.ioMemoryRead other value, List.mem_of_mem_head? next, rfl⟩
            exact absurd (inv.located.place_eq asked) elsewhere
          · rw [settle_of_ne eq]
            exact ends empty
      | processCreate | segmentResult | ioMemoryWrite | swapOut | swapIn | memoryUpdate
      | compactionRequest | compactionFinished | corruptedMemory => exact trivial
  | disconnectCpu cpu => exact allowed
  | tick | process0 | connectCpu | cpu | confirm | wake | schedule | quantum | suspend
  | connectIo | handleIo | disconnectIo | written | memory | compaction => exact trivial

/-- Nothing that a process waits for is under way once it is `EXIT`. -/
theorem Allowed.settle (inv : Inv config (settle m pid) none s place)
    (exit : (s.process pid).state = .exit) (allowed : Allowed m s a) :
    Allowed (settle m pid) s a := by
  have elsewhere : place pid ≠ some (.memory .access) := by
    intro there
    have fits := inv.fit pid
    rw [there] at fits
    obtain ⟨waits, -⟩ := fits
    simp [Process.Waits, exit] at waits
  exact allowed.settle_of_place inv elsewhere

/-- A process that is `EXIT` and waits for nothing stays so. -/
theorem Runs.ended (runs : Runs config (settle m pid) s) (listed : s.board.Listed)
    (exit : (s.process pid).state = .exit) (free : (s.process pid).cpu = none)
    (run : Run (step config) (Allowed m) s as t) : Ended t pid := by
  let P (b : Board ι) : Prop :=
    b.Listed ∧ (b.process pid).state = .exit ∧ (b.process pid).cpu = none
  have keeps : ∀ {s : State ι} {a : Action ι} {t : State ι},
      Runs config (settle m pid) s ∧ P s.board → Allowed m s a → step config s a = some t →
      Runs config (settle m pid) t ∧ P t.board := by
    rintro s a t ⟨runs, holds⟩ allowed taken
    obtain ⟨place, inv⟩ := runs.1
    have settled : Allowed (settle m pid) s a := allowed.settle inv holds.2.1
    refine runs.keeps (P := P) (fun move fresh holds => ?_) holds (.single settled taken)
    exact ⟨move.listed holds.1, move.final (by simp) fresh holds.2.1 holds.2.2⟩
  obtain ⟨⟨⟨place, inv⟩, -⟩, listed, exit, free⟩ := run.invariant keeps ⟨runs, listed, exit, free⟩
  have exit : (t.process pid).state = .exit := exit
  exact ⟨exit, listed.unlisted (by simp [exit]), inv.unqueued (by simp [exit])⟩

/-! ### No process is lost -/

/-- The steps of a run in which the eviction of the CPU is not handled. -/
def Evicting (m : UInt32 → Mode) (cpu : ι) (s : State ι) (a : Action ι) : Prop :=
  Allowed m s a ∧ (a.concerns s).cpu ≠ some cpu

instance (a : Action ι) : Decidable (Evicting m cpu s a) :=
  inferInstanceAs (Decidable (Allowed m s a ∧ (a.concerns s).cpu ≠ some cpu))

/-- A step that handles an eviction hands its process over. -/
theorem eviction_handled (run : Run (step config) (Allowed fun _ => .leavesCpu) initial as s)
    (allowed : Allowed (fun _ => .leavesCpu) s a) (taken : step config s a = some t)
    (has : (s.process pid).cpu = some cpu) (ends : (a.concerns s).cpu = some cpu) :
    if (s.process pid).pendingMemorySyscall then Deferred t pid else Queued config t pid := by
  obtain ⟨⟨⟨place, inv⟩, -⟩, owned⟩ := board_owned run fun _ => rfl
  obtain ⟨place', inv'⟩ := step_inv inv allowed taken
  have released := step_released (inv.getProcessFromCpu_eq owned has) ends allowed taken
  split
  · rename_i pending
    have pending' := released.pending.trans pending
    obtain ⟨executing, asked⟩ := inv'.place_pending pending'
    have listed := board_listed (run.snoc allowed taken)
    exact ⟨executing, released.free, pending', asked, listed.unlisted fun _ => released.free,
      inv'.unqueued (by simp [executing])⟩
  · rename_i settled
    exact inv'.queued (released.state.trans (if_neg settled))

/-- While no process ends with its CPU, and no CPU disconnects whose process waits for a
segment:

* when an eviction is handled, the process of the CPU is queued, or its request is under
  way;
* when `SEGMENT_OK` is handled, the process is queued if it has lost its CPU; it is sent to
  its CPU if that is not being evicted; and else it waits for the confirmation, which then
  finds it;
* when an error is handled, the process has ended.
-/
theorem segment_result_kept (run : Run (step config) (Allowed fun _ => .leavesCpu) initial as s)
    (allowed : Allowed (fun _ => .leavesCpu) s a) (taken : step config s a = some t) :
    (∀ pid cpu, (s.process pid).cpu = some cpu → (a.concerns s).cpu = some cpu →
      if (s.process pid).pendingMemorySyscall then Deferred t pid else Queued config t pid) ∧
    ∀ pid segmentId result rest, a = .handleMemory →
      s.memory.fromMemory = .segmentResult pid segmentId result :: rest →
      if result = .segmentOk then
        ((s.process pid).cpu = none → Queued config t pid) ∧
          ∀ cpu, (s.process pid).cpu = some cpu →
            if (s.cpu cpu).isEvicting then
              ∀ bs u, Run (step config) (Evicting (fun _ => .leavesCpu) cpu) t bs u →
                Held u cpu pid
            else Sent t cpu pid
      else ∀ bs u, Run (step config) (Allowed fun _ => .leavesCpu) t bs u → Ended u pid := by
  refine ⟨fun pid cpu has ends => eviction_handled run allowed taken has ends, ?_⟩
  rintro pid segmentId result rest rfl next
  obtain ⟨⟨⟨place, inv⟩, fresh⟩, owned⟩ := board_owned run fun _ => rfl
  obtain ⟨there, known, executing⟩ := inv.segmentResult next
  have runs := (board_owned (run.snoc allowed taken) fun _ => rfl).1
  obtain ⟨place', inv'⟩ := runs.1
  have handled : t = handleSegmentResult config { s with memory.fromMemory := rest } pid result := by
    simp only [step, next] at taken
    exact (Option.some.inj taken).symm
  split
  · rename_i ok
    subst ok
    refine ⟨fun free => inv'.queued ?_, fun cpu has => ?_⟩
    · rw [handled]
      exact handleSegmentResult_ready known executing free
    · have connected : (s.cpu cpu).connection = .connected := owned.connected pid cpu has
      have process : t.process pid = { s.process pid with pendingMemorySyscall := false } := by
        rw [handled]
        exact handleSegmentResult_kept known has
      have same : t.cpu cpu = if (s.cpu cpu).isEvicting then s.cpu cpu
          else { s.cpu cpu with toCpu := (s.cpu cpu).toCpu ++ [.processExecute pid] } := by
        rw [handled]
        exact handleSegmentResult_cpu known has connected
      split
      · rename_i evicting
        rw [if_pos evicting] at same
        have left : (s.cpu cpu).inFlight.count pid = 0 := by
          have count := inv.located pid (.cpu cpu)
          rw [there] at count
          exact count.trans (if_neg (by simp))
        have held : t.board.Held cpu pid := by
          constructor <;> simp [State.board, Process.holder, Cpu.desk, process, same, executing,
            has, evicting, connected, left]
        intro bs u later
        obtain ⟨-, held⟩ := runs.held held (fun s b ok => ok) later
        exact ⟨held.executing, held.has, held.settled, held.evicting⟩
      · rename_i calm
        rw [if_neg calm] at same
        constructor <;> simp [process, same, executing, has]
  · rename_i failed
    have ended : (t.process pid).state = .exit ∧ (t.process pid).cpu = none := by
      rw [handled]
      exact handleSegmentResult_failed known failed
    have only : Allowed (settle (fun _ => .leavesCpu) pid) s .handleMemory := by
      intro message first
      rw [next] at first
      obtain rfl := Option.some.inj first
      exact trivial
    have settled : Runs config (settle (fun _ => .leavesCpu) pid) t :=
      ⟨step_inv (inv.settle there) only taken, runs.2⟩
    intro bs u later
    exact settled.ended (board_listed (run.snoc allowed taken)) ended.1 ended.2 later

/-- The result of a `MEM_ALLOC` comes while the CPU is evicted for a compaction: the process
waits for the confirmation, and is queued then. -/
theorem segment_result_kept_of_compaction :
    ∃ u v : State ℕ, Held u 0 0 ∧ step fifo u (.compaction 0 .handleEvicted) = some v ∧
      Queued fifo v 0 := by
  obtain ⟨s, run, found⟩ := Run.exists_of_exec (step fifo) (Allowed fun _ => .leavesCpu)
    (started.append [.cpu 0 (.stop (.memAlloc 0 16)), .handleCpu 0, .memory (.serve (.ok true)),
      .memory .compactionRequest, .memory (.segmentCreated 0 .segmentOk), .handleMemory,
      .compaction 0 .evictAll]) initial
    (fun s : State ℕ => decide (s.memory.fromMemory = [.segmentResult 0 0 .segmentOk] ∧
        (s.process 0).cpu = some 0 ∧ (s.cpu 0).isEvicting = true) &&
      (step fifo s .handleMemory).any fun t : State ℕ =>
        (exec (step fifo) (Evicting (fun _ => .leavesCpu) 0) [.cpu 0 .evict, .handleCpu 0] t).any
          fun u : State ℕ =>
            decide ((Action.concerns u (.compaction 0 .handleEvicted)).cpu = some 0) &&
              (step fifo u (.compaction 0 .handleEvicted)).any fun _ => true) (by decide)
  obtain ⟨at', more⟩ := Bool.and_eq_true_iff.mp found
  obtain ⟨next, has, evicting⟩ := of_decide_eq_true at'
  obtain ⟨t, taken, more⟩ := (Option.any_eq_true _ _).mp more
  obtain ⟨u, later, more⟩ := Run.exists_of_exec _ _ _ _ _ more
  obtain ⟨ends, more⟩ := Bool.and_eq_true_iff.mp more
  obtain ⟨v, confirmed, -⟩ := (Option.any_eq_true _ _).mp more
  have allowed : Allowed (fun _ => .leavesCpu) s .handleMemory := by
    intro message first
    rw [next] at first
    obtain rfl := Option.some.inj first
    exact trivial
  have kept := (segment_result_kept run allowed taken).2 0 0 .segmentOk [] rfl next
  rw [if_pos rfl] at kept
  have held := kept.2 0 has
  rw [if_pos evicting] at held
  have held := held _ u later
  have reached := (run.snoc allowed taken).trans (later.mono fun _ _ ok => ok.1)
  have free : Allowed (fun _ => .leavesCpu) u (.compaction 0 .handleEvicted) := trivial
  have queued := (segment_result_kept reached free confirmed).1 0 0 held.has
    (of_decide_eq_true ends)
  rw [if_neg (by simp [held.settled])] at queued
  exact ⟨u, v, held, confirmed, queued⟩

/-- A process locks a mutex which does not exist, and ends with its CPU. The next process of
the CPU asks for a segment, and the CPU is evicted: the result is handled, the confirmation
finds the process that has ended, and the other one is neither queued nor sent. -/
theorem segment_result_lost :
    ∃ as bs s t, Run (step fifo) (fun _ _ => True) (initial : State ℕ) as s ∧
      s.memory.fromMemory = [.segmentResult 1 0 .segmentOk] ∧
        (s.process 1).cpu = some 0 ∧ (s.cpu 0).isEvicting = true ∧
          Run (step fifo) (fun _ _ => True) s bs t ∧ .handleMemory ∈ bs ∧
            .compaction 0 .handleEvicted ∈ bs ∧ (t.cpu 0).isEvicting = false ∧
              ¬Queued fifo t 1 ∧ ¬Sent t 0 1 ∧ ¬Deferred t 1 := by
  obtain ⟨s, run, found⟩ := Run.exists_of_exec (step fifo) (fun _ _ => True)
    (started.append [.cpu 0 (.initProc 1 "p1"), .cpu 0 (.stop (.mutexLock "m")), .handleCpu 0,
      .handleCpu 0, .memory (.serve (.ok true)), .handleMemory, .schedule, .cpu 0 .execute,
      .cpu 0 (.stop (.memAlloc 0 16)), .handleCpu 0, .memory (.serve (.ok true)),
      .memory (.serve (.ok true)), .memory .compactionRequest,
      .memory (.segmentCreated 0 .segmentOk), .handleMemory, .compaction 0 .evictAll]) initial
    (fun s : State ℕ => decide (s.memory.fromMemory = [.segmentResult 1 0 .segmentOk] ∧
        (s.process 1).cpu = some 0 ∧ (s.cpu 0).isEvicting = true) &&
      (exec (step fifo) (fun _ _ => True) [.handleMemory, .cpu 0 .evict, .handleCpu 0,
        .compaction 0 .handleEvicted] s).any fun t : State ℕ =>
          decide ((t.cpu 0).isEvicting = false ∧ (t.process 1).state = .exec ∧
            (t.process 1).pendingMemorySyscall = false ∧ (t.cpu 0).toCpu = [])) (by decide)
  obtain ⟨at', more⟩ := Bool.and_eq_true_iff.mp found
  obtain ⟨next, has, evicting⟩ := of_decide_eq_true at'
  obtain ⟨t, later, lost⟩ := Run.exists_of_exec _ _ _ _ _ more
  obtain ⟨calm, executing, settled, nothing⟩ := of_decide_eq_true lost
  refine ⟨_, _, s, t, run, next, has, evicting, later, by simp, by simp, calm, ?_, ?_, ?_⟩
  · intro queued
    simp [queued.ready] at executing
  · intro sent
    have order := sent.sent
    simp [nothing] at order
  · intro deferred
    simp [deferred.pending] at settled

end OsModel.KernelScheduler
