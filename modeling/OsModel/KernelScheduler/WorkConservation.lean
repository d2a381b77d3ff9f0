import OsModel.KernelScheduler.Wakeups

/-!
Work conservation: when the short-term scheduler waits, there is nothing for it to do.

* `step_attended`: after every step the short-term scheduler is busy, or will be signalled, or
  has nothing to do.
* `work_conservation`: with nothing under way, no process is `READY` while a CPU is free.
-/

namespace OsModel.KernelScheduler

open Lib

section Steps

variable {ι : Type} {config : Config} {s t : State ι} {pid : UInt32} {hand : Option UInt32}

/-- The short-term scheduler is busy, or will be signalled, or has nothing to do. -/
def Attended (s : State ι) : Prop :=
  0 < s.shortTermSchedulerSem ∨ s.inRound = true ∨ s.canSchedule = false ∨ s.memory.Reading ∨
    ∀ pid cpu, (s.process pid).state = .ready → ¬s.Free cpu

theorem Tended.attended (tended : Tended hand s t) (attended : Attended s) : Attended t := by
  cases tended with
  | signals signalled => exact .inl signalled
  | calm calm =>
      rcases attended with signalled | inRound | closed | reading | idle
      · exact .inl (Nat.lt_of_lt_of_le signalled calm.sem)
      · exact .inr (.inl (calm.inRound inRound))
      · exact .inr (.inr (.inl (calm.gate.canSchedule.trans closed)))
      · exact .inr (.inr (.inr (.inl (calm.reading reading))))
      · refine .inr (.inr (.inr (.inr fun pid cpu ready free => ?_)))
        exact idle pid cpu (calm.ready pid ready) (calm.free cpu free)
  | reads still reading => exact .inr (.inr (.inr (.inl reading)))

variable [DecidableEq ι] {cpu : ι}

omit [DecidableEq ι] in
theorem getAvailableCpu_free (none : getAvailableCpu s = none) (cpu : ι) : ¬s.Free cpu := by
  rintro ⟨listed, available, calm⟩
  have differs := List.find?_eq_none.mp none cpu listed
  simp [available, calm] at differs

theorem inRound_sendPidToExecute (cpu : Option ι) :
    (sendPidToExecute s pid cpu).inRound = s.inRound := by
  obtain ⟨cpus, sent⟩ := sendPidToExecute_eq s pid cpu
  rw [sent]

theorem dispatch_inRound : (dispatch config s pid cpu).inRound = s.inRound :=
  inRound_sendPidToExecute _

/-- A turn of the short-term scheduler, after which it goes on or has nothing to do. -/
theorem shortTermTurn_attended {m : UInt32 → Mode} {place : UInt32 → Option (Place ι)}
    (inv : Inv config m none s place) (inRound : s.inRound = true) :
    Attended (shortTermTurn config s) := by
  unfold shortTermTurn
  split
  · rename_i pid cpu next available
    refine .inr (.inl ?_)
    rw [dispatch_inRound]
    exact inRound
  · rename_i pid next none
    have calm : Calm Option.none s (preempt config s pid) := calm_preempt
    refine .inr (.inr (.inr (.inr fun other cpu ready free => ?_)))
    exact getAvailableCpu_free none cpu (calm.free cpu free)
  · rename_i _ nobody
    refine .inr (.inr (.inr (.inr fun pid cpu ready free => ?_)))
    obtain ⟨next, found⟩ := inv.getNextProcessToExecute ready
    simp [nobody] at found

/-- After every step the short-term scheduler is attended. -/
theorem step_attended {m : UInt32 → Mode} {place : UInt32 → Option (Place ι)} {a : Action ι}
    (inv : Inv config m none s place) (shut : Shut s) (attended : Attended s)
    (taken : step config s a = some t) : Attended t := by
  cases a with
  | wake =>
      simp only [step] at taken
      split at taken
      · obtain rfl := Option.some.inj taken
        cases opened : s.canSchedule with
        | true => exact .inr (.inl rfl)
        | false => exact .inr (.inr (.inl rfl))
      · cases taken
  | schedule =>
      simp only [step] at taken
      split at taken
      · rename_i inRound
        obtain rfl := Option.some.inj taken
        exact shortTermTurn_attended inv inRound
      · cases taken
  | compaction i st =>
      rcases stepCompaction_closed shut taken with closed | ⟨-, signalled⟩
      · exact .inr (.inr (.inl closed))
      · exact .inl signalled
  | tick | process0 | connectCpu | cpu | handleCpu | disconnectCpu | confirm | quantum | suspend
  | connectIo | handleIo | disconnectIo | written | memory | handleMemory =>
      exact (step_tended inv.staged taken trivial).attended attended

end Steps

/-! ### Work conservation -/

section Runs

variable {ι : Type} [DecidableEq ι] {config : Config} {s : State ι} {as : List (Action ι)}

/-- No CPU disconnects, and no compaction ends while another one is under way. -/
def Orderly (s : State ι) : Action ι → Prop
  | .disconnectCpu _ => False
  | .compaction i st => EndsAlone s i st
  | _ => True

instance (s : State ι) (a : Action ι) : Decidable (Orderly s a) :=
  match a with
  | .disconnectCpu _ => .isFalse id
  | .compaction i st => inferInstanceAs (Decidable (EndsAlone s i st))
  | .tick | .process0 _ | .connectCpu _ | .cpu .. | .handleCpu _ | .confirm _ | .wake | .schedule
  | .quantum _ | .suspend | .connectIo .. | .handleIo .. | .disconnectIo _ | .written _
  | .memory _ | .handleMemory => .isTrue trivial

/-- When processes may end in any way, only disconnections are restricted. -/
theorem Allowed.of_any {a : Action ι} (settled : ∀ cpu, a = .disconnectCpu cpu →
      ∀ pid ∈ getProcessFromCpu s cpu, (s.process pid).pendingMemorySyscall = false) :
    Allowed (fun _ => .any) s a := by
  cases a with
  | disconnectCpu cpu => exact settled cpu rfl
  | handleCpu cpu =>
      intro message next
      cases message with
      | syscall pid syscall => exact ⟨fun _ => rfl, fun _ _ => rfl⟩
      | processCreate | confirmation => exact trivial
  | handleMemory =>
      intro message next
      cases message with
      | ioMemoryRead pid value => exact fun _ => rfl
      | processCreate | segmentResult | ioMemoryWrite | swapOut | swapIn | memoryUpdate
      | compactionRequest | compactionFinished | corruptedMemory => exact trivial
  | tick | process0 | connectCpu | cpu | confirm | wake | schedule | quantum | suspend
  | connectIo | handleIo | disconnectIo | written | memory | compaction => exact trivial

theorem Orderly.allowed {a : Action ι} (orderly : Orderly s a) : Allowed (fun _ => .any) s a := by
  refine .of_any ?_
  rintro cpu rfl
  exact orderly.elim

theorem attended_of_run (run : Run (step config) Orderly initial as s) : Attended s := by
  have keeps : ∀ {s : State ι} {a : Action ι} {t : State ι},
      (∃ place, Inv config (fun _ => .any) none s place) ∧ Shut s ∧ Attended s → Orderly s a →
      step config s a = some t →
      (∃ place, Inv config (fun _ => .any) none t place) ∧ Shut t ∧ Attended t := by
    rintro s a t ⟨⟨place, inv⟩, shut, attended⟩ orderly taken
    refine ⟨step_inv inv orderly.allowed taken, step_shut inv.staged ?_ shut taken, ?_⟩
    · rintro i st rfl
      exact orderly
    · exact step_attended inv shut attended taken
  have shut : Shut (initial : State ι) := by
    rintro - ⟨compaction, mem, -⟩
    simp [initial] at mem
  have attended : Attended (initial : State ι) := by
    refine .inr (.inr (.inr (.inr fun pid cpu ready free => ?_)))
    simp [State.Free, initial] at free
  exact (run.invariant keeps ⟨⟨_, initial_inv⟩, shut, attended⟩).2.2

/-- No message is under way, and no CPU is being evicted. -/
structure Quiet (s : State ι) : Prop where
  toMemory : s.memory.toMemory = []
  fromMemory : s.memory.fromMemory = []
  toCpu : ∀ cpu, (s.cpu cpu).toCpu = []
  toScheduler : ∀ cpu, (s.cpu cpu).toScheduler = []
  evictions : ∀ cpu, (s.cpu cpu).evictor = none

/-- The short-term scheduler waits for a signal, and would schedule. -/
structure Waiting (s : State ι) : Prop where
  outside : s.inRound = false
  unsignalled : s.shortTermSchedulerSem = 0
  opened : s.canSchedule = true

/-- A process is `READY` and a CPU is free for it. -/
def Idle (s : State ι) : Prop := ∃ pid cpu, (s.process pid).state = .ready ∧ s.Free cpu

/-- While no CPU disconnects, and no compaction ends while another one is under way, whenever
the short-term scheduler waits without a signal and nothing is under way, no process is `READY`
while a connected CPU is available and not being evicted. -/
theorem work_conservation (run : Run (step config) Orderly initial as s) (waiting : Waiting s)
    (quiet : Quiet s) : ¬Idle s := by
  rintro ⟨pid, cpu, ready, free⟩
  rcases attended_of_run run with signalled | inRound | closed | reading | idle
  · rw [waiting.unsignalled] at signalled
    exact absurd signalled (Nat.lt_irrefl 0)
  · simp [waiting.outside] at inRound
  · simp [waiting.opened] at closed
  · rcases reading with ⟨_, _, _, asked⟩ | ⟨_, _, answered⟩
    · simp [quiet.toMemory] at asked
    · simp [quiet.fromMemory] at answered
  · exact idle pid cpu ready free

/-- Two CPUs, whose processes `0` and `1` have asked for a segment; the process `2` is
`READY`. -/
def allocations : List (Action (Fin 3)) :=
  [.process0 "p0", .memory (.serve (.ok true)), .handleMemory, .connectCpu 0, .connectCpu 1,
    .wake, .schedule, .cpu 0 .execute, .cpu 0 (.initProc 1 "p1"), .cpu 0 (.initProc 1 "p2"),
    .handleCpu 0, .handleCpu 0, .memory (.serve (.ok true)), .memory (.serve (.ok true)),
    .handleMemory, .handleMemory, .schedule, .schedule, .wake, .schedule, .wake, .schedule,
    .wake, .schedule, .wake, .schedule, .cpu 1 .execute,
    .cpu 0 (.stop (.memAlloc 0 16)), .handleCpu 0, .cpu 1 (.stop (.memAlloc 0 16)), .handleCpu 1,
    .memory (.serve (.ok true)), .memory (.serve (.ok true))]

/-- The test of a state, as it is computed. -/
def waitsQuietly [Fintype ι] (s : State ι) : Bool :=
  decide (s.inRound = false ∧ s.shortTermSchedulerSem = 0 ∧ s.canSchedule = true ∧
    s.memory.toMemory = [] ∧ s.memory.fromMemory = [] ∧
    ∀ cpu, (s.cpu cpu).toCpu = [] ∧ (s.cpu cpu).toScheduler = [] ∧ (s.cpu cpu).evictor = none)

omit [DecidableEq ι] in
theorem waiting_of_test [Fintype ι] {s : State ι} (test : waitsQuietly s = true) :
    Waiting s ∧ Quiet s := by
  obtain ⟨outside, unsignalled, opened, toMemory, fromMemory, cpus⟩ := of_decide_eq_true test
  refine ⟨⟨outside, unsignalled, opened⟩, ⟨toMemory, fromMemory, ?_, ?_, ?_⟩⟩
  · exact fun cpu => (cpus cpu).1
  · exact fun cpu => (cpus cpu).2.1
  · exact fun cpu => (cpus cpu).2.2

/-- While both CPUs wait for a segment, the process `2` has none. -/
theorem work_conservation_of_allocations :
    ∃ s : State (Fin 3), (s.process 2).state = .ready ∧ s.listCpu = [0, 1] ∧ ¬Idle s := by
  obtain ⟨s, run, found⟩ := Run.exists_of_exec (step fifo) Orderly allocations initial
    (fun s : State (Fin 3) => waitsQuietly s &&
      decide ((s.process 2).state = .ready ∧ s.listCpu = [0, 1])) (by decide +kernel)
  obtain ⟨test, found⟩ := (Bool.and_eq_true _ _).mp found
  obtain ⟨ready, cpus⟩ := of_decide_eq_true found
  obtain ⟨waiting, quiet⟩ := waiting_of_test test
  exact ⟨s, ready, cpus, work_conservation run waiting quiet⟩

/-- Both segments need a compaction. The process `2` is dispatched in the round that goes on
during the first compaction, and the second one evicts it. The first one ends, and its signal
is used up before the second one handles the eviction. -/
def compactions : List (Action (Fin 3)) :=
  [.connectCpu 2, .wake, .memory .compactionRequest, .memory .compactionRequest, .handleMemory, .handleMemory,
    .compaction 0 .evictAll, .cpu 0 .evict, .cpu 1 .evict, .handleCpu 0, .handleCpu 1,
    .compaction 0 .handleEvicted, .compaction 0 .handleEvicted, .compaction 0 .compactionReady,
    .memory (.serve (.ok true)), .schedule, .cpu 0 .execute, .schedule,
    .compaction 1 .evictAll, .cpu 0 .evict, .memory .compactionFinished, .handleMemory,
    .compaction 0 .reopen, .wake, .schedule, .handleCpu 0, .compaction 0 .handleEvicted,
    .compaction 0 .compactionReady, .memory (.serve (.ok true))]

/-- Where the first of two compactions opens the scheduler, a process stays `READY` with all
the CPUs free. -/
theorem work_not_conserved :
    ∃ as s, Run (step fifo) (fun _ a => ∀ cpu, a ≠ .disconnectCpu cpu)
      (initial : State (Fin 3)) as s ∧ Waiting s ∧ Quiet s ∧ Idle s := by
  obtain ⟨s, run, found⟩ := Run.exists_of_exec (step fifo)
    (fun _ a => ∀ cpu, a ≠ .disconnectCpu cpu) (allocations ++ compactions) initial
    (fun s : State (Fin 3) => waitsQuietly s && decide ((s.process 2).state = .ready ∧
      0 ∈ s.listCpu ∧ (s.cpu 0).isAvailable = true ∧ (s.cpu 0).isEvicting = false))
    (by decide +kernel)
  obtain ⟨test, found⟩ := (Bool.and_eq_true _ _).mp found
  obtain ⟨ready, free⟩ := of_decide_eq_true found
  obtain ⟨waiting, quiet⟩ := waiting_of_test test
  exact ⟨_, s, run, waiting, quiet, 2, 0, ready, free⟩

end Runs

end OsModel.KernelScheduler
