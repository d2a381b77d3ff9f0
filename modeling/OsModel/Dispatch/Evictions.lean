import OsModel.Dispatch.Executions

/-!
Evictions are answered.

`Cpu.Answered` says that `is_evicting` is set only while an eviction is under way:
its `PROCESS_EVICT` or `CONFIRMATION` is in the connection, or a thread is about to
send the one or to handle the other. `evict_all_processes` breaks it when the
process has left the CPU before the confirmation (`eviction_stuck`), and nothing
else does (`evictions_complete`).
-/

namespace OsModel.Dispatch

open Lib

variable {ι : Type} [DecidableEq ι]

/-- `is_evicting` is set only while an eviction is under way. -/
structure Cpu.Answered (cpu : Cpu) : Prop where
  waiting : cpu.isEvicting = true → cpu.evictor ≠ none
  underway : cpu.connection = .connected → cpu.evictSent = true →
    .processEvict ∈ cpu.toCpu ∨ .confirmation ∈ cpu.toScheduler ∨ 0 < cpu.responseSem

/-- `evict_all_processes` finds a process on each CPU whose confirmation it
handles. -/
def Occupied (s : State ι) : Action ι → Prop
  | .await i => ∀ cpu ∈ s.compactions[i]?.bind Compaction.awaited,
      (getProcessFromCpu s cpu).isSome = true
  | _ => True

instance (s : State ι) : (a : Action ι) → Decidable (Occupied s a)
  | .await _ => Option.decidableForallMem _
  | .connect _ | .created _ | .wake _ | .startRound | .pick .. | .endRound | .check _ | .send _
  | .proceed _ | .evict _ | .sendEvict _ | .confirm _ | .execute _ | .stop .. | .evicted _
  | .handle .. | .post _ | .disconnect _ | .segmentResult .. | .compactionRequest | .close _
  | .collect _ | .mark _ | .sendEvictAll _ | .ready _ | .finished | .reopen _ => .isTrue trivial

section Cpus

variable {cpu now : Cpu}

/-- A CPU whose eviction does not move. -/
theorem Cpu.Answered.keep (answered : cpu.Answered) (evicting : now.isEvicting = cpu.isEvicting)
    (evictor : now.evictor = cpu.evictor)
    (moves : now.connection = .connected → cpu.connection = .connected ∧
      (.processEvict ∈ cpu.toCpu → .processEvict ∈ now.toCpu ∨ .confirmation ∈ now.toScheduler) ∧
      (.confirmation ∈ cpu.toScheduler → .confirmation ∈ now.toScheduler ∨ 0 < now.responseSem) ∧
      cpu.responseSem ≤ now.responseSem) : now.Answered where
  waiting set := by
    rw [evictor]
    exact answered.waiting (evicting ▸ set)
  underway connected sent := by
    obtain ⟨before, orders, messages, sem⟩ := moves connected
    rw [Cpu.evictSent, evictor] at sent
    rcases answered.underway before sent with order | message | posted
    · rcases orders order with order | message
      · exact .inl order
      · exact .inr (.inl message)
    · rcases messages message with message | posted
      · exact .inr (.inl message)
      · exact .inr (.inr posted)
    · exact .inr (.inr (Nat.lt_of_lt_of_le posted sem))

theorem Cpu.Answered.available (answered : cpu.Answered) (isAvailable : Bool) :
    ({ cpu with isAvailable } : Cpu).Answered :=
  ⟨answered.waiting, answered.underway⟩

theorem Cpu.answered_mark (cpu : Cpu) (all : Bool) :
    ({ cpu with isEvicting := true, evictor := some ⟨all, false⟩ } : Cpu).Answered :=
  ⟨by simp, by simp [Cpu.evictSent]⟩

theorem Cpu.answered_send (cpu : Cpu) (all : Bool) :
    ({ cpu with
      toCpu := cpu.toCpu ++ [.processEvict], evictor := some ⟨all, true⟩ } : Cpu).Answered :=
  ⟨by simp, by simp⟩

theorem Cpu.answered_confirmed (cpu : Cpu) : (cpu.confirmed true).Answered :=
  ⟨by simp [Cpu.confirmed], by simp [Cpu.confirmed, Cpu.evictSent]⟩

end Cpus

/-! ### The sections -/

section Steps

variable {s s' : State ι} {a : Action ι} {cpu : ι} {now : Cpu} {p : Process ι} {t : Thread ι}

/-- What a section that changes one CPU keeps. -/
theorem answered_setCpu (inv : ∀ c, (s.cpus c).Answered) (answered : now.Answered) (c : ι) :
    ((s.setCpu cpu now).cpus c).Answered := by
  by_cases eq : c = cpu
  · subst eq
    simp only [State.setCpu, Function.update_self]
    exact answered
  · simp only [State.setCpu, Function.update_of_ne eq]
    exact inv c

/-- The CPUs after a syscall: one may be available now. -/
theorem answered_handleSyscall {mutex : MutexCase} {syscall : Syscall}
    (inv : ∀ c, (s.cpus c).Answered) (c : ι) :
    ((handleSyscall s cpu p mutex syscall).cpus c).Answered := by
  have released : ∀ c, ((s.setCpu cpu { s.cpus cpu with isAvailable := true }).cpus c).Answered :=
    answered_setCpu inv ((inv cpu).available true)
  cases syscall with
  | processEnd | segmentationFault => exact released c
  | mutexCreate | sleep | stdout | memFree => exact inv c
  | mutexLock =>
      cases mutex with
      | unknown => exact released c
      | refused => exact inv c
      | granted | taken => cases assigned : p.cpu <;> simp only [handleSyscall, assigned] <;> exact inv c
  | mutexUnlock =>
      cases mutex with
      | unknown => exact released c
      | taken | refused => exact inv c
      | granted => cases assigned : p.cpu <;> simp only [handleSyscall, assigned] <;> exact inv c
  | stdin toRead =>
      simp only [handleSyscall]
      split <;> exact inv c
  | memAlloc segmentSize =>
      simp only [handleSyscall]
      split <;> exact inv c

theorem answered_handleSegmentResult {ok : Bool} (inv : ∀ c, (s.cpus c).Answered) (c : ι) :
    ((handleSegmentResult s p ok).cpus c).Answered := by
  unfold handleSegmentResult
  cases p.cpu with
  | some cpu => exact inv c
  | none =>
      dsimp only
      split
      · split <;> exact inv c
      · exact inv c

omit [DecidableEq ι] in
theorem answered_requeue (inv : ∀ c, (s.cpus c).Answered) (c : ι) :
    ((requeue s p).cpus c).Answered := by
  unfold requeue
  split <;> exact inv c

theorem answered_proceed (inv : ∀ c, (s.cpus c).Answered) (taken : proceed s t = some s') (c : ι) :
    (s'.cpus c).Answered := by
  cases t with
  | memoryHandler =>
      simp only [proceed] at taken
      split at taken
      · obtain rfl := Option.some.inj taken
        exact inv c
      · obtain rfl := Option.some.inj taken
        exact answered_setCpu inv ((inv _).available _) c
      · simp at taken
  | shortTerm | cpuHandler =>
      simp only [proceed] at taken
      split at taken
      · obtain rfl := Option.some.inj taken
        exact inv c
      · obtain rfl := Option.some.inj taken
        exact answered_setCpu inv ((inv _).available true) c
      · simp at taken

/-- Every section keeps it, if `evict_all_processes` finds a process. -/
theorem step_answered (inv : ∀ c, (s.cpus c).Answered) (occupied : Occupied s a)
    (taken : step s a = some s') (c : ι) : (s'.cpus c).Answered := by
  cases a with
  | connect cpu =>
      simp only [step] at taken
      split at taken
      · obtain rfl := Option.some.inj taken
        exact answered_setCpu inv ⟨by simp [Cpu.create, Cpu.absent],
          by simp [Cpu.create, Cpu.absent, Cpu.evictSent]⟩ c
      · simp at taken
  | created pid =>
      simp only [step] at taken
      split at taken
      · simp at taken
      · obtain rfl := Option.some.inj taken
        exact inv c
  | wake pid =>
      simp only [step] at taken
      split at taken
      · split at taken
        · obtain rfl := Option.some.inj taken
          exact inv c
        · simp at taken
      · simp at taken
  | startRound | endRound | finished =>
      simp only [step] at taken
      split at taken
      · obtain rfl := Option.some.inj taken
        exact inv c
      · simp at taken
  | pick pid cpu =>
      simp only [step] at taken
      split at taken
      · simp at taken
      · split at taken
        · obtain rfl := Option.some.inj taken
          exact answered_setCpu inv ((inv cpu).available false) c
        · simp at taken
  | check t =>
      simp only [step] at taken
      split at taken
      · obtain rfl := Option.some.inj taken
        split <;> exact inv c
      · simp at taken
  | send t =>
      simp only [step] at taken
      split at taken
      · rename_i pid cpu doing
        split at taken
        · obtain rfl := Option.some.inj taken
          refine answered_setCpu inv ?_ c
          exact (inv cpu).keep rfl rfl fun connected =>
            ⟨connected, fun order => .inl (List.mem_append_left _ order), .inl, le_rfl⟩
        · obtain rfl := Option.some.inj taken
          exact inv c
      · simp at taken
  | proceed t => exact answered_proceed inv taken c
  | evict cpu =>
      simp only [step] at taken
      split at taken
      · split at taken
        · obtain rfl := Option.some.inj taken
          exact inv c
        · obtain rfl := Option.some.inj taken
          exact answered_setCpu inv (Cpu.answered_mark _ false) c
      · simp at taken
  | sendEvict cpu =>
      simp only [step] at taken
      split at taken
      · obtain rfl := Option.some.inj taken
        exact answered_setCpu inv (Cpu.answered_send _ false) c
      · simp at taken
  | confirm cpu =>
      simp only [step] at taken
      split at taken
      · have confirmed : ∀ c, ((s.setCpu cpu ((s.cpus cpu).confirmed true)).cpus c).Answered :=
          answered_setCpu inv (Cpu.answered_confirmed _)
        split at taken
        · obtain rfl := Option.some.inj taken
          exact confirmed c
        · obtain rfl := Option.some.inj taken
          exact answered_requeue confirmed c
      · simp at taken
  | execute cpu =>
      simp only [step] at taken
      split at taken
      · rename_i pid rest orders free
        obtain rfl := Option.some.inj taken
        refine answered_setCpu inv ?_ c
        refine (inv cpu).keep rfl rfl fun connected =>
          ⟨connected, fun order => .inl ?_, .inl, le_rfl⟩
        simpa [orders] using order
      · simp at taken
  | stop cpu syscall =>
      simp only [step] at taken
      split at taken
      · simp at taken
      · obtain rfl := Option.some.inj taken
        refine answered_setCpu inv ?_ c
        exact (inv cpu).keep rfl rfl fun connected =>
          ⟨connected, .inl, fun message => .inl (List.mem_append_left _ message), le_rfl⟩
  | evicted cpu =>
      simp only [step] at taken
      split at taken
      · obtain rfl := Option.some.inj taken
        refine answered_setCpu inv ?_ c
        exact (inv cpu).keep rfl rfl fun connected =>
          ⟨connected, fun _ => .inr (by simp), fun _ => .inl (by simp), le_rfl⟩
      · simp at taken
  | handle cpu mutex =>
      simp only [step] at taken
      split at taken
      · rename_i pid syscall rest idle messages
        have read : ∀ c, ((s.setCpu cpu { s.cpus cpu with
            toScheduler := rest
            outstanding := (s.cpus cpu).outstanding.erase pid }).cpus c).Answered := by
          refine answered_setCpu inv ?_
          refine (inv cpu).keep rfl rfl fun connected =>
            ⟨connected, .inl, fun message => .inl ?_, le_rfl⟩
          simpa [messages] using message
        split at taken
        · obtain rfl := Option.some.inj taken
          exact read c
        · obtain rfl := Option.some.inj taken
          exact answered_handleSyscall read c
      · simp at taken
  | post cpu =>
      simp only [step] at taken
      split at taken
      · obtain rfl := Option.some.inj taken
        refine answered_setCpu inv ?_ c
        exact (inv cpu).keep rfl rfl fun connected =>
          ⟨connected, .inl, fun _ => .inr (Nat.succ_pos _), Nat.le_succ _⟩
      · simp at taken
  | disconnect cpu =>
      simp only [step] at taken
      split at taken
      · obtain rfl := Option.some.inj taken
        have closed : ∀ c, ((s.setCpu cpu { s.cpus cpu with
            connection := .closed
            toCpu := []
            running := none
            outstanding := [] }).cpus c).Answered := by
          refine answered_setCpu inv ?_
          exact (inv cpu).keep rfl rfl fun connected => by simp at connected
        unfold handleCpuDisconnection
        cases getProcessFromCpu s cpu with
        | none => exact closed c
        | some p => exact closed c
      · simp at taken
  | segmentResult pid ok =>
      simp only [step] at taken
      split at taken
      · split at taken
        · obtain rfl := Option.some.inj taken
          exact inv c
        · obtain rfl := Option.some.inj taken
          refine answered_handleSegmentResult ?_ c
          exact inv
      · simp at taken
  | compactionRequest =>
      obtain rfl := Option.some.inj taken
      exact inv c
  | close i | collect i | ready i =>
      simp only [step] at taken
      split at taken
      · obtain rfl := Option.some.inj taken
        exact inv c
      · simp at taken
  | mark i =>
      simp only [step] at taken
      split at taken
      · split at taken
        · obtain rfl := Option.some.inj taken
          exact answered_setCpu inv (Cpu.answered_mark _ true) c
        · obtain rfl := Option.some.inj taken
          exact inv c
      · simp at taken
  | sendEvictAll i =>
      simp only [step] at taken
      split at taken
      · split at taken
        · split at taken
          · obtain rfl := Option.some.inj taken
            exact answered_setCpu inv (Cpu.answered_send _ true) c
          · simp at taken
        · obtain rfl := Option.some.inj taken
          exact inv c
      · simp at taken
  | await i =>
      simp only [step] at taken
      split at taken
      · rename_i cpu rest phase
        have found := occupied cpu (by simp [phase, Compaction.awaited])
        split at taken
        · split at taken
          · rename_i absent
            simp [absent] at found
          · obtain rfl := Option.some.inj taken
            have confirmed : ∀ c, ((s.setCpu cpu ((s.cpus cpu).confirmed true)).cpus c).Answered :=
              answered_setCpu inv (Cpu.answered_confirmed _)
            exact answered_requeue confirmed c
        · simp at taken
      · simp at taken
  | reopen i =>
      simp only [step] at taken
      split at taken
      · split at taken
        · obtain rfl := Option.some.inj taken
          exact inv c
        · simp at taken
      · simp at taken

end Steps

/-! ### Runs -/

/-- In every run where `evict_all_processes` finds a process on each CPU whose
confirmation it handles, a CPU without an eviction under way is not evicting. -/
theorem evictions_complete {s : State ι} {as : List (Action ι)}
    (run : Run step Occupied initial as s) {cpu : ι}
    (connected : (s.cpus cpu).connection = .connected)
    (sent : ∀ all, (s.cpus cpu).evictor ≠ some ⟨all, false⟩)
    (answered : .processEvict ∉ (s.cpus cpu).toCpu)
    (read : .confirmation ∉ (s.cpus cpu).toScheduler)
    (handled : (s.cpus cpu).responseSem = 0) : (s.cpus cpu).isEvicting = false := by
  have inv : ∀ c, (s.cpus c).Answered := by
    refine run.invariant step_answered fun _ => ⟨?_, ?_⟩
    · simp [initial, Cpu.absent]
    · simp [initial, Cpu.absent]
  by_contra evicting
  have waiting := (inv cpu).waiting (by simpa using evicting)
  cases eq : (s.cpus cpu).evictor with
  | none => exact waiting eq
  | some evictor =>
      obtain ⟨all, _ | _⟩ := evictor
      · exact sent all eq
      · rcases (inv cpu).underway connected (by simp [Cpu.evictSent, eq]) with order | message | posted
        · exact answered order
        · exact read message
        · omega

/-- A compaction evicts the only CPU. -/
def compaction : List (Action (Fin 1)) :=
  [.compactionRequest, .close 0, .collect 0, .mark 0, .sendEvictAll 0]

/-- A process runs on the only CPU. -/
def dispatched : List (Action (Fin 1)) :=
  [.connect 0, .created 0, .startRound, .pick 0 0, .check .shortTerm, .send .shortTerm, .endRound,
    .execute 0]

/-- The process is evicted by the compaction. -/
theorem evictions_complete_of_compaction :
    ∃ s, Run step Occupied initial
      (dispatched ++ compaction ++ [.evicted 0, .post 0, .await 0]) s ∧
        (s.cpus 0).isEvicting = false := by
  obtain ⟨s, run, ended⟩ := Run.exists_of_exec step Occupied
    (dispatched ++ compaction ++ [.evicted 0, .post 0, .await 0]) (initial : State (Fin 1))
    (fun s => decide ((s.cpus 0).connection = .connected ∧ (s.cpus 0).evictor = none ∧
      (s.cpus 0).toCpu = [] ∧ (s.cpus 0).toScheduler = [] ∧ (s.cpus 0).responseSem = 0))
    (by decide)
  obtain ⟨connected, evictor, orders, messages, sem⟩ := of_decide_eq_true ended
  exact ⟨s, run, evictions_complete run connected (by simp [evictor]) (by simp [orders])
    (by simp [messages]) sem⟩

/-- The process blocks before the CPU reads `PROCESS_EVICT`: the compaction thread
finds no process, and leaves the CPU evicting. -/
theorem eviction_stuck :
    ∃ as s, Run step (fun _ _ => True) (initial : State (Fin 1)) as s ∧
      (s.cpus 0).connection = .connected ∧ (s.cpus 0).evictor = none ∧
        (s.cpus 0).toCpu = [] ∧ (s.cpus 0).toScheduler = [] ∧ (s.cpus 0).responseSem = 0 ∧
          (s.cpus 0).isEvicting = true := by
  obtain ⟨s, run, stuck⟩ := Run.exists_of_exec step (fun _ _ => True)
    ((dispatched ++ compaction).append [.stop 0 .sleep, .evicted 0, .handle 0 .granted,
      .proceed (.cpuHandler 0), .post 0, .await 0]) (initial : State (Fin 1))
    (fun s => decide ((s.cpus 0).connection = .connected ∧ (s.cpus 0).evictor = none ∧
      (s.cpus 0).toCpu = [] ∧ (s.cpus 0).toScheduler = [] ∧ (s.cpus 0).responseSem = 0 ∧
        (s.cpus 0).isEvicting = true)) (by decide)
  exact ⟨_, s, run, of_decide_eq_true stuck⟩

end OsModel.Dispatch
