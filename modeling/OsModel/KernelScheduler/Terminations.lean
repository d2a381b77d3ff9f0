import OsModel.KernelScheduler.Mutexes

/-!
The mutexes of a process that ends.

A process ends by `EXIT`, a segmentation fault, a mutex that does not exist, or a request
that fails, and none of these handlers looks at the mutexes: in the step that ends a process
the books stay as they are (`step_exit`). So a process that ends keeps the mutexes that it
has, for as long as it is `EXIT` (`exit_keeps_mutexes`), and who waits for them waits
(`mutex_of_exit`).
-/

namespace OsModel.KernelScheduler

open Lib

variable {ι : Type} {config : Config} {m : UInt32 → Mode} {s t u : State ι}
  {pid : UInt32} {as bs : List (Action ι)}

/-! ### Steps that end no process -/

/-- No process ends from `s` to `t`. -/
def EndsNone (s t : State ι) : Prop :=
  ∀ pid, (t.process pid).state = .exit → (s.process pid).state = .exit

theorem EndsNone.of_process (same : t.process = s.process) : EndsNone s t := by
  intro pid exit
  rwa [same] at exit

theorem EndsNone.of_board (same : t.board = s.board) : EndsNone s t := by
  intro pid exit
  have state : (t.process pid).state = (s.process pid).state :=
    congrArg (fun b : Board ι => (b.process pid).state) same
  rwa [state] at exit

theorem EndsNone.trans (first : EndsNone s t) (second : EndsNone t u) : EndsNone s u :=
  fun pid exit => first pid (second pid exit)

theorem EndsNone.setProcess (f : Process ι → Process ι)
    (keeps : (f (s.process pid)).state = .exit → (s.process pid).state = .exit) :
    EndsNone s (s.setProcess pid f) := by
  intro other exit
  by_cases eq : other = pid
  · subst eq
    rw [setProcess_self] at exit
    exact keeps exit
  · rwa [setProcess_of_ne s eq] at exit

theorem endsNone_finishBlock : EndsNone s (finishBlock config s pid) := by
  have woken : EndsNone s (processSetReady s pid) := by
    have state : (if (s.process pid).state = .suspBlock then ProcessState.suspReady
        else .ready) ≠ .exit := by
      split
      · simp
      · simp
    exact EndsNone.setProcess (fun p => { p with state := _ }) fun exit => absurd exit state
  unfold finishBlock
  dsimp only
  split
  · exact woken.trans (.of_process rfl)
  · exact woken.trans (.of_process rfl)

theorem endsNone_handOver (name : String) : EndsNone s (handOver config s name) := by
  unfold handOver
  split
  · exact .of_process rfl
  · rename_i next rest waiting
    have given : EndsNone s ((s.setMutex name fun _ => ⟨true, some next, rest⟩).setProcess next
        fun p => { p with ownedMutexes := p.ownedMutexes ++ [name] }) :=
      EndsNone.trans (.of_process rfl) (EndsNone.setProcess _ id)
    dsimp only
    split
    · exact (given.trans endsNone_finishBlock).trans (.of_process rfl)
    · exact given.trans endsNone_finishBlock

theorem endsNone_longTermScheduler {path : String} {priority : UInt8}
    (created : longTermScheduler s path priority = some t) : EndsNone s t := by
  unfold longTermScheduler at created
  dsimp only at created
  split at created
  · cases created
  · obtain rfl := Option.some.inj created
    have entered : EndsNone s (s.setProcess s.currentMaxPid fun _ => createProcess priority) := by
      refine EndsNone.setProcess _ fun exit => ?_
      cases exit
    exact entered.trans (.of_process rfl)

variable [DecidableEq ι]

theorem endsNone_sendPidToExecute (cpu : Option ι) :
    EndsNone s (sendPidToExecute s pid cpu) := by
  refine .of_process ?_
  cases cpu with
  | none => rfl
  | some cpu =>
      simp only [sendPidToExecute]
      split
      · rfl
      · split <;> rfl

theorem endsNone_mutexLock (name : String) : EndsNone s (mutexLock config s name pid) := by
  unfold mutexLock
  dsimp only
  split
  · have taken : EndsNone s ((s.setMutex name fun m =>
        { m with isLocked := true, lockedBy := some pid }).setProcess pid fun p =>
          { p with ownedMutexes := p.ownedMutexes ++ [name] }) :=
      EndsNone.trans (.of_process rfl) (EndsNone.setProcess _ id)
    exact taken.trans (endsNone_sendPidToExecute _)
  · split
    · exact endsNone_sendPidToExecute _
    · have blocked : EndsNone s (blockProcess (s.setMutex name fun m =>
          { m with waitingProcesses := m.waitingProcesses ++ [pid] }) pid) := by
        refine EndsNone.trans (t := s.setProcess pid fun p =>
          { p with state := .block, cpu := none, startBlockTime := s.now }) ?_ (.of_process rfl)
        refine EndsNone.setProcess _ fun exit => ?_
        cases exit
      have inherited : EndsNone s (inheritPriority config (blockProcess (s.setMutex name fun m =>
          { m with waitingProcesses := m.waitingProcesses ++ [pid] }) pid) pid
            (s.mutex name).lockedBy) :=
        blocked.trans (.of_board (board_inheritPriority _))
      split
      · exact inherited.trans (.of_process rfl)
      · exact inherited.trans (.of_process rfl)

theorem endsNone_mutexUnlock (name : String) : EndsNone s (mutexUnlock config s name pid) := by
  unfold mutexUnlock
  split
  · dsimp only
    refine EndsNone.trans ?_ (endsNone_handOver name)
    refine EndsNone.trans ?_ (.of_board board_restorePriority)
    exact (endsNone_sendPidToExecute _).trans (EndsNone.setProcess _ id)
  · exact .of_process rfl

/-- A syscall that ends a process leaves the books as they are. -/
theorem handleSyscall_exit (cpu : ι) (syscall : Syscall) :
    (handleSyscall config s cpu pid syscall).books = s.books ∨
      EndsNone s (handleSyscall config s cpu pid syscall) := by
  cases syscall with
  | processEnd | segmentationFault => exact .inl (books_of_ledger ledger_endProcess)
  | mutexCreate name =>
      have created : EndsNone s (mutexCreate s name) := .of_board (board_mutexCreate name)
      exact .inr (created.trans (endsNone_sendPidToExecute _))
  | mutexLock name =>
      simp only [handleSyscall]
      split
      · split
        · exact .inr (endsNone_mutexLock _)
        · exact .inl (books_of_ledger ledger_unknownMutex)
      · exact .inl rfl
  | mutexUnlock name =>
      simp only [handleSyscall]
      split
      · split
        · exact .inr (endsNone_mutexUnlock _)
        · exact .inl (books_of_ledger ledger_unknownMutex)
      · exact .inl rfl
  | sleep sleepTime =>
      simp only [handleSyscall]
      split
      · exact .inl (books_of_ledger (ledger_sleepSyscallManager sleepTime))
      · exact .inl rfl
  | stdin physicalAddress toRead =>
      simp only [handleSyscall]
      split
      · exact .inl (books_of_ledger (ledger_stdinSyscallManager physicalAddress toRead))
      · exact .inl rfl
  | stdout physicalAddress toRead =>
      simp only [handleSyscall]
      split
      · exact .inl (books_of_ledger (ledger_stdoutSyscallManager physicalAddress toRead))
      · exact .inl rfl
  | memAlloc segmentId segmentSize =>
      exact .inl (books_of_ledger (ledger_memAllocSyscallManager segmentId segmentSize))
  | memFree segmentId => exact .inl (books_of_ledger (ledger_memFreeSyscallManager segmentId))

/-- A step that ends a process leaves the books as they are. -/
theorem step_exit {a : Action ι} (taken : step config s a = some t) :
    t.books = s.books ∨ EndsNone s t := by
  cases step_kind taken with
  | keep same none => exact .inl same
  | create created none => exact .inr (endsNone_longTermScheduler created)
  | @handle cpu message rest acts next handled =>
      cases message with
      | processCreate priority path =>
          have created : EndsNone (s.setCpu cpu fun c => { c with toScheduler := rest }) t :=
            endsNone_longTermScheduler handled
          exact .inr created
      | confirmation =>
          obtain rfl := Option.some.inj handled
          exact .inl rfl
      | syscall pid syscall =>
          obtain rfl := Option.some.inj handled
          exact handleSyscall_exit cpu syscall

/-! ### While a process is `EXIT` -/

/-- What a process has of the mutexes stays as it is. -/
structure Holds (pid : UInt32) (s t : State ι) : Prop where
  owner : ∀ name, (t.mutex name).lockedBy = some pid ↔ (s.mutex name).lockedBy = some pid
  waiting : ∀ name, (s.mutex name).lockedBy = some pid →
    (s.mutex name).waitingProcesses <+: (t.mutex name).waitingProcesses

omit [DecidableEq ι] in
theorem Holds.of_mutex (same : t.mutex = s.mutex) : Holds pid s t where
  owner name := by rw [same]
  waiting name _ := by rw [same]

omit [DecidableEq ι] in
theorem Holds.trans (first : Holds pid s t) (second : Holds pid t u) : Holds pid s u where
  owner name := (second.owner name).trans (first.owner name)
  waiting name owner :=
    (first.waiting name owner).trans (second.waiting name ((first.owner name).mpr owner))

/-- A process that is `EXIT` makes no syscall and waits for no mutex. -/
theorem BookMove.holds {actor : Option UInt32} (kept : Bookkept config m s)
    (moved : BookMove s actor t.books) (idle : actor ≠ some pid)
    (exit : (s.process pid).state = .exit) : Holds pid s t := by
  have mutex : t.mutex = t.books.mutex := rfl
  suffices ∀ name, ((t.books.mutex name).lockedBy = some pid ↔
      (s.mutex name).lockedBy = some pid) ∧ ((s.mutex name).lockedBy = some pid →
        (s.mutex name).waitingProcesses <+: (t.books.mutex name).waitingProcesses) from
    ⟨fun name => (this name).1, fun name => (this name).2⟩
  intro name
  generalize t.books = b at moved
  cases moved with
  | keep => simp
  | enter fresh => simp
  | @create other unlisted =>
      by_cases eq : name = other
      · subst eq
        have default : s.mutex name = ⟨false, none, []⟩ := kept.sound.unlisted name unlisted
        simp [Books.create, default]
      · simp [Books.create, eq]
  | @acquire other actor acts known listed free =>
      by_cases eq : name = other
      · subst eq
        have unowned : (s.mutex name).lockedBy = none := by
          by_contra owned
          have locked := (kept.sound.locked_iff name).mpr owned
          simp [free] at locked
        have ne : actor ≠ pid := fun same => idle (same ▸ acts)
        simp [Books.acquire, unowned, ne]
      · simp [Books.acquire, eq]
  | @release other actor acts owner =>
      have ne : actor ≠ pid := fun same => idle (same ▸ acts)
      simp only [Books.release, books_mutex]
      by_cases eq : name = other
      · subst eq
        cases queue : (s.mutex name).waitingProcesses with
        | nil => simp [owner, ne]
        | cons next rest =>
            have other : next ≠ pid := by
              rintro rfl
              have waits := kept.blocked name next (by rw [queue]; exact List.mem_cons_self)
              simp [exit] at waits
            simp [owner, ne, other]
      · cases queue : (s.mutex other).waitingProcesses with
        | nil => simp [eq]
        | cons next rest => simp [eq]

theorem step_holds {a : Action ι} (kept : Bookkept config m s)
    (taken : step config s a = some t) (exit : (s.process pid).state = .exit) :
    Holds pid s t := by
  have idle : (a.concerns s).subject ≠ some pid := by
    obtain ⟨place, inv⟩ := kept.runs.1
    intro subject
    have executing := inv.executing_of_subject subject
    simp [exit] at executing
  cases step_books taken with
  | move moved none => exact moved.holds kept idle exit
  | @wait other actor acts contended listed waits request =>
      have mutex : t.mutex = (s.books.wait other actor).mutex := congrArg Books.mutex waits
      suffices ∀ name, ((t.mutex name).lockedBy = some pid ↔
          (s.mutex name).lockedBy = some pid) ∧ ((s.mutex name).lockedBy = some pid →
            (s.mutex name).waitingProcesses <+: (t.mutex name).waitingProcesses) from
        ⟨fun name => (this name).1, fun name => (this name).2⟩
      intro name
      rw [mutex]
      by_cases eq : name = other
      · simp [Books.wait, eq]
      · simp [Books.wait, eq]

/-- The steps of a run in which the process is `EXIT`. -/
def Exited (m : UInt32 → Mode) (pid : UInt32) (s : State ι) (a : Action ι) : Prop :=
  Allowed m s a ∧ (s.process pid).state = .exit

theorem Bookkept.holds (kept : Bookkept config m s)
    (run : Run (step config) (Exited m pid) s as t) : Holds pid s t := by
  have keeps : ∀ {s : State ι} {a : Action ι} {t : State ι}, Bookkept config m s →
      Exited m pid s a → step config s a = some t → Bookkept config m t ∧ Holds pid s t := by
    rintro s a t kept ⟨allowed, exit⟩ taken
    exact ⟨step_bookkept kept allowed taken, step_holds kept taken exit⟩
  exact @Run.relates _ _ _ _ (Bookkept config m) (Holds pid) (fun _ => .of_mutex rfl)
    Holds.trans keeps _ _ _ kept run

/-- How a process has come to be `EXIT`: in the step from `s` to `u`, and it has been so
since. -/
structure Ending (config : Config) (m : UInt32 → Mode) (pid : UInt32) (s u t : State ι) :
    Prop where
  reached : ∃ as, Run (step config) (Allowed m) initial as s
  ended : ∃ a, Allowed m s a ∧ step config s a = some u
  before : (s.process pid).state ≠ .exit
  after : (u.process pid).state = .exit
  since : ∃ bs, Run (step config) (Exited m pid) u bs t

/-- A process that is `EXIT` has come to be so. -/
theorem exists_ending (run : Run (step config) (Allowed m) initial as t)
    (exit : (t.process pid).state = .exit) : ∃ s u, Ending config m pid s u t := by
  induction run with
  | refl => cases exit
  | snoc before allowed taken ih =>
      rename_i s t as a
      by_cases already : (s.process pid).state = .exit
      · obtain ⟨s', u, ending⟩ := ih already
        obtain ⟨bs, since⟩ := ending.since
        exact ⟨s', u, { ending with since := ⟨_, since.snoc ⟨allowed, already⟩ taken⟩ }⟩
      · exact ⟨s, t, ⟨⟨as, before⟩, ⟨a, allowed, taken⟩, already, exit, [], .refl t⟩⟩

/-- While no CPU disconnects whose process waits for a segment, the mutexes of a process that
is `EXIT` are those that it owned when it ended, and the processes that waited for them then
wait for them still. -/
theorem exit_keeps_mutexes (run : Run (step config) (Allowed fun _ => .any) initial as t)
    (exit : (t.process pid).state = .exit) :
    ∃ s u, Ending config (fun _ => .any) pid s u t ∧ ∀ name,
      ((t.mutex name).lockedBy = some pid ↔ name ∈ (s.process pid).ownedMutexes) ∧
        (name ∈ (s.process pid).ownedMutexes →
          (s.mutex name).waitingProcesses <+: (t.mutex name).waitingProcesses) := by
  obtain ⟨s, u, ending⟩ := exists_ending run exit
  obtain ⟨as, reached⟩ := ending.reached
  obtain ⟨a, allowed, taken⟩ := ending.ended
  obtain ⟨bs, since⟩ := ending.since
  have kept := Bookkept.of_run reached
  have books : u.books = s.books := by
    rcases step_exit taken with same | none
    · exact same
    · exact absurd (none pid ending.after) ending.before
  have ended : Holds pid s u := .of_mutex (congrArg Books.mutex books)
  have holds := ended.trans ((step_bookkept kept allowed taken).holds since)
  refine ⟨s, u, ending, fun name => ?_⟩
  have owner := kept.mutexBooks.owner_iff name pid
  exact ⟨(holds.owner name).trans owner, fun owned => holds.waiting name (owner.mpr owned)⟩

/-- The process that has the mutex ends, and the other waits. -/
def abandoned : List (Action ℕ) :=
  contention ++ [.cpu 0 (.stop .processEnd), .handleCpu 0]

theorem exit_keeps_mutexes_of_contention :
    ∃ t : State ℕ, (t.process 0).state = .exit ∧
      ∃ s u, Ending fifo (fun _ => .any) 0 s u t ∧ ∀ name,
        ((t.mutex name).lockedBy = some 0 ↔ name ∈ (s.process 0).ownedMutexes) ∧
          (name ∈ (s.process 0).ownedMutexes →
            (s.mutex name).waitingProcesses <+: (t.mutex name).waitingProcesses) := by
  obtain ⟨t, run, found⟩ := Run.exists_of_exec (step fifo) (Allowed fun _ => .any) abandoned
    initial (fun t : State ℕ => decide ((t.process 0).state = .exit)) (by decide +kernel)
  have exit := of_decide_eq_true found
  exact ⟨t, exit, exit_keeps_mutexes run exit⟩

/-- A process ends with `EXIT` while it has a mutex that another process waits for: it has
the mutex still. -/
theorem exit_holds_mutex :
    ∃ as s, Run (step fifo) (fun _ _ => True) (initial : State ℕ) as s ∧
      (s.process 0).state = .exit ∧ (s.mutex "m").lockedBy = some 0 ∧
        (s.mutex "m").waitingProcesses = [1] := by
  obtain ⟨s, run, found⟩ := Run.exists_of_exec (step fifo) (fun _ _ => True) abandoned initial
    (fun s : State ℕ => decide ((s.process 0).state = .exit ∧
      (s.mutex "m").lockedBy = some 0 ∧ (s.mutex "m").waitingProcesses = [1]))
    (by decide +kernel)
  exact ⟨_, s, run, of_decide_eq_true found⟩

end OsModel.KernelScheduler
