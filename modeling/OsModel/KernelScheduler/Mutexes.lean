import OsModel.KernelScheduler.Books
import OsModel.KernelScheduler.SegmentResults
import OsModel.Lib.History

/-!
The bookkeeping of the mutexes and the order in which they are granted.

A mutex and its owner both say who has it, and the processes that wait are in one list
(`MutexBooks`). `lockRequests` are the processes that a run makes wait for a mutex and
`grants` those that it hands the mutex to: the first are the second, in the same order, and
those that still wait (`mutex_bookkeeping`).
-/

namespace OsModel.KernelScheduler

open Lib

section Handlers

variable {ι : Type} {config : Config} {m : UInt32 → Mode} {s t : State ι}
  {place : UInt32 → Option (Place ι)} {pid : UInt32} {cpu : ι} {as : List (Action ι)}

/-! ### What a step does to the books -/

/-- One change of the books, in which no process comes to wait; `actor` is the process whose
syscall is handled. -/
inductive BookMove (s : State ι) (actor : Option UInt32) : Books → Prop where
  | keep : BookMove s actor s.books
  | enter {pid : UInt32} (fresh : pid ∉ s.listProcesses) :
      BookMove s actor (s.books.setOwned pid fun _ => [])
  | create {name : String} (unlisted : name ∉ s.listMutexes) :
      BookMove s actor (s.books.create name)
  | acquire {name : String} {pid : UInt32} (acts : actor = some pid)
      (known : pid ∈ s.listProcesses) (listed : name ∈ s.listMutexes)
      (free : (s.mutex name).isLocked = false) : BookMove s actor (s.books.acquire name pid)
  | release {name : String} {pid : UInt32} (acts : actor = some pid)
      (owner : (s.mutex name).lockedBy = some pid) : BookMove s actor (s.books.release name pid)

theorem books_setOwned (f : List String → List String) :
    (s.setProcess pid fun p => { p with ownedMutexes := f p.ownedMutexes }).books =
      s.books.setOwned pid f := by
  refine Books.ext rfl rfl (funext fun other => ?_)
  by_cases eq : other = pid
  · subst eq
    simp [State.books, Books.setOwned]
  · simp [State.books, Books.setOwned, setProcess_of_ne s eq, Function.update_of_ne eq]

theorem getMutexByName_none {name : String} (absent : getMutexByName s name = none) :
    name ∉ s.listMutexes := by
  intro mem
  have differs := List.find?_eq_none.mp absent name mem
  simp [stringEqualsIgnoreCase] at differs

theorem mutexCreate_books {actor : Option UInt32} (name : String) :
    BookMove s actor (mutexCreate s name).books := by
  unfold mutexCreate
  split
  · exact .keep
  · rename_i absent
    exact .create (getMutexByName_none absent)

theorem handOver_books (name : String) (pid : UInt32)
    (released : s.books = t.books.setOwned pid (·.erase name)) :
    (handOver config s name).books = t.books.release name pid := by
  have mutex : s.mutex = t.mutex := congrArg Books.mutex released
  unfold handOver Books.release
  cases waiting : (s.mutex name).waitingProcesses with
  | nil =>
      have waiting' : (t.books.mutex name).waitingProcesses = [] := by
        rw [← waiting, mutex]
        rfl
      rw [waiting', ← released]
      rfl
  | cons next rest =>
      have waiting' : (t.books.mutex name).waitingProcesses = next :: rest := by
        rw [← waiting, mutex]
        rfl
      rw [waiting']
      have owned : ((s.setMutex name fun _ => ⟨true, some next, rest⟩).setProcess next fun p =>
          { p with ownedMutexes := p.ownedMutexes ++ [name] }).books =
            (s.books.setMutex name fun _ => ⟨true, some next, rest⟩).setOwned next (· ++ [name]) :=
        books_setOwned (· ++ [name])
      rw [released] at owned
      have finished := (books_of_ledger (@ledger_finishBlock ι config _ next)).trans owned
      dsimp only
      split
      · exact finished
      · exact finished

theorem longTermScheduler_books {actor : Option UInt32} {path : String} {priority : UInt8}
    (created : longTermScheduler s path priority = some t) : BookMove s actor t.books := by
  unfold longTermScheduler at created
  dsimp only at created
  split at created
  · cases created
  · rename_i fresh
    obtain rfl := Option.some.inj created
    have entered : (s.setProcess s.currentMaxPid fun _ => createProcess priority).books =
        s.books.setOwned s.currentMaxPid fun _ => [] := by
      refine Books.ext rfl rfl (funext fun other => ?_)
      by_cases eq : other = s.currentMaxPid
      · subst eq
        simp [State.books, Books.setOwned, createProcess]
      · simp [State.books, Books.setOwned, setProcess_of_ne s eq, Function.update_of_ne eq]
    show BookMove s actor (s.setProcess s.currentMaxPid fun _ => createProcess priority).books
    rw [entered]
    exact .enter fresh

variable [DecidableEq ι]

theorem mutexUnlock_books (name : String) (pid : UInt32) :
    BookMove s (some pid) (mutexUnlock config s name pid).books := by
  unfold mutexUnlock
  split
  · rename_i owner
    have released : (restorePriority config
        ((sendPidToExecute s pid (s.process pid).cpu).setProcess pid fun p =>
          { p with ownedMutexes := p.ownedMutexes.erase name }) pid).books =
        s.books.setOwned pid (·.erase name) := by
      rw [books_restorePriority, books_setOwned (·.erase name), books_sendPidToExecute]
    dsimp only
    rw [handOver_books name pid released]
    exact .release rfl owner
  · exact .keep

/-- `MUTEX_LOCK` of a mutex that is locked by another process. -/
def Contended (s : State ι) (name : String) (pid : UInt32) : Prop :=
  (s.mutex name).isLocked = true ∧ (s.mutex name).lockedBy ≠ some pid

instance (s : State ι) (name : String) (pid : UInt32) : Decidable (Contended s name pid) := by
  unfold Contended
  exact instDecidableAnd

theorem mutexLock_books {name : String} (known : pid ∈ s.listProcesses)
    (listed : name ∈ s.listMutexes) :
    (¬Contended s name pid ∧ BookMove s (some pid) (mutexLock config s name pid).books) ∨
      (Contended s name pid ∧ (mutexLock config s name pid).books = s.books.wait name pid) := by
  unfold mutexLock
  dsimp only
  split
  · rename_i free
    have taken : ((s.setMutex name fun m =>
        { m with isLocked := true, lockedBy := some pid }).setProcess pid fun p =>
          { p with ownedMutexes := p.ownedMutexes ++ [name] }).books = s.books.acquire name pid :=
      books_setOwned (· ++ [name])
    refine .inl ⟨fun contended => ?_, ?_⟩
    · exact absurd contended.1 (by simp [free])
    · rw [books_sendPidToExecute, taken]
      exact .acquire rfl known listed free
  · rename_i locked
    split
    · rename_i owner
      rw [books_sendPidToExecute]
      exact .inl ⟨fun contended => contended.2 owner, .keep⟩
    · rename_i other
      refine .inr ⟨⟨by simpa using locked, other⟩, ?_⟩
      have blocked : (blockProcess (s.setMutex name fun m =>
          { m with waitingProcesses := m.waitingProcesses ++ [pid] }) pid).books =
            s.books.wait name pid := books_of_ledger ledger_blockProcess
      have inherited := (@books_inheritPriority ι config _ pid (s.mutex name).lockedBy).trans
        blocked
      split
      · exact inherited
      · exact inherited

/-- The process that a message of a CPU makes wait for a mutex. -/
def ToScheduler.lockRequest (name : String) (s : State ι) : ToScheduler → List UInt32
  | .syscall pid (.mutexLock other) =>
      if pid ∈ s.listProcesses ∧ getMutexByName s other = some name ∧ Contended s name pid then
        [pid]
      else []
  | _ => []

/-- The process that a step makes wait for a mutex. -/
def lockRequests (name : String) (s : State ι) : Action ι → State ι → List UInt32
  | .handleCpu cpu, _ => (s.cpu cpu).toScheduler.head?.toList.flatMap (·.lockRequest name s)
  | _, _ => []

/-- The process that a step hands a mutex to, which another process had. -/
def grants (name : String) (s : State ι) (_ : Action ι) (t : State ι) : List UInt32 :=
  if (s.mutex name).isLocked = true ∧ (t.mutex name).lockedBy ≠ (s.mutex name).lockedBy then
    (t.mutex name).lockedBy.toList
  else []

/-- What happens to the books, and which processes are made to wait. -/
inductive Books.Step (s : State ι) (actor : Option UInt32) (requests : String → List UInt32)
    (t : State ι) : Prop where
  | move (moved : BookMove s actor t.books) (none : ∀ name, requests name = [])
  | wait {name : String} {pid : UInt32} (acts : actor = some pid) (contended : Contended s name pid)
      (listed : name ∈ s.listMutexes) (waits : t.books = s.books.wait name pid)
      (request : ∀ other, requests other = if other = name then [pid] else [])

/-- What a syscall does to the books. -/
theorem handleSyscall_books (cpu : ι) (pid : UInt32) (syscall : Syscall) :
    Books.Step s (some pid) (fun name => (ToScheduler.syscall pid syscall).lockRequest name s)
      (handleSyscall config s cpu pid syscall) := by
  have same : ∀ {t : State ι}, t.ledger = s.ledger → BookMove s (some pid) t.books := by
    intro t eq
    rw [books_of_ledger eq]
    exact .keep
  cases syscall with
  | processEnd | segmentationFault => exact .move (same ledger_endProcess) fun _ => rfl
  | mutexCreate name =>
      refine .move ?_ fun _ => rfl
      simp only [handleSyscall, books_sendPidToExecute]
      exact mutexCreate_books name
  | mutexLock name =>
      simp only [handleSyscall]
      split
      · rename_i known
        split
        · rename_i mutex found
          have request : ∀ other,
              (ToScheduler.syscall pid (.mutexLock name)).lockRequest other s =
                if other = mutex ∧ Contended s mutex pid then [pid] else [] := by
            intro other
            have named : (some mutex = some other) ↔ other = mutex :=
              ⟨fun eq => (Option.some.inj eq).symm, fun eq => congrArg some eq.symm⟩
            simp only [ToScheduler.lockRequest, found, named, known, true_and]
            by_cases eq : other = mutex
            · subst eq
              rfl
            · simp [eq]
          rcases mutexLock_books known (getMutexByName_mem found) with
            ⟨free, moved⟩ | ⟨contended, waits⟩
          · exact .move moved fun other => by simp [request, free]
          · exact .wait rfl contended (getMutexByName_mem found) waits fun other => by
              simp [request, contended]
        · rename_i absent
          refine .move (same ?_) fun other => ?_
          · exact ledger_unknownMutex
          · simp [ToScheduler.lockRequest, absent]
      · rename_i unknown
        exact .move .keep fun other => by simp [ToScheduler.lockRequest, unknown]
  | mutexUnlock name =>
      refine .move ?_ fun _ => rfl
      simp only [handleSyscall]
      split
      · split
        · exact mutexUnlock_books _ pid
        · exact same ledger_unknownMutex
      · exact .keep
  | sleep sleepTime =>
      refine .move ?_ fun _ => rfl
      simp only [handleSyscall]
      split
      · exact same (ledger_sleepSyscallManager sleepTime)
      · exact .keep
  | stdin physicalAddress toRead =>
      refine .move ?_ fun _ => rfl
      simp only [handleSyscall]
      split
      · exact same (ledger_stdinSyscallManager physicalAddress toRead)
      · exact .keep
  | stdout physicalAddress toRead =>
      refine .move ?_ fun _ => rfl
      simp only [handleSyscall]
      split
      · exact same (ledger_stdoutSyscallManager physicalAddress toRead)
      · exact .keep
  | memAlloc segmentId segmentSize =>
      exact .move (same (ledger_memAllocSyscallManager segmentId segmentSize)) fun _ => rfl
  | memFree segmentId => exact .move (same (ledger_memFreeSyscallManager segmentId)) fun _ => rfl

/-- What the CPU that a message comes from has in its connection is not in the books. -/
theorem Books.Step.of_setCpu {actor : Option UInt32} {requests : String → List UInt32}
    {f : Cpu → Cpu} (step : Books.Step (s.setCpu cpu f) actor requests t) :
    Books.Step s actor requests t := by
  cases step with
  | move moved none =>
      refine .move ?_ none
      generalize t.books = b at moved
      cases moved with
      | keep => exact .keep
      | enter fresh => exact .enter fresh
      | create unlisted => exact .create unlisted
      | acquire acts known listed free => exact .acquire acts known listed free
      | release acts owner => exact .release acts owner
  | wait acts contended listed waits request => exact .wait acts contended listed waits request

theorem handleCpu_books {message : ToScheduler} {rest : List ToScheduler}
    (taken : handleCpu config (s.setCpu cpu fun c => { c with toScheduler := rest }) cpu message =
      some t) : Books.Step s message.subject (fun name => message.lockRequest name s) t := by
  cases message with
  | processCreate priority path =>
      exact Books.Step.of_setCpu (.move (longTermScheduler_books taken) fun _ => rfl)
  | confirmation =>
      obtain rfl := Option.some.inj taken
      exact .move .keep fun _ => rfl
  | syscall pid syscall =>
      obtain rfl := Option.some.inj taken
      exact (handleSyscall_books cpu pid syscall).of_setCpu

/-- What a step is, as far as the mutexes go. -/
inductive Kind (config : Config) (s : State ι) (a : Action ι) (t : State ι) : Prop where
  /-- The books stay as they are. -/
  | keep (same : t.books = s.books) (none : ∀ name, lockRequests name s a t = [])
  /-- The first process is created. -/
  | create {path : String} {priority : UInt8} (created : longTermScheduler s path priority = some t)
      (none : ∀ name, lockRequests name s a t = [])
  /-- A message of a CPU is handled. -/
  | handle {cpu : ι} {message : ToScheduler} {rest : List ToScheduler} (acts : a = .handleCpu cpu)
      (next : (s.cpu cpu).toScheduler = message :: rest)
      (handled : handleCpu config (s.setCpu cpu fun c => { c with toScheduler := rest }) cpu
        message = some t)

theorem step_kind {a : Action ι} (taken : step config s a = some t) : Kind config s a t := by
  cases step_ledger taken with
  | keep acts same =>
      refine .keep (books_of_ledger same) fun name => ?_
      cases a with
      | handleCpu cpu => exact absurd rfl (acts cpu)
      | _ => rfl
  | create acts created =>
      subst acts
      exact .create created fun _ => rfl
  | handle acts next handled => exact .handle acts next handled

/-- What a step does to the books. -/
theorem step_books {a : Action ι} (taken : step config s a = some t) :
    Books.Step s (a.concerns s).subject (fun name => lockRequests name s a t) t := by
  cases step_kind taken with
  | keep same none =>
      refine .move ?_ none
      rw [same]
      exact .keep
  | create created none => exact .move (longTermScheduler_books created) none
  | @handle cpu message rest acts next handled =>
      subst acts
      have requests : (fun name => lockRequests name s (.handleCpu cpu) t) =
          fun name => message.lockRequest name s := by
        funext name
        simp [lockRequests, next]
      have subject : ((Action.handleCpu cpu).concerns s).subject = message.subject := by
        simp [Action.concerns, next]
      rw [requests, subject]
      exact handleCpu_books handled

end Handlers

/-! ### What the books say -/

namespace Books

variable {b : Books} {known : List UInt32} {name : String} {pid : UInt32}

@[simp]
theorem setMutex_mutex (name other : String) (f : Mutex → Mutex) :
    (b.setMutex name f).mutex other = if other = name then f (b.mutex name) else b.mutex other :=
  Function.update_apply ..

@[simp]
theorem setMutex_owned (name : String) (f : Mutex → Mutex) : (b.setMutex name f).owned = b.owned :=
  rfl

@[simp]
theorem setOwned_owned (pid other : UInt32) (f : List String → List String) :
    (b.setOwned pid f).owned other = if other = pid then f (b.owned pid) else b.owned other :=
  Function.update_apply ..

@[simp]
theorem setOwned_mutex (pid : UInt32) (f : List String → List String) :
    (b.setOwned pid f).mutex = b.mutex := rfl

/-- A mutex and its owner say the same, and nobody waits for a mutex that is free or its
own. -/
structure Sound (b : Books) (known : List UInt32) : Prop where
  locked_iff : ∀ name, (b.mutex name).isLocked = true ↔ (b.mutex name).lockedBy ≠ none
  owned : ∀ name pid,
    (b.owned pid).count name = if (b.mutex name).lockedBy = some pid then 1 else 0
  waiting : ∀ name, (b.mutex name).waitingProcesses ≠ [] → (b.mutex name).isLocked = true
  owner : ∀ name pid, (b.mutex name).lockedBy = some pid → pid ∈ known
  stranger : ∀ name pid, (b.mutex name).lockedBy = some pid →
    pid ∉ (b.mutex name).waitingProcesses
  unlisted : ∀ name, name ∉ b.listMutexes → b.mutex name = ⟨false, none, []⟩

namespace Sound

theorem mono (sound : b.Sound known) {known' : List UInt32}
    (more : ∀ pid ∈ known, pid ∈ known') : b.Sound known' :=
  { sound with owner := fun name pid owner => more pid (sound.owner name pid owner) }

/-- A process that is not there has no mutex. -/
theorem enter (sound : b.Sound known) (fresh : pid ∉ known) :
    (b.setOwned pid fun _ => []).Sound known := by
  refine { sound with owned := fun name other => ?_ }
  have before := sound.owned name other
  by_cases eq : other = pid
  · subst eq
    have owner : (b.mutex name).lockedBy ≠ some other :=
      fun owner => fresh (sound.owner name other owner)
    simp [owner]
  · rw [setOwned_owned, if_neg eq]
    exact before

theorem create (sound : b.Sound known) (unlisted : name ∉ b.listMutexes) :
    (b.create name).Sound known := by
  have default : b.mutex name = ⟨false, none, []⟩ := sound.unlisted name unlisted
  have same : (b.create name).mutex = b.mutex := by
    funext other
    by_cases eq : other = name
    · simp [Books.create, eq, default]
    · simp [Books.create, eq]
  constructor
  case locked_iff => rw [same]; exact sound.locked_iff
  case owned => rw [same]; exact sound.owned
  case waiting => rw [same]; exact sound.waiting
  case owner => rw [same]; exact sound.owner
  case stranger => rw [same]; exact sound.stranger
  case unlisted =>
    intro other out
    rw [same]
    exact sound.unlisted other fun mem => out (List.mem_append_left _ mem)

theorem acquire (sound : b.Sound known) (mem : pid ∈ known) (listed : name ∈ b.listMutexes)
    (free : (b.mutex name).isLocked = false) : (b.acquire name pid).Sound known := by
  have unowned : (b.mutex name).lockedBy = none := by
    by_contra owned
    have locked := (sound.locked_iff name).mpr owned
    simp [free] at locked
  have nobody : (b.mutex name).waitingProcesses = [] := by
    by_contra some
    have locked := sound.waiting name some
    simp [free] at locked
  constructor
  case locked_iff =>
    intro other
    have before := sound.locked_iff other
    by_cases eq : other = name
    · simp [Books.acquire, eq]
    · simpa [Books.acquire, eq] using before
  case owned =>
    intro other p
    have before := sound.owned other p
    by_cases eq : other = name
    · subst eq
      rw [unowned] at before
      by_cases same : p = pid
      · subst same
        simpa [Books.acquire, List.count_append] using before
      · simpa [Books.acquire, same, Ne.symm same] using before
    · by_cases same : p = pid
      · subst same
        simpa [Books.acquire, eq, List.count_append, Ne.symm eq] using before
      · simpa [Books.acquire, same, eq] using before
  case waiting =>
    intro other
    have before := sound.waiting other
    by_cases eq : other = name
    · simp [Books.acquire, eq]
    · simpa [Books.acquire, eq] using before
  case owner =>
    intro other p
    have before := sound.owner other p
    by_cases eq : other = name
    · simp only [Books.acquire, setOwned_mutex, setMutex_mutex, if_pos eq]
      rintro ⟨⟩
      exact mem
    · simpa [Books.acquire, eq] using before
  case stranger =>
    intro other p
    have before := sound.stranger other p
    by_cases eq : other = name
    · simp [Books.acquire, eq, nobody]
    · simpa [Books.acquire, eq] using before
  case unlisted =>
    intro other out
    have eq : other ≠ name := fun eq => out (eq ▸ listed)
    simpa [Books.acquire, eq] using sound.unlisted other out

theorem wait (sound : b.Sound known) (listed : name ∈ b.listMutexes)
    (locked : (b.mutex name).isLocked = true) (other : (b.mutex name).lockedBy ≠ some pid) :
    (b.wait name pid).Sound known := by
  constructor
  case locked_iff =>
    intro n
    have before := sound.locked_iff n
    by_cases eq : n = name
    · simpa [Books.wait, eq] using sound.locked_iff name
    · simpa [Books.wait, eq] using before
  case owned =>
    intro n p
    by_cases eq : n = name
    · simpa [Books.wait, eq] using sound.owned name p
    · simpa [Books.wait, eq] using sound.owned n p
  case waiting =>
    intro n
    by_cases eq : n = name
    · simp [Books.wait, eq, locked]
    · simpa [Books.wait, eq] using sound.waiting n
  case owner =>
    intro n p
    by_cases eq : n = name
    · simpa [Books.wait, eq] using sound.owner name p
    · simpa [Books.wait, eq] using sound.owner n p
  case stranger =>
    intro n p
    by_cases eq : n = name
    · subst eq
      intro owner
      have owner : (b.mutex n).lockedBy = some p := by simpa [Books.wait] using owner
      have ne : p ≠ pid := fun same => other (same ▸ owner)
      simpa [Books.wait, ne] using sound.stranger n p owner
    · simpa [Books.wait, eq] using sound.stranger n p
  case unlisted =>
    intro n out
    have eq : n ≠ name := fun eq => out (eq ▸ listed)
    simpa [Books.wait, eq] using sound.unlisted n out

theorem release (sound : b.Sound known) (listed : name ∈ b.listMutexes)
    (owner : (b.mutex name).lockedBy = some pid)
    (once : (b.mutex name).waitingProcesses.Nodup)
    (waiting : ∀ next ∈ (b.mutex name).waitingProcesses, next ∈ known) :
    (b.release name pid).Sound known := by
  have stranger := sound.stranger name pid owner
  cases queue : (b.mutex name).waitingProcesses with
  | nil =>
      have released : b.release name pid = (b.setOwned pid (·.erase name)).setMutex name
          fun m => { m with isLocked := false, lockedBy := none } := by
        simp only [Books.release, queue]
      rw [released]
      constructor
      case locked_iff =>
        intro n
        by_cases eq : n = name
        · simp [eq]
        · simpa [eq] using sound.locked_iff n
      case owned =>
        intro n p
        have before := sound.owned n p
        by_cases eq : n = name
        · subst eq
          by_cases same : p = pid
          · subst same
            rw [if_pos owner] at before
            simp [List.count_erase_self, before]
          · rw [if_neg (by simp [owner, Ne.symm same])] at before
            simpa [same] using before
        · by_cases same : p = pid
          · subst same
            simpa [eq, List.count_erase_of_ne eq] using before
          · simpa [eq, same] using before
      case waiting =>
        intro n
        by_cases eq : n = name
        · simp [eq, queue]
        · simpa [eq] using sound.waiting n
      case owner =>
        intro n p
        by_cases eq : n = name
        · simp [eq]
        · simpa [eq] using sound.owner n p
      case stranger =>
        intro n p
        by_cases eq : n = name
        · simp [eq]
        · simpa [eq] using sound.stranger n p
      case unlisted =>
        intro n out
        have eq : n ≠ name := fun eq => out (eq ▸ listed)
        simpa [eq] using sound.unlisted n out
  | cons next rest =>
      rw [queue] at once waiting stranger
      obtain ⟨notAgain, -⟩ := List.nodup_cons.mp once
      have ne : next ≠ pid := fun same => stranger (same ▸ List.mem_cons_self)
      have released : b.release name pid = ((b.setOwned pid (·.erase name)).setMutex name
          fun _ => ⟨true, some next, rest⟩).setOwned next (· ++ [name]) := by
        simp only [Books.release, queue]
      rw [released]
      constructor
      case locked_iff =>
        intro n
        by_cases eq : n = name
        · simp [eq]
        · simpa [eq] using sound.locked_iff n
      case owned =>
        intro n p
        have before := sound.owned n p
        by_cases eq : n = name
        · subst eq
          rw [owner] at before
          by_cases new : p = next
          · subst new
            simpa [ne, List.count_append, Ne.symm ne] using before
          · by_cases same : p = pid
            · subst same
              rw [if_pos rfl] at before
              simp [new, Ne.symm new, List.count_erase_self, before]
            · simpa [new, Ne.symm new, same, Ne.symm same] using before
        · by_cases new : p = next
          · subst new
            simpa [eq, ne, List.count_append, Ne.symm eq] using before
          · by_cases same : p = pid
            · subst same
              simpa [eq, new, List.count_erase_of_ne eq] using before
            · simpa [eq, new, same] using before
      case waiting =>
        intro n
        by_cases eq : n = name
        · simp [eq]
        · simpa [eq] using sound.waiting n
      case owner =>
        intro n p
        by_cases eq : n = name
        · simp only [setOwned_mutex, setMutex_mutex, if_pos eq]
          intro owner
          obtain rfl := Option.some.inj owner
          exact waiting next List.mem_cons_self
        · simpa [eq] using sound.owner n p
      case stranger =>
        intro n p
        by_cases eq : n = name
        · simp only [setOwned_mutex, setMutex_mutex, if_pos eq]
          intro owner
          obtain rfl := Option.some.inj owner
          exact notAgain
        · simpa [eq] using sound.stranger n p
      case unlisted =>
        intro n out
        have eq : n ≠ name := fun eq => out (eq ▸ listed)
        simpa [eq] using sound.unlisted n out

end Sound

end Books

/-! ### The bookkeeping -/

section Runs

variable {ι : Type} [DecidableEq ι] {config : Config} {m : UInt32 → Mode} {s t : State ι}
  {place : UInt32 → Option (Place ι)} {pid : UInt32} {as : List (Action ι)} {name : String}

theorem Inv.mem_waiting (inv : Inv config m none s place)
    (mem : pid ∈ (s.mutex name).waitingProcesses) : place pid = some (.mutex name) :=
  inv.located.place_eq (List.count_pos_iff.mpr mem : 0 < s.tokens pid (.mutex name))

theorem Inv.nodup_waiting (inv : Inv config m none s place) :
    (s.mutex name).waitingProcesses.Nodup := by
  refine List.nodup_iff_count_le_one.mpr fun pid => ?_
  have held : (s.mutex name).waitingProcesses.count pid = _ := inv.located pid (.mutex name)
  rw [held]
  split <;> omega

/-- Processes do not leave `list_processes`. -/
theorem Move.known {about : About ι} {b b' : Board ι} (move : Move m about b b')
    (known : pid ∈ b.listProcesses) : pid ∈ b'.listProcesses := by
  cases move with
  | create fresh free => exact List.mem_append_left _ known
  | _ => exact known

theorem step_known {a : Action ι} (runs : Runs config m s) (allowed : Allowed m s a)
    (taken : step config s a = some t) (known : pid ∈ s.listProcesses) :
    pid ∈ t.listProcesses := by
  obtain ⟨⟨place, inv⟩, fresh⟩ := runs
  have kept := (step_moves inv fresh allowed taken).keeps (P := fun b => pid ∈ b.listProcesses)
    (fun move before => move.known before) known
  exact kept

/-- The processes that wait for a mutex are those that have come and have not been handed
it, in the order of their coming. -/
def InOrder (name : String) (s : State ι) (a : Action ι) (t : State ι) : Prop :=
  (s.mutex name).waitingProcesses ++ lockRequests name s a t =
    grants name s a t ++ (t.mutex name).waitingProcesses

omit [DecidableEq ι] in
theorem BookMove.inOrder {a : Action ι} {actor : Option UInt32}
    (sound : s.books.Sound s.listProcesses)
    (moved : BookMove s actor t.books) (none : lockRequests name s a t = []) :
    InOrder name s a t := by
  have mutex : t.mutex name = t.books.mutex name := rfl
  unfold InOrder grants
  rw [none, List.append_nil, mutex]
  generalize t.books = b at moved
  cases moved with
  | keep => simp [State.books]
  | enter fresh => simp [State.books]
  | @create other unlisted =>
      by_cases eq : name = other
      · subst eq
        have default : s.mutex name = ⟨false, .none, []⟩ := sound.unlisted name unlisted
        simp [Books.create, default]
      · simp [Books.create, eq, State.books]
  | @acquire other pid acts known listed free =>
      by_cases eq : name = other
      · subst eq
        simp [Books.acquire, free, State.books]
      · simp [Books.acquire, eq, State.books]
  | @release other pid acts owner =>
      have locked := (sound.locked_iff other).mpr (by simp [State.books, owner])
      have locked : (s.mutex other).isLocked = true := locked
      have stranger := sound.stranger other pid owner
      have stranger : pid ∉ (s.mutex other).waitingProcesses := stranger
      unfold Books.release
      by_cases eq : name = other
      · subst eq
        cases queue : (s.mutex name).waitingProcesses with
        | nil => simp [State.books, queue]
        | cons next rest =>
            rw [queue] at stranger
            have ne : next ≠ pid := fun same => stranger (same ▸ List.mem_cons_self)
            simp [State.books, queue, locked, owner, ne]
      · cases queue : (s.books.mutex other).waitingProcesses with
        | nil => simp [State.books, eq]
        | cons next rest => simp [State.books, eq]

theorem BookMove.sound {b : Books} {actor : Option UInt32} (inv : Inv config m none s place)
    (sound : s.books.Sound s.listProcesses) (moved : BookMove s actor b)
    (known : ∀ pid ∈ s.listProcesses, pid ∈ t.listProcesses) : b.Sound t.listProcesses := by
  refine Books.Sound.mono ?_ known
  cases moved with
  | keep => exact sound
  | enter fresh => exact sound.enter fresh
  | create unlisted => exact sound.create unlisted
  | acquire acts known listed free => exact sound.acquire known listed free
  | @release name pid acts owner =>
      have listed : name ∈ s.listMutexes := by
        by_contra unlisted
        have default := sound.unlisted name unlisted
        have owner' : (s.books.mutex name).lockedBy = some pid := owner
        simp [default] at owner'
      refine sound.release listed owner inv.nodup_waiting fun next waiting => ?_
      exact inv.known next (by simp [inv.mem_waiting waiting])

/-- A step keeps what the books say, and the order of those that wait. -/
theorem step_sound {a : Action ι} (name : String) (runs : Runs config m s) (allowed : Allowed m s a)
    (taken : step config s a = some t) (sound : s.books.Sound s.listProcesses) :
    t.books.Sound t.listProcesses ∧ InOrder name s a t := by
  have known : ∀ pid ∈ s.listProcesses, pid ∈ t.listProcesses :=
    fun _ => step_known runs allowed taken
  obtain ⟨place, inv⟩ := runs.1
  cases step_books taken with
  | move moved none => exact ⟨moved.sound inv sound known, moved.inOrder sound (none name)⟩
  | @wait other pid acts contended listed waits request =>
      refine ⟨?_, ?_⟩
      · rw [waits]
        exact (sound.wait listed contended.1 contended.2).mono known
      · have mutex : t.mutex name = (s.books.wait other pid).mutex name :=
          congrArg (fun b : Books => b.mutex name) waits
        unfold InOrder grants
        rw [request name, mutex]
        by_cases eq : name = other
        · subst eq
          simp [Books.wait, State.books]
        · simp [Books.wait, State.books, eq]

/-- The processes that wait for a mutex wait. -/
def WaitsBlocked (s : State ι) : Prop :=
  ∀ name, ∀ pid ∈ (s.mutex name).waitingProcesses,
    (s.process pid).state = .block ∨ (s.process pid).state = .suspBlock

omit [DecidableEq ι] in
/-- A move makes no process wait. -/
theorem BookMove.waiting {b : Books} {actor : Option UInt32} (moved : BookMove s actor b)
    (waiting : pid ∈ (b.mutex name).waitingProcesses) :
    pid ∈ (s.mutex name).waitingProcesses := by
  cases moved with
  | keep | enter => exact waiting
  | @create other =>
      by_cases eq : name = other
      · simp [Books.create, eq] at waiting
      · simpa [Books.create, eq] using waiting
  | @acquire other =>
      by_cases eq : name = other
      · simpa [Books.acquire, eq] using waiting
      · simpa [Books.acquire, eq] using waiting
  | @release other =>
      simp only [Books.release, books_mutex] at waiting
      by_cases eq : name = other
      · subst eq
        cases queue : (s.mutex name).waitingProcesses with
        | nil =>
            simp [queue] at waiting
        | cons next rest =>
            rw [queue] at waiting
            exact List.mem_cons_of_mem _ (by simpa using waiting)
      · cases queue : (s.mutex other).waitingProcesses with
        | nil =>
            rw [queue] at waiting
            simpa [eq] using waiting
        | cons next rest =>
            rw [queue] at waiting
            simpa [eq] using waiting

/-- A process that waits for a mutex does not end, since nothing that it waits for can
fail. -/
theorem step_waitsBlocked {a : Action ι} (runs : Runs config m s) (allowed : Allowed m s a)
    (taken : step config s a = some t) (blocked : WaitsBlocked s) : WaitsBlocked t := by
  intro name pid waiting
  obtain ⟨place, inv⟩ := runs.1
  have here : pid ∈ (s.mutex name).waitingProcesses → place pid ≠ some (.memory .access) ∧
      Fits config (settle m pid pid) (place pid) (s.process pid) := by
    intro waits
    have fits := inv.fit pid
    rw [inv.mem_waiting waits] at fits ⊢
    obtain ⟨-, unassigned, settled⟩ := fits
    refine ⟨by simp, ?_, unassigned, settled⟩
    rcases blocked name pid waits with block | suspBlock
    · exact .inl block
    · exact .inr (.inl suspBlock)
  have before : place pid ≠ some (.memory .access) ∧
      Fits config (settle m pid pid) (place pid) (s.process pid) := by
    cases step_books taken with
    | move moved none => exact here (moved.waiting waiting)
    | @wait other actor acts contended listed waits request =>
        have mutex : t.mutex name = (s.books.wait other actor).mutex name :=
          congrArg (fun b : Books => b.mutex name) waits
        rw [mutex] at waiting
        by_cases same : pid = actor
        · subst same
          have fits := inv.fit pid
          rcases inv.place_of_subject acts with ⟨cpu, there⟩ | there
          · rw [there] at fits ⊢
            exact ⟨by simp, fits⟩
          · rw [there] at fits ⊢
            exact ⟨by simp, fits⟩
        · refine here ?_
          by_cases eq : name = other
          · simpa [Books.wait, eq, same] using waiting
          · simpa [Books.wait, eq] using waiting
  obtain ⟨place', inv'⟩ := step_inv (inv.settle_of_fits before.2)
    (allowed.settle_of_place inv before.1) taken
  have fits := inv'.fit pid
  rw [inv'.mem_waiting waiting] at fits
  rcases fits.1 with block | suspBlock | ends
  · exact .inl block
  · exact .inr suspBlock
  · exact absurd ends.1 (by simp)

/-- What is known of the mutexes in every state of a run. -/
structure Bookkept (config : Config) (m : UInt32 → Mode) (s : State ι) : Prop where
  runs : Runs config m s
  sound : s.books.Sound s.listProcesses
  blocked : WaitsBlocked s

theorem step_bookkept {a : Action ι} (kept : Bookkept config m s) (allowed : Allowed m s a)
    (taken : step config s a = some t) : Bookkept config m t where
  runs := (kept.runs.keeps (P := fun _ => True) (fun _ _ _ => trivial) trivial
    (.single allowed taken)).1
  sound := (step_sound "" kept.runs allowed taken kept.sound).1
  blocked := step_waitsBlocked kept.runs allowed taken kept.blocked

/-- What the records say about mutexes. -/
structure MutexBooks (s : State ι) : Prop where
  locked_iff : ∀ name, (s.mutex name).isLocked = true ↔ (s.mutex name).lockedBy ≠ none
  owner_iff : ∀ name pid,
    (s.mutex name).lockedBy = some pid ↔ name ∈ (s.process pid).ownedMutexes
  owned_once : ∀ pid, (s.process pid).ownedMutexes.Nodup
  waiting_locked : ∀ name, (s.mutex name).waitingProcesses ≠ [] →
    (s.mutex name).isLocked = true
  waiting_once : ∀ name, (s.mutex name).waitingProcesses.Nodup
  waiting_one : ∀ name other pid, pid ∈ (s.mutex name).waitingProcesses →
    pid ∈ (s.mutex other).waitingProcesses → name = other
  waiting_blocked : ∀ name, ∀ pid ∈ (s.mutex name).waitingProcesses,
    (s.process pid).state = .block ∨ (s.process pid).state = .suspBlock
  waiting_not_owner : ∀ name, ∀ pid ∈ (s.mutex name).waitingProcesses,
    (s.mutex name).lockedBy ≠ some pid

theorem Bookkept.mutexBooks (kept : Bookkept config m s) : MutexBooks s where
  locked_iff := kept.sound.locked_iff
  owner_iff name pid := by
    have count : (s.process pid).ownedMutexes.count name = _ := kept.sound.owned name pid
    rw [← List.count_pos_iff, count]
    by_cases owner : (s.mutex name).lockedBy = some pid
    · simp [State.books, owner]
    · simp [State.books, owner]
  owned_once pid := by
    refine List.nodup_iff_count_le_one.mpr fun name => ?_
    have count : (s.process pid).ownedMutexes.count name = _ := kept.sound.owned name pid
    rw [count]
    split <;> omega
  waiting_locked := kept.sound.waiting
  waiting_once _ := by
    obtain ⟨place, inv⟩ := kept.runs.1
    exact inv.nodup_waiting
  waiting_one name other pid here there := by
    obtain ⟨place, inv⟩ := kept.runs.1
    have same := (inv.mem_waiting here).symm.trans (inv.mem_waiting there)
    simpa using same
  waiting_blocked := kept.blocked
  waiting_not_owner name pid waiting owner := kept.sound.stranger name pid owner waiting

omit [DecidableEq ι] in
theorem initial_sound : (initial : State ι).books.Sound [] := by
  constructor <;> simp [State.books, initial, createProcess]

theorem initial_bookkept : Bookkept config m (initial : State ι) where
  runs := initial_runs
  sound := initial_sound
  blocked name pid waiting := by simp [initial] at waiting

theorem Bookkept.of_run (run : Run (step config) (Allowed m) initial as s) :
    Bookkept config m s :=
  run.invariant step_bookkept initial_bookkept

/-- While no CPU disconnects whose process waits for a segment, a mutex and its owner say the
same of each other, a process waits for one mutex at most, which another process has, and a
mutex is handed to the processes that come to wait for it once each, in the order of their
requests. -/
theorem mutex_bookkeeping (run : Run (step config) (Allowed fun _ => .any) initial as s) :
    MutexBooks s ∧ ∀ name,
      history (step config) (lockRequests name) initial as =
        history (step config) (grants name) initial as ++ (s.mutex name).waitingProcesses := by
  refine ⟨(Bookkept.of_run run).mutexBooks, fun name => ?_⟩
  have keeps : ∀ {s : State ι} {a : Action ι} {t : State ι},
      Bookkept config (fun _ => .any) s → Allowed (fun _ => .any) s a →
      step config s a = some t → Bookkept config (fun _ => .any) t ∧
        (s.mutex name).waitingProcesses ++ lockRequests name s a t =
          grants name s a t ++ (t.mutex name).waitingProcesses := by
    intro s a t kept allowed taken
    obtain ⟨-, order⟩ := step_sound name kept.runs allowed taken kept.sound
    exact ⟨step_bookkept kept allowed taken, order⟩
  exact run.history_queue keeps initial_bookkept rfl

/-- Two processes on two CPUs, and the second waits for the mutex of the first. -/
def contention : List (Action ℕ) :=
  started ++ [.cpu 0 (.initProc 1 "p1"), .handleCpu 0, .memory (.serve (.ok true)), .handleMemory,
    .connectCpu 1, .schedule, .cpu 1 .execute,
    .cpu 0 (.stop (.mutexCreate "m")), .handleCpu 0, .cpu 0 .execute,
    .cpu 0 (.stop (.mutexLock "m")), .handleCpu 0, .cpu 0 .execute,
    .cpu 1 (.stop (.mutexLock "M")), .handleCpu 1]

/-- The first process unlocks the mutex, and the second has it. -/
theorem mutex_bookkeeping_of_contention :
    ∃ s : State ℕ, (s.mutex "m").lockedBy = some 1 ∧ (s.mutex "m").waitingProcesses = [] ∧
      MutexBooks s ∧ ∃ as,
        history (step fifo) (lockRequests "m") (initial : State ℕ) as = [1] ∧
          history (step fifo) (grants "m") (initial : State ℕ) as = [1] := by
  obtain ⟨s, run, found⟩ := Run.exists_of_exec (step fifo) (Allowed fun _ => .any)
    (contention ++ [.cpu 0 (.stop (.mutexUnlock "m")), .handleCpu 0]) initial
    (fun s : State ℕ => decide ((s.mutex "m").lockedBy = some 1 ∧
      (s.mutex "m").waitingProcesses = [])) (by decide +kernel)
  obtain ⟨owner, nobody⟩ := of_decide_eq_true found
  obtain ⟨books, order⟩ := mutex_bookkeeping run
  have requests : history (step fifo) (lockRequests "m") initial
      (contention ++ [.cpu 0 (.stop (.mutexUnlock "m")), .handleCpu 0]) = [1] := by
    decide +kernel
  have granted := order "m"
  rw [requests, nobody, List.append_nil] at granted
  exact ⟨s, owner, nobody, books, _, requests, granted.symm⟩

end Runs

end OsModel.KernelScheduler
