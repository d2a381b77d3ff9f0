import OsModel.KernelScheduler.Books
import OsModel.Lib.Run

/-!
The priorities that processes inherit.

`MUTEX_LOCK` lowers the number of the owner of a mutex, and `MUTEX_UNLOCK` computes the number
of the process that unlocks again, from the mutexes that it still has. Between the two the
owner has the mutex in its `owned_mutexes` (`Ranked.owner`), so a process without mutexes has
the priority that it was created with (`inherited_priorities`).

The run may be any: what the priorities depend on is written by no other step (`step_ledger`).
-/

namespace OsModel.KernelScheduler

open Lib

/-! ### The recomputed priority -/

section Least

variable {α : Type}

/-- The loop that looks for a smaller number finds the least. -/
theorem isLeast_foldl (f : α → UInt8) (xs : List α) (start : UInt8) :
    IsLeast (insert start {p | ∃ x ∈ xs, f x = p})
      (xs.foldl (fun least x => if f x < least then f x else least) start) := by
  induction xs generalizing start with
  | nil => simp [IsLeast, lowerBounds]
  | cons x rest ih =>
      obtain ⟨mem, least⟩ := ih (if f x < start then f x else start)
      rw [List.foldl_cons]
      have first := least (Set.mem_insert _ _)
      constructor
      · rcases mem with eq | ⟨y, there, eq⟩
        · rw [eq]
          split
          · exact .inr ⟨x, List.mem_cons_self, rfl⟩
          · exact .inl rfl
        · exact .inr ⟨y, List.mem_cons_of_mem _ there, eq⟩
      · rintro p (rfl | ⟨y, there, rfl⟩)
        · refine UInt8.le_trans first ?_
          split
          · rename_i less
            exact UInt8.le_of_lt less
          · exact UInt8.le_refl _
        · rcases List.mem_cons.mp there with rfl | there
          · refine UInt8.le_trans first ?_
            split
            · exact UInt8.le_refl _
            · rename_i more
              exact UInt8.not_lt.mp more
          · exact least (.inr ⟨y, there, rfl⟩)

end Least

variable {ι : Type} {config : Config} {s t : State ι} {pid : UInt32} {name : String}

/-- The base priority of a process, and the priorities of those that wait for its mutexes. -/
def Ledger.urgencies (l : Ledger) (pid : UInt32) : Set UInt8 :=
  insert (l.basePriority pid)
    {p | ∃ owned ∈ l.owned pid, ∃ waiting ∈ (l.mutex owned).waitingProcesses,
      l.effectivePriority waiting = p}

theorem isLeast_restoredPriority (s : State ι) (pid : UInt32) :
    IsLeast (s.ledger.urgencies pid) (restoredPriority s (s.process pid)) := by
  have least := isLeast_foldl (fun waiting => (s.process waiting).effectivePriority)
    ((s.process pid).ownedMutexes.flatMap fun owned => (s.mutex owned).waitingProcesses)
    (s.process pid).basePriority
  rw [List.foldl_flatMap] at least
  have same : {p | ∃ waiting ∈ (s.process pid).ownedMutexes.flatMap fun owned =>
      (s.mutex owned).waitingProcesses, (s.process waiting).effectivePriority = p} =
        {p | ∃ owned ∈ (s.process pid).ownedMutexes, ∃ waiting ∈ (s.mutex owned).waitingProcesses,
          (s.process waiting).effectivePriority = p} := by
    ext p
    constructor
    · rintro ⟨waiting, mem, eq⟩
      obtain ⟨owned, has, waits⟩ := List.mem_flatMap.mp mem
      exact ⟨owned, has, waiting, waits, eq⟩
    · rintro ⟨owned, has, waiting, waits, eq⟩
      exact ⟨waiting, List.mem_flatMap.mpr ⟨owned, has, waits⟩, eq⟩
  rwa [same] at least


/-! ### What the handlers do to the ledger -/

namespace Ledger

variable (l : Ledger)

def setMutex (name : String) (f : Mutex → Mutex) : Ledger :=
  { l with mutex := Function.update l.mutex name (f (l.mutex name)) }

/-- A write to the `owned_mutexes` of a process. -/
def setOwned (pid : UInt32) (f : List String → List String) : Ledger :=
  { l with owned := Function.update l.owned pid (f (l.owned pid)) }

/-- A write to the `effective_priority` of a process. -/
def setPriority (pid : UInt32) (priority : UInt8) : Ledger :=
  { l with effectivePriority := Function.update l.effectivePriority pid priority }

/-- A process without mutexes enters `list_processes`. -/
def enter (pid : UInt32) (priority : UInt8) : Ledger :=
  { l with
    listProcesses := l.listProcesses ++ [pid]
    owned := Function.update l.owned pid []
    basePriority := Function.update l.basePriority pid priority
    effectivePriority := Function.update l.effectivePriority pid priority }

/-- A mutex without an owner goes to the first process that waits for it. -/
def handOver (name : String) : List UInt32 → Ledger
  | [] => l.setMutex name fun m => { m with isLocked := false, lockedBy := none }
  | next :: rest =>
      (l.setMutex name fun _ => ⟨true, some next, rest⟩).setOwned next (· ++ [name])

@[simp]
theorem listProcesses_handOver (name : String) (waiting : List UInt32) :
    (l.handOver name waiting).listProcesses = l.listProcesses := by
  cases waiting with
  | nil => rfl
  | cons next rest => rfl

@[simp]
theorem basePriority_handOver (name : String) (waiting : List UInt32) :
    (l.handOver name waiting).basePriority = l.basePriority := by
  cases waiting with
  | nil => rfl
  | cons next rest => rfl

@[simp]
theorem effectivePriority_handOver (name : String) (waiting : List UInt32) :
    (l.handOver name waiting).effectivePriority = l.effectivePriority := by
  cases waiting with
  | nil => rfl
  | cons next rest => rfl

@[simp]
theorem mutex_self (name : String) (f : Mutex → Mutex) :
    (l.setMutex name f).mutex name = f (l.mutex name) := Function.update_self ..

theorem mutex_of_ne {name other : String} (ne : other ≠ name) (f : Mutex → Mutex) :
    (l.setMutex name f).mutex other = l.mutex other := Function.update_of_ne ne ..

@[simp]
theorem owned_self (pid : UInt32) (f : List String → List String) :
    (l.setOwned pid f).owned pid = f (l.owned pid) := Function.update_self ..

theorem owned_of_ne {pid other : UInt32} (ne : other ≠ pid) (f : List String → List String) :
    (l.setOwned pid f).owned other = l.owned other := Function.update_of_ne ne ..

@[simp]
theorem effectivePriority_self (pid : UInt32) (priority : UInt8) :
    (l.setPriority pid priority).effectivePriority pid = priority := Function.update_self ..

theorem effectivePriority_of_ne {pid other : UInt32} (ne : other ≠ pid) (priority : UInt8) :
    (l.setPriority pid priority).effectivePriority other = l.effectivePriority other :=
  Function.update_of_ne ne ..

@[simp]
theorem mutex_setOwned (pid : UInt32) (f : List String → List String) :
    (l.setOwned pid f).mutex = l.mutex := rfl

@[simp]
theorem owned_setPriority (pid : UInt32) (priority : UInt8) :
    (l.setPriority pid priority).owned = l.owned := rfl

end Ledger

theorem ledger_setOwned (f : List String → List String) :
    (s.setProcess pid fun p => { p with ownedMutexes := f p.ownedMutexes }).ledger =
      s.ledger.setOwned pid f := by
  refine Ledger.ext rfl rfl rfl (funext fun other => ?_)
    (field_setProcess Process.basePriority rfl) (field_setProcess Process.effectivePriority rfl)
  by_cases eq : other = pid
  · subst eq
    simp [State.ledger, Ledger.setOwned]
  · simp [State.ledger, Ledger.setOwned, setProcess_of_ne s eq, Function.update_of_ne eq]

theorem ledger_processSetPriority (newPriority : UInt8) :
    (processSetPriority s pid newPriority).ledger = s.ledger.setPriority pid newPriority := by
  refine Ledger.ext rfl rfl rfl (field_setProcess Process.ownedMutexes rfl)
    (field_setProcess Process.basePriority rfl) (funext fun other => ?_)
  by_cases eq : other = pid
  · subst eq
    simp [State.ledger, Ledger.setPriority, processSetPriority]
  · simp [State.ledger, Ledger.setPriority, processSetPriority, setProcess_of_ne s eq,
      Function.update_of_ne eq]

theorem ledger_requeueWithPriority (newPriority : UInt8) :
    (requeueWithPriority config s pid newPriority).ledger =
      s.ledger.setPriority pid newPriority := by
  unfold requeueWithPriority
  split
  · exact ledger_processSetPriority (s := removeProcessFromReadyQueue config s pid) newPriority
  · exact ledger_processSetPriority newPriority

/-- The priority that the owner of a mutex has once a process waits for it. -/
def inheritedPriority (config : Config) (s : State ι) (pid owner : UInt32) : UInt8 :=
  if config.schedulerAlgorithm = .cmn ∧
      (s.process pid).effectivePriority < (s.process owner).effectivePriority then
    (s.process pid).effectivePriority
  else (s.process owner).effectivePriority

theorem ledger_inheritPriority (owner : UInt32) :
    (inheritPriority config s pid (some owner)).ledger =
      s.ledger.setPriority owner (inheritedPriority config s pid owner) := by
  unfold inheritPriority inheritedPriority
  dsimp only
  split
  · exact ledger_requeueWithPriority _
  · exact (congrArg (fun priorities => { s.ledger with effectivePriority := priorities })
      (Function.update_eq_self owner s.ledger.effectivePriority)).symm

theorem ledger_restorePriority :
    (restorePriority config s pid).ledger =
      s.ledger.setPriority pid (if config.schedulerAlgorithm = .cmn then
        restoredPriority s (s.process pid) else (s.process pid).effectivePriority) := by
  have kept : s.ledger = s.ledger.setPriority pid (s.process pid).effectivePriority :=
    (congrArg (fun priorities => { s.ledger with effectivePriority := priorities })
      (Function.update_eq_self pid s.ledger.effectivePriority)).symm
  unfold restorePriority
  dsimp only
  split
  · rename_i changed
    rw [if_pos changed.1]
    exact ledger_requeueWithPriority _
  · rename_i same
    split
    · rename_i cmn
      have eq : restoredPriority s (s.process pid) = (s.process pid).effectivePriority := by
        by_contra ne
        exact same ⟨cmn, ne⟩
      rw [eq]
      exact kept
    · exact kept

theorem ledger_handOver :
    (handOver config s name).ledger = s.ledger.handOver name (s.mutex name).waitingProcesses := by
  unfold handOver
  cases queue : (s.mutex name).waitingProcesses with
  | nil => rfl
  | cons next rest =>
      have woken : ∀ u : State ι, u.ledger =
          (s.ledger.setMutex name fun _ => ⟨true, some next, rest⟩).setOwned next (· ++ [name]) →
          (if (u.process next).state = .ready then u.postShortTerm else u).ledger =
            (s.ledger.setMutex name fun _ => ⟨true, some next, rest⟩).setOwned next
              (· ++ [name]) := by
        intro u same
        split
        · exact same
        · exact same
      exact woken _ (ledger_finishBlock.trans
        (ledger_setOwned (s := s.setMutex name fun _ => ⟨true, some next, rest⟩) (· ++ [name])))

theorem ledger_longTermScheduler {path : String} {priority : UInt8}
    (created : longTermScheduler s path priority = some t) :
    s.currentMaxPid ∉ s.listProcesses ∧ t.ledger = s.ledger.enter s.currentMaxPid priority := by
  simp only [longTermScheduler] at created
  split at created
  · cases created
  · rename_i fresh
    obtain rfl := Option.some.inj created
    refine ⟨fresh, Ledger.ext rfl rfl rfl (funext fun pid => ?_) (funext fun pid => ?_)
      (funext fun pid => ?_)⟩
    all_goals
      by_cases eq : pid = s.currentMaxPid
      · subst eq
        simp [State.ledger, Ledger.enter, createProcess]
      · simp [State.ledger, Ledger.enter, eq]

variable [DecidableEq ι]

/-- A mutex that nobody has is taken. -/
theorem ledger_mutexLock_free (free : (s.mutex name).isLocked = false) :
    (mutexLock config s name pid).ledger =
      (s.ledger.setMutex name fun m => { m with isLocked := true, lockedBy := some pid }).setOwned
        pid (· ++ [name]) := by
  unfold mutexLock
  dsimp only
  rw [if_pos free, ledger_sendPidToExecute]
  exact ledger_setOwned (· ++ [name])

/-- A mutex that the process has stays as it is. -/
theorem ledger_mutexLock_own (locked : (s.mutex name).isLocked = true)
    (own : (s.mutex name).lockedBy = some pid) : (mutexLock config s name pid).ledger = s.ledger := by
  unfold mutexLock
  dsimp only
  rw [if_neg (by simp [locked]), if_pos own, ledger_sendPidToExecute]

/-- For a mutex that another process has the process waits, and the owner inherits its
priority. -/
theorem ledger_mutexLock_wait {owner : UInt32} (locked : (s.mutex name).isLocked = true)
    (other : (s.mutex name).lockedBy = some owner) (ne : owner ≠ pid) :
    (mutexLock config s name pid).ledger =
      (s.ledger.setMutex name fun m =>
        { m with waitingProcesses := m.waitingProcesses ++ [pid] }).setPriority owner
          (inheritedPriority config s pid owner) := by
  have blocked : (blockProcess (s.setMutex name fun m =>
      { m with waitingProcesses := m.waitingProcesses ++ [pid] }) pid).ledger =
        s.ledger.setMutex name fun m =>
          { m with waitingProcesses := m.waitingProcesses ++ [pid] } := ledger_blockProcess
  have inherited : ∀ u : State ι, u.ledger = (s.ledger.setMutex name fun m =>
      { m with waitingProcesses := m.waitingProcesses ++ [pid] }) →
        (inheritPriority config u pid (some owner)).ledger =
          (s.ledger.setMutex name fun m =>
            { m with waitingProcesses := m.waitingProcesses ++ [pid] }).setPriority owner
              (inheritedPriority config s pid owner) := by
    intro u same
    have effective : ∀ p, (u.process p).effectivePriority = (s.process p).effectivePriority :=
      congrFun (congrArg Ledger.effectivePriority same)
    rw [ledger_inheritPriority, same, inheritedPriority, effective, effective]
    rfl
  unfold mutexLock
  dsimp only
  rw [if_neg (by simp [locked]), other, if_neg (by simpa using ne)]
  split
  · exact inherited _ blocked
  · exact inherited _ blocked

/-- The process has given up the mutex, and has its old priority. -/
def released (s : State ι) (name : String) (pid : UInt32) : State ι :=
  (sendPidToExecute s pid (s.process pid).cpu).setProcess pid fun p =>
    { p with ownedMutexes := p.ownedMutexes.erase name }

theorem ledger_released :
    (released s name pid).ledger = s.ledger.setOwned pid (·.erase name) := by
  refine (ledger_setOwned (·.erase name)).trans ?_
  rw [ledger_sendPidToExecute]

theorem mutexUnlock_own (own : (s.mutex name).lockedBy = some pid) :
    mutexUnlock config s name pid =
      handOver config (restorePriority config (released s name pid) pid) name := by
  unfold mutexUnlock
  rw [if_pos own]
  rfl

/-! ### What the priorities are -/

namespace Ledger

variable {l : Ledger} {hole : Option String} {n : String} {p : UInt32}

/-- What holds of the priorities. The mutex in `hole` is being handed over, and its owner may
not have it yet. -/
structure Ranked (config : Config) (hole : Option String) (l : Ledger) : Prop where
  locked : ∀ name, (l.mutex name).isLocked = true → (l.mutex name).lockedBy ≠ none
  owner : ∀ name pid, hole ≠ some name → (l.mutex name).lockedBy = some pid →
    pid ∈ l.listProcesses ∧ name ∈ l.owned pid
  waiting : ∀ name, ∀ pid ∈ (l.mutex name).waitingProcesses, pid ∈ l.listProcesses
  le_base : ∀ pid, l.effectivePriority pid ≤ l.basePriority pid
  unowned : ∀ pid, l.owned pid = [] → l.effectivePriority pid = l.basePriority pid
  constant : config.schedulerAlgorithm ≠ .cmn →
    ∀ pid, l.effectivePriority pid = l.basePriority pid

namespace Ranked

/-- A mutex is written, and may have another owner. -/
theorem setMutex (ranked : l.Ranked config hole) (empty : hole = none ∨ hole = some n)
    {f : Mutex → Mutex}
    (locked : (f (l.mutex n)).isLocked = true → (f (l.mutex n)).lockedBy ≠ none)
    (waiting : ∀ pid ∈ (f (l.mutex n)).waitingProcesses, pid ∈ l.listProcesses) :
    (l.setMutex n f).Ranked config (some n) where
  locked name has := by
    by_cases eq : name = n
    · subst eq
      rw [mutex_self] at has ⊢
      exact locked has
    · rw [mutex_of_ne l eq] at has ⊢
      exact ranked.locked name has
  owner name pid out owner := by
    have ne : name ≠ n := fun eq => out (congrArg some eq.symm)
    rw [mutex_of_ne l ne] at owner
    refine ranked.owner name pid ?_ owner
    intro here
    rcases empty with empty | empty
    · rw [empty] at here
      cases here
    · rw [empty] at here
      exact out here
  waiting name pid mem := by
    by_cases eq : name = n
    · subst eq
      rw [mutex_self] at mem
      exact waiting pid mem
    · rw [mutex_of_ne l eq] at mem
      exact ranked.waiting name pid mem
  le_base := ranked.le_base
  unowned := ranked.unowned
  constant := ranked.constant

/-- The mutex in the hole has an owner that has it. -/
theorem fill (ranked : l.Ranked config (some n))
    (owner : ∀ pid, (l.mutex n).lockedBy = some pid →
      pid ∈ l.listProcesses ∧ n ∈ l.owned pid) : l.Ranked config none where
  locked := ranked.locked
  owner name pid _ owned := by
    by_cases eq : name = n
    · subst eq
      exact owner pid owned
    · exact ranked.owner name pid (fun same => eq (Option.some.inj same).symm) owned
  waiting := ranked.waiting
  le_base := ranked.le_base
  unowned := ranked.unowned
  constant := ranked.constant

/-- A process takes a mutex. -/
theorem append (ranked : l.Ranked config hole) :
    (l.setOwned p (· ++ [n])).Ranked config hole where
  locked := ranked.locked
  owner name pid out owner := by
    obtain ⟨known, has⟩ := ranked.owner name pid out owner
    refine ⟨known, ?_⟩
    by_cases eq : pid = p
    · subst eq
      rw [owned_self]
      exact List.mem_append_left _ has
    · rwa [owned_of_ne l eq]
  waiting := ranked.waiting
  le_base := ranked.le_base
  unowned pid none := by
    by_cases eq : pid = p
    · subst eq
      simp at none
    · rw [owned_of_ne l eq] at none
      exact ranked.unowned pid none
  constant := ranked.constant

/-- An owner inherits a priority, under `CMN`. -/
theorem inherit (ranked : l.Ranked config hole) {priority : UInt8} (owns : l.owned p ≠ [])
    (le : priority ≤ l.effectivePriority p)
    (constant : config.schedulerAlgorithm ≠ .cmn → priority = l.effectivePriority p) :
    (l.setPriority p priority).Ranked config hole where
  locked := ranked.locked
  owner := ranked.owner
  waiting := ranked.waiting
  le_base pid := by
    by_cases eq : pid = p
    · subst eq
      rw [effectivePriority_self]
      exact UInt8.le_trans le (ranked.le_base pid)
    · rw [effectivePriority_of_ne _ eq]
      exact ranked.le_base pid
  unowned pid none := by
    have ne : pid ≠ p := fun eq => owns (eq ▸ none)
    rw [effectivePriority_of_ne _ ne]
    exact ranked.unowned pid none
  constant other pid := by
    by_cases eq : pid = p
    · subst eq
      rw [effectivePriority_self, constant other]
      exact ranked.constant other pid
    · rw [effectivePriority_of_ne _ eq]
      exact ranked.constant other pid

/-- A process gives up the mutex in the hole, and its priority is computed again. -/
theorem release (ranked : l.Ranked config none) {priority : UInt8}
    (le : priority ≤ l.basePriority p)
    (bare : (l.owned p).erase n = [] → priority = l.basePriority p)
    (constant : config.schedulerAlgorithm ≠ .cmn → priority = l.basePriority p)
    (own : (l.mutex n).lockedBy = some p) :
    ((l.setOwned p (·.erase n)).setPriority p priority).Ranked config
      (some n) where
  locked := ranked.locked
  owner name pid out owner := by
    obtain ⟨known, has⟩ := ranked.owner name pid (Option.some_ne_none name).symm owner
    have ne : name ≠ n := fun eq => out (congrArg some eq.symm)
    refine ⟨known, ?_⟩
    by_cases eq : pid = p
    · subst eq
      rw [owned_setPriority, owned_self]
      exact (List.mem_erase_of_ne ne).mpr has
    · rwa [owned_setPriority, owned_of_ne l eq]
  waiting := ranked.waiting
  le_base pid := by
    by_cases eq : pid = p
    · subst eq
      rw [effectivePriority_self]
      exact le
    · rw [effectivePriority_of_ne _ eq]
      exact ranked.le_base pid
  unowned pid none := by
    by_cases eq : pid = p
    · subst eq
      rw [owned_setPriority, owned_self] at none
      rw [effectivePriority_self]
      exact bare none
    · rw [owned_setPriority, owned_of_ne l eq] at none
      rw [effectivePriority_of_ne _ eq]
      exact ranked.unowned pid none
  constant other pid := by
    by_cases eq : pid = p
    · subst eq
      rw [effectivePriority_self]
      exact constant other
    · rw [effectivePriority_of_ne _ eq]
      exact ranked.constant other pid

/-- A process is created. -/
theorem enter (ranked : l.Ranked config none) {priority : UInt8}
    (fresh : p ∉ l.listProcesses) : (l.enter p priority).Ranked config none where
  locked := ranked.locked
  owner name pid out owner := by
    obtain ⟨known, has⟩ := ranked.owner name pid out owner
    have ne : pid ≠ p := fun eq => fresh (eq ▸ known)
    refine ⟨List.mem_append_left _ known, ?_⟩
    simpa [Ledger.enter, ne] using has
  waiting name pid mem := List.mem_append_left _ (ranked.waiting name pid mem)
  le_base pid := by
    by_cases eq : pid = p
    · subst eq
      simp [Ledger.enter]
    · simpa [Ledger.enter, eq] using ranked.le_base pid
  unowned pid := by
    by_cases eq : pid = p
    · subst eq
      simp [Ledger.enter]
    · simpa [Ledger.enter, eq] using ranked.unowned pid
  constant other pid := by
    by_cases eq : pid = p
    · subst eq
      simp [Ledger.enter]
    · simpa [Ledger.enter, eq] using ranked.constant other pid

end Ranked

end Ledger

/-! ### Steps -/

/-- The priorities in a state are as they should be. -/
def Ranked (config : Config) (s : State ι) : Prop := s.ledger.Ranked config none

omit [DecidableEq ι] in
theorem initial_ranked : Ranked config (initial : State ι) := by
  constructor <;> simp [State.ledger, initial, createProcess]

omit [DecidableEq ι] in
theorem Ranked.known (ranked : Ranked config s) (own : (s.mutex name).lockedBy = some pid) :
    pid ∈ s.listProcesses := (ranked.owner name pid nofun own).1

omit [DecidableEq ι] in
theorem ranked_mutexCreate (ranked : Ranked config s) : Ranked config (mutexCreate s name) := by
  unfold mutexCreate
  split
  · exact ranked
  · have free := Ledger.Ranked.setMutex ranked (n := name) (.inl rfl)
      (f := fun _ => ⟨false, none, []⟩) nofun (by simp)
    have empty := free.fill fun pid own => by simp at own
    exact ⟨empty.locked, empty.owner, empty.waiting, empty.le_base, empty.unowned, empty.constant⟩

omit [DecidableEq ι] in
theorem inheritedPriority_le {owner : UInt32} :
    inheritedPriority config s pid owner ≤ (s.process owner).effectivePriority := by
  unfold inheritedPriority
  split
  · rename_i less
    exact UInt8.le_of_lt less.2
  · exact UInt8.le_refl _

omit [DecidableEq ι] in
theorem inheritedPriority_of_ne {owner : UInt32} (other : config.schedulerAlgorithm ≠ .cmn) :
    inheritedPriority config s pid owner = (s.process owner).effectivePriority := by
  unfold inheritedPriority
  rw [if_neg fun both => other both.1]

omit [DecidableEq ι] in
theorem waiting_append (ranked : Ranked config s) (known : pid ∈ s.listProcesses) :
    ∀ other ∈ (s.mutex name).waitingProcesses ++ [pid], other ∈ s.listProcesses := by
  intro other mem
  rcases List.mem_append.mp mem with before | last
  · exact ranked.waiting name other before
  · obtain rfl := List.mem_singleton.mp last
    exact known

theorem ranked_mutexLock (ranked : Ranked config s) (known : pid ∈ s.listProcesses) :
    Ranked config (mutexLock config s name pid) := by
  unfold Ranked
  cases locked : (s.mutex name).isLocked with
  | false =>
      have taken := (Ledger.Ranked.setMutex ranked (n := name) (.inl rfl)
        (f := fun m => { m with isLocked := true, lockedBy := some pid }) (by simp)
        (ranked.waiting name)).append (p := pid) (n := name)
      rw [ledger_mutexLock_free locked]
      refine taken.fill fun owner own => ?_
      obtain rfl : pid = owner := by simpa [Ledger.setOwned] using own
      exact ⟨known, by simp⟩
  | true =>
      obtain ⟨owner, own⟩ := Option.ne_none_iff_exists'.mp (ranked.locked name locked)
      have own : (s.mutex name).lockedBy = some owner := own
      by_cases same : owner = pid
      · subst same
        rw [ledger_mutexLock_own locked own]
        exact ranked
      · have waits := (Ledger.Ranked.setMutex ranked (n := name) (.inl rfl)
          (f := fun m => { m with waitingProcesses := m.waitingProcesses ++ [pid] })
          (ranked.locked name) (waiting_append ranked known)).fill (by
            rw [Ledger.mutex_self]
            exact fun other => ranked.owner name other nofun)
        rw [ledger_mutexLock_wait locked own same]
        refine waits.inherit ?_ ?_ ?_
        · exact List.ne_nil_of_mem (ranked.owner name owner nofun own).2
        · exact inheritedPriority_le
        · exact inheritedPriority_of_ne

/-- What the process that unlocks is left with. -/
theorem ranked_restorePriority (ranked : Ranked config s)
    (own : (s.mutex name).lockedBy = some pid) :
    (restorePriority config (released s name pid) pid).ledger.Ranked config (some name) := by
  have least := isLeast_restoredPriority (released s name pid) pid
  have before : ((released s name pid).process pid).effectivePriority =
      (s.process pid).effectivePriority :=
    congrFun (congrArg Ledger.effectivePriority ledger_released) pid
  rw [ledger_restorePriority, ledger_released]
  rw [ledger_released] at least
  refine Ledger.Ranked.release ranked ?_ ?_ ?_ own
  · split
    · exact least.2 (Set.mem_insert _ _)
    · rw [before]
      exact ranked.le_base pid
  · intro bare
    split
    · rcases least.1 with base | ⟨owned, has, -⟩
      · exact base
      · rw [Ledger.owned_self, bare] at has
        cases has
    · rename_i other
      rw [before]
      exact ranked.constant other pid
  · intro other
    rw [if_neg other, before]
    exact ranked.constant other pid

omit [DecidableEq ι] in
theorem ranked_handOver (ranked : s.ledger.Ranked config (some name)) :
    Ranked config (handOver config s name) := by
  unfold Ranked
  rw [ledger_handOver]
  cases queue : (s.mutex name).waitingProcesses with
  | nil =>
      have free := ranked.setMutex (n := name) (.inr rfl)
        (f := fun m => { m with isLocked := false, lockedBy := none }) (by simp)
        (ranked.waiting name)
      refine free.fill fun owner own => ?_
      rw [Ledger.mutex_self] at own
      cases own
  | cons next rest =>
      have waiting := ranked.waiting name
      have queue' : (s.ledger.mutex name).waitingProcesses = next :: rest := queue
      rw [queue'] at waiting
      have handed := (ranked.setMutex (n := name) (.inr rfl)
        (f := fun _ => ⟨true, some next, rest⟩) (by simp)
        (fun other mem => waiting other (List.mem_cons_of_mem _ mem))).append (p := next)
          (n := name)
      refine handed.fill fun owner own => ?_
      obtain rfl : next = owner := by simpa [Ledger.setOwned] using own
      exact ⟨waiting next List.mem_cons_self, by simp⟩

theorem ranked_mutexUnlock (ranked : Ranked config s) :
    Ranked config (mutexUnlock config s name pid) := by
  by_cases own : (s.mutex name).lockedBy = some pid
  · rw [mutexUnlock_own own]
    exact ranked_handOver (ranked_restorePriority ranked own)
  · unfold mutexUnlock
    rw [if_neg own]
    exact ranked

omit [DecidableEq ι] in
theorem ranked_longTermScheduler {path : String} {priority : UInt8} (ranked : Ranked config s)
    (created : longTermScheduler s path priority = some t) : Ranked config t := by
  obtain ⟨fresh, same⟩ := ledger_longTermScheduler created
  unfold Ranked
  rw [same]
  exact Ledger.Ranked.enter ranked fresh

/-- The processes of a ledger are still there, with their base priorities. -/
def Ledger.Grows (l now : Ledger) : Prop :=
  ∀ pid ∈ l.listProcesses,
    pid ∈ now.listProcesses ∧ now.basePriority pid = l.basePriority pid

/-- The priorities are as they should be, and the processes are still there. -/
def Advances (config : Config) (s t : State ι) : Prop :=
  Ranked config t ∧ s.ledger.Grows t.ledger

omit [DecidableEq ι] in
theorem Ranked.advances_of_ledger (ranked : Ranked config s) (same : t.ledger = s.ledger) :
    Advances config s t := by
  constructor
  · unfold Ranked
    rw [same]
    exact ranked
  · rw [same]
    exact fun pid known => ⟨known, rfl⟩

omit [DecidableEq ι] in
theorem advances_mutexCreate (ranked : Ranked config s) :
    Advances config s (mutexCreate s name) := by
  refine ⟨ranked_mutexCreate ranked, fun pid known => ?_⟩
  unfold mutexCreate
  split
  · exact ⟨known, rfl⟩
  · exact ⟨known, rfl⟩

theorem advances_mutexLock (ranked : Ranked config s) (known : pid ∈ s.listProcesses) :
    Advances config s (mutexLock config s name pid) := by
  refine ⟨ranked_mutexLock ranked known, ?_⟩
  cases locked : (s.mutex name).isLocked with
  | false =>
      rw [ledger_mutexLock_free locked]
      exact fun _ known => ⟨known, rfl⟩
  | true =>
      obtain ⟨owner, own⟩ := Option.ne_none_iff_exists'.mp (ranked.locked name locked)
      by_cases same : owner = pid
      · subst same
        rw [ledger_mutexLock_own locked own]
        exact fun _ known => ⟨known, rfl⟩
      · rw [ledger_mutexLock_wait locked own same]
        exact fun _ known => ⟨known, rfl⟩

theorem advances_mutexUnlock (ranked : Ranked config s) :
    Advances config s (mutexUnlock config s name pid) := by
  refine ⟨ranked_mutexUnlock ranked, ?_⟩
  by_cases own : (s.mutex name).lockedBy = some pid
  · rw [mutexUnlock_own own, ledger_handOver, ledger_restorePriority, ledger_released]
    intro other known
    rw [Ledger.listProcesses_handOver, Ledger.basePriority_handOver]
    exact ⟨known, rfl⟩
  · unfold mutexUnlock
    rw [if_neg own]
    exact fun _ known => ⟨known, rfl⟩

theorem advances_handleSyscall {cpu : ι} {syscall : Syscall} (ranked : Ranked config s) :
    Advances config s (handleSyscall config s cpu pid syscall) := by
  have same : ∀ {t : State ι}, t.ledger = s.ledger → Advances config s t :=
    ranked.advances_of_ledger
  cases syscall with
  | processEnd | segmentationFault => exact same ledger_endProcess
  | mutexCreate name =>
      obtain ⟨created, grows⟩ : Advances config s (KernelScheduler.mutexCreate s name) :=
        advances_mutexCreate ranked
      simp only [handleSyscall]
      constructor
      · unfold Ranked
        rw [ledger_sendPidToExecute]
        exact created
      · rw [ledger_sendPidToExecute]
        exact grows
  | mutexLock name =>
      simp only [handleSyscall]
      split
      · rename_i known
        split
        · exact advances_mutexLock ranked known
        · exact same ledger_unknownMutex
      · exact same rfl
  | mutexUnlock name =>
      simp only [handleSyscall]
      split
      · split
        · exact advances_mutexUnlock ranked
        · exact same ledger_unknownMutex
      · exact same rfl
  | sleep sleepTime =>
      simp only [handleSyscall]
      split
      · exact same (ledger_sleepSyscallManager sleepTime)
      · exact same rfl
  | stdin physicalAddress toRead =>
      simp only [handleSyscall]
      split
      · exact same (ledger_stdinSyscallManager physicalAddress toRead)
      · exact same rfl
  | stdout physicalAddress toRead =>
      simp only [handleSyscall]
      split
      · exact same (ledger_stdoutSyscallManager physicalAddress toRead)
      · exact same rfl
  | memAlloc segmentId segmentSize => exact same (ledger_memAllocSyscallManager segmentId segmentSize)
  | memFree segmentId => exact same (ledger_memFreeSyscallManager segmentId)

omit [DecidableEq ι] in
theorem advances_longTermScheduler {path : String} {priority : UInt8} (ranked : Ranked config s)
    (created : longTermScheduler s path priority = some t) : Advances config s t := by
  obtain ⟨fresh, same⟩ := ledger_longTermScheduler created
  refine ⟨ranked_longTermScheduler ranked created, fun pid known => ?_⟩
  have ne : pid ≠ s.currentMaxPid := fun eq => fresh (eq ▸ known)
  rw [same]
  refine ⟨List.mem_append_left _ known, ?_⟩
  simp [Ledger.enter, ne]

/-- A step keeps the priorities as they should be. -/
theorem step_ranked {a : Action ι} (ranked : Ranked config s)
    (taken : step config s a = some t) : Advances config s t := by
  cases step_ledger taken with
  | keep acts same => exact ranked.advances_of_ledger same
  | create acts created => exact advances_longTermScheduler ranked created
  | @handle cpu message rest acts next handled =>
      have before : Ranked config (s.setCpu cpu fun c => { c with toScheduler := rest }) := ranked
      cases message with
      | processCreate priority path =>
          obtain ⟨after, grows⟩ := advances_longTermScheduler before handled
          exact ⟨after, grows⟩
      | confirmation =>
          obtain rfl := Option.some.inj handled
          exact ranked.advances_of_ledger rfl
      | syscall pid syscall =>
          obtain rfl := Option.some.inj handled
          exact advances_handleSyscall before

/-- In every run the priority of a process is its own or a more urgent one, which it inherited
and only has while it has a mutex; and without `CMN` no process changes its priority. -/
theorem inherited_priorities {as : List (Action ι)}
    (run : Run (step config) (fun _ _ => True) initial as s) :
    (∀ pid, (s.process pid).effectivePriority ≤ (s.process pid).basePriority) ∧
      (∀ pid, (s.process pid).ownedMutexes = [] →
        (s.process pid).effectivePriority = (s.process pid).basePriority) ∧
      (config.schedulerAlgorithm ≠ .cmn → ∀ bs t, Run (step config) (fun _ _ => True) s bs t →
        ∀ pid ∈ s.listProcesses,
          (t.process pid).effectivePriority = (s.process pid).effectivePriority) := by
  have ranked := run.invariant (fun ranked _ taken => (step_ranked ranked taken).1) initial_ranked
  refine ⟨ranked.le_base, ranked.unowned, fun other bs t more pid known => ?_⟩
  have later := more.invariant (fun ranked _ taken => (step_ranked ranked taken).1) ranked
  have grows : s.ledger.Grows t.ledger := by
    refine Run.relates (fun _ _ known => ⟨known, rfl⟩) ?_
      (fun (ranked : Ranked config _) _ taken => step_ranked ranked taken) ranked more
    intro s t u first second pid known
    obtain ⟨there, same⟩ := first pid known
    obtain ⟨still, same'⟩ := second pid there
    exact ⟨still, same'.trans same⟩
  have now : (t.process pid).effectivePriority = (t.process pid).basePriority :=
    later.constant other pid
  have before : (s.process pid).effectivePriority = (s.process pid).basePriority :=
    ranked.constant other pid
  have base : (t.process pid).basePriority = (s.process pid).basePriority := (grows pid known).2
  rw [now, before, base]

/-! ### A run -/

/-- Three queues. -/
def levels : Config := .ofQueues .fifo [.fifo, .fifo]

/-- The process of the CPU makes a syscall that does not block it. -/
def calls (cpu : ℕ) (syscall : Syscall) : List (Action ℕ) :=
  [.cpu cpu (.stop syscall), .handleCpu cpu, .cpu cpu .execute]

/-- The processes `0`, `1` and `2` run, with the priorities `0`, `2` and `1`, and there are two
mutexes; the first one is of the process `1`. -/
def threeProcesses : List (Action ℕ) :=
  [.process0 "p0", .memory (.serve (.ok true)), .handleMemory, .connectCpu 0, .connectCpu 1,
    .connectCpu 2, .wake, .schedule, .cpu 0 .execute,
    .cpu 0 (.initProc 2 "p1"), .handleCpu 0, .memory (.serve (.ok true)), .handleMemory, .schedule,
    .cpu 1 .execute,
    .cpu 0 (.initProc 1 "p2"), .handleCpu 0, .memory (.serve (.ok true)), .handleMemory, .schedule,
    .cpu 2 .execute] ++
  calls 1 (.mutexCreate "a") ++ calls 1 (.mutexCreate "b") ++ calls 1 (.mutexLock "a")

/-- The process `0` waits for the mutex of the process `1`, which has its priority. -/
theorem inherited_priorities_of_threeProcesses :
    ∃ s : State ℕ, (s.process 1).effectivePriority = 0 ∧ (s.process 1).basePriority = 2 ∧
      ∀ pid, (s.process pid).effectivePriority ≤ (s.process pid).basePriority := by
  obtain ⟨s, run, test⟩ := Run.exists_of_exec (step levels) (fun _ _ => True)
    (threeProcesses ++ [.cpu 0 (.stop (.mutexLock "a")), .handleCpu 0]) initial
    (fun s : State ℕ => decide ((s.process 1).effectivePriority = 0 ∧
      (s.process 1).basePriority = 2)) (by decide +kernel)
  obtain ⟨effective, base⟩ := of_decide_eq_true test
  exact ⟨s, effective, base, (inherited_priorities run).1⟩

end OsModel.KernelScheduler
