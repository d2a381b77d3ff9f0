import OsModel.KernelScheduler.Priorities
import OsModel.KernelScheduler.Mutexes
import OsModel.Lib.Edges

/-!
Priority inheritance in `mutex_lock` and `mutex_unlock`.

`MUTEX_LOCK` gives the priority of a process that comes to wait to the owner of the mutex, and
to no process that the owner waits for: the chain is as urgent as the process exactly when the
rest of it was (`inheritance_along_chain_iff`). `MUTEX_UNLOCK` computes the priority of the
process that unlocks from what it still has, and hands the mutex over to the first process
that waits, with the priority that this one has: it is as urgent as those behind it exactly
when it was before (`handed_over_iff`).
-/

namespace OsModel.KernelScheduler

open Lib Relation

variable {ι : Type} {config : Config} {s t : State ι} {pid owner : UInt32} {name : String}

/-! ### Chains -/

/-- The process waits for a mutex that the other one has. -/
def WaitsFor (s : State ι) (pid owner : UInt32) : Prop :=
  ∃ name, pid ∈ (s.mutex name).waitingProcesses ∧ (s.mutex name).lockedBy = some owner

/-- The processes on the blocking chain of a process: the owner of the mutex that it waits for,
the owner of the mutex that this one waits for, and so on. -/
def OnChain (s : State ι) : UInt32 → UInt32 → Prop := TransGen (WaitsFor s)

variable [DecidableEq ι]

theorem waitsFor_mutexLock (locked : (s.mutex name).isLocked = true)
    (own : (s.mutex name).lockedBy = some owner) (ne : owner ≠ pid) :
    WaitsFor (mutexLock config s name pid) = AddEdge (WaitsFor s) pid owner := by
  have mutex : ∀ other, (mutexLock config s name pid).mutex other =
      (s.ledger.setMutex name fun m =>
        { m with waitingProcesses := m.waitingProcesses ++ [pid] }).mutex other :=
    congrFun (congrArg Ledger.mutex (ledger_mutexLock_wait locked own ne))
  funext x y
  refine propext ⟨?_, ?_⟩
  · rintro ⟨other, waits, has⟩
    rw [mutex] at waits has
    by_cases eq : other = name
    · subst eq
      rw [Ledger.mutex_self] at waits has
      rcases List.mem_append.mp waits with before | last
      · exact .old ⟨other, before, has⟩
      · obtain rfl := List.mem_singleton.mp last
        obtain rfl := Option.some.inj (own.symm.trans has)
        exact .new
    · rw [Ledger.mutex_of_ne _ eq] at waits has
      exact .old ⟨other, waits, has⟩
  · rintro (⟨other, waits, has⟩ | _)
    · refine ⟨other, ?_⟩
      rw [mutex]
      by_cases eq : other = name
      · subst eq
        rw [Ledger.mutex_self]
        exact ⟨List.mem_append_left _ waits, has⟩
      · rw [Ledger.mutex_of_ne _ eq]
        exact ⟨waits, has⟩
    · refine ⟨name, ?_⟩
      rw [mutex, Ledger.mutex_self]
      exact ⟨List.mem_append_right _ (List.mem_singleton_self pid), own⟩

theorem effectivePriority_mutexLock (locked : (s.mutex name).isLocked = true)
    (own : (s.mutex name).lockedBy = some owner) (ne : owner ≠ pid) (other : UInt32) :
    ((mutexLock config s name pid).process other).effectivePriority =
      if other = owner then inheritedPriority config s pid owner
      else (s.process other).effectivePriority := by
  have priorities : (mutexLock config s name pid).ledger.effectivePriority = _ :=
    congrArg Ledger.effectivePriority (ledger_mutexLock_wait locked own ne)
  refine (congrFun priorities other).trans ?_
  exact Function.update_apply ..

/-- After a `MUTEX_LOCK` that blocks a process, every process on its blocking chain has at most
its `effective_priority` exactly when every process behind the owner of the mutex had before:
the owner is the only one that inherits. -/
theorem inheritance_along_chain_iff (cmn : config.schedulerAlgorithm = .cmn)
    (books : MutexBooks s) (contended : Contended s name pid) :
    (∀ x, OnChain (mutexLock config s name pid) pid x →
      ((mutexLock config s name pid).process x).effectivePriority ≤
        ((mutexLock config s name pid).process pid).effectivePriority) ↔
      ∀ owner, (s.mutex name).lockedBy = some owner →
        ∀ x, OnChain s pid x ∨ OnChain s owner x → x ≠ owner →
          (s.process x).effectivePriority ≤ (s.process pid).effectivePriority := by
  obtain ⟨locked, other⟩ := contended
  obtain ⟨owner, own⟩ := Option.ne_none_iff_exists'.mp ((books.locked_iff name).mp locked)
  have ne : owner ≠ pid := fun eq => other (eq ▸ own)
  have chain : ∀ x, OnChain (mutexLock config s name pid) pid x ↔
      OnChain s pid x ∨ ReflTransGen (WaitsFor s) owner x := by
    intro x
    unfold OnChain
    rw [waitsFor_mutexLock locked own ne]
    exact AddEdge.reaches_source_iff
  have self : ((mutexLock config s name pid).process pid).effectivePriority =
      (s.process pid).effectivePriority := by
    rw [effectivePriority_mutexLock locked own ne, if_neg ne.symm]
  rw [self]
  constructor
  · intro all owner' own' x behind out
    obtain rfl := Option.some.inj (own.symm.trans own')
    have le := all x ((chain x).mpr (behind.imp_right TransGen.to_reflTransGen))
    rwa [effectivePriority_mutexLock locked own ne, if_neg out] at le
  · intro all x on
    rw [effectivePriority_mutexLock locked own ne]
    split
    · unfold inheritedPriority
      split
      · exact UInt8.le_refl _
      · rename_i more
        refine UInt8.not_lt.mp fun less => more ⟨cmn, less⟩
    · rename_i out
      refine all owner own x ?_ out
      rcases (chain x).mp on with behind | behind
      · exact .inl behind
      · rcases reflTransGen_iff_eq_or_transGen.mp behind with eq | behind
        · exact absurd eq out
        · exact .inr behind

/-- The process `2` waits for the mutex of the process `1`, and has another one, which the
process `0` is about to ask for. -/
theorem exists_chain :
    ∃ as, ∃ s : State ℕ, Run (step levels) (Allowed fun _ => .any) initial as s ∧
      MutexBooks s ∧ Contended s "b" 0 ∧ (s.mutex "b").lockedBy = some 2 ∧
        (s.mutex "a").lockedBy = some 1 ∧ (s.mutex "a").waitingProcesses = [2] ∧
          (s.process 0).effectivePriority = 0 ∧ (s.process 1).effectivePriority = 1 := by
  obtain ⟨s, run, test⟩ := Run.exists_of_exec (step levels) (Allowed fun _ => .any)
    ((threeProcesses ++ calls 2 (.mutexLock "b")).append
      [.cpu 2 (.stop (.mutexLock "a")), .handleCpu 2]) initial
    (fun s : State ℕ => decide (Contended s "b" 0 ∧ (s.mutex "b").lockedBy = some 2 ∧
      (s.mutex "a").lockedBy = some 1 ∧ (s.mutex "a").waitingProcesses = [2] ∧
        (s.process 0).effectivePriority = 0 ∧ (s.process 1).effectivePriority = 1))
    (by decide +kernel)
  exact ⟨_, s, run, (Bookkept.of_run run).mutexBooks, of_decide_eq_true test⟩

/-- In that state the chain behind the owner is not as urgent, and does not become so. -/
theorem inheritance_along_chain_iff_of_chain :
    ∃ s : State ℕ, Contended s "b" 0 ∧
      ((∀ x, OnChain (mutexLock levels s "b" 0) 0 x →
        ((mutexLock levels s "b" 0).process x).effectivePriority ≤
          ((mutexLock levels s "b" 0).process 0).effectivePriority) ↔
        ∀ owner, (s.mutex "b").lockedBy = some owner →
          ∀ x, OnChain s 0 x ∨ OnChain s owner x → x ≠ owner →
            (s.process x).effectivePriority ≤ (s.process 0).effectivePriority) := by
  obtain ⟨_, s, -, books, contended, -⟩ := exists_chain
  exact ⟨s, contended, inheritance_along_chain_iff rfl books contended⟩

/-- The process `1` keeps the priority `1`, although the process `0`, whose priority is `0`,
waits for the process `2`, which waits for it. -/
theorem chain_not_inherited :
    ∃ as, ∃ s : State ℕ, Run (step levels) (Allowed fun _ => .any) initial as s ∧
      MutexBooks s ∧ Contended s "b" 0 ∧
        OnChain (mutexLock levels s "b" 0) 0 1 ∧
          ((mutexLock levels s "b" 0).process 0).effectivePriority = 0 ∧
            ((mutexLock levels s "b" 0).process 1).effectivePriority = 1 := by
  obtain ⟨as, s, run, books, contended, own, owner, waits, urgent, behind⟩ := exists_chain
  have priorities : ∀ other, ((mutexLock levels s "b" 0).process other).effectivePriority =
      if other = 2 then inheritedPriority levels s 0 2
      else (s.process other).effectivePriority :=
    effectivePriority_mutexLock contended.1 own (by decide)
  refine ⟨as, s, run, books, contended, ?_, ?_, ?_⟩
  · unfold OnChain
    rw [waitsFor_mutexLock contended.1 own (by decide)]
    refine .tail (.single .new) (.old ⟨"a", ?_, owner⟩)
    rw [waits]
    exact List.mem_singleton_self 2
  · rw [priorities, if_neg (by decide), urgent]
  · rw [priorities, if_neg (by decide), behind]

/-! ### Hand-over -/

omit [DecidableEq ι] in
/-- The priorities that count for a process are those of its own mutexes. -/
theorem Ledger.urgencies_congr {l now : Ledger} (base : now.basePriority pid = l.basePriority pid)
    (owned : now.owned pid = l.owned pid)
    (waiting : ∀ name ∈ l.owned pid,
      (now.mutex name).waitingProcesses = (l.mutex name).waitingProcesses ∧
        ∀ other ∈ (l.mutex name).waitingProcesses,
          now.effectivePriority other = l.effectivePriority other) :
    now.urgencies pid = l.urgencies pid := by
  unfold Ledger.urgencies
  rw [base, owned]
  congr 1
  ext p
  constructor
  · rintro ⟨name, has, other, waits, eq⟩
    obtain ⟨same, priority⟩ := waiting name has
    rw [same] at waits
    exact ⟨name, has, other, waits, (priority other waits).symm.trans eq⟩
  · rintro ⟨name, has, other, waits, eq⟩
    obtain ⟨same, priority⟩ := waiting name has
    refine ⟨name, has, other, ?_, (priority other waits).trans eq⟩
    rwa [same]

omit [DecidableEq ι] in
theorem Ledger.mutex_handOver_of_ne (l : Ledger) {other : String} (ne : other ≠ name)
    (waiting : List UInt32) : (l.handOver name waiting).mutex other = l.mutex other := by
  cases waiting with
  | nil =>
      rw [Ledger.handOver]
      exact l.mutex_of_ne ne _
  | cons next rest =>
      rw [Ledger.handOver, Ledger.mutex_setOwned]
      exact l.mutex_of_ne ne _

omit [DecidableEq ι] in
theorem Ledger.owned_handOver (l : Ledger) {waiting : List UInt32} (stranger : pid ∉ waiting) :
    (l.handOver name waiting).owned pid = l.owned pid := by
  cases waiting with
  | nil => rfl
  | cons next rest =>
      have ne : pid ≠ next := fun eq => stranger (eq ▸ List.mem_cons_self)
      rw [Ledger.handOver, Ledger.owned_of_ne _ ne]
      rfl

/-- What the process that unlocks is left with, under `CMN`. -/
def unlocked (s : State ι) (name : String) (pid : UInt32) : Ledger :=
  (s.ledger.setOwned pid (·.erase name)).setPriority pid
    (restoredPriority (released s name pid) ((released s name pid).process pid))

theorem ledger_mutexUnlock (cmn : config.schedulerAlgorithm = .cmn)
    (own : (s.mutex name).lockedBy = some pid) :
    (mutexUnlock config s name pid).ledger =
      (unlocked s name pid).handOver name (s.mutex name).waitingProcesses := by
  have restored : (restorePriority config (released s name pid) pid).ledger =
      unlocked s name pid := by
    rw [ledger_restorePriority, if_pos cmn, ledger_released]
    rfl
  have mutex : (restorePriority config (released s name pid) pid).mutex = s.mutex :=
    congrArg Ledger.mutex restored
  rw [mutexUnlock_own own, ledger_handOver, restored, mutex]

theorem basePriority_mutexUnlock (cmn : config.schedulerAlgorithm = .cmn)
    (own : (s.mutex name).lockedBy = some pid) :
    (mutexUnlock config s name pid).ledger.basePriority = s.ledger.basePriority := by
  rw [ledger_mutexUnlock cmn own, Ledger.basePriority_handOver]
  rfl

theorem effectivePriority_mutexUnlock (cmn : config.schedulerAlgorithm = .cmn)
    (own : (s.mutex name).lockedBy = some pid) :
    (mutexUnlock config s name pid).ledger.effectivePriority =
      (unlocked s name pid).effectivePriority := by
  rw [ledger_mutexUnlock cmn own, Ledger.effectivePriority_handOver]

/-- A process that does not unlock keeps its priority. -/
theorem effectivePriority_mutexUnlock_of_ne (cmn : config.schedulerAlgorithm = .cmn)
    (own : (s.mutex name).lockedBy = some pid) {other : UInt32} (ne : other ≠ pid) :
    ((mutexUnlock config s name pid).process other).effectivePriority =
      (s.process other).effectivePriority := by
  refine (congrFun (effectivePriority_mutexUnlock cmn own) other).trans ?_
  exact Ledger.effectivePriority_of_ne _ ne _

theorem mutex_mutexUnlock_of_ne (cmn : config.schedulerAlgorithm = .cmn)
    (own : (s.mutex name).lockedBy = some pid) {other : String} (ne : other ≠ name) :
    (mutexUnlock config s name pid).mutex other = s.mutex other := by
  have same := congrArg Ledger.mutex (ledger_mutexUnlock cmn own)
  exact (congrFun same other).trans (Ledger.mutex_handOver_of_ne _ ne _)

theorem mutex_mutexUnlock (cmn : config.schedulerAlgorithm = .cmn)
    (own : (s.mutex name).lockedBy = some pid) :
    (mutexUnlock config s name pid).mutex name =
      match (s.mutex name).waitingProcesses with
      | [] => ⟨false, none, []⟩
      | next :: rest => ⟨true, some next, rest⟩ := by
  have same := congrFun (congrArg Ledger.mutex (ledger_mutexUnlock cmn own)) name
  have before : (unlocked s name pid).mutex name = s.mutex name := rfl
  refine same.trans ?_
  cases queue : (s.mutex name).waitingProcesses with
  | nil =>
      rw [Ledger.handOver, Ledger.mutex_self, before, queue]
  | cons next rest => rw [Ledger.handOver, Ledger.mutex_setOwned, Ledger.mutex_self]

theorem owned_mutexUnlock (cmn : config.schedulerAlgorithm = .cmn)
    (own : (s.mutex name).lockedBy = some pid) (stranger : pid ∉ (s.mutex name).waitingProcesses) :
    (mutexUnlock config s name pid).ledger.owned pid = (s.ledger.owned pid).erase name := by
  rw [ledger_mutexUnlock cmn own, Ledger.owned_handOver _ stranger, unlocked,
    Ledger.owned_setPriority, Ledger.owned_self]

/-- The process that unlocks has the priority of what it still has. -/
theorem isLeast_mutexUnlock (cmn : config.schedulerAlgorithm = .cmn) (books : MutexBooks s)
    (own : (s.mutex name).lockedBy = some pid) :
    IsLeast ((mutexUnlock config s name pid).ledger.urgencies pid)
      ((mutexUnlock config s name pid).process pid).effectivePriority := by
  have least := isLeast_restoredPriority (released s name pid) pid
  have stranger : ∀ other, (s.mutex other).lockedBy = some pid →
      pid ∉ (s.mutex other).waitingProcesses :=
    fun other has waits => books.waiting_not_owner other pid waits has
  have now : ((mutexUnlock config s name pid).process pid).effectivePriority =
      restoredPriority (released s name pid) ((released s name pid).process pid) :=
    (congrFun (effectivePriority_mutexUnlock cmn own) pid).trans
      (Ledger.effectivePriority_self ..)
  have same : (mutexUnlock config s name pid).ledger.urgencies pid =
      (released s name pid).ledger.urgencies pid := by
    rw [ledger_released]
    refine Ledger.urgencies_congr (congrFun (basePriority_mutexUnlock cmn own) pid) ?_ ?_
    · rw [owned_mutexUnlock cmn own (stranger name own), Ledger.owned_self]
    · intro other has
      rw [Ledger.owned_self] at has
      obtain ⟨ne, has⟩ := (books.owned_once pid).mem_erase_iff.mp has
      have mine := (books.owner_iff other pid).mpr has
      constructor
      · exact congrArg Mutex.waitingProcesses (mutex_mutexUnlock_of_ne cmn own ne)
      · intro waiting waits
        have out : waiting ≠ pid := fun eq => stranger other mine (eq ▸ waits)
        exact effectivePriority_mutexUnlock_of_ne cmn own out
  rw [now, same]
  exact least

/-- After a `MUTEX_UNLOCK` by the owner of a mutex, the owner has the most urgent of its base
priority and the priorities of those that wait for the mutexes it still has. The next owner is as
urgent as those that wait behind it exactly when it was before. -/
theorem handed_over_iff (cmn : config.schedulerAlgorithm = .cmn) (books : MutexBooks s)
    (own : (s.mutex name).lockedBy = some pid) :
    (IsLeast ((mutexUnlock config s name pid).ledger.urgencies pid)
        ((mutexUnlock config s name pid).process pid).effectivePriority ∧
      ∀ next, ((mutexUnlock config s name pid).mutex name).lockedBy = some next →
        ∀ waiting ∈ ((mutexUnlock config s name pid).mutex name).waitingProcesses,
          ((mutexUnlock config s name pid).process next).effectivePriority ≤
            ((mutexUnlock config s name pid).process waiting).effectivePriority) ↔
      ∀ next rest, (s.mutex name).waitingProcesses = next :: rest → ∀ waiting ∈ rest,
        (s.process next).effectivePriority ≤ (s.process waiting).effectivePriority := by
  have stranger : ∀ waiting ∈ (s.mutex name).waitingProcesses, waiting ≠ pid :=
    fun waiting waits eq => books.waiting_not_owner name waiting waits (eq ▸ own)
  have keeps : ∀ waiting ∈ (s.mutex name).waitingProcesses,
      ((mutexUnlock config s name pid).process waiting).effectivePriority =
        (s.process waiting).effectivePriority :=
    fun waiting waits => effectivePriority_mutexUnlock_of_ne cmn own (stranger waiting waits)
  have now := mutex_mutexUnlock cmn own
  constructor
  · rintro ⟨-, urgent⟩ next rest queue waiting waits
    rw [queue] at now keeps
    rw [now] at urgent
    have le := urgent next rfl waiting waits
    rwa [keeps next List.mem_cons_self, keeps waiting (List.mem_cons_of_mem _ waits)] at le
  · intro urgent
    refine ⟨isLeast_mutexUnlock cmn books own, fun next has waiting waits => ?_⟩
    cases queue : (s.mutex name).waitingProcesses with
    | nil =>
        rw [now, queue] at has
        cases has
    | cons first rest =>
        rw [queue] at keeps
        rw [now, queue] at has waits
        obtain rfl := Option.some.inj has
        rw [keeps first List.mem_cons_self, keeps waiting (List.mem_cons_of_mem _ waits)]
        exact urgent first rest queue waiting waits

/-- The processes `2` and `0` wait for the mutex of the process `1`, in this order. -/
theorem exists_queue :
    ∃ as, ∃ s : State ℕ, Run (step levels) (Allowed fun _ => .any) initial as s ∧
      MutexBooks s ∧ (s.mutex "a").lockedBy = some 1 ∧
        (s.mutex "a").waitingProcesses = [2, 0] ∧ (s.mutex "b").waitingProcesses = [] ∧
          s.listMutexes = ["a", "b"] ∧ (s.process 1).effectivePriority = 0 ∧
            (s.process 2).effectivePriority = 1 ∧ (s.process 0).effectivePriority = 0 := by
  obtain ⟨s, run, test⟩ := Run.exists_of_exec (step levels) (Allowed fun _ => .any)
    (threeProcesses.append [.cpu 2 (.stop (.mutexLock "a")), .handleCpu 2,
      .cpu 0 (.stop (.mutexLock "a")), .handleCpu 0]) initial
    (fun s : State ℕ => decide ((s.mutex "a").lockedBy = some 1 ∧
      (s.mutex "a").waitingProcesses = [2, 0] ∧ (s.mutex "b").waitingProcesses = [] ∧
        s.listMutexes = ["a", "b"] ∧ (s.process 1).effectivePriority = 0 ∧
          (s.process 2).effectivePriority = 1 ∧ (s.process 0).effectivePriority = 0))
    (by decide +kernel)
  exact ⟨_, s, run, (Bookkept.of_run run).mutexBooks, of_decide_eq_true test⟩

/-- In that state the first of the two that wait is not as urgent as the second. -/
theorem handed_over_iff_of_queue :
    ∃ s : State ℕ, (s.mutex "a").waitingProcesses = [2, 0] ∧
      ((IsLeast ((mutexUnlock levels s "a" 1).ledger.urgencies 1)
          ((mutexUnlock levels s "a" 1).process 1).effectivePriority ∧
        ∀ next, ((mutexUnlock levels s "a" 1).mutex "a").lockedBy = some next →
          ∀ waiting ∈ ((mutexUnlock levels s "a" 1).mutex "a").waitingProcesses,
            ((mutexUnlock levels s "a" 1).process next).effectivePriority ≤
              ((mutexUnlock levels s "a" 1).process waiting).effectivePriority) ↔
        ∀ next rest, (s.mutex "a").waitingProcesses = next :: rest → ∀ waiting ∈ rest,
          (s.process next).effectivePriority ≤ (s.process waiting).effectivePriority) := by
  obtain ⟨_, s, -, books, own, queue, -⟩ := exists_queue
  exact ⟨s, queue, handed_over_iff rfl books own⟩

/-- The process `2` has the mutex and the priority `1`, and the process `0`, whose priority is
`0`, waits for it. -/
theorem priority_not_passed_on :
    ∃ as, ∃ s : State ℕ, Run (step levels) (Allowed fun _ => .any) initial as s ∧
      MutexBooks s ∧ (s.mutex "a").lockedBy = some 1 ∧
        (∀ name owner, (s.mutex name).lockedBy = some owner →
          ∀ waiting ∈ (s.mutex name).waitingProcesses,
            (s.process owner).effectivePriority ≤ (s.process waiting).effectivePriority) ∧
          (mutexUnlock levels s "a" 1).mutex "a" = ⟨true, some 2, [0]⟩ ∧
            ((mutexUnlock levels s "a" 1).process 2).effectivePriority = 1 ∧
              ((mutexUnlock levels s "a" 1).process 0).effectivePriority = 0 := by
  obtain ⟨as, s, run, books, own, queue, empty, mutexes, owner, first, second⟩ := exists_queue
  have now : (mutexUnlock levels s "a" 1).mutex "a" = _ := mutex_mutexUnlock rfl own
  have keeps : ∀ other, other ≠ 1 →
      ((mutexUnlock levels s "a" 1).process other).effectivePriority =
        (s.process other).effectivePriority :=
    fun _ ne => effectivePriority_mutexUnlock_of_ne rfl own ne
  rw [queue] at now
  refine ⟨as, s, run, books, own, ?_, now, ?_, ?_⟩
  · intro name owner' own' waiting waits
    have listed : name ∈ s.listMutexes := by
      by_contra unlisted
      have default := (Bookkept.of_run run).sound.unlisted name unlisted
      have none : (s.mutex name).lockedBy = none := congrArg Mutex.lockedBy default
      cases none.symm.trans own'
    rw [mutexes] at listed
    rcases List.mem_pair.mp listed with rfl | rfl
    · obtain rfl := Option.some.inj (own.symm.trans own')
      rw [owner]
      exact UInt8.zero_le
    · rw [empty] at waits
      cases waits
  · rw [keeps 2 (by decide), first]
  · rw [keeps 0 (by decide), second]

end OsModel.KernelScheduler
