import OsModel.KernelScheduler.Spares

/-!
The ready queue that a new process enters first.

The priority of an `INIT_PROC` has 32 bits, and `long_term_scheduler` takes one of eight. Until
the process is in a ready queue, no step changes the priority that it has got.

* `firstQueued_spec`: the queue is that of the priority modulo 256.
* `priority_respected_iff`: for which priorities that is the queue that was asked for.
* `urgent_by_overflow`: a large number that is as urgent as zero.
-/

namespace OsModel.KernelScheduler

open Lib

variable {ι : Type} {config : Config} {s t : State ι} {pid : UInt32}

/-! ### Requests -/

/-- The process is in no ready queue. -/
def Unqueued (config : Config) (pid : UInt32) (s : State ι) : Prop :=
  ∀ i < config.queueAlgorithmsCount, pid ∉ s.readyQueue i

instance (config : Config) (pid : UInt32) (s : State ι) : Decidable (Unqueued config pid s) := by
  unfold Unqueued
  infer_instance

/-- In a run, an `INIT_PROC` with this priority creates a process, which then enters a ready
queue for the first time: the queue, and the priority that it has there. -/
inductive FirstQueued (ι : Type) [DecidableEq ι] (config : Config) (priority : UInt32) :
    Nat → UInt8 → Prop where
  | intro {s s' t u : State ι} {as bs : List (Action ι)} {b : Action ι} {cpu : ι} {path : String}
      {rest : List ToScheduler} {i : Nat}
      (before : Run (step config) (fun s' _ => Unqueued config s.currentMaxPid s') initial as s)
      (unqueued : Unqueued config s.currentMaxPid s)
      (request : (s.cpu cpu).toScheduler = .processCreate priority path :: rest)
      (created : step config s (.handleCpu cpu) = some s')
      (behind : Run (step config) (fun t _ => Unqueued config s.currentMaxPid t) s' bs t)
      (waits : Unqueued config s.currentMaxPid t)
      (enters : step config t b = some u)
      (queue : i < config.queueAlgorithmsCount)
      (queued : s.currentMaxPid ∈ u.readyQueue i) :
      FirstQueued ι config priority i (u.process s.currentMaxPid).effectivePriority

/-- The processes of two requests are in the queues that were asked for, and in the order of
their priorities. -/
structure Respected (n : Nat) (p q : UInt32) (i j : Nat) (e f : UInt8) : Prop where
  first : i = min p.toNat (n - 1)
  second : j = min q.toNat (n - 1)
  queues : i ≤ j
  priorities : e ≤ f

/-- The lowest eight bits of a priority have the same queue as the whole of it. -/
def SameQueue (n : Nat) (priority : UInt32) : Prop :=
  priority.toNat < 256 ∨ n ≤ priority.toNat % 256 + 1

instance (n : Nat) (priority : UInt32) : Decidable (SameQueue n priority) := by
  unfold SameQueue
  infer_instance

section Runs

variable {priority : UInt32} {i : Nat} {e : UInt8}

/-- What holds of a process until it is in a ready queue. -/
structure Unstarted (config : Config) (pid : UInt32) (s : State ι) : Prop where
  ranked : Ranked config s
  alone : Unscheduled s pid

theorem Unstarted.unowned (unstarted : Unstarted config pid s) (name : String) :
    (s.mutex name).lockedBy ≠ some pid := by
  intro own
  have mem := (unstarted.ranked.owner name pid (by simp) own).2
  have nothing : s.ledger.owned pid = [] := unstarted.alone.owned
  rw [nothing] at mem
  exact List.not_mem_nil mem

theorem initial_unstarted (config : Config) (pid : UInt32) :
    Unstarted config pid (initial : State ι) where
  ranked := initial_ranked
  alone := ⟨rfl, fun _ => by simp [initial, Cpu.absent, Cpu.inFlight], fun _ => List.not_mem_nil,
    rfl⟩

/-- The process has been created with this priority. -/
structure Created (config : Config) (pid : UInt32) (priority : UInt8) (s : State ι) : Prop
    extends Unstarted config pid s where
  known : pid ∈ s.listProcesses
  priority_eq : (s.process pid).effectivePriority = priority

variable [DecidableEq ι]

theorem step_unstarted {a : Action ι} (unstarted : Unstarted config pid s)
    (unqueued : Unqueued config pid s) (taken : step config s a = some t) :
    Unstarted config pid t ∧ (pid ∈ s.listProcesses → pid ∈ t.listProcesses ∧
      Spares config pid s t) := by
  obtain ⟨ranked, grows⟩ := step_ranked unstarted.ranked taken
  rcases step_spares unstarted.alone unqueued unstarted.unowned taken with spares | ⟨new, alone⟩
  · exact ⟨⟨ranked, unstarted.alone.spared spares⟩, fun known => ⟨(grows pid known).1, spares⟩⟩
  · exact ⟨⟨ranked, alone⟩, fun known => absurd known new⟩

theorem step_created {a : Action ι} {priority : UInt8} (created : Created config pid priority s)
    (unqueued : Unqueued config pid s) (taken : step config s a = some t) :
    Created config pid priority t ∧ Spares config pid s t := by
  obtain ⟨unstarted, kept⟩ := step_unstarted created.toUnstarted unqueued taken
  obtain ⟨known, spares⟩ := kept created.known
  exact ⟨⟨unstarted, known, spares.priority.trans created.priority_eq⟩, spares⟩

/-- **Where a new process is put first**: in the queue of its priority, cut to eight bits. -/
theorem firstQueued_spec (cmn : config.schedulerAlgorithm = .cmn)
    (first : FirstQueued ι config priority i e) :
    e.toNat = priority.toNat % 256 ∧
      i = min (priority.toNat % 256) (config.queueAlgorithmsCount - 1) := by
  obtain ⟨before, unqueued, request, created, behind, waits, enters, queue, queued⟩ := first
  rename_i s s' t u as bs b cpu path rest
  have start : Unstarted config s.currentMaxPid s :=
    before.invariant (fun unstarted unqueued taken => (step_unstarted unstarted unqueued taken).1)
      (initial_unstarted config _)
  have entered : longTermScheduler (s.setCpu cpu fun c => { c with toScheduler := rest }) path
      priority.toUInt8 = some s' := by
    simpa only [step, request, handleCpu] using created
  obtain ⟨-, known, process, -, -⟩ := process_longTermScheduler entered
  have cut : (s'.process s.currentMaxPid).effectivePriority = priority.toUInt8 :=
    congrArg Process.effectivePriority process
  have made : Created config s.currentMaxPid priority.toUInt8 s' :=
    ⟨(step_unstarted start unqueued created).1, known, cut⟩
  have kept : Created config s.currentMaxPid priority.toUInt8 t :=
    behind.invariant (fun created unqueued taken => (step_created created unqueued taken).1) made
  obtain ⟨queued_now, spares⟩ := step_created kept waits enters
  have eight : (u.process s.currentMaxPid).effectivePriority.toNat = priority.toNat % 256 := by
    rw [queued_now.priority_eq, UInt32.toNat_toUInt8]
  refine ⟨eight, ?_⟩
  rcases spares.queue i queued with old | new
  · exact absurd old (waits i queue)
  · rw [new, queueIndex_eq_min cmn, eight]

/-- **When requested priorities are respected**: cutting them to eight bits leads to no other
queue, and does not change their order. -/
theorem priority_respected_iff (cmn : config.schedulerAlgorithm = .cmn) {p q : UInt32}
    {i j : Nat} {e f : UInt8} (le : p ≤ q) (first : FirstQueued ι config p i e)
    (second : FirstQueued ι config q j f) :
    Respected config.queueAlgorithmsCount p q i j e f ↔
      SameQueue config.queueAlgorithmsCount p ∧ SameQueue config.queueAlgorithmsCount q ∧
        p.toNat % 256 ≤ q.toNat % 256 := by
  obtain ⟨he, hi⟩ := firstQueued_spec cmn first
  obtain ⟨hf, hj⟩ := firstQueued_spec cmn second
  rw [UInt32.le_iff_toNat_le] at le
  have order : e ≤ f ↔ p.toNat % 256 ≤ q.toNat % 256 := by
    rw [UInt8.le_iff_toNat_le, he, hf]
  constructor
  · rintro ⟨asked, asked', -, priorities⟩
    refine ⟨?_, ?_, order.mp priorities⟩
    · unfold SameQueue
      omega
    · unfold SameQueue
      omega
  · rintro ⟨same, same', priorities⟩
    unfold SameQueue at same same'
    refine ⟨?_, ?_, ?_, order.mpr priorities⟩
    · omega
    · omega
    · omega

end Runs

/-! ### Two requests -/

/-- What `FirstQueued` asks of a run, computed. -/
def computesFirstQueue [DecidableEq ι] (config : Config) (priority : UInt32) (pid : UInt32)
    (as : List (Action ι)) (cpu : ι) (bs : List (Action ι)) (b : Action ι) (i : Nat)
    (e : UInt8) : Bool :=
  (exec (step config) (fun s _ => Unqueued config pid s) as initial).any fun s =>
    decide (s.currentMaxPid = pid ∧ Unqueued config pid s) &&
      (match (s.cpu cpu).toScheduler with
        | .processCreate asked _ :: _ => asked == priority
        | _ => false) &&
      (step config s (.handleCpu cpu)).any fun s' =>
        (exec (step config) (fun s _ => Unqueued config pid s) bs s').any fun t =>
          decide (Unqueued config pid t) && (step config t b).any fun u =>
            decide (i < config.queueAlgorithmsCount ∧ pid ∈ u.readyQueue i ∧
              (u.process pid).effectivePriority = e)

theorem firstQueued_of_computes [DecidableEq ι] {priority : UInt32} {as bs : List (Action ι)}
    {cpu : ι} {b : Action ι} {i : Nat} {e : UInt8}
    (computed : computesFirstQueue config priority pid as cpu bs b i e = true) :
    FirstQueued ι config priority i e := by
  unfold computesFirstQueue at computed
  obtain ⟨s, before, test⟩ := (Option.any_eq_true _ _).mp computed
  rw [Bool.and_eq_true, Bool.and_eq_true] at test
  obtain ⟨⟨here, request⟩, test⟩ := test
  obtain ⟨rfl, unqueued⟩ := of_decide_eq_true here
  obtain ⟨s', created, test⟩ := (Option.any_eq_true _ _).mp test
  obtain ⟨t, behind, test⟩ := (Option.any_eq_true _ _).mp test
  rw [Bool.and_eq_true] at test
  obtain ⟨waits, test⟩ := test
  obtain ⟨u, enters, test⟩ := (Option.any_eq_true _ _).mp test
  obtain ⟨queue, queued, rfl⟩ := of_decide_eq_true test
  split at request
  · rename_i asked path rest message
    obtain rfl := eq_of_beq request
    exact .intro (.of_exec before) unqueued message created (.of_exec behind)
      (of_decide_eq_true waits) enters queue queued
  · cases request

/-- The first process runs, and asks for another one. -/
def asks (priority : UInt32) : List (Action ℕ) :=
  [.process0 "p0", .memory (.serve (.ok true)), .handleMemory, .connectCpu 0, .wake, .schedule,
    .cpu 0 .execute, .cpu 0 (.initProc priority "p1")]

theorem firstQueued_of_asks {priority : UInt32} {i : Nat} {e : UInt8}
    (computed : computesFirstQueue levels priority 1 (asks priority) 0
      [.memory (.serve (.ok true))] .handleMemory i e = true) :
    FirstQueued ℕ levels priority i e :=
  firstQueued_of_computes computed

/-- The priorities `1` and `7`, of which the second one has the last of three queues. -/
theorem priority_respected_of_small : Respected levels.queueAlgorithmsCount 1 7 1 2 1 7 :=
  (priority_respected_iff rfl (by decide) (firstQueued_of_asks (by decide +kernel))
    (firstQueued_of_asks (by decide +kernel))).mpr (by decide)

/-- **A large number is urgent**: the priority `256` is in the first queue, and `255` in the
last one. -/
theorem urgent_by_overflow : ∃ i j e f, FirstQueued ℕ levels 255 i e ∧
    FirstQueued ℕ levels 256 j f ∧ j < i ∧ f < e ∧
      ¬ Respected levels.queueAlgorithmsCount 255 256 i j e f := by
  refine ⟨2, 0, 255, 0, firstQueued_of_asks (by decide +kernel),
    firstQueued_of_asks (by decide +kernel), by decide, by decide, ?_⟩
  intro respected
  exact absurd respected.queues (by decide)

end OsModel.KernelScheduler
