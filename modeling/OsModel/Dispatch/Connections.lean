import OsModel.Dispatch.State

/-!
A CPU and its connection.

`Stage` is how far an eviction is: not sent; `PROCESS_EVICT` under way; its
confirmation under way; `response_sem` posted. When nothing is sent to a CPU behind
`PROCESS_EVICT`, a CPU whose eviction is confirmed has nothing left to run
(`Stage.finished`). `Cpu.Ordered` adds that every process the CPU has been sent, runs or
has stopped is `outstanding`; there is one lemma for each thing that happens to a
CPU.
-/

namespace OsModel.Dispatch

/-! ### Evictions under way -/

/-- How far an eviction is, from what is in the connection. -/
inductive Stage : Bool → List ToCpu → Option UInt32 → List ToScheduler → Nat → Prop where
  | calm {toCpu : List ToCpu} {running : Option UInt32} {toScheduler : List ToScheduler}
      (noEvict : .processEvict ∉ toCpu) (noConfirmation : .confirmation ∉ toScheduler) :
      Stage false toCpu running toScheduler 0
  | asked {before : List ToCpu} {running : Option UInt32} {toScheduler : List ToScheduler}
      (noEvict : .processEvict ∉ before) (noConfirmation : .confirmation ∉ toScheduler) :
      Stage true (before ++ [.processEvict]) running toScheduler 0
  | answered {before : List ToScheduler} (noConfirmation : .confirmation ∉ before) :
      Stage true [] none (before ++ [.confirmation]) 0
  | confirmed : Stage true [] none [] 1

namespace Stage

variable {sent : Bool} {toCpu : List ToCpu} {running : Option UInt32}
  {toScheduler : List ToScheduler} {sem : Nat} {pid : UInt32}

/-- `PROCESS_EXECUTE` is sent to a CPU that is not being evicted. -/
theorem send (stage : Stage false toCpu running toScheduler sem) :
    Stage false (toCpu ++ [.processExecute pid]) running toScheduler sem := by
  cases stage with
  | calm noEvict noConfirmation => exact .calm (by simpa using noEvict) noConfirmation

/-- `PROCESS_EVICT` is sent. -/
theorem evict (stage : Stage false toCpu running toScheduler sem) :
    Stage true (toCpu ++ [.processEvict]) running toScheduler sem := by
  cases stage with
  | calm noEvict noConfirmation => exact .asked noEvict noConfirmation

/-- The CPU reads `PROCESS_EXECUTE`. -/
theorem execute (stage : Stage sent (.processExecute pid :: toCpu) running toScheduler sem) :
    Stage sent toCpu (some pid) toScheduler sem := by
  generalize orders : ToCpu.processExecute pid :: toCpu = before at stage
  cases stage with
  | calm noEvict noConfirmation =>
      subst orders
      exact .calm (by simpa using noEvict) noConfirmation
  | @asked before _ _ noEvict noConfirmation =>
      cases before with
      | nil => simp at orders
      | cons order before =>
          obtain ⟨-, rfl⟩ := List.cons.inj orders
          exact .asked (fun mem => noEvict (List.mem_cons_of_mem _ mem)) noConfirmation
  | answered => simp at orders
  | confirmed => simp at orders

/-- The process on the CPU stops with a syscall. -/
theorem stop {syscall : Syscall} (stage : Stage sent toCpu (some pid) toScheduler sem) :
    Stage sent toCpu none (toScheduler ++ [.syscall pid syscall]) sem := by
  cases stage with
  | calm noEvict noConfirmation => exact .calm noEvict (by simpa using noConfirmation)
  | asked noEvict noConfirmation => exact .asked noEvict (by simpa using noConfirmation)

/-- The CPU reads `PROCESS_EVICT` and confirms. -/
theorem evicted (stage : Stage sent (.processEvict :: toCpu) running toScheduler sem) :
    Stage sent toCpu none (toScheduler ++ [.confirmation]) sem := by
  generalize orders : ToCpu.processEvict :: toCpu = before at stage
  cases stage with
  | calm noEvict =>
      subst orders
      simp at noEvict
  | @asked before _ _ noEvict noConfirmation =>
      cases before with
      | nil =>
          obtain ⟨-, rfl⟩ := List.cons.inj orders
          exact .answered noConfirmation
      | cons order before =>
          obtain ⟨rfl, -⟩ := List.cons.inj orders
          simp at noEvict
  | answered => simp at orders
  | confirmed => simp at orders

/-- `cpu_handler` reads a syscall. -/
theorem handle {syscall : Syscall}
    (stage : Stage sent toCpu running (.syscall pid syscall :: toScheduler) sem) :
    Stage sent toCpu running toScheduler sem := by
  generalize messages : ToScheduler.syscall pid syscall :: toScheduler = before at stage
  cases stage with
  | calm noEvict noConfirmation =>
      subst messages
      exact .calm noEvict (by simpa using noConfirmation)
  | asked noEvict noConfirmation =>
      subst messages
      exact .asked noEvict (by simpa using noConfirmation)
  | @answered before noConfirmation =>
      cases before with
      | nil => simp at messages
      | cons message before =>
          obtain ⟨-, rfl⟩ := List.cons.inj messages
          exact .answered (fun mem => noConfirmation (List.mem_cons_of_mem _ mem))
  | confirmed => simp at messages

/-- `cpu_handler` reads `CONFIRMATION`. -/
theorem post (stage : Stage sent toCpu running (.confirmation :: toScheduler) sem) :
    Stage sent toCpu running toScheduler (sem + 1) := by
  generalize messages : ToScheduler.confirmation :: toScheduler = before at stage
  cases stage with
  | calm _ noConfirmation =>
      subst messages
      simp at noConfirmation
  | asked _ noConfirmation =>
      subst messages
      simp at noConfirmation
  | @answered before noConfirmation =>
      cases before with
      | nil =>
          obtain ⟨-, rfl⟩ := List.cons.inj messages
          exact .confirmed
      | cons message before =>
          obtain ⟨rfl, -⟩ := List.cons.inj messages
          simp at noConfirmation
  | confirmed => simp at messages

/-- Once `response_sem` is posted the CPU has nothing left to run. -/
theorem finished (stage : Stage sent toCpu running toScheduler sem) (posted : 0 < sem) :
    toCpu = [] ∧ running = none ∧ toScheduler = [] ∧ sem = 1 := by
  cases stage with
  | calm | asked | answered => simp at posted
  | confirmed => exact ⟨rfl, rfl, rfl, rfl⟩

end Stage

/-! ### What a CPU has -/

/-- The process that a message to a CPU starts. -/
def ToCpu.pid : ToCpu → Option UInt32
  | .processExecute pid => some pid
  | .processEvict => none

/-- The process that a message from a CPU says has stopped. -/
def ToScheduler.pid : ToScheduler → Option UInt32
  | .syscall pid _ => some pid
  | .confirmation => none

namespace Cpu

/-- The processes that a CPU has been sent, runs or has stopped. -/
def inFlight (cpu : Cpu) : List UInt32 :=
  cpu.toCpu.filterMap ToCpu.pid ++ cpu.running.toList ++ cpu.toScheduler.filterMap ToScheduler.pid

/-- `PROCESS_EVICT` has been sent, and its confirmation not been handled. -/
def evictSent (cpu : Cpu) : Bool := cpu.evictor.any Evictor.sent

/-- What holds of a CPU and its connection. -/
structure Ordered (cpu : Cpu) : Prop where
  known : ∀ pid ∈ cpu.inFlight, pid ∈ cpu.outstanding
  nodup : cpu.inFlight.Nodup
  stage : cpu.connection = .connected →
    Stage cpu.evictSent cpu.toCpu cpu.running cpu.toScheduler cpu.responseSem
  evicting : cpu.evictor ≠ none → cpu.isEvicting = true
  absent : cpu.connection ≠ .connected → cpu.outstanding = []

variable {cpu : Cpu} {pid : UInt32}

theorem ordered_absent : Cpu.absent.Ordered where
  known := by simp [Cpu.absent, inFlight]
  nodup := by simp [Cpu.absent, inFlight]
  stage := by simp [Cpu.absent]
  evicting := by simp [Cpu.absent]
  absent _ := rfl

theorem ordered_create : Cpu.create.Ordered where
  known := by simp [Cpu.create, Cpu.absent, inFlight]
  nodup := by simp [Cpu.create, Cpu.absent, inFlight]
  stage _ := .calm (by simp [Cpu.create, Cpu.absent]) (by simp [Cpu.create, Cpu.absent])
  evicting := by simp [Cpu.create, Cpu.absent]
  absent := by simp [Cpu.create]

namespace Ordered

/-- Availability is not part of it. -/
theorem available (ordered : cpu.Ordered) (isAvailable : Bool) :
    ({ cpu with isAvailable } : Cpu).Ordered :=
  ⟨ordered.known, ordered.nodup, ordered.stage, ordered.evicting, ordered.absent⟩

theorem unsent (ordered : cpu.Ordered) (free : cpu.isEvicting = false) :
    cpu.evictSent = false := by
  cases eq : cpu.evictor with
  | none => simp [evictSent, eq]
  | some evictor =>
      have evicting := ordered.evicting (by simp [eq])
      simp [free] at evicting

/-- `is_evicting` is set. -/
theorem mark (ordered : cpu.Ordered) (free : cpu.isEvicting = false) (all : Bool) :
    ({ cpu with isEvicting := true, evictor := some ⟨all, false⟩ } : Cpu).Ordered := by
  have stage := ordered.stage
  rw [ordered.unsent free] at stage
  exact ⟨ordered.known, ordered.nodup, stage, fun _ => rfl, ordered.absent⟩

/-- `PROCESS_EXECUTE` is sent. -/
theorem send (ordered : cpu.Ordered) (connected : cpu.connection = .connected)
    (unsent : cpu.evictSent = false) (new : pid ∉ cpu.outstanding) :
    ({ cpu with
      toCpu := cpu.toCpu ++ [.processExecute pid]
      outstanding := cpu.outstanding ++ [pid] } : Cpu).Ordered := by
  have perm : (({ cpu with
      toCpu := cpu.toCpu ++ [.processExecute pid]
      outstanding := cpu.outstanding ++ [pid] } : Cpu).inFlight).Perm (pid :: cpu.inFlight) := by
    simp only [inFlight, List.filterMap_append, List.filterMap_cons, ToCpu.pid, List.filterMap_nil,
      List.append_assoc, List.singleton_append]
    exact List.perm_middle
  constructor
  · intro other mem
    rcases List.mem_cons.mp (perm.mem_iff.mp mem) with rfl | before
    · simp
    · exact List.mem_append_left _ (ordered.known other before)
  · rw [perm.nodup_iff, List.nodup_cons]
    exact ⟨fun mem => new (ordered.known pid mem), ordered.nodup⟩
  · intro _
    have stage := ordered.stage connected
    rw [unsent] at stage
    have sent : Stage false (cpu.toCpu ++ [.processExecute pid]) cpu.running cpu.toScheduler
        cpu.responseSem := stage.send
    rwa [← unsent] at sent
  · exact ordered.evicting
  · exact fun closed => absurd connected closed

/-- `PROCESS_EVICT` is sent. -/
theorem evict (ordered : cpu.Ordered) {all : Bool} (marked : cpu.evictor = some ⟨all, false⟩) :
    ({ cpu with
      toCpu := cpu.toCpu ++ [.processEvict]
      evictor := some ⟨all, true⟩ } : Cpu).Ordered := by
  have same : ({ cpu with
      toCpu := cpu.toCpu ++ [.processEvict]
      evictor := some ⟨all, true⟩ } : Cpu).inFlight = cpu.inFlight := by
    simp [inFlight, ToCpu.pid]
  constructor
  · rw [same]
    exact ordered.known
  · rw [same]
    exact ordered.nodup
  · intro connected
    have stage := ordered.stage connected
    rw [show cpu.evictSent = false by simp [evictSent, marked]] at stage
    exact stage.evict
  · exact fun _ => ordered.evicting (by simp [marked])
  · exact ordered.absent

/-- The CPU moves on with what it has. -/
theorem move {now : Cpu} (ordered : cpu.Ordered)
    (same : now.inFlight.Subperm cpu.inFlight) (outstanding : now.outstanding = cpu.outstanding)
    (stage : cpu.connection = .connected →
      Stage now.evictSent now.toCpu now.running now.toScheduler now.responseSem)
    (evictor : now.evictor = cpu.evictor) (evicting : now.isEvicting = cpu.isEvicting)
    (connection : now.connection = cpu.connection) : now.Ordered := by
  constructor
  · rw [outstanding]
    exact fun other mem => ordered.known other (same.subset mem)
  · obtain ⟨l, perm, sublist⟩ := same
    exact perm.nodup_iff.mp (ordered.nodup.sublist sublist)
  · rwa [connection]
  · rw [evictor, evicting]
    exact ordered.evicting
  · rw [connection, outstanding]
    exact ordered.absent

/-- The CPU reads `PROCESS_EXECUTE`. -/
theorem execute {rest : List ToCpu} (ordered : cpu.Ordered)
    (orders : cpu.toCpu = .processExecute pid :: rest) (free : cpu.running = none) :
    ({ cpu with toCpu := rest, running := some pid } : Cpu).Ordered := by
  refine ordered.move (List.Perm.subperm ?_) rfl (fun connected => ?_) rfl rfl rfl
  · simp only [inFlight, orders, free, List.filterMap_cons, ToCpu.pid, Option.toList_none,
      Option.toList_some, List.append_nil, List.cons_append, List.append_assoc, List.nil_append]
    exact List.perm_middle
  · have stage := ordered.stage connected
    rw [orders] at stage
    exact stage.execute

/-- The process on the CPU stops with a syscall. -/
theorem stop {syscall : Syscall} (ordered : cpu.Ordered) (running : cpu.running = some pid) :
    ({ cpu with
      running := none
      toScheduler := cpu.toScheduler ++ [.syscall pid syscall] } : Cpu).Ordered := by
  refine ordered.move (List.Perm.subperm ?_) rfl (fun connected => ?_) rfl rfl rfl
  · simp only [inFlight, running, List.filterMap_append, List.filterMap_cons, ToScheduler.pid,
      List.filterMap_nil, Option.toList_none, Option.toList_some, List.append_nil,
      List.append_assoc]
    exact List.Perm.append_left _ List.perm_append_comm
  · have stage := ordered.stage connected
    rw [running] at stage
    exact stage.stop

/-- The CPU reads `PROCESS_EVICT` and confirms. -/
theorem evicted {rest : List ToCpu} (ordered : cpu.Ordered)
    (orders : cpu.toCpu = .processEvict :: rest) :
    ({ cpu with
      toCpu := rest
      running := none
      toScheduler := cpu.toScheduler ++ [.confirmation] } : Cpu).Ordered := by
  refine ordered.move (List.Sublist.subperm ?_) rfl (fun connected => ?_) rfl rfl rfl
  · simp only [inFlight, orders, List.filterMap_append, List.filterMap_cons, ToCpu.pid,
      ToScheduler.pid, List.filterMap_nil, Option.toList_none, List.append_nil, List.append_assoc]
    exact List.Sublist.append (List.Sublist.refl _) (List.sublist_append_right _ _)
  · have stage := ordered.stage connected
    rw [orders] at stage
    exact stage.evicted

/-- `cpu_handler` reads a syscall. -/
theorem handle {syscall : Syscall} {rest : List ToScheduler} (ordered : cpu.Ordered)
    (messages : cpu.toScheduler = .syscall pid syscall :: rest) :
    ({ cpu with
      toScheduler := rest
      outstanding := cpu.outstanding.erase pid } : Cpu).Ordered := by
  have perm : cpu.inFlight.Perm (pid :: ({ cpu with
      toScheduler := rest
      outstanding := cpu.outstanding.erase pid } : Cpu).inFlight) := by
    simp only [inFlight, messages, List.filterMap_cons, ToScheduler.pid]
    exact List.perm_middle
  have nodup := perm.nodup_iff.mp ordered.nodup
  rw [List.nodup_cons] at nodup
  constructor
  · intro other mem
    have ne : other ≠ pid := fun eq => nodup.1 (eq ▸ mem)
    exact (List.mem_erase_of_ne ne).mpr
      (ordered.known other (perm.mem_iff.mpr (List.mem_cons_of_mem _ mem)))
  · exact nodup.2
  · intro connected
    have stage := ordered.stage connected
    rw [messages] at stage
    exact stage.handle
  · exact ordered.evicting
  · intro closed
    simp [ordered.absent closed]

/-- `cpu_handler` reads `CONFIRMATION`. -/
theorem post {rest : List ToScheduler} (ordered : cpu.Ordered)
    (messages : cpu.toScheduler = .confirmation :: rest) :
    ({ cpu with
      toScheduler := rest
      responseSem := cpu.responseSem + 1 } : Cpu).Ordered := by
  refine ordered.move (List.Perm.subperm (.of_eq ?_)) rfl (fun connected => ?_) rfl rfl rfl
  · simp [inFlight, messages, List.filterMap_cons, ToScheduler.pid]
  · have stage := ordered.stage connected
    rw [messages] at stage
    exact stage.post

/-- The CPU disconnects. -/
theorem close (ordered : cpu.Ordered) (noMessages : cpu.toScheduler = []) :
    ({ cpu with
      connection := .closed, toCpu := [], running := none, outstanding := [] } : Cpu).Ordered :=
  ⟨by simp [inFlight, noMessages], by simp [inFlight, noMessages], by simp, ordered.evicting,
    fun _ => rfl⟩

end Ordered

end Cpu

end OsModel.Dispatch
