import OsModel.KernelScheduler.Handlers

/-!
What is under way on the connections of the Kernel Scheduler.

`Stage` is how far the eviction of a CPU is: none; `PROCESS_EVICT` under way; its
confirmation under way; `response_sem` posted; or handled by an `evict_all_processes`
that found no process. Nothing is sent to a CPU behind `PROCESS_EVICT`, so a CPU whose
eviction is confirmed has nothing left (`Stage.finished`). `Memory.requests` are the
requests to Kernel Memory that have not been answered, with their processes.
-/

namespace OsModel.KernelScheduler

/-! ### CPUs -/

/-- The process that a message to a CPU starts. -/
def ToCpu.pid : ToCpu → Option UInt32
  | .processExecute pid => some pid
  | .processEvict _ => none

/-- The process that a message from a CPU says has stopped. -/
def ToScheduler.pid : ToScheduler → Option UInt32
  | .syscall pid _ => some pid
  | .processCreate .. | .confirmation => none

/-- The message is a `PROCESS_EVICT`. -/
def ToCpu.isEvict : ToCpu → Bool
  | .processEvict _ => true
  | .processExecute _ => false

/-- How far an eviction is, from `is_evicting` and what is in the connection. -/
inductive Stage : Bool → List ToCpu → Option UInt32 → List ToScheduler → Nat → Prop where
  | calm {toCpu : List ToCpu} {running : Option UInt32} {toScheduler : List ToScheduler}
      (noEvict : ∀ order ∈ toCpu, order.isEvict = false)
      (noConfirmation : .confirmation ∉ toScheduler) : Stage false toCpu running toScheduler 0
  | asked {before : List ToCpu} {reason : InterruptReason} {running : Option UInt32}
      {toScheduler : List ToScheduler} (noEvict : ∀ order ∈ before, order.isEvict = false)
      (noConfirmation : .confirmation ∉ toScheduler) :
      Stage true (before ++ [.processEvict reason]) running toScheduler 0
  | answered {before : List ToScheduler} (noConfirmation : .confirmation ∉ before) :
      Stage true [] none (before ++ [.confirmation]) 0
  | confirmed : Stage true [] none [] 1
  | unhandled : Stage true [] none [] 0

namespace Stage

variable {evicting : Bool} {toCpu : List ToCpu} {running : Option UInt32}
  {toScheduler : List ToScheduler} {sem : Nat} {pid : UInt32}

/-- `PROCESS_EXECUTE` is sent to a CPU that is not being evicted. -/
theorem send (stage : Stage false toCpu running toScheduler sem) :
    Stage false (toCpu ++ [.processExecute pid]) running toScheduler sem := by
  cases stage with
  | calm noEvict noConfirmation =>
      refine .calm (fun order mem => ?_) noConfirmation
      rcases List.mem_append.mp mem with before | last
      · exact noEvict order before
      · obtain rfl := List.mem_singleton.mp last
        rfl

/-- `PROCESS_EVICT` is sent. -/
theorem evict (stage : Stage false toCpu running toScheduler sem) (reason : InterruptReason) :
    Stage true (toCpu ++ [.processEvict reason]) running toScheduler sem := by
  cases stage with
  | calm noEvict noConfirmation => exact .asked noEvict noConfirmation

/-- The CPU reads `PROCESS_EXECUTE`. -/
theorem execute (stage : Stage evicting (.processExecute pid :: toCpu) running toScheduler sem) :
    Stage evicting toCpu (some pid) toScheduler sem := by
  generalize orders : ToCpu.processExecute pid :: toCpu = before at stage
  cases stage with
  | calm noEvict noConfirmation =>
      subst orders
      exact .calm (fun order mem => noEvict order (List.mem_cons_of_mem _ mem)) noConfirmation
  | @asked before _ _ _ noEvict noConfirmation =>
      cases before with
      | nil => simp at orders
      | cons order before =>
          obtain ⟨-, rfl⟩ := List.cons.inj orders
          exact .asked (fun order mem => noEvict order (List.mem_cons_of_mem _ mem)) noConfirmation
  | answered | confirmed | unhandled => simp at orders

/-- A message that is no confirmation is sent by a process that runs. -/
theorem stop {message : ToScheduler} {now : Option UInt32}
    (stage : Stage evicting toCpu (some pid) toScheduler sem) (other : message ≠ .confirmation) :
    Stage evicting toCpu now (toScheduler ++ [message]) sem := by
  have none : .confirmation ∉ toScheduler → .confirmation ∉ toScheduler ++ [message] := by
    intro before mem
    rcases List.mem_append.mp mem with mem | last
    · exact before mem
    · exact other (List.mem_singleton.mp last).symm
  cases stage with
  | calm noEvict noConfirmation => exact .calm noEvict (none noConfirmation)
  | asked noEvict noConfirmation => exact .asked noEvict (none noConfirmation)

/-- The CPU reads `PROCESS_EVICT` and confirms. -/
theorem evicted {reason : InterruptReason}
    (stage : Stage evicting (.processEvict reason :: toCpu) running toScheduler sem) :
    evicting = true ∧ toCpu = [] ∧
      Stage evicting toCpu none (toScheduler ++ [.confirmation]) sem := by
  generalize orders : ToCpu.processEvict reason :: toCpu = before at stage
  cases stage with
  | calm noEvict =>
      subst orders
      exact absurd (noEvict _ List.mem_cons_self) (by simp [ToCpu.isEvict])
  | @asked before _ _ _ noEvict noConfirmation =>
      cases before with
      | nil =>
          obtain ⟨-, rfl⟩ := List.cons.inj orders
          exact ⟨rfl, rfl, .answered noConfirmation⟩
      | cons order before =>
          obtain ⟨rfl, -⟩ := List.cons.inj orders
          exact absurd (noEvict _ List.mem_cons_self) (by simp [ToCpu.isEvict])
  | answered | confirmed | unhandled => simp at orders

/-- `cpu_handler` reads a message that is no confirmation. -/
theorem handle {message : ToScheduler}
    (stage : Stage evicting toCpu running (message :: toScheduler) sem)
    (other : message ≠ .confirmation) : Stage evicting toCpu running toScheduler sem := by
  generalize messages : message :: toScheduler = before at stage
  cases stage with
  | calm noEvict noConfirmation =>
      subst messages
      exact .calm noEvict fun mem => noConfirmation (List.mem_cons_of_mem _ mem)
  | asked noEvict noConfirmation =>
      subst messages
      exact .asked noEvict fun mem => noConfirmation (List.mem_cons_of_mem _ mem)
  | @answered before noConfirmation =>
      cases before with
      | nil =>
          obtain ⟨rfl, -⟩ := List.cons.inj messages
          exact absurd rfl other
      | cons message before =>
          obtain ⟨-, rfl⟩ := List.cons.inj messages
          exact .answered fun mem => noConfirmation (List.mem_cons_of_mem _ mem)
  | confirmed | unhandled => simp at messages

/-- `cpu_handler` reads `CONFIRMATION`. -/
theorem post (stage : Stage evicting toCpu running (.confirmation :: toScheduler) sem) :
    Stage evicting toCpu running toScheduler (sem + 1) := by
  generalize messages : ToScheduler.confirmation :: toScheduler = before at stage
  cases stage with
  | calm _ noConfirmation | asked _ noConfirmation =>
      subst messages
      exact absurd List.mem_cons_self noConfirmation
  | @answered before noConfirmation =>
      cases before with
      | nil =>
          obtain ⟨-, rfl⟩ := List.cons.inj messages
          exact .confirmed
      | cons message before =>
          obtain ⟨rfl, -⟩ := List.cons.inj messages
          exact absurd List.mem_cons_self noConfirmation
  | confirmed | unhandled => simp at messages

/-- Once `response_sem` is posted the CPU has nothing left. -/
theorem finished (stage : Stage evicting toCpu running toScheduler sem) (posted : 0 < sem) :
    evicting = true ∧ toCpu = [] ∧ running = none ∧ toScheduler = [] ∧ sem = 1 := by
  cases stage with
  | calm | asked | answered | unhandled => simp at posted
  | confirmed => exact ⟨rfl, rfl, rfl, rfl, rfl⟩

end Stage

namespace Cpu

/-- The processes that a CPU has been sent, runs or has stopped. -/
def inFlight (c : Cpu) : List UInt32 :=
  c.toCpu.filterMap ToCpu.pid ++ c.running.toList ++ c.toScheduler.filterMap ToScheduler.pid

/-- What holds of a CPU and its connection. -/
structure Staged (c : Cpu) : Prop where
  stage : c.connection = .connected →
    Stage c.isEvicting c.toCpu c.running c.toScheduler c.responseSem
  gone : c.connection ≠ .connected → c.toCpu = [] ∧ c.running = none ∧ c.toScheduler = []

variable {c now : Cpu} {pid : UInt32}

theorem staged_absent : Cpu.absent.Staged where
  stage := nofun
  gone _ := ⟨rfl, rfl, rfl⟩

theorem staged_create : Cpu.create.Staged where
  stage _ := .calm (by simp [create, absent]) (by simp [create, absent])
  gone ne := absurd rfl ne

namespace Staged

theorem inFlight_gone (staged : c.Staged) (gone : c.connection ≠ .connected) : c.inFlight = [] := by
  obtain ⟨toCpu, running, toScheduler⟩ := staged.gone gone
  simp [inFlight, toCpu, running, toScheduler]

/-- A CPU with something under way is connected. -/
theorem connected (staged : c.Staged) (mem : pid ∈ c.inFlight) : c.connection = .connected := by
  by_contra gone
  rw [staged.inFlight_gone gone] at mem
  simp at mem

/-- Availability is not part of it. -/
theorem available (staged : c.Staged) (isAvailable : Bool) :
    ({ c with isAvailable } : Cpu).Staged :=
  ⟨staged.stage, staged.gone⟩

theorem send (staged : c.Staged) (connected : c.connection = .connected)
    (calm : c.isEvicting = false) :
    ({ c with toCpu := c.toCpu ++ [.processExecute pid] } : Cpu).Staged where
  stage _ := by
    have stage := staged.stage connected
    rw [calm] at stage
    show Stage c.isEvicting _ _ _ _
    rw [calm]
    exact stage.send
  gone ne := absurd connected ne

theorem evict (staged : c.Staged) (connected : c.connection = .connected)
    (calm : c.isEvicting = false) (reason : InterruptReason) (evictor : Option Evictor) :
    ({ c with
      isEvicting := true
      evictor := evictor
      toCpu := c.toCpu ++ [.processEvict reason] } : Cpu).Staged where
  stage _ := by
    have stage := staged.stage connected
    rw [calm] at stage
    exact stage.evict reason
  gone ne := absurd connected ne

/-- An eviction that is over. -/
theorem confirm (staged : c.Staged) (connected : c.connection = .connected)
    (posted : 0 < c.responseSem) : c.confirmed.Staged ∧ c.inFlight = [] := by
  obtain ⟨-, toCpu, running, toScheduler, sem⟩ := (staged.stage connected).finished posted
  refine ⟨⟨fun _ => ?_, fun ne => absurd connected ne⟩, ?_⟩
  · simp only [confirmed, toCpu, running, toScheduler, sem]
    exact .calm (by simp) (by simp)
  · simp [inFlight, toCpu, running, toScheduler]

/-- An eviction that `evict_all_processes` has not handled. -/
theorem unhandled (staged : c.Staged) (connected : c.connection = .connected)
    (posted : 0 < c.responseSem) :
    ({ c with responseSem := c.responseSem - 1, evictor := none } : Cpu).Staged where
  stage _ := by
    obtain ⟨evicting, toCpu, running, toScheduler, sem⟩ := (staged.stage connected).finished posted
    simp only [evicting, toCpu, running, toScheduler, sem]
    exact .unhandled
  gone ne := absurd connected ne

/-- A CPU goes, when everything it has sent has been handled. -/
theorem close (noMessages : c.toScheduler = []) :
    ({ c with connection := .closed, toCpu := [], running := none } : Cpu).Staged where
  stage := nofun
  gone _ := ⟨rfl, rfl, noMessages⟩

/-- A CPU does something: it keeps what it has, or its eviction stops the process
that runs. -/
theorem step {st : CpuStep} (staged : c.Staged) (taken : c.step st = some now) :
    now.Staged ∧ now = { c with
      toCpu := now.toCpu, running := now.running, toScheduler := now.toScheduler } ∧
    ∃ lost : Option UInt32, c.inFlight.Perm (lost.toList ++ now.inFlight) ∧
      (lost ≠ none → c.isEvicting = true) := by
  have gone : c.toCpu ≠ [] ∨ c.running ≠ none → c.connection = .connected := by
    intro some
    by_contra closed
    obtain ⟨toCpu, running, -⟩ := staged.gone closed
    exact some.elim (absurd toCpu) (absurd running)
  cases st with
  | execute =>
      simp only [Cpu.step] at taken
      split at taken
      · rename_i pid rest toCpu running
        obtain rfl := Option.some.inj taken
        have connected := gone (.inl (by simp [toCpu]))
        refine ⟨⟨fun _ => ?_, fun ne => absurd connected ne⟩, rfl, none, ?_, nofun⟩
        · have stage := staged.stage connected
          rw [toCpu] at stage
          exact stage.execute
        · simp only [inFlight, toCpu, running]
          simpa [ToCpu.pid] using (List.perm_middle (a := pid)).symm
      · simp at taken
  | initProc priority path =>
      simp only [Cpu.step] at taken
      split at taken
      · simp at taken
      · rename_i pid running
        obtain rfl := Option.some.inj taken
        have connected := gone (.inr (by simp [running]))
        refine ⟨⟨fun _ => ?_, fun ne => absurd connected ne⟩, rfl, none, ?_, nofun⟩
        · have stage := staged.stage connected
          rw [running] at stage
          exact stage.stop nofun
        · simp [inFlight, ToScheduler.pid, List.filterMap_cons]
  | stop syscall =>
      simp only [Cpu.step] at taken
      split at taken
      · simp at taken
      · rename_i pid running
        obtain rfl := Option.some.inj taken
        have connected := gone (.inr (by simp [running]))
        refine ⟨⟨fun _ => ?_, fun ne => absurd connected ne⟩, rfl, none, ?_, nofun⟩
        · have stage := staged.stage connected
          rw [running] at stage
          exact stage.stop nofun
        · simp only [inFlight, running, Option.toList_some, Option.toList_none, List.nil_append,
            List.append_nil, List.filterMap_append, List.append_assoc]
          exact (List.perm_append_singleton pid _).symm.append_left _
  | evict =>
      simp only [Cpu.step] at taken
      split at taken
      · rename_i reason rest toCpu
        obtain rfl := Option.some.inj taken
        have connected := gone (.inl (by simp [toCpu]))
        have stage := staged.stage connected
        rw [toCpu] at stage
        obtain ⟨evicting, rfl, stage'⟩ := stage.evicted
        refine ⟨⟨fun _ => stage', fun ne => absurd connected ne⟩, rfl, c.running, ?_,
          fun _ => evicting⟩
        simp [inFlight, toCpu, ToCpu.pid, ToScheduler.pid, List.filterMap_cons]
      · simp at taken

end Staged

end Cpu

/-! ### Kernel Memory -/

/-- The kinds of requests that are answered. -/
inductive Request where
  | create
  | segment
  | access
  deriving DecidableEq, Repr

/-- The process that a message to Kernel Memory asks something for. -/
def ToMemory.request : ToMemory → Option (UInt32 × Request)
  | .processCreate pid _ => some (pid, .create)
  | .segmentCreate pid _ _ | .segmentDelete pid _ => some (pid, .segment)
  | .ioMemoryRead pid _ _ | .ioMemoryWrite pid _ _ _ => some (pid, .access)
  | _ => none

/-- The process that a message from Kernel Memory answers for. -/
def FromMemory.request : FromMemory → Option (UInt32 × Request)
  | .processCreate pid => some (pid, .create)
  | .segmentResult pid _ _ => some (pid, .segment)
  | .ioMemoryRead pid _ | .ioMemoryWrite pid _ => some (pid, .access)
  | _ => none

namespace Memory

/-- The requests whose answer the scheduler has not handled. -/
def requests (m : Memory) : List (UInt32 × Request) :=
  m.toMemory.filterMap ToMemory.request ++
    m.segmentThreads.map (fun thread => (thread.1, .segment)) ++
    m.fromMemory.filterMap FromMemory.request

variable {m now : Memory}

/-- An answer. -/
theorem requests_send {answer : FromMemory} {r : UInt32 × Request} (eq : answer.request = some r) :
    (r :: m.requests).Perm (m.send answer).requests := by
  simp only [requests, send, List.filterMap_append, List.filterMap_cons, eq,
    List.filterMap_nil, ← List.append_assoc]
  exact (List.perm_append_singleton r _).symm

/-- A request that has been read is answered for, or it was the creation of a
process. -/
theorem requests_serve {message : ToMemory} {answer : Answer}
    (taken : m.serve message answer = some now) :
    ∃ lost : Option UInt32, (message.request.toList ++ m.requests).Perm
      (lost.toList.map (fun pid => (pid, .create)) ++ now.requests) := by
  cases message with
  | processCreate pid path =>
      cases answer with
      | ok ok =>
          cases ok with
          | true =>
              obtain rfl := Option.some.inj taken
              exact ⟨none, requests_send rfl⟩
          | false =>
              obtain rfl := Option.some.inj taken
              exact ⟨some pid, .refl _⟩
      | result | value | desuspended => cases taken
  | processEnd pid =>
      obtain rfl := Option.some.inj taken
      exact ⟨none, .refl _⟩
  | segmentCreate pid segmentId segmentSize =>
      obtain rfl := Option.some.inj taken
      refine ⟨none, ?_⟩
      simp only [requests, ToMemory.request, Option.toList_some, Option.toList_none, List.map_nil,
        List.nil_append, List.map_append, List.map_cons, List.singleton_append]
      rw [← List.append_assoc (List.filterMap _ _), List.append_assoc _ [_]]
      exact List.perm_middle.symm
  | segmentDelete pid segmentId =>
      cases answer with
      | result result =>
          obtain rfl := Option.some.inj taken
          exact ⟨none, requests_send rfl⟩
      | ok | value | desuspended => cases taken
  | ioMemoryRead pid physicalAddress size =>
      cases answer with
      | value value =>
          obtain rfl := Option.some.inj taken
          exact ⟨none, requests_send rfl⟩
      | ok | result | desuspended => cases taken
  | ioMemoryWrite pid physicalAddress size data =>
      cases answer with
      | ok ok =>
          obtain rfl := Option.some.inj taken
          exact ⟨none, requests_send rfl⟩
      | result | value | desuspended => cases taken
  | swapOut pid =>
      cases answer with
      | ok ok =>
          obtain rfl := Option.some.inj taken
          refine ⟨none, ?_⟩
          simp [requests, send, ToMemory.request, FromMemory.request, List.filterMap_cons]
      | result | value | desuspended => cases taken
  | swapIn pids =>
      cases answer with
      | desuspended oks =>
          obtain rfl := Option.some.inj taken
          refine ⟨none, ?_⟩
          simp [requests, send, ToMemory.request, FromMemory.request, List.filterMap_cons]
      | ok | result | value => cases taken
  | compactionReady =>
      obtain rfl := Option.some.inj taken
      exact ⟨none, .refl _⟩

/-- A step of Kernel Memory loses no request but the creation of a process. -/
theorem requests_step {st : MemoryStep} (taken : m.step st = some now) :
    ∃ lost : Option UInt32, m.requests.Perm
      (lost.toList.map (fun pid => (pid, .create)) ++ now.requests) := by
  have unasked : ∀ {m : Memory} {answer : FromMemory}, answer.request = none →
      m.requests.Perm (m.send answer).requests := by
    intro m answer eq
    simp [requests, send, eq]
  cases st with
  | serve answer =>
      simp only [step] at taken
      split at taken
      · simp at taken
      · rename_i message rest toMemory
        obtain ⟨lost, perm⟩ := requests_serve taken
        refine ⟨lost, List.Perm.trans (.of_eq ?_) perm⟩
        cases asked : message.request <;> simp [requests, toMemory, asked]
  | segmentCreated i result =>
      simp only [step] at taken
      split at taken
      · simp at taken
      · rename_i pid segmentId found
        obtain rfl := Option.some.inj taken
        obtain ⟨inside, thread⟩ := List.getElem?_eq_some_iff.mp found
        have ended := List.getElem_cons_eraseIdx_perm inside
        rw [thread] at ended
        refine ⟨none, List.Perm.trans ?_ (requests_send rfl)⟩
        exact (((ended.symm.map _).append_left _).append_right _).trans
          ((List.perm_middle.append_right _).trans (.of_eq rfl))
  | memoryUpdate | corruptedMemory =>
      obtain rfl := Option.some.inj taken
      exact ⟨none, unasked rfl⟩
  | compactionRequest =>
      simp only [step] at taken
      split at taken
      · simp at taken
      · obtain rfl := Option.some.inj taken
        exact ⟨none, unasked rfl⟩
  | compactionFinished =>
      simp only [step] at taken
      split at taken
      · obtain rfl := Option.some.inj taken
        exact ⟨none, unasked rfl⟩
      · simp at taken

theorem serve_toMemory {message : ToMemory} {answer : Answer}
    (taken : m.serve message answer = some now) : now.toMemory = m.toMemory := by
  cases message with
  | processCreate pid path =>
      cases answer with
      | ok ok =>
          obtain rfl := Option.some.inj taken
          cases ok <;> rfl
      | result | value | desuspended => cases taken
  | processEnd | segmentCreate | compactionReady =>
      obtain rfl := Option.some.inj taken
      rfl
  | segmentDelete | ioMemoryRead | ioMemoryWrite | swapOut | swapIn =>
      cases answer
      all_goals first | cases taken; done | (obtain rfl := Option.some.inj taken; rfl)

/-- Kernel Memory only reads what it is sent. -/
theorem step_toMemory {st : MemoryStep} (taken : m.step st = some now) :
    ∀ message ∈ now.toMemory, message ∈ m.toMemory := by
  intro other mem
  cases st with
  | serve answer =>
      simp only [step] at taken
      split at taken
      · simp at taken
      · rename_i message rest toMemory
        rw [serve_toMemory taken] at mem
        rw [toMemory]
        exact List.mem_cons_of_mem _ mem
  | segmentCreated i result =>
      simp only [step] at taken
      split at taken
      · simp at taken
      · obtain rfl := Option.some.inj taken
        exact mem
  | memoryUpdate | corruptedMemory =>
      obtain rfl := Option.some.inj taken
      exact mem
  | compactionRequest | compactionFinished =>
      simp only [step] at taken
      split at taken
      all_goals
        simp at taken
        try (subst taken; exact mem)

end Memory

end OsModel.KernelScheduler
