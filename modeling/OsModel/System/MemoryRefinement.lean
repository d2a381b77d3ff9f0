import OsModel.KernelScheduler.Ends
import OsModel.Lib.Refinement
import OsModel.System.SwapTriggers

/-!
Kernel Memory is what the scheduler takes it for.

The steps of `KernelScheduler.step` say little about Kernel Memory: what it may answer, and that
it answers each request once at most. Here its own code is at the other end of the connection:
the handler, with the loop of `SWAP_IN`, the threads of `segment_create` with their compactions,
and the sticks that come and go.

* `memory_refines`: a run of both is a run of the scheduler's own model, so what holds in every
  run of that model holds of the scheduler beside Kernel Memory.
* `swap_lists_agree`: a process that runs, or could run, is not in swap, and when no message is
  under way, the lists of both components have the same processes.

The model answers a `SWAP_IN` in one step, and Kernel Memory goes through it process by process:
until the answer the model still has all of them in swap. The compactions that it allows are
those that may begin and those under way.
-/

namespace OsModel.SwapRequests

open Lib KernelMemory
open KernelScheduler (Ends desuspend)

/-! ### What the scheduler's model has of Kernel Memory -/

/-- The processes that are in swap. -/
def suspendedPids (s : State) : List UInt32 := s.listSuspendedProcesses.map SuspendedPcb.pid

/-- What a `segment_create_thread` has still to answer. -/
def unanswered (th : CreateThread) : Option (UInt32 × UInt32) :=
  match th.phase with
  | .done _ => none
  | _ => some (th.pid, th.segmentId)

/-- While the handler goes through a `SWAP_IN`, the request counts as not read, and its processes
are still in swap: of those that it has passed, some have come back. -/
inductive Serving : Option SwapIn → List UInt32 → List KernelScheduler.ToMemory → List UInt32 →
    Prop where
  | idle {now : List UInt32} : Serving none now [] now
  | swapIn {loop : SwapIn} {passed before now : List UInt32} {oks : List Bool} :
      oks.length = passed.length →
        desuspend passed oks before = (loop.desuspendedPids, now) →
          Serving (some loop) now [.swapIn (passed ++ loop.pids)] before

theorem Serving.begin {pids now : List UInt32} :
    Serving (some ⟨pids, []⟩) now [.swapIn pids] now := by
  have none : ([] : List Bool).length = ([] : List UInt32).length := rfl
  exact .swapIn none rfl

theorem Serving.of_idle {loop : Option SwapIn} {now : List UInt32} (idle : loop = none) :
    Serving loop now [] now := by
  subst idle
  exact .idle

section Relation

variable {ι : Type}

/-- Kernel Memory, as the scheduler's model has it. A compaction counts as allowed until it is
over. -/
def shown (s : System ι) (requests : List KernelScheduler.ToMemory) (before : List UInt32) :
    KernelScheduler.Memory where
  toMemory := requests ++ s.scheduler.memory.toMemory
  segmentThreads := s.creates.filterMap unanswered
  listSuspendedProcesses := before
  compactionSem := s.compactionSem + (compactions s.creates).length
  fromMemory := s.scheduler.memory.fromMemory

/-- The scheduler of the model is that of the system. -/
def Pictures (s : System ι) (t : KernelScheduler.State ι) : Prop :=
  ∃ requests before, Serving s.swapIn (suspendedPids s.memory) requests before ∧
    t = { s.scheduler with memory := shown s requests before }

/-- The steps of the scheduler, of the CPUs and of the IO devices. -/
def Action.own : Action ι → Option (KernelScheduler.Action ι)
  | .scheduler a => some a
  | _ => none

/-- The steps of the scheduler meet a guard. -/
def Guarded (ok : KernelScheduler.State ι → KernelScheduler.Action ι → Prop) (s : System ι)
    (a : Action ι) : Prop :=
  ∀ b ∈ a.own, ok s.scheduler b

instance {ok : KernelScheduler.State ι → KernelScheduler.Action ι → Prop}
    [∀ s a, Decidable (ok s a)] (s : System ι) (a : Action ι) : Decidable (Guarded ok s a) :=
  Option.decidableForallMem _

/-- A guard that does not look at the end of Kernel Memory, and leaves its steps alone. -/
structure Blind (ok : KernelScheduler.State ι → KernelScheduler.Action ι → Prop) : Prop where
  attached : ∀ s a (m : KernelScheduler.Memory), m.fromMemory = s.memory.fromMemory → ok s a →
    ok { s with memory := m } a
  memory : ∀ s now, ok s (.memory now)

/-- The steps of the model that are not those of Kernel Memory. -/
def ownAction : KernelScheduler.Action ι → Option (KernelScheduler.Action ι)
  | .memory _ => none
  | a => some a

end Relation

/-! ### Processes in swap -/

section Swap

variable {s s' : State} {pid : UInt32}

theorem desuspend_append {passed pids before : List UInt32} {oks more : List Bool}
    (length : oks.length = passed.length) :
    desuspend (passed ++ pids) (oks ++ more) before =
      ((desuspend passed oks before).1 ++ (desuspend pids more (desuspend passed oks before).2).1,
        (desuspend pids more (desuspend passed oks before).2).2) := by
  induction passed generalizing oks before with
  | nil =>
      obtain rfl := List.length_eq_zero_iff.mp length
      rfl
  | cons first rest ih =>
      cases oks with
      | nil => cases length
      | cons ok oks =>
          simp only [List.length_cons, Nat.add_right_cancel_iff] at length
          simp only [List.cons_append, desuspend, ih length]
          split <;> rfl

theorem suspendedPids_processSuspend {ok : Bool} (done : processSuspend s pid = some (ok, s')) :
    suspendedPids s' = if ok then suspendedPids s ++ [pid] else suspendedPids s := by
  unfold processSuspend at done
  split at done
  · obtain ⟨rfl, rfl⟩ := Prod.mk.inj (Option.some.inj done)
    rfl
  · split at done
    · cases done
    · split at done
      · obtain ⟨rfl, rfl⟩ := Prod.mk.inj (Option.some.inj done)
        rfl
      · obtain ⟨rfl, rfl⟩ := Prod.mk.inj (Option.some.inj done)
        exact List.map_append

theorem suspendedPids_processDesuspend {ok : Bool} (done : processDesuspend s pid = (ok, s')) :
    (ok = false ∧ suspendedPids s' = suspendedPids s) ∨
      (ok = true ∧ pid ∈ suspendedPids s ∧ suspendedPids s' = (suspendedPids s).erase pid) := by
  unfold processDesuspend at done
  split at done
  · obtain ⟨rfl, rfl⟩ := Prod.mk.inj done
    exact .inl ⟨rfl, rfl⟩
  · rename_i sp found
    split at done
    · obtain ⟨rfl, rfl⟩ := Prod.mk.inj done
      exact .inl ⟨rfl, rfl⟩
    · split at done
      · obtain ⟨rfl, rfl⟩ := Prod.mk.inj done
        exact .inl ⟨rfl, rfl⟩
      · obtain ⟨rfl, rfl⟩ := Prod.mk.inj done
        have same : sp.pid = pid := by simpa using List.find?_some found
        refine .inr ⟨rfl, List.mem_map.mpr ⟨sp, List.mem_of_find?_eq_some found, same⟩, ?_⟩
        rw [suspendedPids, suspendedPids, List.erase_eq_eraseP', List.eraseP_map]
        rfl

/-- A call of `process_desuspend`, as the model has it. -/
theorem desuspend_processDesuspend (s : State) (pid : UInt32) :
    desuspend [pid] [(processDesuspend s pid).1] (suspendedPids s) =
      (if (processDesuspend s pid).1 then [pid] else [],
        suspendedPids (processDesuspend s pid).2) := by
  cases done : processDesuspend s pid with | mk ok s' => ?_
  rcases suspendedPids_processDesuspend done with ⟨rfl, same⟩ | ⟨rfl, mem, gone⟩
  · simp [desuspend, same]
  · simp [desuspend, mem, gone]

theorem suspendedPids_segmentDelete (segmentId : UInt32) :
    suspendedPids (segmentDelete s pid segmentId).2 = suspendedPids s := by
  unfold segmentDelete
  split
  · rfl
  · split
    · rfl
    · split <;> rfl

theorem suspendedPids_processCreate (instructions : Option (List String)) :
    suspendedPids (processCreate s pid instructions) = suspendedPids s := by
  cases instructions <;> rfl

theorem suspendedPids_processEnd : suspendedPids (processEnd s pid) = suspendedPids s := rfl

/-- What Kernel Memory answers, the model lets it answer. -/
theorem handle_serve {files : String → Option (List String)} {heap : List UInt8}
    {request : KernelScheduler.ToMemory} {messages : List KernelScheduler.FromMemory}
    (done : handle files heap s request = some (messages, s')) :
    ∃ answer, ∀ m : KernelScheduler.Memory, m.listSuspendedProcesses = suspendedPids s →
      m.serve request answer = some { m with
        listSuspendedProcesses := suspendedPids s'
        fromMemory := m.fromMemory ++ messages } := by
  cases request with
  | processCreate pid path =>
      simp only [handle, Option.some.injEq, Prod.mk.injEq] at done
      obtain ⟨rfl, rfl⟩ := done
      refine ⟨.ok (files path).isSome, fun m same => ?_⟩
      rw [suspendedPids_processCreate, ← same]
      cases (files path).isSome with
      | true => rfl
      | false =>
          have none : m.fromMemory = m.fromMemory ++ [] := (List.append_nil _).symm
          exact congrArg (fun messages => some { m with fromMemory := messages }) none
  | processEnd pid =>
      simp only [handle, Option.some.injEq, Prod.mk.injEq] at done
      obtain ⟨rfl, rfl⟩ := done
      refine ⟨.ok true, fun m same => ?_⟩
      rw [suspendedPids_processEnd, ← same, List.append_nil]
      rfl
  | segmentCreate pid segmentId segmentSize => cases done
  | segmentDelete pid segmentId =>
      simp only [handle, Option.some.injEq, Prod.mk.injEq] at done
      obtain ⟨rfl, rfl⟩ := done
      refine ⟨.result (segmentDelete s pid segmentId).1, fun m same => ?_⟩
      rw [suspendedPids_segmentDelete, ← same]
      rfl
  | ioMemoryRead pid physicalAddress sizeToRead =>
      cases read : memoryRead s.devices physicalAddress sizeToRead with | mk data d => ?_
      have kept : suspendedPids { s with devices := d } = suspendedPids s := rfl
      cases data with
      | none =>
          simp only [handle, read, Option.some.injEq, Prod.mk.injEq] at done
          obtain ⟨rfl, rfl⟩ := done
          refine ⟨.value "", fun m same => ?_⟩
          rw [kept, ← same]
          rfl
      | some data =>
          simp only [handle, read] at done
          obtain ⟨text, -, sent⟩ := Option.map_eq_some_iff.mp done
          obtain ⟨rfl, rfl⟩ := Prod.mk.inj sent
          refine ⟨.value (Net.textOf text), fun m same => ?_⟩
          rw [kept, ← same]
          rfl
  | ioMemoryWrite pid physicalAddress sizeToWrite data =>
      simp only [handle, Option.some.injEq, Prod.mk.injEq] at done
      obtain ⟨rfl, rfl⟩ := done
      have kept : suspendedPids (ioMemoryWrite s physicalAddress sizeToWrite (bytesOf data)).2 =
          suspendedPids s := rfl
      refine ⟨.ok (ioMemoryWrite s physicalAddress sizeToWrite (bytesOf data)).1,
        fun m same => ?_⟩
      rw [kept, ← same]
      rfl
  | swapOut pid =>
      simp only [handle] at done
      obtain ⟨⟨ok, m'⟩, suspended, sent⟩ := Option.map_eq_some_iff.mp done
      obtain ⟨rfl, rfl⟩ := Prod.mk.inj sent
      refine ⟨.ok ok, fun m same => ?_⟩
      rw [suspendedPids_processSuspend suspended, ← same]
      rfl
  | swapIn pids => cases done
  | compactionReady => cases done

theorem serve_swapIn {m : KernelScheduler.Memory} {pids desuspended rest : List UInt32}
    {oks : List Bool}
    (done : desuspend pids oks m.listSuspendedProcesses = (desuspended, rest)) :
    m.serve (.swapIn pids) (.desuspended oks) =
      some ({ m with listSuspendedProcesses := rest }.send (.swapIn desuspended)) := by
  have served : m.serve (.swapIn pids) (.desuspended oks) =
      some ({ m with
        listSuspendedProcesses := (desuspend pids oks m.listSuspendedProcesses).2 }.send
          (.swapIn (desuspend pids oks m.listSuspendedProcesses).1)) := rfl
  rw [served, done]

end Swap

/-! ### Segment threads -/

section Threads

variable {α β : Type} {f : α → Option β} {l : List α} {i : ℕ} {a b : α}

theorem filterMap_set_same (here : l[i]? = some a) (same : f b = f a) :
    (l.set i b).filterMap f = l.filterMap f := by
  induction l generalizing i with
  | nil => rfl
  | cons first rest ih =>
      cases i with
      | zero =>
          obtain rfl := Option.some.inj here
          simp only [List.set_cons_zero, List.filterMap_cons, same]
      | succ i => simp only [List.set_cons_succ, List.filterMap_cons, ih here]

theorem filterMap_set_none {x : β} (here : l[i]? = some a) (had : f a = some x)
    (gone : f b = none) :
    ∃ j, (l.filterMap f)[j]? = some x ∧ (l.set i b).filterMap f = (l.filterMap f).eraseIdx j := by
  induction l generalizing i with
  | nil => cases here
  | cons first rest ih =>
      cases i with
      | zero =>
          obtain rfl := Option.some.inj here
          refine ⟨0, ?_, ?_⟩
          · rw [List.filterMap_cons_some had]
            rfl
          · rw [List.set_cons_zero, List.filterMap_cons_none gone, List.filterMap_cons_some had]
            rfl
      | succ i =>
          obtain ⟨j, found, erased⟩ := ih here
          rw [List.set_cons_succ]
          cases kept : f first with
          | none =>
              refine ⟨j, ?_, ?_⟩
              · rw [List.filterMap_cons_none kept, found]
              · rw [List.filterMap_cons_none kept, List.filterMap_cons_none kept, erased]
          | some y =>
              refine ⟨j + 1, ?_, ?_⟩
              · rw [List.filterMap_cons_some kept, List.getElem?_cons_succ, found]
              · rw [List.filterMap_cons_some kept, List.filterMap_cons_some kept, erased]
                rfl

theorem length_filterMap_set (here : l[i]? = some a) :
    ((l.set i b).filterMap f).length + (f a).toList.length =
      (l.filterMap f).length + (f b).toList.length := by
  have cons (c : α) (m : List α) :
      ((c :: m).filterMap f).length = (f c).toList.length + (m.filterMap f).length := by
    cases kept : f c with
    | none => simp [kept]
    | some y => simp [kept, Nat.add_comm]
  induction l generalizing i with
  | nil => cases here
  | cons first rest ih =>
      cases i with
      | zero =>
          obtain rfl := Option.some.inj here
          rw [List.set_cons_zero, cons, cons]
          omega
      | succ i =>
          have rest := ih here
          rw [List.set_cons_succ, cons, cons]
          omega

end Threads

section Creates

/-- It has asked for a compaction, or is in one. -/
def InCompaction (p : Phase) : Prop := p = .requested ∨ p.compacting.isSome = true

/-- What a step of a `segment_create_thread` is for the scheduler: it may ask for a compaction, be
in the one it has asked for, end it, or answer. -/
inductive Advances : Phase → Phase → Prop where
  | request : Advances .starting .requested
  | compact {p q : Phase} : InCompaction p → q.compacting.isSome = true → Advances p q
  | compacted {p : Phase} : InCompaction p → Advances p .retrying
  | choose {p : Phase} {base : UInt32} : p = .starting ∨ p = .retrying → Advances p (.chosen base)
  | answer {p : Phase} {result : SegmentResult} :
      p = .starting ∨ p = .retrying ∨ (∃ base, p = .chosen base) → Advances p (.done result)

theorem Advances.unfinished {p q : Phase} (advances : Advances p q) :
    ∀ result, p ≠ .done result := by
  rintro result rfl
  cases advances with
  | compact inside => rcases inside with asked | compacting <;> contradiction
  | compacted inside => rcases inside with asked | compacting <;> contradiction
  | choose free => rcases free with first | again <;> contradiction
  | answer free => rcases free with first | again | ⟨base, chosen⟩ <;> contradiction

theorem unanswered_eq {th : CreateThread} (unfinished : ∀ result, th.phase ≠ .done result) :
    unanswered th = some (th.pid, th.segmentId) := by
  unfold unanswered
  split
  · rename_i result answered
    exact absurd answered (unfinished result)
  · rfl

theorem Phase.length_compacting {p : Phase} (compacting : p.compacting.isSome = true) :
    p.compacting.toList.length = 1 := by
  rw [← Option.some_get compacting]
  rfl

/-- A step of a thread that is in a compaction, or may begin one: the compaction that was allowed
stays allowed until the thread is out of it. -/
theorem compactions_inside {creates : List CreateThread} {i sem : ℕ} {th : CreateThread}
    (phase : Phase) (here : creates[i]? = some th) (inside : InCompaction th.phase)
    (allowed : ¬ (th.phase = .requested ∧ sem = 0)) :
    0 < sem + (compactions creates).length ∧
      (if th.phase = .requested then sem - 1 else sem) +
          (compactions (creates.set i { th with phase })).length =
        sem + (compactions creates).length - 1 + phase.compacting.toList.length := by
  have counted : (compactions (creates.set i { th with phase })).length +
      th.phase.compacting.toList.length =
        (compactions creates).length + phase.compacting.toList.length :=
    length_filterMap_set here
  rcases inside with asked | compacting
  · have one : sem ≠ 0 := fun zero => allowed ⟨asked, zero⟩
    have none : th.phase.compacting.toList.length = 0 := by
      rw [asked]
      rfl
    rw [if_pos asked]
    omega
  · have other : th.phase ≠ .requested := by
      intro asked
      rw [asked] at compacting
      cases compacting
    have mine : 0 < (compactions creates).length :=
      List.length_pos_of_mem (List.mem_filterMap.mpr
        ⟨th, List.mem_of_getElem? here, (Option.some_get compacting).symm⟩)
    have one := Phase.length_compacting compacting
    rw [if_neg other]
    omega

/-- A step of any other thread. -/
theorem compactions_outside {creates : List CreateThread} {i sem : ℕ} {th : CreateThread}
    {phase : Phase} (here : creates[i]? = some th) (outside : ¬ InCompaction th.phase)
    (ends : phase.compacting = none) :
    (if th.phase = .requested then sem - 1 else sem) +
          (compactions (creates.set i { th with phase })).length =
        sem + (compactions creates).length := by
  have counted : (compactions (creates.set i { th with phase })).length +
      th.phase.compacting.toList.length =
        (compactions creates).length + phase.compacting.toList.length :=
    length_filterMap_set here
  have before : th.phase.compacting = none :=
    Option.not_isSome_iff_eq_none.mp fun compacting => outside (.inr compacting)
  rw [before, ends] at counted
  rw [if_neg fun asked => outside (.inl asked)]
  exact congrArg (sem + ·) counted

theorem not_inCompaction_of_free {p : Phase}
    (free : p = .starting ∨ p = .retrying ∨ ∃ base, p = .chosen base) : ¬ InCompaction p := by
  rintro (rfl | compacting)
  · rcases free with first | again | ⟨base, chosen⟩ <;> contradiction
  · rcases free with rfl | rfl | ⟨base, rfl⟩ <;> cases compacting

theorem scan_advances {s : State} {p phase : Phase} (inside : InCompaction p) :
    ∀ {todo cursor}, scan s todo cursor = some phase → Advances p phase := by
  intro todo
  induction todo with
  | nil =>
      intro cursor found
      obtain rfl := Option.some.inj found
      exact .compacted inside
  | cons ptr rest ih =>
      intro cursor found
      unfold scan at found
      split at found
      · cases found
      · split at found
        · obtain rfl := Option.some.inj found
          exact .compact inside rfl
        · exact ih found

theorem createStep_advances {s s' : State} {th : CreateThread} {phase : Phase}
    (taken : createStep s th = some (s', phase)) :
    Advances th.phase phase ∧ suspendedPids s' = suspendedPids s := by
  unfold createStep at taken
  cases at_phase : th.phase with
  | starting =>
      simp only [at_phase] at taken
      split at taken
      · obtain ⟨rfl, rfl⟩ := Prod.mk.inj (Option.some.inj taken)
        exact ⟨.answer (.inl rfl), rfl⟩
      · split at taken
        · obtain ⟨rfl, rfl⟩ := Prod.mk.inj (Option.some.inj taken)
          exact ⟨.choose (.inl rfl), rfl⟩
        · obtain ⟨rfl, rfl⟩ := Prod.mk.inj (Option.some.inj taken)
          exact ⟨.request, rfl⟩
  | requested =>
      simp only [at_phase] at taken
      obtain ⟨next, found, same⟩ := Option.map_eq_some_iff.mp taken
      obtain ⟨rfl, rfl⟩ := Prod.mk.inj same
      exact ⟨scan_advances (.inl rfl) found, rfl⟩
  | reading todo cursor =>
      simp only [at_phase] at taken
      split at taken
      · cases taken
      · obtain ⟨rfl, rfl⟩ := Prod.mk.inj (Option.some.inj taken)
        exact ⟨.compact (.inr rfl) rfl, rfl⟩
  | writing data todo cursor =>
      simp only [at_phase] at taken
      split at taken
      · obtain ⟨rfl, rfl⟩ := Prod.mk.inj (Option.some.inj taken)
        exact ⟨.compact (.inr rfl) rfl, rfl⟩
      · cases taken
      · obtain ⟨rfl, rfl⟩ := Prod.mk.inj (Option.some.inj taken)
        exact ⟨.compact (.inr rfl) rfl, rfl⟩
  | setting todo cursor =>
      simp only [at_phase] at taken
      split at taken
      · cases taken
      · obtain ⟨next, found, same⟩ := Option.map_eq_some_iff.mp taken
        obtain ⟨rfl, rfl⟩ := Prod.mk.inj same
        exact ⟨scan_advances (.inr rfl) found, rfl⟩
  | retrying =>
      simp only [at_phase] at taken
      split at taken
      · obtain ⟨rfl, rfl⟩ := Prod.mk.inj (Option.some.inj taken)
        exact ⟨.choose (.inr rfl), rfl⟩
      · obtain ⟨rfl, rfl⟩ := Prod.mk.inj (Option.some.inj taken)
        exact ⟨.answer (.inr (.inl rfl)), rfl⟩
  | chosen base =>
      simp only [at_phase] at taken
      split at taken
      · obtain ⟨rfl, rfl⟩ := Prod.mk.inj (Option.some.inj taken)
        exact ⟨.answer (.inr (.inr ⟨base, rfl⟩)), rfl⟩
      · obtain ⟨rfl, rfl⟩ := Prod.mk.inj (Option.some.inj taken)
        exact ⟨.answer (.inr (.inr ⟨base, rfl⟩)), rfl⟩
  | done result =>
      simp only [at_phase] at taken
      cases taken

end Creates

/-! ### Steps of the model -/

section Steps

variable {ι : Type} [DecidableEq ι] {config : KernelScheduler.Config} {s s' : System ι}
  {ok : KernelScheduler.State ι → KernelScheduler.Action ι → Prop}
  {requests : List KernelScheduler.ToMemory} {before : List UInt32}
  {seen : Option (KernelScheduler.Action ι)}

/-- Steps of the model lead from where it pictures `s` to where it pictures `s'`. -/
def Follows (config : KernelScheduler.Config)
    (ok : KernelScheduler.State ι → KernelScheduler.Action ι → Prop) (s : System ι)
    (requests : List KernelScheduler.ToMemory) (before : List UInt32)
    (seen : Option (KernelScheduler.Action ι)) (s' : System ι) : Prop :=
  ∃ bs t', Run (KernelScheduler.step config) ok
      { s.scheduler with memory := shown s requests before } bs t' ∧
    bs.filterMap ownAction = seen.toList ∧ Pictures s' t'

/-- A step of Kernel Memory that the scheduler's model does not have. -/
theorem Follows.hidden (requests' : List KernelScheduler.ToMemory) (before' : List UInt32)
    (serving : Serving s'.swapIn (suspendedPids s'.memory) requests' before')
    (scheduler : { s'.scheduler with memory := s.scheduler.memory } = s.scheduler)
    (same : shown s' requests' before' = shown s requests before) :
    Follows config ok s requests before none s' := by
  have still : { s'.scheduler with memory := shown s' requests' before' } =
      { s.scheduler with memory := shown s requests before } := by
    rw [same, ← scheduler]
  exact ⟨[], _, .refl _, rfl, requests', before', serving, still.symm⟩

/-- A step of Kernel Memory that the scheduler's model has. -/
theorem Follows.memory (blind : Blind ok) (requests' : List KernelScheduler.ToMemory) (before' : List UInt32)
    (now : KernelScheduler.MemoryStep)
    (serving : Serving s'.swapIn (suspendedPids s'.memory) requests' before')
    (scheduler : { s'.scheduler with memory := s.scheduler.memory } = s.scheduler)
    (taken : (shown s requests before).step now = some (shown s' requests' before')) :
    Follows config ok s requests before none s' := by
  have step : KernelScheduler.step config
      { s.scheduler with memory := shown s requests before } (.memory now) =
        some { s'.scheduler with memory := shown s' requests' before' } := by
    rw [KernelScheduler.step, taken, ← scheduler]
    rfl
  exact ⟨[.memory now], _, .single (blind.memory _ now) step, rfl, requests', before', serving, rfl⟩

/-- A step of the scheduler, of a CPU or of an IO device. -/
theorem follows_scheduler {a : KernelScheduler.Action ι} {scheduler : KernelScheduler.State ι}
    (blind : Blind ok) (serving : Serving s.swapIn (suspendedPids s.memory) requests before)
    (own : ∀ now, a ≠ .memory now) (guard : ok s.scheduler a)
    (taken : KernelScheduler.step config s.scheduler a = some scheduler) :
    Follows config ok s requests before (some a) { s with scheduler } := by
  have seen : ownAction a = some a := by
    cases a with
    | memory now => exact absurd rfl (own now)
    | _ => rfl
  have step : KernelScheduler.step config
      { s.scheduler with memory := shown s requests before } a =
        some { scheduler with memory := shown { s with scheduler } requests before } := by
    by_cases cpus : ∃ cpu now, a = .cpu cpu now
    · obtain ⟨cpu, now, rfl⟩ := cpus
      obtain ⟨c, turned, rfl⟩ := Option.map_eq_some_iff.mp taken
      simp only [KernelScheduler.step, turned]
      rfl
    · let far : Ends ι :=
        { Ends.none with
          requests
          segmentThreads := fun _ => s.creates.filterMap unanswered
          listSuspendedProcesses := fun _ => before
          compactionSem := fun _ => s.compactionSem + (compactions s.creates).length }
      have forgotten : ∀ cpu, far.forget cpu = far := by
        intro cpu
        simp [Ends.forget, far, Ends.none]
      have after : far.after a = far := by
        cases a with
        | connectCpu cpu => exact forgotten cpu
        | disconnectCpu cpu => exact forgotten cpu
        | _ => rfl
      have attached : KernelScheduler.step config (s.scheduler.attach far) a =
          (KernelScheduler.step config s.scheduler a).map
            (KernelScheduler.State.attach (far.after a)) :=
        KernelScheduler.step_attach (fun cpu now same => cpus ⟨cpu, now, same⟩) own
      rw [taken, after] at attached
      exact attached
  have guard' : ok { s.scheduler with memory := shown s requests before } a :=
    blind.attached _ _ _ rfl guard
  exact ⟨[a], _, .single guard' step, by simp [seen], requests, before, serving, rfl⟩

/-! ### Requests -/

omit [DecidableEq ι] in
/-- A request is read. -/
theorem shown_read {request : KernelScheduler.ToMemory} {rest : List KernelScheduler.ToMemory}
    (next : s.scheduler.memory.toMemory = request :: rest) :
    shown s [] before = { shown (s.read rest) [] before with toMemory := request :: rest } := by
  simp [shown, next, System.read]

/-- A request that is handled in one critical section. -/
theorem follows_handle {files : String → Option (List String)} {heap : List UInt8}
    {request : KernelScheduler.ToMemory} {rest : List KernelScheduler.ToMemory}
    {handled : List KernelScheduler.FromMemory × State}
    (blind : Blind ok) (idle : s.swapIn = none) (next : s.scheduler.memory.toMemory = request :: rest)
    (done : handle files heap s.memory request = some handled) :
    Follows config ok s [] (suspendedPids s.memory) none (s.answer rest handled) := by
  have serving : Serving (s.answer rest handled).swapIn
      (suspendedPids (s.answer rest handled).memory) [] (suspendedPids handled.2) := .of_idle idle
  obtain ⟨answer, served⟩ := handle_serve done
  refine .memory blind [] (suspendedPids handled.2) (.serve answer) serving rfl ?_
  rw [shown_read next]
  exact served (shown (s.read rest) [] (suspendedPids s.memory)) rfl

/-- `kernel_scheduler_handler` reads a request. -/
theorem follows_handleRequest {files : String → Option (List String)} {heap : List UInt8}
    {request : KernelScheduler.ToMemory} {rest : List KernelScheduler.ToMemory}
    (blind : Blind ok) (idle : s.swapIn = none) (next : s.scheduler.memory.toMemory = request :: rest)
    (taken : handleRequest files s heap request rest = some s') :
    Follows config ok s [] (suspendedPids s.memory) none s' := by
  cases request with
  | segmentCreate pid segmentId segmentSize =>
      obtain rfl := Option.some.inj taken
      have serving : Serving s.swapIn (suspendedPids s.memory) [] _ := .of_idle idle
      refine .memory blind [] (suspendedPids s.memory) (.serve (.ok true)) serving rfl ?_
      · rw [shown_read next]
        have added : shown { s.read rest with
              creates := s.creates ++ [⟨pid, segmentId, segmentSize, .starting⟩] } []
                (suspendedPids s.memory) =
            { shown (s.read rest) [] (suspendedPids s.memory) with
              segmentThreads := s.creates.filterMap unanswered ++ [(pid, segmentId)] } := by
          simp [shown, unanswered, compactions, Phase.compacting, System.read]
        exact (congrArg some added).symm
  | swapIn pids =>
      obtain rfl := Option.some.inj taken
      refine .hidden [.swapIn pids] (suspendedPids s.memory) .begin rfl ?_
      rw [shown_read next]
      rfl
  | compactionReady =>
      obtain rfl := Option.some.inj taken
      have serving : Serving s.swapIn (suspendedPids s.memory) [] _ := .of_idle idle
      refine .memory blind [] (suspendedPids s.memory) (.serve (.ok true)) serving rfl ?_
      · rw [shown_read next]
        have allowed : shown { s.read rest with compactionSem := s.compactionSem + 1 } []
              (suspendedPids s.memory) =
            { shown (s.read rest) [] (suspendedPids s.memory) with
              compactionSem := s.compactionSem + (compactions s.creates).length + 1 } := by
          simp [shown, System.read, Nat.add_right_comm]
        exact (congrArg some allowed).symm
  | processCreate | processEnd | segmentDelete | ioMemoryRead | ioMemoryWrite | swapOut =>
      simp only [handleRequest] at taken
      obtain ⟨handled, done, rfl⟩ := Option.map_eq_some_iff.mp taken
      exact follows_handle blind idle next done

/-- A `SWAP_IN` goes on: the model has all of its loop in the answer. -/
theorem follows_swapIn {loop : SwapIn} (blind : Blind ok) (at_loop : s.swapIn = some loop)
    (serving : Serving s.swapIn (suspendedPids s.memory) requests before) :
    Follows config ok s requests before none (continueSwapIn s loop) := by
  rw [at_loop] at serving
  cases serving with
  | @swapIn _ passed _ _ oks length done =>
      obtain ⟨pids, desuspendedPids⟩ := loop
      cases pids with
      | nil =>
          refine .memory blind [] (suspendedPids s.memory) (.serve (.desuspended oks)) .idle rfl ?_
          have pids : passed ++ [] = passed := List.append_nil passed
          rw [pids]
          exact serve_swapIn done
      | cons pid rest =>
          have tried := desuspend_processDesuspend s.memory pid
          have length' : (oks ++ [(processDesuspend s.memory pid).1]).length =
              (passed ++ [pid]).length := by simp [length]
          have all : passed ++ pid :: rest = passed ++ [pid] ++ rest :=
            List.append_cons passed pid rest
          refine .hidden [.swapIn (passed ++ pid :: rest)] before ?_ rfl rfl
          rw [all]
          refine .swapIn length' ?_
          rw [desuspend_append length, done, tried]
          cases (processDesuspend s.memory pid).1 <;> simp [SwapIn.tried, continueSwapIn]

/-! ### Segment threads -/

omit [DecidableEq ι] in
/-- Kernel Memory after a step of a `segment_create_thread`. -/
theorem shown_next (messages : List KernelScheduler.FromMemory) (m : State)
    (creates : List CreateThread) (sem : ℕ) :
    shown { s.send messages with memory := m, creates, compactionSem := sem } requests before =
      { shown s requests before with
        segmentThreads := creates.filterMap unanswered
        compactionSem := sem + (compactions creates).length
        fromMemory := s.scheduler.memory.fromMemory ++ messages } := rfl

/-- A `segment_create_thread` goes on. -/
theorem follows_create {i : ℕ} {th : CreateThread} (blind : Blind ok) (here : s.creates[i]? = some th)
    (serving : Serving s.swapIn (suspendedPids s.memory) requests before)
    (taken : runCreate s i th = some s') : Follows config ok s requests before none s' := by
  unfold runCreate at taken
  split at taken
  · cases taken
  rename_i allowed
  obtain ⟨⟨m, phase⟩, stepped, rfl⟩ := Option.map_eq_some_iff.mp taken
  obtain ⟨advances, kept⟩ := createStep_advances stepped
  clear taken stepped
  rw [← kept] at serving
  have waits : unanswered th = some (th.pid, th.segmentId) := unanswered_eq advances.unfinished
  have threads (still : ∀ result, phase ≠ .done result) :
      (s.creates.set i { th with phase }).filterMap unanswered = s.creates.filterMap unanswered :=
    filterMap_set_same here ((unanswered_eq still).trans waits.symm)
  show Follows config ok s requests before none
    { s.send (CreateThread.sends th phase) with
      memory := m
      creates := s.creates.set i { th with phase }
      compactionSem := if th.phase = .requested then s.compactionSem - 1 else s.compactionSem }
  obtain ⟨p, was⟩ : ∃ p, th.phase = p := ⟨th.phase, rfl⟩
  rw [was] at advances
  cases advances with
  | request =>
      have outside : ¬ InCompaction th.phase := not_inCompaction_of_free (.inl was)
      have asking : s.creates.filterMap unanswered ≠ [] :=
        List.ne_nil_of_mem (List.mem_filterMap.mpr ⟨th, List.mem_of_getElem? here, waits⟩)
      refine .memory blind requests before .compactionRequest serving rfl ?_
      rw [shown_next, threads (by simp), compactions_outside here outside rfl]
      exact if_neg asking
  | compact inside compacting =>
      subst was
      have silent : CreateThread.sends th phase = [] := by
        cases phase with
        | reading | writing | setting => rfl
        | _ => cases compacting
      have going : ∀ result, phase ≠ .done result := by
        rintro result rfl
        cases compacting
      obtain ⟨some, total⟩ := compactions_inside phase here inside allowed
      refine .hidden requests before serving rfl ?_
      rw [shown_next, threads going, total, silent, List.append_nil,
        Phase.length_compacting compacting, Nat.sub_add_cancel some]
      rfl
  | compacted inside =>
      subst was
      obtain ⟨some, total⟩ := compactions_inside .retrying here inside allowed
      refine .memory blind requests before .compactionFinished serving rfl ?_
      rw [shown_next, threads (by simp), total]
      exact if_pos some
  | choose free =>
      subst was
      have outside : ¬ InCompaction th.phase :=
        not_inCompaction_of_free (free.imp_right .inl)
      refine .hidden requests before serving rfl ?_
      rw [shown_next, threads (by simp), compactions_outside here outside rfl]
      simp [CreateThread.sends, shown]
  | @answer _ result free =>
      subst was
      have outside : ¬ InCompaction th.phase := not_inCompaction_of_free free
      obtain ⟨j, found, erased⟩ := filterMap_set_none (b := { th with phase := .done result })
        here waits rfl
      refine .memory blind requests before (.segmentCreated j result) serving rfl ?_
      rw [shown_next, erased, compactions_outside here outside rfl]
      have answered : (shown s requests before).segmentThreads[j]? =
          some (th.pid, th.segmentId) := found
      simp only [KernelScheduler.Memory.step, answered]
      rfl

/-! ### All steps -/

variable {files : String → Option (List String)}

/-- **The model of the scheduler has every step of the two components.** -/
theorem refines (blind : Blind ok) :
    Refinement (step config files) (Guarded ok) (KernelScheduler.step config) ok Action.own
      ownAction (Pictures : System ι → KernelScheduler.State ι → Prop) := by
  constructor
  rintro s s' _ a ⟨requests, before, serving, rfl⟩ guard taken
  show Follows config ok s requests before a.own s'
  cases a with
  | scheduler a =>
      have own : ∀ now, a ≠ .memory now := by
        rintro now rfl
        cases taken
      have turned : (KernelScheduler.step config s.scheduler a).map
          (fun scheduler => { s with scheduler }) = some s' := by
        cases a with
        | memory now => cases taken
        | _ => exact taken
      obtain ⟨scheduler, next, rfl⟩ := Option.map_eq_some_iff.mp turned
      exact follows_scheduler blind serving own (guard a rfl) next
  | handle heap =>
      simp only [step] at taken
      split at taken
      · rename_i request rest idle next
        rw [idle] at serving
        cases serving with
        | idle => exact follows_handleRequest blind idle next taken
      · cases taken
  | swapIn =>
      obtain ⟨loop, at_loop, rfl⟩ := Option.map_eq_some_iff.mp taken
      exact follows_swapIn blind at_loop serving
  | create i =>
      obtain ⟨th, here, taken⟩ := Option.bind_eq_some_iff.mp taken
      exact follows_create blind here serving taken
  | connectStick id size =>
      obtain rfl := Option.some.inj taken
      exact .memory blind requests before (.memoryUpdate (s.memory.totalMemorySize + size)) serving
        rfl rfl
  | addStick i =>
      obtain ⟨⟨id, size⟩, -, rfl⟩ := Option.map_eq_some_iff.mp taken
      exact .hidden requests before serving rfl rfl
  | disconnectStick id =>
      obtain ⟨stick, -, rfl⟩ := Option.map_eq_some_iff.mp taken
      exact .memory blind requests before .corruptedMemory serving rfl rfl
  | contextTransfer pid context =>
      obtain rfl := Option.some.inj taken
      exact .hidden requests before serving rfl rfl
  | cpuWrite physicalAddress size data =>
      obtain rfl := Option.some.inj taken
      exact .hidden requests before serving rfl rfl

end Steps

/-! ### Runs -/

section Runs

variable {ι : Type} [DecidableEq ι] {config : KernelScheduler.Config}
  {files : String → Option (List String)}
  {ok : KernelScheduler.State ι → KernelScheduler.Action ι → Prop} {memory : State}
  {connecting : List (UInt32 × UInt32)} {as : List (Action ι)} {s : System ι}

/-- Kernel Memory may have sticks when the scheduler connects: the model has a `MEMORY_UPDATE`
for them. -/
theorem start_pictures (connecting : List (UInt32 × UInt32)) (blind : Blind ok)
    (resident : memory.listSuspendedProcesses = []) :
    ∃ bs u, Run (KernelScheduler.step config) ok KernelScheduler.initial bs u ∧
      bs.filterMap ownAction = [] ∧ Pictures (start memory connecting : System ι) u := by
  have serving : Serving (start memory connecting : System ι).swapIn
      (suspendedPids (start memory connecting : System ι).memory) [] [] := by
    have empty : suspendedPids memory = [] := by
      rw [suspendedPids, resident]
      rfl
    show Serving none (suspendedPids memory) [] []
    rw [empty]
    exact .of_idle rfl
  by_cases sticks : 0 < memory.totalMemorySize
  · refine ⟨[.memory (.memoryUpdate memory.totalMemorySize)], _, .single (blind.memory _ _) rfl,
      rfl, [], [], serving, ?_⟩
    simp only [start, if_pos sticks]
    rfl
  · refine ⟨[], _, .refl _, rfl, [], [], serving, ?_⟩
    simp only [start, if_neg sticks]
    rfl

/-- **Kernel Memory is what the scheduler takes it for**: a run of both, in which the steps of the
scheduler meet a guard, is a run of the scheduler's own model under the guard, with the same steps
of the scheduler, of the CPUs and of the IO devices, and the same scheduler after them. -/
theorem memory_refines (blind : Blind ok) (resident : memory.listSuspendedProcesses = [])
    (run : Run (step config files) (Guarded ok) (start memory connecting) as s) :
    ∃ bs t, Run (KernelScheduler.step config) ok KernelScheduler.initial bs t ∧
      bs.filterMap ownAction = as.filterMap Action.own ∧ Pictures s t := by
  obtain ⟨before, u, first, hidden, pictures⟩ := start_pictures connecting blind resident
  obtain ⟨bs, t, later, shown, related⟩ := (refines blind).run pictures run
  refine ⟨before ++ bs, t, first.trans later, ?_, related⟩
  rw [List.filterMap_append, hidden, shown, List.nil_append]

end Runs

/-- The first process is being brought back: it is out of swap, and the scheduler does not know. -/
theorem memory_refines_of_swapIn :
    ∃ (s : System ℕ) (bs : List (KernelScheduler.Action ℕ)) (t : KernelScheduler.State ℕ),
      s.swapIn = some ⟨[], [0]⟩ ∧ suspendedPids s.memory = [] ∧
        Run (KernelScheduler.step KernelScheduler.impatient) (fun _ _ => True)
          KernelScheduler.initial bs t ∧
        (t.process 0).state = .suspReady ∧ Pictures s t := by
  obtain ⟨s, run, test⟩ := Run.exists_of_exec (step KernelScheduler.impatient oneFile)
    (Guarded fun _ _ => True)
    (asleep.append [.connectStick 1 16, .scheduler (.handleIo 0 ""), .addStick 0,
      .scheduler .handleMemory, .handle [], .swapIn])
    (start sixteen [])
    (fun s => decide (s.swapIn = some ⟨[], [0]⟩ ∧ suspendedPids s.memory = [] ∧
      (s.scheduler.process 0).state = .suspReady)) (by decide +kernel)
  obtain ⟨loop, back, waiting⟩ := of_decide_eq_true test
  have blind : Blind (fun (_ : KernelScheduler.State ℕ) _ => True) :=
    ⟨fun _ _ _ _ _ => trivial, fun _ _ => trivial⟩
  obtain ⟨bs, t, run', -, pictures⟩ := memory_refines blind rfl run
  refine ⟨s, bs, t, loop, back, run', ?_, pictures⟩
  obtain ⟨requests, before, -, rfl⟩ := pictures
  exact waiting

/-! ### Processes in swap -/

section Lists

open KernelScheduler (Allowed Phase Board State.board)

variable {ι : Type} [DecidableEq ι] {config : KernelScheduler.Config}
  {files : String → Option (List String)} {memory : State}
  {connecting : List (UInt32 × UInt32)} {as : List (Action ι)} {s : System ι}

theorem allowed_blind (m : UInt32 → KernelScheduler.Mode) :
    Blind (Allowed m : KernelScheduler.State ι → KernelScheduler.Action ι → Prop) where
  attached s a far same allowed := by
    cases a with
    | handleMemory =>
        intro message mem
        exact allowed message (same ▸ mem)
    | disconnectCpu cpu => exact allowed
    | handleCpu cpu => exact allowed
    | _ => trivial
  memory _ _ := trivial

theorem Serving.count_le {loop : Option SwapIn} {now before : List UInt32}
    {requests : List KernelScheduler.ToMemory} (serving : Serving loop now requests before)
    (pid : UInt32) : now.count pid ≤ before.count pid := by
  cases serving with
  | idle => exact Nat.le_refl _
  | @swapIn loop passed _ _ oks length done =>
      have counts := KernelScheduler.count_desuspend pid passed oks before
      rw [done] at counts
      exact Nat.le.intro ((Nat.add_comm _ _).trans counts)

theorem held_le {pid : UInt32} {suspended : Bool} {asked : List KernelScheduler.ToMemory}
    {answers : List KernelScheduler.FromMemory} {held listed : ℕ}
    (phase : Phase pid suspended asked answers held listed) : held ≤ 1 := by
  cases phase <;> omega

theorem held_of_quiet {pid : UInt32} {suspended : Bool} {held listed : ℕ}
    (phase : Phase pid suspended [] [] held listed) :
    held = (if suspended then 1 else 0) ∧ listed = held := by
  generalize none : ([] : List KernelScheduler.ToMemory) = asked at phase
  cases phase with
  | resident => exact ⟨rfl, rfl⟩
  | suspended => exact ⟨rfl, rfl⟩
  | leaving => simp at none

/-- **The lists of both components agree on the processes in swap**, while everything that is
awaited succeeds and no CPU disconnects whose process waits for a segment. Kernel Memory has a
process once at most, and none that is `READY` or `EXEC`; and when no message is under way, both
have the processes that are `SUSP_BLOCK` or `SUSP_READY`. -/
theorem swap_lists_agree (resident : memory.listSuspendedProcesses = [])
    (run : Run (step config files) (Guarded (Allowed fun _ => .completes))
      (start memory connecting) as s) (pid : UInt32) :
    ((s.scheduler.process pid).state = .ready ∨ (s.scheduler.process pid).state = .exec →
      pid ∉ suspendedPids s.memory) ∧
    ((s.scheduler.process pid).state ≠ .exit → (suspendedPids s.memory).count pid ≤ 1 ∧
      (s.Quiet →
        (suspendedPids s.memory).count pid =
            (if (s.scheduler.process pid).state.isSuspended then 1 else 0) ∧
          s.scheduler.suspendedProcesses.count pid = (suspendedPids s.memory).count pid)) := by
  have blind : Blind (Allowed fun _ => .completes : KernelScheduler.State ι → _ → Prop) :=
    allowed_blind fun _ => .completes
  obtain ⟨before, u, first, -, pictures⟩ := start_pictures connecting blind resident
  obtain ⟨t, ⟨requests, before, serving, rfl⟩, agreed⟩ :=
    (refines blind).transfers (P := fun t => t.board.Agreed pid)
      (fun bs v later => (KernelScheduler.agreed_of_run pid (first.trans later)).2) pictures run
  have fewer : (suspendedPids s.memory).count pid ≤ before.count pid := serving.count_le pid
  constructor
  · intro here
    have absent : pid ∉ before := agreed.resident here
    exact List.count_eq_zero.mp (Nat.le_zero.mp (List.count_eq_zero.mpr absent ▸ fewer))
  intro alive
  rcases agreed with ⟨ended, -⟩ | phase
  · exact absurd ended alive
  refine ⟨fewer.trans (held_le phase), ?_⟩
  rintro ⟨toMemory, fromMemory, idle⟩
  rw [idle] at serving
  cases serving with
  | idle =>
      have quiet : Phase pid (s.scheduler.process pid).state.isSuspended [] []
          ((suspendedPids s.memory).count pid) (s.scheduler.suspendedProcesses.count pid) := by
        have phase' := phase
        simp only [Board.Phase, KernelScheduler.Memory.Phase, State.board, shown, toMemory,
          fromMemory] at phase'
        exact phase'
      exact held_of_quiet quiet

end Lists

/-- The first process sleeps and is in swap. -/
theorem swap_lists_agree_of_sleep :
    ∃ s : System ℕ, (s.scheduler.process 0).state = .suspBlock ∧
      (suspendedPids s.memory).count 0 = 1 ∧ s.scheduler.suspendedProcesses.count 0 = 1 := by
  obtain ⟨s, run, test⟩ := Run.exists_of_exec (step KernelScheduler.impatient oneFile)
    (Guarded (KernelScheduler.Allowed fun _ => .completes)) asleep (start sixteen [])
    (fun s => decide (s.Quiet ∧ (s.scheduler.process 0).state = .suspBlock)) (by decide +kernel)
  obtain ⟨quiet, blocked⟩ := of_decide_eq_true test
  have alive : (s.scheduler.process 0).state ≠ .exit := by simp [blocked]
  obtain ⟨held, listed⟩ := ((swap_lists_agree rfl run 0).2 alive).2 quiet
  rw [blocked] at held
  exact ⟨s, blocked, held, listed.trans held⟩

end OsModel.SwapRequests
