import OsModel.KernelScheduler.Suspension

/-!
One pass of `suspension_manager` (`kernel_scheduler/src/schedulers/medium_term_scheduler.c`),
with the index that is moved while processes are taken out of `block_processes`.

* `suspensionPass_selects`: the pass takes out the processes whose time has come, and no other;
  the rest stays in its order, and each of those taken out is suspended once.
* `suspensionManager_eq_pass`: `suspensionManager`, which goes over a list that does not change,
  is this pass when the clock stands still.
-/

namespace OsModel.KernelScheduler

variable {ι : Type}

/-! ### The pass -/

/-- `elapsed`: a difference of two `uint64_t`. -/
def elapsed (gettime startBlockTime : Nat) : Nat :=
  (UInt64.ofNat gettime - UInt64.ofNat startBlockTime).toNat

/-- The test of `suspension_manager`, at a time. -/
def Suspends (config : Config) (gettime : Nat) (p : Process ι) : Prop :=
  p.state = .block ∧ config.suspensionTimeout ≤ elapsed gettime p.startBlockTime

instance (config : Config) (gettime : Nat) (p : Process ι) :
    Decidable (Suspends config gettime p) :=
  inferInstanceAs (Decidable (_ ∧ _))

/-- The variables of the pass, and the scheduler. `transitions` are the calls of
`process_set_state`, as it logs them: the process, its state before and after. -/
structure Scan (ι : Type) where
  i : Int
  toSuspendList : List UInt32
  transitions : List (UInt32 × ProcessState × ProcessState)
  state : State ι

/-- The body of the loop, for the process at the index. -/
def Scan.visit (config : Config) (gettime : Nat) (scan : Scan ι) (pid : UInt32) : Scan ι :=
  if Suspends config gettime (scan.state.process pid) then
    { i := scan.i - 1
      toSuspendList := scan.toSuspendList ++ [pid]
      transitions := scan.transitions ++ [(pid, (scan.state.process pid).state, .suspBlock)]
      state :=
        processSetState
          { scan.state with blockProcesses := scan.state.blockProcesses.erase pid } pid .suspBlock }
  else scan

/-- The `i++` of the loop. -/
def Scan.next (scan : Scan ι) : Scan ι := { scan with i := scan.i + 1 }

/-- How far the index is from the end of `block_processes`. -/
def Scan.left (scan : Scan ι) : Nat := (scan.state.blockProcesses.length - scan.i).toNat

theorem Scan.left_visit_next {config : Config} {gettime : Nat} {scan : Scan ι} {pid : UInt32}
    (inside : scan.i < scan.state.blockProcesses.length)
    (found : scan.state.blockProcesses[scan.i.toNat]? = some pid) :
    (scan.visit config gettime pid).next.left < scan.left := by
  have among : pid ∈ scan.state.blockProcesses := List.mem_of_getElem? found
  have shorter := List.length_erase_of_mem among
  have positive := List.length_pos_of_mem among
  unfold Scan.visit Scan.next Scan.left
  split
  · simp only [processSetState, State.setProcess, shorter]
    omega
  · dsimp only
    omega

/-- The loop. `clock` is what `temporal_gettime` returns in each turn. -/
def scanLoop (config : Config) (clock : Nat → Nat) (turn : Nat) (scan : Scan ι) : Scan ι :=
  if _ : scan.i < scan.state.blockProcesses.length then
    match found : scan.state.blockProcesses[scan.i.toNat]? with
    | none => scan
    | some pid => scanLoop config clock (turn + 1) (scan.visit config (clock turn) pid).next
  else scan
termination_by scan.left
decreasing_by exact Scan.left_visit_next ‹_› found

/-- One pass of `suspension_manager` while `can_schedule`: the loop, and the messages. -/
def suspensionPass (config : Config) (clock : Nat → Nat) (s : State ι) : Scan ι :=
  let scan := scanLoop config clock 0 ⟨0, [], [], s⟩
  { scan with
    state := scan.toSuspendList.foldl (fun s pid => s.sendMemory (.swapOut pid)) scan.state }

/-! ### What it selects -/

/-- The time of the process has come when the pass comes to it. -/
def Expires (config : Config) (clock : Nat → Nat) (s : State ι) (pid : UInt32) : Prop :=
  Suspends config (clock (s.blockProcesses.idxOf pid)) (s.process pid)

instance (config : Config) (clock : Nat → Nat) (s : State ι) (pid : UInt32) :
    Decidable (Expires config clock s pid) :=
  inferInstanceAs (Decidable (Suspends ..))

/-- The processes have been suspended. -/
def State.suspend (s : State ι) (pids : List UInt32) : State ι :=
  { s with
    process := fun pid =>
      if pid ∈ pids then { s.process pid with state := .suspBlock } else s.process pid }

/-- What a pass is to do. -/
structure Selects (config : Config) (clock : Nat → Nat) (s : State ι) (scan : Scan ι) :
    Prop where
  removed : scan.toSuspendList = s.blockProcesses.filter fun pid => Expires config clock s pid
  once : scan.transitions = scan.toSuspendList.map fun pid => (pid, .block, .suspBlock)
  rest : scan.state =
    { s.suspend scan.toSuspendList with
      blockProcesses := s.blockProcesses.filter fun pid => ¬ Expires config clock s pid
      memory.toMemory := s.memory.toMemory ++ scan.toSuspendList.map .swapOut }

section Pass

variable {config : Config} {clock : Nat → Nat} {s : State ι} {pid : UInt32} {pids : List UInt32}

theorem suspend_nil (s : State ι) : s.suspend [] = s := by
  simp [State.suspend]

theorem suspend_cons (s : State ι) (pid : UInt32) (pids : List UInt32) :
    (processSetState s pid .suspBlock).suspend pids = s.suspend (pid :: pids) := by
  unfold State.suspend processSetState State.setProcess
  congr 1
  funext other
  by_cases same : other = pid
  · subst same
    simp
  · simp [same]

/-- The elements of a list that pass a test, which depends on the turn in which they come. -/
def filterAt {α : Type} (test : Nat → α → Bool) : Nat → List α → List α
  | _, [] => []
  | turn, a :: rest =>
      if test turn a then a :: filterAt test (turn + 1) rest else filterAt test (turn + 1) rest

theorem filterAt_congr {α : Type} {test test' : Nat → α → Bool} {l : List α} (turn : Nat)
    (same : ∀ turn, ∀ a ∈ l, test turn a = test' turn a) :
    filterAt test turn l = filterAt test' turn l := by
  induction l generalizing turn with
  | nil => rfl
  | cons a rest ih =>
      have tail := ih (turn + 1) fun turn b mem => same turn b (List.mem_cons_of_mem _ mem)
      rw [filterAt, filterAt, tail, same turn a List.mem_cons_self]

/-- Without duplicates the turn is the index. -/
theorem filterAt_eq_filter {α : Type} [DecidableEq α] (test : Nat → α → Bool) {l : List α}
    (turn : Nat) (distinct : l.Nodup) :
    filterAt test turn l = l.filter fun a => test (turn + l.idxOf a) a := by
  induction l generalizing turn with
  | nil => rfl
  | cons a rest ih =>
      obtain ⟨fresh, distinct⟩ := List.nodup_cons.mp distinct
      have tail : rest.filter (fun b => test (turn + 1 + rest.idxOf b) b) =
          rest.filter fun b => test (turn + (a :: rest).idxOf b) b := by
        refine List.filter_congr fun b mem => ?_
        have ne : a ≠ b := fun same => fresh (same ▸ mem)
        rw [List.idxOf_cons_ne _ ne, Nat.add_assoc, Nat.add_comm 1]
      rw [filterAt, ih _ distinct, tail, List.filter_cons, List.idxOf_cons_self, Nat.add_zero]

/-- The test for the process that is visited in a turn. -/
def comes (config : Config) (clock : Nat → Nat) (s : State ι) (turn : Nat) (pid : UInt32) :
    Bool :=
  decide (Suspends config (clock turn) (s.process pid))

/-- The scan behind the processes that stay, `kept` before them, and those that expire. -/
def Scan.after (scan : Scan ι) (kept expired stay : List UInt32) : Scan ι where
  i := (kept ++ stay).length
  toSuspendList := scan.toSuspendList ++ expired
  transitions := scan.transitions ++ expired.map fun pid => (pid, .block, .suspBlock)
  state := { scan.state.suspend expired with blockProcesses := kept ++ stay }

theorem Scan.after_nil {scan : Scan ι} {kept : List UInt32} (here : scan.i = kept.length)
    (list : scan.state.blockProcesses = kept) : scan.after kept [] [] = scan := by
  obtain ⟨i, toSuspendList, transitions, state⟩ := scan
  obtain rfl : i = kept.length := here
  obtain rfl : state.blockProcesses = kept := list
  simp only [after, List.map_nil, suspend_nil, List.append_nil]

/-- A process that stays. -/
theorem Scan.after_next (scan : Scan ι) (kept expired stay : List UInt32) (pid : UInt32) :
    scan.next.after (kept ++ [pid]) expired stay = scan.after kept expired (pid :: stay) := by
  simp only [after, next, List.append_assoc, List.singleton_append]

/-- A process that is suspended: the index stays where it is, and the next process is at it. -/
theorem Scan.after_visit {scan : Scan ι} {gettime : Nat} {kept expired stay : List UInt32}
    (goes : Suspends config gettime (scan.state.process pid)) :
    (scan.visit config gettime pid).next.after kept expired stay =
      scan.after kept (pid :: expired) stay := by
  have records := suspend_cons
    { scan.state with blockProcesses := scan.state.blockProcesses.erase pid } pid expired
  simp only [after, next, visit, if_pos goes, records, goes.1, List.append_assoc,
    List.singleton_append, List.map_cons]
  rfl

/-- What the loop makes of the processes that it has not come to. -/
theorem scanLoop_eq (config : Config) (clock : Nat → Nat) {rest : List UInt32} (turn : Nat)
    (scan : Scan ι) (kept : List UInt32) (here : scan.i = kept.length)
    (list : scan.state.blockProcesses = kept ++ rest) (distinct : (kept ++ rest).Nodup) :
    scanLoop config clock turn scan =
      scan.after kept (filterAt (comes config clock scan.state) turn rest)
        (filterAt (fun turn pid => !comes config clock scan.state turn pid) turn rest) := by
  induction rest generalizing turn scan kept with
  | nil =>
      have done : ¬ scan.i < scan.state.blockProcesses.length := by
        rw [here, list, List.append_nil]
        exact lt_irrefl _
      rw [scanLoop, dif_neg done]
      exact (Scan.after_nil here (list.trans (List.append_nil kept))).symm
  | cons pid rest ih =>
      have inside : scan.i < scan.state.blockProcesses.length := by
        rw [here, list, List.length_append, List.length_cons]
        omega
      have found : scan.state.blockProcesses[scan.i.toNat]? = some pid := by
        rw [here, list, Int.toNat_natCast, List.getElem?_append_right (le_refl _), Nat.sub_self]
        rfl
      have outside : pid ∉ kept := fun mem =>
        (List.nodup_append.mp distinct).2.2 pid mem pid List.mem_cons_self rfl
      have fresh : pid ∉ rest := (List.nodup_cons.mp (List.nodup_append.mp distinct).2.1).1
      rw [scanLoop, dif_pos inside]
      split
      · rename_i missing
        rw [found] at missing
        cases missing
      · rename_i pid' found'
        obtain rfl : pid = pid' := Option.some.inj (found.symm.trans found')
        by_cases goes : Suspends config (clock turn) (scan.state.process pid)
        · have visited : comes config clock scan.state turn pid = true := decide_eq_true goes
          have taken : scan.state.blockProcesses.erase pid = kept ++ rest := by
            rw [list, List.erase_append_right _ outside, List.erase_cons_head]
          have index : (scan.visit config (clock turn) pid).next.i = kept.length := by
            rw [Scan.next, Scan.visit, if_pos goes, sub_add_cancel, here]
          have state : (scan.visit config (clock turn) pid).next.state =
              processSetState { scan.state with blockProcesses := kept ++ rest } pid
                .suspBlock := by
            rw [Scan.next, Scan.visit, if_pos goes, taken]
          have distinct' : (kept ++ rest).Nodup := by
            rw [← taken, list]
            exact distinct.erase pid
          -- the processes behind it are as they were
          have others : ∀ later, ∀ other ∈ rest,
              comes config clock (scan.visit config (clock turn) pid).next.state later other =
                comes config clock scan.state later other := by
            intro later other mem
            have ne : other ≠ pid := fun same => fresh (same ▸ mem)
            rw [state, comes, processSetState_of_ne _ ne]
            rfl
          rw [ih (turn + 1) _ kept index (congrArg State.blockProcesses state) distinct',
            Scan.after_visit goes, filterAt_congr _ others,
            filterAt_congr _ fun later other mem => congrArg not (others later other mem),
            filterAt, filterAt, visited]
          rfl
        · have stays : comes config clock scan.state turn pid = false := decide_eq_false goes
          have visited : scan.visit config (clock turn) pid = scan := by
            rw [Scan.visit, if_neg goes]
          have index : scan.next.i = (kept ++ [pid]).length := by
            rw [Scan.next, here, List.length_append, List.length_singleton, Nat.cast_add,
              Nat.cast_one]
          have split : kept ++ pid :: rest = (kept ++ [pid]) ++ rest := by simp
          rw [visited, ih (turn + 1) _ _ index (list.trans split) (split ▸ distinct),
            Scan.after_next, filterAt, filterAt, stays]
          rfl

/-- What a pass leaves. -/
theorem suspensionPass_eq (config : Config) (clock : Nat → Nat)
    (distinct : s.blockProcesses.Nodup) :
    let removed := s.blockProcesses.filter fun pid => Expires config clock s pid
    (suspensionPass config clock s).toSuspendList = removed ∧
      (suspensionPass config clock s).transitions =
        removed.map (fun pid => (pid, .block, .suspBlock)) ∧
      (suspensionPass config clock s).state =
        { s.suspend removed with
          blockProcesses := s.blockProcesses.filter fun pid => ¬ Expires config clock s pid
          memory.toMemory := s.memory.toMemory ++ removed.map .swapOut } := by
  have loop := scanLoop_eq config clock 0 ⟨0, [], [], s⟩ [] rfl rfl distinct
  have expired : filterAt (comes config clock s) 0 s.blockProcesses =
      s.blockProcesses.filter fun pid => Expires config clock s pid := by
    rw [filterAt_eq_filter _ 0 distinct]
    refine List.filter_congr fun pid _ => ?_
    rw [Nat.zero_add]
    rfl
  have stay : filterAt (fun turn pid => !comes config clock s turn pid) 0 s.blockProcesses =
      s.blockProcesses.filter fun pid => ¬ Expires config clock s pid := by
    rw [filterAt_eq_filter _ 0 distinct]
    refine List.filter_congr fun pid _ => ?_
    rw [Nat.zero_add, decide_not]
    rfl
  rw [expired, stay] at loop
  refine ⟨?_, ?_, ?_⟩
  · rw [suspensionPass, loop]
    rfl
  · rw [suspensionPass, loop]
    rfl
  · rw [suspensionPass, loop, sendSwapOuts]
    rfl

/-- **A pass of the scan**: it takes out the processes that are `BLOCK` and whose time has come,
leaves the others in their order, suspends each of those it takes out once, and sends a `SWAP_OUT`
for each, in the order of the list. -/
theorem suspensionPass_selects (config : Config) (clock : Nat → Nat)
    (distinct : s.blockProcesses.Nodup) :
    Selects config clock s (suspensionPass config clock s) := by
  obtain ⟨removed, transitions, state⟩ := suspensionPass_eq config clock distinct
  refine ⟨removed, ?_, ?_⟩
  · rw [transitions, removed]
  · rw [state, removed]

/-- Two neighbours whose time has come, the last process too, and one between that is not
`BLOCK`. -/
theorem suspensionPass_selects_of_neighbours :
    ∃ s : State ℕ, (suspensionPass impatient (fun _ => 7) s).toSuspendList = [0, 1, 3] ∧
      Selects impatient (fun _ => 7) s (suspensionPass impatient (fun _ => 7) s) :=
  let blocked : State ℕ :=
    { initial with
      process := fun pid => { createProcess 0 with state := if pid = 2 then .ready else .block }
      blockProcesses := [0, 1, 2, 3] }
  have selects : Selects impatient (fun _ => 7) blocked
      (suspensionPass impatient (fun _ => 7) blocked) :=
    suspensionPass_selects impatient (fun _ => 7) (by decide)
  ⟨blocked, selects.removed.trans (by decide), selects⟩

/-! ### The clock stands still -/

/-- A process that is blocked was blocked in the past. -/
theorem elapsed_of_past {gettime startBlockTime : Nat} (past : startBlockTime ≤ gettime)
    (small : gettime < 2 ^ 64) : elapsed gettime startBlockTime = gettime - startBlockTime := by
  have start : (UInt64.ofNat startBlockTime).toNat = startBlockTime :=
    UInt64.toNat_ofNat_of_lt' (past.trans_lt small)
  have now : (UInt64.ofNat gettime).toNat = gettime := UInt64.toNat_ofNat_of_lt' small
  rw [elapsed, UInt64.toNat_sub_of_le, start, now]
  rw [UInt64.le_iff_toNat_le, start, now]
  exact past

theorem suspensionScan_eq (distinct : pids.Nodup) (s : State ι) :
    suspensionScan config pids s =
      (pids.filter (fun pid => ¬ Expired config s (s.process pid)),
        pids.filter (fun pid => Expired config s (s.process pid)),
        s.suspend (pids.filter fun pid => Expired config s (s.process pid))) := by
  induction pids generalizing s with
  | nil => simp [suspensionScan, suspend_nil]
  | cons pid rest ih =>
      obtain ⟨fresh, distinct⟩ := List.nodup_cons.mp distinct
      unfold suspensionScan
      by_cases goes : Expired config s (s.process pid)
      · have others : ∀ other ∈ rest,
            Expired config (processSetState s pid .suspBlock)
                ((processSetState s pid .suspBlock).process other) ↔
              Expired config s (s.process other) := by
          intro other mem
          have ne : other ≠ pid := fun same => fresh (same ▸ mem)
          rw [processSetState_of_ne _ ne]
          rfl
        rw [if_pos goes, ih distinct]
        have expired : rest.filter (fun other => Expired config (processSetState s pid .suspBlock)
              ((processSetState s pid .suspBlock).process other)) =
            rest.filter fun other => Expired config s (s.process other) :=
          List.filter_congr fun other mem => decide_eq_decide.mpr (others other mem)
        have stay : rest.filter (fun other => ¬ Expired config (processSetState s pid .suspBlock)
              ((processSetState s pid .suspBlock).process other)) =
            rest.filter fun other => ¬ Expired config s (s.process other) :=
          List.filter_congr fun other mem => decide_eq_decide.mpr (not_congr (others other mem))
        rw [expired, stay, suspend_cons]
        simp [goes]
      · rw [if_neg goes, ih distinct]
        simp [goes]

/-- The model of a pass that goes over `block_processes` as it was. -/
theorem suspensionManager_eq_pass (goes : s.canSchedule = true)
    (distinct : s.blockProcesses.Nodup) (small : s.now < 2 ^ 64)
    (past : ∀ pid ∈ s.blockProcesses, (s.process pid).startBlockTime ≤ s.now) :
    suspensionManager config s = (suspensionPass config (fun _ => s.now) s).state := by
  have alike : ∀ pid ∈ s.blockProcesses,
      Expires config (fun _ => s.now) s pid ↔ Expired config s (s.process pid) := by
    intro pid mem
    unfold Expires Suspends Expired
    rw [elapsed_of_past (past pid mem) small]
  obtain ⟨-, -, state⟩ := suspensionPass_eq config (fun _ => s.now) distinct
  have expired : s.blockProcesses.filter (fun pid => Expires config (fun _ => s.now) s pid) =
      s.blockProcesses.filter fun pid => Expired config s (s.process pid) :=
    List.filter_congr fun pid mem => decide_eq_decide.mpr (alike pid mem)
  have stay : s.blockProcesses.filter (fun pid => ¬ Expires config (fun _ => s.now) s pid) =
      s.blockProcesses.filter fun pid => ¬ Expired config s (s.process pid) :=
    List.filter_congr fun pid mem => decide_eq_decide.mpr (not_congr (alike pid mem))
  rw [state, expired, stay, suspensionManager, if_pos goes, suspensionScan_eq distinct]
  dsimp only
  rw [sendSwapOuts]
  rfl

end Pass

end OsModel.KernelScheduler
