import OsModel.System.Contexts
import OsModel.KernelMemory.Operations

/-!
Freshness of the contexts.

A process is in one place at a time: ready, on its way to a CPU, at a CPU, or on
its way back (`Coherent.once`). What can go wrong is the order in which two
threads of Kernel Memory read their connections. `contexts_fresh` says that
nothing else can; `context_stale` is a run in which it does.
-/

namespace OsModel.Contexts

open Lib KernelMemory

/-! ### The invariant -/

/-- The process a CPU is occupied with. -/
def CpuPhase.pid : CpuPhase → Option UInt32
  | .idle => none
  | .seeking pid | .executing pid _ | .saved pid => some pid

/-- The processes in the hands of a CPU, its connections to the scheduler
included. -/
def CpuLink.held (link : CpuLink) : List UInt32 :=
  link.toCpu ++ link.phase.pid.toList ++ link.toScheduler

/-- The process whose context a message asks for. -/
def ToMemory.soughtPid : ToMemory → Option UInt32
  | .contextTransfer _ _ => none
  | .contextSeek pid => some pid

/-- The requests and answers under way. -/
def CpuLink.asked (link : CpuLink) : List UInt32 :=
  link.toMemory.filterMap ToMemory.soughtPid ++ link.fromMemory.map Prod.fst

/-- The answer that a CPU waits for. -/
def CpuPhase.awaited : CpuPhase → List UInt32
  | .seeking pid => [pid]
  | _ => []

variable {ι : Type} [Fintype ι] [DecidableEq ι]

/-- In how many places a process is. -/
def System.places (s : System ι) (pid : UInt32) : ℕ :=
  s.ready.count pid + tokens (fun cpu => (s.cpus cpu).held) pid

/-- What the components keep. -/
structure Coherent (s : System ι) : Prop where
  once : ∀ pid, s.places pid ≤ 1
  known : ∀ pid, findPcb s.memory pid = none → s.places pid = 0 ∧ s.Settled pid
  asked : ∀ cpu, (s.cpus cpu).asked = (s.cpus cpu).phase.awaited
  last : ∀ cpu pid context, ToMemory.contextTransfer pid context ∈ (s.cpus cpu).toMemory →
    context = s.lastSaved pid
  stored : ∀ pid pcb, findPcb s.memory pid = some pcb → s.Settled pid →
    pcb.context = s.lastSaved pid
  fresh : ∀ cpu pid context, (s.cpus cpu).Receives pid context →
    context = s.lastSaved pid ∧ s.Settled pid

section Coherent

variable {s : System ι} {cpu : ι} {link : CpuLink} {ready : List UInt32} {pid : UInt32}

theorem places_setLink (s : System ι) (ready : List UInt32) (cpu : ι) (link : CpuLink)
    (pid : UInt32) :
    ({ s with ready := ready }.setLink cpu link).places pid +
        (s.ready.count pid + (s.cpus cpu).held.count pid) =
      s.places pid + (ready.count pid + link.held.count pid) := by
  have update : (fun c => (Function.update s.cpus cpu link c).held) =
      Function.update (fun c => (s.cpus c).held) cpu link.held :=
    Function.comp_update CpuLink.held s.cpus cpu link
  have moved := tokens_update (fun c => (s.cpus c).held) cpu link.held pid
  simp only [System.places, System.setLink, update]
  omega

/-- A process that a CPU holds is nowhere else. -/
theorem Coherent.eq_of_held (h : Coherent s) {other : ι} (here : pid ∈ (s.cpus cpu).held)
    (there : pid ∈ (s.cpus other).held) : cpu = other := by
  have once := h.once pid
  rw [System.places] at once
  have one : tokens (fun c => (s.cpus c).held) pid ≤ 1 := Nat.le_trans (Nat.le_add_left ..) once
  exact Lib.eq_of_held one here there

omit [DecidableEq ι] in
theorem Coherent.known_of_held (h : Coherent s) (held : pid ∈ (s.cpus cpu).held) :
    findPcb s.memory pid ≠ none := by
  intro missing
  have nowhere := (h.known pid missing).1
  have here := count_le_tokens (fun c => (s.cpus c).held) cpu pid
  have one := List.count_pos_iff.mpr held
  rw [System.places] at nowhere
  omega

omit [DecidableEq ι] in
/-- A CPU that receives the context of a process holds the process. -/
theorem Coherent.held_of_receives (h : Coherent s) {context : CpuContext}
    (receives : (s.cpus cpu).Receives pid context) : pid ∈ (s.cpus cpu).held := by
  suffices (s.cpus cpu).phase.pid = some pid by simp [CpuLink.held, this]
  rcases receives with answered | executing
  · have asked := h.asked cpu
    have among : pid ∈ (s.cpus cpu).asked :=
      List.mem_append_right _ (List.mem_map_of_mem answered)
    rw [asked] at among
    cases phase : (s.cpus cpu).phase with
    | seeking pid' =>
        rw [phase] at among
        rw [List.mem_singleton.mp among]
        rfl
    | idle => simp [phase, CpuPhase.awaited] at among
    | executing pid' received => simp [phase, CpuPhase.awaited] at among
    | saved pid' => simp [phase, CpuPhase.awaited] at among
  · rw [executing]
    rfl

omit [Fintype ι] in
/-- Whether a context is settled, after a step of one CPU. -/
theorem settled_setLink :
    (s.setLink cpu link).Settled pid ↔ (∀ m ∈ link.toMemory, m.savedPid ≠ some pid) ∧
      ∀ other, other ≠ cpu → ∀ m ∈ (s.cpus other).toMemory, m.savedPid ≠ some pid := by
  constructor
  · intro settled
    constructor
    · have here := settled cpu
      rwa [System.cpus_setLink_self] at here
    · intro other ne
      have there := settled other
      rwa [System.cpus_setLink_of_ne ne] at there
  · rintro ⟨here, there⟩ other
    by_cases same : other = cpu
    · subst same
      rwa [System.cpus_setLink_self]
    · rw [System.cpus_setLink_of_ne same]
      exact there other same

/-- A step of one CPU that saves nothing and that moves processes only. -/
theorem Coherent.relink (h : Coherent s) (ready : List UInt32)
    (moves : ∀ pid, ready.count pid + link.held.count pid ≤
      s.ready.count pid + (s.cpus cpu).held.count pid)
    (asked : link.asked = link.phase.awaited)
    (saves : ∀ m : ToMemory, m.savedPid ≠ none →
      (m ∈ link.toMemory ↔ m ∈ (s.cpus cpu).toMemory))
    (fresh : ∀ pid context, link.Receives pid context →
      context = s.lastSaved pid ∧ s.Settled pid) :
    Coherent ({ s with ready := ready }.setLink cpu link) := by
  have settled : ∀ pid, ({ s with ready := ready }.setLink cpu link).Settled pid ↔
      s.Settled pid := by
    intro pid
    rw [settled_setLink]
    constructor
    · rintro ⟨here, there⟩ other m mem saved
      by_cases same : other = cpu
      · subst same
        exact here m ((saves m (by simp [saved])).mpr mem) saved
      · exact there other same m mem saved
    · intro before
      refine ⟨fun m mem saved => ?_, fun other _ => before other⟩
      exact before cpu m ((saves m (by simp [saved])).mp mem) saved
  refine ⟨fun pid => ?_, fun pid missing => ?_, fun other => ?_, ?_, fun pid pcb found at_rest => ?_,
    ?_⟩
  · have moved := places_setLink s ready cpu link pid
    have before := h.once pid
    have fewer := moves pid
    omega
  · obtain ⟨nowhere, before⟩ := h.known pid missing
    have moved := places_setLink s ready cpu link pid
    have fewer := moves pid
    exact ⟨by omega, (settled pid).mpr before⟩
  · by_cases same : other = cpu
    · subst same
      rw [System.cpus_setLink_self]
      exact asked
    · rw [System.cpus_setLink_of_ne same]
      exact h.asked other
  · intro other pid context mem
    by_cases same : other = cpu
    · subst same
      rw [System.cpus_setLink_self] at mem
      exact h.last other pid context ((saves _ (by simp [ToMemory.savedPid])).mp mem)
    · rw [System.cpus_setLink_of_ne same] at mem
      exact h.last other pid context mem
  · exact h.stored pid pcb found ((settled pid).mp at_rest)
  · intro other pid context receives
    rw [settled pid]
    by_cases same : other = cpu
    · subst same
      rw [System.cpus_setLink_self] at receives
      exact fresh pid context receives
    · rw [System.cpus_setLink_of_ne same] at receives
      exact h.fresh other pid context receives

end Coherent

/-! ### One step -/

/-- The condition on a step: Kernel Memory answers a `CONTEXT_SEEK` only when it
has read every context saved for the process. -/
def Action.InOrder (s : System ι) : Action ι → Prop
  | .serve cpu => ∀ pid ∈ (s.cpus cpu).toMemory.head?.bind ToMemory.soughtPid, s.Settled pid
  | _ => True

instance (s : System ι) (pid : UInt32) : Decidable (s.Settled pid) := by
  unfold System.Settled
  infer_instance

instance (s : System ι) : (a : Action ι) → Decidable (a.InOrder s)
  | .serve _ => Option.decidableForallMem _
  | .create .. | .dispatch .. | .execute _ | .receive _ | .save .. | .notify _ | .exit _ | .hear _ =>
      .isTrue trivial

section Steps

variable {s s' : System ι} {cpu : ι} {pid : UInt32}

omit [DecidableEq ι] in
/-- The requests and answers of a CPU that waits for none. -/
theorem Coherent.none_asked (h : Coherent s) (cpu : ι) (waits : (s.cpus cpu).phase.awaited = []) :
    (s.cpus cpu).toMemory.filterMap ToMemory.soughtPid = [] ∧ (s.cpus cpu).fromMemory = [] := by
  have asked := h.asked cpu
  rw [waits, CpuLink.asked, List.append_eq_nil_iff, List.map_eq_nil_iff] at asked
  exact asked

omit [DecidableEq ι] in
theorem Coherent.create (h : Coherent s) {instructions : List String}
    (absent : findPcb s.memory pid = none) :
    Coherent { s with
      memory := processCreate s.memory pid (some instructions)
      ready := s.ready ++ [pid]
      lastSaved := Function.update s.lastSaved pid .zero } := by
  obtain ⟨nowhere, settled⟩ := h.known pid absent
  have found : ∀ other, findPcb (processCreate s.memory pid (some instructions)) other =
      (findPcb s.memory other).or
        (if pid = other then some ⟨pid, CpuContext.zero, instructions, []⟩ else none) := by
    intro other
    by_cases same : pid = other <;> simp [findPcb, processCreate, List.find?_append, same]
  refine ⟨fun other => ?_, fun other missing => ?_, h.asked, fun cpu other context mem => ?_,
    fun other pcb at_pcb at_rest => ?_, fun cpu other context receives => ?_⟩
  · have once := h.once other
    simp only [System.places, List.count_append, List.count_singleton] at once nowhere ⊢
    by_cases same : pid = other
    · subst same
      simp
      omega
    · simp [same]
      omega
  · rw [found, Option.or_eq_none_iff] at missing
    have ne : pid ≠ other := by
      rintro rfl
      simp at missing
    obtain ⟨nowhere', settled'⟩ := h.known other missing.1
    refine ⟨?_, settled'⟩
    simpa [System.places, List.count_singleton, ne] using nowhere'
  · have ne : other ≠ pid := by
      rintro rfl
      exact settled cpu _ mem rfl
    simpa [ne] using h.last cpu other context mem
  · rw [found] at at_pcb
    by_cases same : pid = other
    · subst same
      rw [absent, if_pos rfl, Option.none_or, Option.some.injEq] at at_pcb
      subst at_pcb
      simp
    · rw [if_neg same, Option.or_none] at at_pcb
      simpa [Ne.symm same] using h.stored other pcb at_pcb at_rest
  · have ne : other ≠ pid := by
      rintro rfl
      exact h.known_of_held (h.held_of_receives receives) absent
    obtain ⟨latest, at_rest⟩ := h.fresh cpu other context receives
    refine ⟨?_, at_rest⟩
    simpa [ne] using latest

/-- A context read by Kernel Memory. -/
theorem Coherent.serve_transfer (h : Coherent s) {context : CpuContext} {rest : List ToMemory}
    (head : (s.cpus cpu).toMemory = .contextTransfer pid context :: rest) :
    Coherent ({ s with memory := contextTransfer s.memory pid context }.setLink cpu
      { s.cpus cpu with toMemory := rest }) := by
  have sub : ∀ m ∈ rest, m ∈ (s.cpus cpu).toMemory := fun m mem => by
    rw [head]
    exact List.mem_cons_of_mem _ mem
  have latest := h.last cpu pid context (by rw [head]; exact List.mem_cons_self)
  have settled : ∀ other, s.Settled other →
      ({ s with memory := contextTransfer s.memory pid context }.setLink cpu
        { s.cpus cpu with toMemory := rest }).Settled other := fun other before =>
    settled_setLink.mpr ⟨fun m mem => before cpu m (sub m mem), fun c _ => before c⟩
  have moved := places_setLink s s.ready cpu { s.cpus cpu with toMemory := rest }
  refine ⟨fun other => ?_, fun other missing => ?_, fun c => ?_, fun c other context' mem => ?_,
    fun other pcb found at_rest => ?_, fun c other context' receives => ?_⟩
  · have before := h.once other
    have after := moved other
    simp only [CpuLink.held] at after
    exact (Nat.add_right_cancel after).trans_le before
  · have absent : findPcb s.memory other = none := by
      by_cases same : other = pid
      · subst same
        simpa [System.setLink, findPcb_contextTransfer_self] using missing
      · simpa [System.setLink, findPcb_contextTransfer_of_ne same] using missing
    obtain ⟨nowhere, before⟩ := h.known other absent
    have after := moved other
    simp only [CpuLink.held] at after
    exact ⟨(Nat.add_right_cancel after).trans nowhere, settled other before⟩
  · by_cases same : c = cpu
    · subst same
      have asked := h.asked c
      rw [CpuLink.asked, head, List.filterMap_cons_none rfl] at asked
      rw [System.cpus_setLink_self]
      exact asked
    · rw [System.cpus_setLink_of_ne same]
      exact h.asked c
  · by_cases same : c = cpu
    · subst same
      rw [System.cpus_setLink_self] at mem
      exact h.last c other context' (sub _ mem)
    · rw [System.cpus_setLink_of_ne same] at mem
      exact h.last c other context' mem
  · by_cases same : other = pid
    · subst same
      simp only [System.setLink, findPcb_contextTransfer_self] at found
      obtain ⟨old, -, rfl⟩ := Option.map_eq_some_iff.mp found
      exact latest
    · simp only [System.setLink, findPcb_contextTransfer_of_ne same] at found
      refine h.stored other pcb found fun c m mem => ?_
      obtain ⟨here, there⟩ := settled_setLink.mp at_rest
      by_cases own : c = cpu
      · subst own
        rw [head, List.mem_cons] at mem
        rcases mem with rfl | later
        · simpa [ToMemory.savedPid] using Ne.symm same
        · exact here m later
      · exact there c own m mem
  · have before : (s.cpus c).Receives other context' := by
      by_cases same : c = cpu
      · subst same
        rwa [System.cpus_setLink_self] at receives
      · rwa [System.cpus_setLink_of_ne same] at receives
    obtain ⟨latest', at_rest⟩ := h.fresh c other context' before
    exact ⟨latest', settled other at_rest⟩

/-- A context saved. -/
theorem Coherent.save (h : Coherent s) {context received : CpuContext}
    (executing : (s.cpus cpu).phase = .executing pid received) :
    Coherent ({ s with lastSaved := Function.update s.lastSaved pid context }.setLink cpu
      { s.cpus cpu with
        phase := .saved pid
        toMemory := (s.cpus cpu).toMemory ++ [ToMemory.contextTransfer pid context] }) := by
  obtain ⟨-, settled⟩ := h.fresh cpu pid received (.inr executing)
  have held : pid ∈ (s.cpus cpu).held := h.held_of_receives (.inr executing)
  obtain ⟨none_sought, none_answered⟩ := h.none_asked cpu (by rw [executing]; rfl)
  have settled_of_ne : ∀ other, other ≠ pid → s.Settled other →
      ({ s with lastSaved := Function.update s.lastSaved pid context }.setLink cpu
        { s.cpus cpu with
          phase := .saved pid
          toMemory := (s.cpus cpu).toMemory ++ [ToMemory.contextTransfer pid context] }).Settled other := by
    intro other ne before
    refine settled_setLink.mpr ⟨fun m mem => ?_, fun c _ => before c⟩
    rcases List.mem_append.mp mem with old | new
    · exact before cpu m old
    · obtain rfl := List.mem_singleton.mp new
      simpa [ToMemory.savedPid] using ne.symm
  have moved := places_setLink s s.ready cpu { s.cpus cpu with
    phase := .saved pid
    toMemory := (s.cpus cpu).toMemory ++ [ToMemory.contextTransfer pid context] }
  simp only [CpuLink.held, CpuPhase.pid, executing] at moved
  refine ⟨fun other => ?_, fun other missing => ?_, fun c => ?_, fun c other context' mem => ?_,
    fun other pcb found at_rest => ?_, fun c other context' receives => ?_⟩
  · exact (Nat.add_right_cancel (moved other)).trans_le (h.once other)
  · have ne : other ≠ pid := by
      rintro rfl
      exact h.known_of_held held missing
    obtain ⟨nowhere, before⟩ := h.known other missing
    exact ⟨(Nat.add_right_cancel (moved other)).trans nowhere, settled_of_ne other ne before⟩
  · by_cases same : c = cpu
    · subst same
      rw [System.cpus_setLink_self]
      simp [CpuLink.asked, List.filterMap_append, none_sought, none_answered, ToMemory.soughtPid,
        CpuPhase.awaited]
    · rw [System.cpus_setLink_of_ne same]
      exact h.asked c
  · by_cases same : c = cpu
    · subst same
      rw [System.cpus_setLink_self] at mem
      rcases List.mem_append.mp mem with old | new
      · have ne : other ≠ pid := by
          rintro rfl
          exact settled c _ old rfl
        simpa [System.setLink, ne] using h.last c other context' old
      · obtain ⟨rfl, rfl⟩ := ToMemory.contextTransfer.inj (List.mem_singleton.mp new)
        simp [System.setLink]
    · rw [System.cpus_setLink_of_ne same] at mem
      have ne : other ≠ pid := by
        rintro rfl
        exact settled c _ mem rfl
      simpa [System.setLink, ne] using h.last c other context' mem
  · have ne : other ≠ pid := by
      rintro rfl
      exact (settled_setLink.mp at_rest).1 _ (List.mem_append_right _ List.mem_cons_self) rfl
    have before : s.Settled other := by
      obtain ⟨here, there⟩ := settled_setLink.mp at_rest
      intro c m mem
      by_cases same : c = cpu
      · subst same
        exact here m (List.mem_append_left _ mem)
      · exact there c same m mem
    simpa [System.setLink, ne] using h.stored other pcb found before
  · have before : (s.cpus c).Receives other context' ∧ other ≠ pid := by
      by_cases same : c = cpu
      · subst same
        rw [System.cpus_setLink_self] at receives
        rcases receives with answered | executing'
        · simp [none_answered] at answered
        · simp at executing'
      · rw [System.cpus_setLink_of_ne same] at receives
        refine ⟨receives, ?_⟩
        rintro rfl
        exact same (h.eq_of_held (h.held_of_receives receives) held)
    obtain ⟨latest, at_rest⟩ := h.fresh c other context' before.1
    refine ⟨?_, settled_of_ne other before.2 at_rest⟩
    simpa [System.setLink, before.2] using latest

/-- **One step** keeps the contexts fresh, if Kernel Memory's threads read their
connections in order. -/
theorem step_coherent {a : Action ι} (h : Coherent s) (ordered : a.InOrder s)
    (taken : step s a = some s') : Coherent s' := by
  cases a with
  | create pid instructions =>
      simp only [step] at taken
      split at taken
      · rename_i absent
        cases taken
        exact h.create absent
      · simp at taken
  | dispatch pid cpu =>
      simp only [step] at taken
      split at taken
      · rename_i ready
        cases taken
        refine h.relink _ (fun other => ?_) (h.asked cpu) (fun _ _ => Iff.rfl) (h.fresh cpu)
        have taken_out := (List.perm_cons_erase ready).count_eq other
        simp only [CpuLink.held, List.count_append, List.count_cons, List.count_nil]
          at taken_out ⊢
        omega
      · simp at taken
  | execute cpu =>
      simp only [step] at taken
      split at taken
      · rename_i pid rest phase queue
        cases taken
        obtain ⟨none_sought, none_answered⟩ := h.none_asked cpu (by rw [phase]; rfl)
        refine h.relink s.ready (fun other => ?_) ?_ (fun m saves => ?_)
          (fun other context receives => ?_)
        · simp only [CpuLink.held, CpuPhase.pid, phase, queue, Option.toList, List.count_append,
            List.count_cons, List.count_nil]
          omega
        · simp [CpuLink.asked, List.filterMap_append, none_sought, none_answered,
            ToMemory.soughtPid, CpuPhase.awaited]
        · cases m with
          | contextTransfer pid' context => simp
          | contextSeek pid' => exact absurd rfl saves
        · rcases receives with answered | executing
          · simp [none_answered] at answered
          · simp at executing
      · simp at taken
  | serve cpu =>
      simp only [step] at taken
      split at taken
      · simp at taken
      · rename_i pid context rest queue
        cases taken
        exact h.serve_transfer queue
      · rename_i pid rest queue
        have settled : s.Settled pid := ordered pid (by simp [queue, ToMemory.soughtPid])
        have asked := h.asked cpu
        have alone : (s.cpus cpu).phase = .seeking pid ∧
            rest.filterMap ToMemory.soughtPid = [] ∧ (s.cpus cpu).fromMemory = [] := by
          cases phase : (s.cpus cpu).phase <;>
            simp_all [CpuLink.asked, CpuPhase.awaited, ToMemory.soughtPid]
        obtain ⟨phase, none_sought, none_answered⟩ := alone
        have held : pid ∈ (s.cpus cpu).held := by simp [CpuLink.held, phase, CpuPhase.pid]
        split at taken
        · rename_i unanswered
          have missing : findPcb s.memory pid = none := by
            simpa [contextSeek] using unanswered
          exact absurd missing (h.known_of_held held)
        · rename_i context table answer
          cases taken
          obtain ⟨pcb, found, eq⟩ := Option.map_eq_some_iff.mp answer
          obtain ⟨rfl, -⟩ := Prod.mk.inj eq
          refine h.relink s.ready (fun _ => le_refl _) ?_ (fun m saves => ?_)
            (fun other context receives => ?_)
          · simp [CpuLink.asked, none_sought, none_answered, phase, CpuPhase.awaited]
          · cases m with
            | contextTransfer pid' context => simp [queue]
            | contextSeek pid' => exact absurd rfl saves
          · rcases receives with answered | executing
            · simp only [none_answered, List.nil_append, List.mem_singleton, Prod.mk.injEq]
                at answered
              obtain ⟨rfl, rfl⟩ := answered
              exact ⟨h.stored _ pcb found settled, settled⟩
            · simp [phase] at executing
  | receive cpu =>
      simp only [step] at taken
      split at taken
      · rename_i pid pid' context rest phase answers
        cases taken
        have asked := h.asked cpu
        have only : pid' = pid ∧ (s.cpus cpu).toMemory.filterMap ToMemory.soughtPid = [] ∧
            rest = [] := by
          simp only [CpuLink.asked, phase, CpuPhase.awaited, answers, List.map_cons] at asked
          rcases List.append_eq_singleton_iff.mp asked with ⟨none_sought, one⟩ | ⟨-, none⟩
          · simp at one
            exact ⟨one.1, none_sought, one.2⟩
          · simp at none
        obtain ⟨rfl, none_sought, rfl⟩ := only
        refine h.relink s.ready (fun other => ?_) ?_ (fun _ _ => Iff.rfl)
          (fun other context' receives => ?_)
        · simp [CpuLink.held, phase, CpuPhase.pid]
        · simp [CpuLink.asked, none_sought, CpuPhase.awaited]
        · rcases receives with answered | executing
          · simp at answered
          · obtain ⟨rfl, rfl⟩ := CpuPhase.executing.inj executing
            exact h.fresh cpu _ _ (.inl (by simp [answers]))
      · simp at taken
  | save cpu context =>
      simp only [step] at taken
      split at taken
      · rename_i pid received executing
        cases taken
        exact h.save executing
      · simp at taken
  | notify cpu =>
      simp only [step] at taken
      split at taken
      · rename_i pid phase
        cases taken
        have asked := h.asked cpu
        refine h.relink s.ready (fun other => ?_) ?_ (fun _ _ => Iff.rfl)
          (fun other context receives => ?_)
        · simp only [CpuLink.held, phase, CpuPhase.pid, Option.toList, List.count_append,
            List.count_cons, List.count_nil]
          omega
        · rw [phase] at asked
          exact asked
        · rcases receives with answered | executing
          · exact h.fresh cpu other context (.inl answered)
          · simp at executing
      · simp at taken
  | exit cpu =>
      simp only [step] at taken
      split at taken
      · rename_i pid received phase
        cases taken
        have asked := h.asked cpu
        refine h.relink s.ready (fun other => ?_) ?_ (fun _ _ => Iff.rfl)
          (fun other context receives => ?_)
        · simp only [CpuLink.held, phase, CpuPhase.pid, Option.toList, List.count_append,
            List.count_cons, List.count_nil]
          omega
        · rw [phase] at asked
          exact asked
        · rcases receives with answered | executing
          · exact h.fresh cpu other context (.inl answered)
          · simp at executing
      · simp at taken
  | hear cpu =>
      simp only [step] at taken
      split at taken
      · simp at taken
      · rename_i pid rest queue
        cases taken
        refine h.relink _ (fun other => ?_) (h.asked cpu) (fun _ _ => Iff.rfl) (h.fresh cpu)
        simp only [CpuLink.held, queue, List.count_append, List.count_cons, List.count_nil]
        omega

end Steps

/-! ### Runs -/

omit [DecidableEq ι] in
theorem initial_coherent {memory : State} (empty : memory.listProcesses = []) :
    Coherent (initial memory : System ι) := by
  refine ⟨?_, ?_, fun cpu => rfl, fun cpu pid context mem => ?_, fun pid pcb found => ?_,
    fun cpu pid context receives => ?_⟩
  · intro pid
    simp [System.places, initial, tokens, CpuLink.held, CpuPhase.pid]
  · intro pid _
    refine ⟨?_, fun cpu m mem => ?_⟩
    · simp [System.places, initial, tokens, CpuLink.held, CpuPhase.pid]
    · simp [initial] at mem
  · simp [initial] at mem
  · simp [initial, findPcb, empty] at found
  · rcases receives with answered | executing
    · simp [initial] at answered
    · simp [initial] at executing

/-- **Context freshness**: when Kernel Memory answers each `CONTEXT_SEEK` only
after it has read every context saved for the process, every context that a CPU
receives is the one last saved. -/
theorem contexts_fresh {memory : State} {actions : List (Action ι)} {s : System ι}
    (empty : memory.listProcesses = [])
    (run : Run step (fun s a => a.InOrder s) (initial memory) actions s) : Fresh s := by
  have coherent : Coherent s :=
    run.invariant (fun h ordered taken => step_coherent h ordered taken) (initial_coherent empty)
  exact fun cpu pid context receives => (coherent.fresh cpu pid context receives).1

private def noProcesses : State :=
  KernelMemory.initial .best 4 16 (fun _ _ => 0) [] fun _ => 0

/-- A process that moves from one CPU to another. -/
theorem contexts_fresh_of_move : ∃ s : System (Fin 2), Fresh s ∧
    (s.cpus 1).phase = .executing 0 { CpuContext.zero with pc := 1 } := by
  obtain ⟨s, run, moved⟩ := Run.exists_of_exec step (fun (s : System (Fin 2)) a => a.InOrder s)
    [.create 0 ["NOOP"], .dispatch 0 0, .execute 0, .serve 0, .receive 0,
      .save 0 { CpuContext.zero with pc := 1 }, .notify 0, .hear 0, .dispatch 0 1, .execute 1,
      .serve 0, .serve 1, .receive 1]
    (initial noProcesses)
    (fun s => (s.cpus 1).phase = .executing 0 { CpuContext.zero with pc := 1 }) (by decide)
  exact ⟨s, contexts_fresh rfl run, decide_eq_true_eq.mp moved⟩

/-- The second CPU's `CONTEXT_SEEK` overtakes the first CPU's
`CONTEXT_TRANSFER`: the process starts over. -/
theorem context_stale : ∃ (s : System (Fin 2)) (actions : List (Action (Fin 2))),
    Run step (fun _ _ => True) (initial noProcesses) actions s ∧ ¬ Fresh s := by
  obtain ⟨s, run, stale⟩ := Run.exists_of_exec step (fun (_ : System (Fin 2)) _ => True)
    [.create 0 ["NOOP"], .dispatch 0 0, .execute 0, .serve 0, .receive 0,
      .save 0 { CpuContext.zero with pc := 1 }, .notify 0, .hear 0, .dispatch 0 1, .execute 1,
      .serve 1, .receive 1]
    (initial noProcesses)
    (fun s => (s.cpus 1).phase = .executing 0 .zero ∧
      s.lastSaved 0 = { CpuContext.zero with pc := 1 }) (by decide)
  obtain ⟨received, saved⟩ := decide_eq_true_eq.mp stale
  refine ⟨s, _, run, fun fresh => ?_⟩
  have eq := fresh 1 0 .zero (.inr received)
  rw [saved] at eq
  exact absurd eq (by decide)

end OsModel.Contexts
