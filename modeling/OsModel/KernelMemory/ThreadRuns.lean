import OsModel.KernelMemory.Coordination
import OsModel.KernelMemory.LayoutRuns

/-!
Runs of Kernel Memory with its threads.

* `creates_disjoint`: concurrent `segment_create`s without compaction, when no
  thread chooses a range that another one has chosen.
* `compaction_isolated`: all requests, when they also keep out of the one
  compaction under way.

`creates_overlap` and `compaction_overwrites` are runs in which two threads are
given the same range.
-/

namespace OsModel.KernelMemory

open Lib Span

/-! ### One step of a thread -/

section Step

variable {s s' : State} {rest : List CreateThread} {th : CreateThread} {phase : Phase}

/-- A step that makes and records no copy and changes nothing else. -/
theorem Follows.idle (before : th.phase.copied = none) (after : phase.copied = none) :
    Follows s (th :: rest) s ({ th with phase := phase } :: rest) :=
  (Follows.refl s rest).of_copies (copies_cons th rest before)
    (copies_cons { th with phase := phase } rest after)

/-- The first look for a hole. -/
theorem Coordinated.start (h : Coordinated s (th :: rest)) (phase_eq : th.phase = .starting)
    (clear : th.Clear s (th :: rest)) (stepped : createStep s th = some (s', phase)) :
    Coordinated s' ({ th with phase := phase } :: rest) ∧
      Follows s (th :: rest) s' ({ th with phase := phase } :: rest) ∧ s' = s := by
  have sized := h.sized th List.mem_cons_self
  have idle : th.pending = none := by rw [CreateThread.pending, phase_eq]
  have still : th.phase.compacting = none := by rw [phase_eq]; rfl
  have uncopied : th.phase.copied = none := by rw [phase_eq]; rfl
  simp only [CreateThread.Clear, phase_eq] at clear
  simp only [createStep, phase_eq] at stepped
  split at stepped
  · cases stepped
    exact ⟨h.tail.cons_idle sized rfl rfl, .idle uncopied rfl, rfl⟩
  · split at stepped
    · rename_i chosen selected
      cases stepped
      exact ⟨h.choose idle still selected clear, .idle uncopied rfl, rfl⟩
    · cases stepped
      exact ⟨h.tail.cons_idle sized rfl rfl, .idle uncopied rfl, rfl⟩

/-- The second look for a hole. -/
theorem Coordinated.retry (h : Coordinated s (th :: rest)) (phase_eq : th.phase = .retrying)
    (clear : th.Clear s (th :: rest)) (stepped : createStep s th = some (s', phase)) :
    Coordinated s' ({ th with phase := phase } :: rest) ∧
      Follows s (th :: rest) s' ({ th with phase := phase } :: rest) ∧ s' = s := by
  have sized := h.sized th List.mem_cons_self
  have idle : th.pending = none := by rw [CreateThread.pending, phase_eq]
  have still : th.phase.compacting = none := by rw [phase_eq]; rfl
  have uncopied : th.phase.copied = none := by rw [phase_eq]; rfl
  simp only [CreateThread.Clear, phase_eq] at clear
  simp only [createStep, phase_eq] at stepped
  split at stepped
  · rename_i chosen selected
    cases stepped
    exact ⟨h.choose idle still selected clear, .idle uncopied rfl, rfl⟩
  · cases stepped
    exact ⟨h.tail.cons_idle sized rfl rfl, .idle uncopied rfl, rfl⟩

/-- What is known of a thread that has chosen a range. -/
theorem Coordinated.chosen {base : UInt32} (h : Coordinated s (th :: rest))
    (phase_eq : th.phase = .chosen base) :
    Free s ⟨base.toNat, th.size.toNat⟩ ∧
      (∀ p ∈ pendings rest, p.Apart ⟨base.toNat, th.size.toNat⟩) ∧
      ∀ c ∈ compactions rest, (destination s c.1 c.2).Apart ⟨base.toNat, th.size.toNat⟩ := by
  have chose : th.pending = some ⟨base.toNat, th.size.toNat⟩ := by
    rw [CreateThread.pending, phase_eq]
  have still : th.phase.compacting = none := by rw [phase_eq]; rfl
  have all : pendings (th :: rest) = ⟨base.toNat, th.size.toNat⟩ :: pendings rest :=
    List.filterMap_cons_some chose
  have same : compactions (th :: rest) = compactions rest := List.filterMap_cons_none still
  have apart := h.pendingApart
  rw [all] at apart
  refine ⟨h.pendingFree _ (all ▸ List.mem_cons_self), fun p mem => ?_, fun c mem => ?_⟩
  · exact Apart.symm (List.rel_of_pairwise_cons apart mem)
  · exact h.clear c (same ▸ mem) _ (all ▸ List.mem_cons_self)

/-- The segment recorded. -/
theorem Coordinated.record {base : UInt32} (h : Coordinated s (th :: rest))
    (phase_eq : th.phase = .chosen base) (stepped : createStep s th = some (s', phase)) :
    Coordinated s' ({ th with phase := phase } :: rest) ∧
      Follows s (th :: rest) s' ({ th with phase := phase } :: rest) ∧
      s'.devices = s.devices := by
  have sized := h.sized th List.mem_cons_self
  have uncopied : th.phase.copied = none := by rw [phase_eq]; rfl
  obtain ⟨free, unclaimed⟩ := h.chosen phase_eq
  simp only [createStep, phase_eq] at stepped
  split at stepped
  · cases stepped
    exact ⟨h.tail.cons_idle sized rfl rfl, .idle uncopied rfl, rfl⟩
  · rename_i pcb found
    cases stepped
    have sound' : Sound (addSegments s th.pid [⟨th.segmentId, th.size, base⟩]) :=
      addSegment_sound h.sound found sized free
    have effect : Effect s (addSegments s th.pid [⟨th.segmentId, th.size, base⟩]) []
        [⟨base.toNat, th.size.toNat⟩] :=
      addSegments_effect found
    obtain ⟨coordinated, follows⟩ := h.tail.effect sound' effect
      (List.forall_mem_singleton.mpr free) (by simp) (List.forall_mem_singleton.mpr unclaimed)
    exact ⟨coordinated.cons_idle sized rfl rfl, follows.of_copies (copies_cons th rest uncopied)
      (copies_cons _ rest rfl), rfl⟩

/-- **One step of a thread** keeps the threads coordinated and the segments what
they were. -/
theorem createStep_keeps (h : Coordinated s (th :: rest)) (answering : s.devices.refusals = [])
    (clear : th.Clear s (th :: rest)) (stepped : createStep s th = some (s', phase)) :
    Coordinated s' ({ th with phase := phase } :: rest) ∧
      Follows s (th :: rest) s' ({ th with phase := phase } :: rest) ∧
      s'.devices.refusals = [] := by
  have sized := h.sized th List.mem_cons_self
  cases phase_eq : th.phase with
  | starting =>
      obtain ⟨coordinated, follows, rfl⟩ := h.start phase_eq clear stepped
      exact ⟨coordinated, follows, answering⟩
  | requested =>
      have still : th.phase.compacting = none := by rw [phase_eq]; rfl
      have same : compactions (th :: rest) = compactions rest := List.filterMap_cons_none still
      have idle : th.pending = none := by rw [CreateThread.pending, phase_eq]
      have pending : pendings (th :: rest) = pendings rest := List.filterMap_cons_none idle
      simp only [CreateThread.Clear, phase_eq, same, pending] at clear
      simp only [createStep, phase_eq] at stepped
      obtain ⟨phase', scanned, eq⟩ := Option.map_eq_some_iff.mp stepped
      cases eq
      obtain ⟨coordinated, uncopied⟩ := h.tail.scanned th sized clear.1
        (moving_sortedSegments h.sound).2 clear.2 scanned
      exact ⟨coordinated, .idle (by rw [phase_eq]; rfl) uncopied, answering⟩
  | reading todo cursor =>
      have compacts : th.phase.compacting = some (todo, cursor) := by rw [phase_eq]; rfl
      have nonempty : todo ≠ [] := by
        have copying := h.copying th List.mem_cons_self
        rwa [phase_eq] at copying
      obtain ⟨alone, moving, apart⟩ := h.compacting compacts
      obtain ⟨seg, later, rfl, hand, at_hand⟩ := h.atHand compacts nonempty
      have inside := hand.top
      rw [h.sound.total] at inside
      simp only [createStep, phase_eq, at_hand,
        memoryRead_inside h.sound.fits inside] at stepped
      cases stepped
      refine ⟨h.tail.cons_compacting sized rfl rfl alone moving apart ⟨seg, at_hand, rfl⟩, ?_,
        answering⟩
      exact .idle (by rw [phase_eq]; rfl) rfl
  | writing data todo cursor =>
      have compacts : th.phase.compacting = some (todo, cursor) := by rw [phase_eq]; rfl
      have copying := h.copying th List.mem_cons_self
      rw [phase_eq] at copying
      obtain ⟨seg, at_hand, rfl⟩ := copying
      have nonempty : todo ≠ [] := by
        rintro rfl
        simp at at_hand
      obtain ⟨seg', later, rfl, hand, at_hand'⟩ := h.atHand compacts nonempty
      obtain rfl := Option.some.inj (at_hand'.symm.trans at_hand)
      have inside := hand.top
      have down := hand.down
      rw [h.sound.total] at inside
      simp only [HeapSegment.span, stop] at inside
      have exact_size : (segmentBytes s seg').length = seg'.size.toNat :=
        length_slice (by rw [length_flat]; exact inside)
      obtain ⟨wrote, stored, answered⟩ :=
        memoryWrite_spec s.devices cursor h.sound.fits exact_size
      have fits : cursor.toNat + seg'.size.toNat ≤ stickTotal s.devices.listMemoryStick := by
        omega
      simp only [createStep, phase_eq, at_hand] at stepped
      cases stepped
      obtain ⟨coordinated, follows⟩ :=
        h.write phase_eq rfl hand wrote (stored (answered answering fits)).1
      exact ⟨coordinated, follows, wrote.refusals_nil answering⟩
  | setting todo cursor =>
      have compacts : th.phase.compacting = some (todo, cursor) := by rw [phase_eq]; rfl
      have nonempty : todo ≠ [] := by
        have copying := h.copying th List.mem_cons_self
        rwa [phase_eq] at copying
      obtain ⟨seg, later, rfl, hand, at_hand⟩ := h.atHand compacts nonempty
      simp only [createStep, phase_eq, at_hand] at stepped
      obtain ⟨phase', scanned, eq⟩ := Option.map_eq_some_iff.mp stepped
      cases eq
      obtain ⟨coordinated, follows⟩ := h.set phase_eq rfl hand scanned
      exact ⟨coordinated, follows, answering⟩
  | retrying =>
      obtain ⟨coordinated, follows, rfl⟩ := h.retry phase_eq clear stepped
      exact ⟨coordinated, follows, answering⟩
  | chosen base =>
      obtain ⟨coordinated, follows, same⟩ := h.record phase_eq stepped
      exact ⟨coordinated, follows, same ▸ answering⟩
  | done result => simp [createStep, phase_eq] at stepped

end Step

/-! ### One step of Kernel Memory -/

/-- The condition on a step under which the threads stay coordinated. -/
def ThreadAction.Clear (t : Threads) : ThreadAction → Prop
  | .arrive _ _ size => 0 < size
  | .run i => ∀ th ∈ t.creates[i]?, th.Clear t.memory t.creates
  | .request op => op.Separated t.memory ∧
      (∀ c ∈ compactions t.creates, ∀ seg ∈ freedBy t.memory op, seg.ptr ∉ c.1) ∧
      ∀ sp ∈ takenBy t.memory op, Unclaimed t sp

instance (t : Threads) (a : ThreadAction) : Decidable (a.Clear t) := by
  cases a <;> unfold ThreadAction.Clear <;> infer_instance

section Steps

variable {t t' : Threads} {a : ThreadAction}

theorem CreateThread.Clear.of_perm {s : State} {ths ths' : List CreateThread} {th : CreateThread}
    (clear : th.Clear s ths) (perm : ths.Perm ths') : th.Clear s ths' := by
  have pending := pendings_perm perm
  have compacting := compactions_perm perm
  revert clear
  unfold CreateThread.Clear
  split
  · exact fun clear sp place => ⟨fun p mem => (clear sp place).1 p (pending.mem_iff.mpr mem),
      fun c mem => (clear sp place).2 c (compacting.mem_iff.mpr mem)⟩
  · exact fun clear sp place => ⟨fun p mem => (clear sp place).1 p (pending.mem_iff.mpr mem),
      fun c mem => (clear sp place).2 c (compacting.mem_iff.mpr mem)⟩
  · rintro ⟨alone, clear⟩
    exact ⟨List.Perm.eq_nil (alone ▸ compacting.symm),
      fun p mem => clear p (pending.mem_iff.mpr mem)⟩
  · exact id

theorem mem_copies_of_perm {ths ths' : List CreateThread} (perm : ths.Perm ths')
    (c : List Nat × UInt32) : c ∈ copies ths ↔ c ∈ copies ths' :=
  (perm.filterMap fun th => th.phase.copied).mem_iff

theorem Coordinated.arrive (h : Coordinated t.memory t.creates) {pid segmentId size : UInt32}
    (sized : 0 < size) :
    Coordinated t.memory (t.creates ++ [⟨pid, segmentId, size, .starting⟩]) ∧
      Follows t.memory t.creates t.memory
        (t.creates ++ [⟨pid, segmentId, size, .starting⟩]) := by
  have perm := (List.perm_append_singleton
    (⟨pid, segmentId, size, .starting⟩ : CreateThread) t.creates).symm
  constructor
  · refine Coordinated.of_perm (h.cons_idle ?_ rfl rfl) perm
    exact UInt32.lt_iff_toNat_lt.mp sized
  · refine (Follows.refl t.memory t.creates).of_copies (fun c => Iff.rfl) fun c => ?_
    rw [← mem_copies_of_perm perm]
    exact copies_cons _ t.creates rfl c

/-- **One step** keeps the threads coordinated and the segments what they were. -/
theorem threadStep_keeps (h : Coordinated t.memory t.creates)
    (answering : t.memory.devices.refusals = []) (clear : a.Clear t)
    (stepped : threadStep t a = some t') :
    Coordinated t'.memory t'.creates ∧ Follows t.memory t.creates t'.memory t'.creates ∧
      t'.memory.devices.refusals = [] := by
  cases a with
  | arrive pid segmentId size =>
      cases stepped
      obtain ⟨coordinated, follows⟩ := h.arrive clear
      exact ⟨coordinated, follows, answering⟩
  | run i =>
      obtain ⟨th, found, rest⟩ := Option.bind_eq_some_iff.mp stepped
      obtain ⟨⟨s', phase⟩, moved, rfl⟩ := Option.map_eq_some_iff.mp rest
      obtain ⟨others, before, after⟩ := perm_set found { th with phase := phase }
      obtain ⟨coordinated, follows, answering'⟩ := createStep_keeps (h.of_perm before) answering
        ((clear th found).of_perm before) moved
      exact ⟨coordinated.of_perm after.symm, follows.of_copies (mem_copies_of_perm before)
        (mem_copies_of_perm after), answering'⟩
  | request op =>
      obtain ⟨separated, kept, unclaimed⟩ := clear
      simp only [threadStep] at stepped
      split at stepped
      · rename_i handled
        obtain ⟨s', served, rfl⟩ := Option.map_eq_some_iff.mp stepped
        have effect := step_effect h.sound handled served
        have admissible : op.Admissible t.memory := by cases op <;> simp_all [Op.Handled, Op.Admissible]
        have sound' := step_sound h.sound admissible separated served
        have free : ∀ sp ∈ takenBy t.memory op, Free t.memory sp := fun sp mem => by
          cases op with
          | processDesuspend pid =>
              obtain ⟨ss, -, place⟩ := List.mem_filterMap.mp mem
              exact placeFor_free h.sound place
          | _ => simp [takenBy] at mem
        obtain ⟨coordinated, follows⟩ := h.effect sound' effect free kept unclaimed
        exact ⟨coordinated, follows, effect.refusals answering⟩
      · simp at stepped

end Steps

theorem coordinated_nil {s : State} (sound : Sound s) : Coordinated s [] :=
  ⟨sound, by simp, by simp [pendings], by simp [pendings], by simp [compactions],
    by simp [compactions], by simp [compactions], by simp⟩

/-! ### Concurrent allocations -/

/-- The steps of `segment_create`s that need no compaction. -/
def ThreadAction.Allocating (t : Threads) : ThreadAction → Prop
  | .arrive _ _ _ => True
  | .run i => ∀ th ∈ t.creates[i]?, th.phase ≠ .requested
  | .request _ => False

instance (t : Threads) (a : ThreadAction) : Decidable (a.Allocating t) := by
  cases a <;> unfold ThreadAction.Allocating <;> infer_instance

/-- What concurrent allocations keep. -/
structure Allocated (s : State) (t : Threads) : Prop where
  coordinated : Coordinated t.memory t.creates
  still : compactions t.creates = []
  kept : ∀ seg ∈ allSegments s, seg ∈ allSegments t.memory

section Allocations

variable {s s' : State} {t t' : Threads} {a : ThreadAction} {th : CreateThread} {phase : Phase}

/-- Every segment stays where it is when a thread takes a step without
compaction. -/
theorem createStep_allocates {rest : List CreateThread}
    (h : Coordinated s (th :: rest)) (still : compactions (th :: rest) = [])
    (clear : th.Clear s (th :: rest)) (calm : th.phase ≠ .requested)
    (stepped : createStep s th = some (s', phase)) :
    Coordinated s' ({ th with phase := phase } :: rest) ∧
      compactions ({ th with phase := phase } :: rest) = [] ∧
      ∀ seg ∈ allSegments s, seg ∈ allSegments s' := by
  have quiet : th.phase.compacting = none ∧ compactions rest = [] := by
    obtain ⟨here, others⟩ := List.forall_mem_cons.mp (List.filterMap_eq_nil_iff.mp still)
    exact ⟨here, List.filterMap_eq_nil_iff.mpr others⟩
  have quiet_of : phase.compacting = none →
      compactions ({ th with phase := phase } :: rest) = [] := fun none => by
    rw [← quiet.2]
    exact List.filterMap_cons_none none
  cases phase_eq : th.phase with
  | starting =>
      obtain ⟨coordinated, -, rfl⟩ := h.start phase_eq clear stepped
      refine ⟨coordinated, quiet_of ?_, fun seg mem => mem⟩
      simp only [createStep, phase_eq] at stepped
      split at stepped
      · cases stepped
        rfl
      · split at stepped <;> cases stepped <;> rfl
  | requested => exact absurd phase_eq calm
  | reading todo cursor => simp [phase_eq, Phase.compacting] at quiet
  | writing data todo cursor => simp [phase_eq, Phase.compacting] at quiet
  | setting todo cursor => simp [phase_eq, Phase.compacting] at quiet
  | retrying =>
      obtain ⟨coordinated, -, rfl⟩ := h.retry phase_eq clear stepped
      refine ⟨coordinated, quiet_of ?_, fun seg mem => mem⟩
      simp only [createStep, phase_eq] at stepped
      split at stepped <;> cases stepped <;> rfl
  | chosen base =>
      obtain ⟨coordinated, -, -⟩ := h.record phase_eq stepped
      simp only [createStep, phase_eq] at stepped
      split at stepped
      · cases stepped
        exact ⟨coordinated, quiet_of rfl, fun seg mem => mem⟩
      · rename_i pcb found
        cases stepped
        exact ⟨coordinated, quiet_of rfl, fun seg mem =>
          (addSegments_effect found).survives seg mem (by simp)⟩
  | done result => simp [createStep, phase_eq] at stepped

theorem threadStep_allocates (h : Allocated s t) (allocating : a.Allocating t)
    (clear : a.Clear t) (stepped : threadStep t a = some t') : Allocated s t' := by
  cases a with
  | arrive pid segmentId size =>
      cases stepped
      obtain ⟨coordinated, -⟩ := h.coordinated.arrive clear
      refine ⟨coordinated, ?_, h.kept⟩
      have still := h.still
      simp only [compactions, List.filterMap_append, List.append_eq_nil_iff]
      exact ⟨still, rfl⟩
  | run i =>
      obtain ⟨th, found, rest⟩ := Option.bind_eq_some_iff.mp stepped
      obtain ⟨⟨s', phase⟩, moved, rfl⟩ := Option.map_eq_some_iff.mp rest
      obtain ⟨others, before, after⟩ := perm_set found { th with phase := phase }
      have still : compactions (th :: others) = [] :=
        (h.still ▸ (compactions_perm before).symm).eq_nil
      obtain ⟨coordinated, still', kept⟩ := createStep_allocates (h.coordinated.of_perm before)
        still ((clear th found).of_perm before) (allocating th found) moved
      exact ⟨coordinated.of_perm after.symm, (still' ▸ compactions_perm after).eq_nil,
        fun seg mem => kept seg (h.kept seg mem)⟩
  | request op => exact absurd allocating id

theorem scan_ne_done {todo : List Nat} {cursor : UInt32} {result : SegmentResult} :
    scan s todo cursor ≠ some (.done result) := by
  induction todo generalizing cursor with
  | nil => simp [scan]
  | cons ptr rest ih =>
      rw [scan]
      split
      · simp
      · split
        · simp
        · exact ih

/-- Only a thread that has chosen a range reports `SEGMENT_OK`. -/
theorem chosen_of_segmentOk (stepped : createStep s th = some (s', .done .segmentOk)) :
    ∃ base pcb, th.phase = .chosen base ∧ findPcb s th.pid = some pcb ∧
      s' = addSegments s th.pid [⟨th.segmentId, th.size, base⟩] := by
  unfold createStep at stepped
  split at stepped
  · split at stepped
    · simp at stepped
    · split at stepped <;> simp at stepped
  · obtain ⟨phase', scanned, eq⟩ := Option.map_eq_some_iff.mp stepped
    cases eq
    exact absurd scanned scan_ne_done
  · split at stepped <;> simp at stepped
  · split at stepped <;> simp at stepped
  · split at stepped
    · simp at stepped
    · obtain ⟨phase', scanned, eq⟩ := Option.map_eq_some_iff.mp stepped
      cases eq
      exact absurd scanned scan_ne_done
  · split at stepped <;> simp at stepped
  · rename_i base phase_eq
    split at stepped
    · simp at stepped
    · rename_i pcb found
      cases stepped
      exact ⟨base, pcb, phase_eq, found, rfl⟩
  · simp at stepped

/-- A thread reports `SEGMENT_OK` for a segment in free memory. -/
theorem Coordinated.segmentOk {rest : List CreateThread} (h : Coordinated s (th :: rest))
    (stepped : createStep s th = some (s', .done .segmentOk)) :
    ∃ seg, (allSegments s').Perm (allSegments s ++ [seg]) ∧ seg.segmentId = th.segmentId ∧
      seg.size = th.size ∧ Free s seg.span := by
  obtain ⟨base, pcb, phase_eq, found, rfl⟩ := chosen_of_segmentOk stepped
  obtain ⟨free, -⟩ := h.chosen phase_eq
  exact ⟨_, allSegments_addSegments _ found, rfl, rfl, free⟩

/-- **Concurrent allocations**: when no thread chooses a range that another one
has chosen, the segments stay disjoint, the ones there before stay, and every
`SEGMENT_OK` is for a segment that was in free memory when it was added. -/
theorem creates_disjoint {actions : List ThreadAction} (sound : Sound s)
    (run : Run threadStep (fun t a => a.Allocating t ∧ a.Clear t) ⟨s, []⟩ actions t) :
    Layout t.memory ∧ (∀ seg ∈ allSegments s, seg ∈ allSegments t.memory) ∧
      ∀ th ∈ t.creates, ∀ s', createStep t.memory th = some (s', .done .segmentOk) →
        ∃ seg, (allSegments s').Perm (allSegments t.memory ++ [seg]) ∧
          seg.segmentId = th.segmentId ∧ seg.size = th.size ∧ Free t.memory seg.span := by
  have allocated : Allocated s t :=
    run.invariant (fun h guard taken => threadStep_allocates h guard.1 guard.2 taken)
      ⟨coordinated_nil sound, rfl, fun seg mem => mem⟩
  refine ⟨allocated.coordinated.sound.layout, allocated.kept, fun th mem s' ok => ?_⟩
  obtain ⟨before, after, split⟩ := List.append_of_mem mem
  have perm : t.creates.Perm (th :: (before ++ after)) := split ▸ List.perm_middle
  exact (allocated.coordinated.of_perm perm).segmentOk ok

end Allocations

/-- Eight bytes of memory and two processes without segments. -/
private def twoReady : State :=
  processCreate (processCreate
    (connectStick (initial .worst 4 16 (fun _ _ => 0) [] fun _ => 0) 0 8) 1 (some [])) 2 (some [])

theorem twoReady_sound : Sound twoReady :=
  processCreate_sound (processCreate_sound (connectStick_sound (initial_sound ..) (by decide)))

/-- Two threads, the second of which chooses after the first one has recorded. -/
theorem creates_disjoint_of_two : ∃ t : Threads, (allSegments t.memory).length = 2 ∧
    Layout t.memory := by
  obtain ⟨t, run, two⟩ := Run.exists_of_exec threadStep (fun t a => a.Allocating t ∧ a.Clear t)
    [.arrive 1 0 4, .arrive 2 0 4, .run 0, .run 0, .run 1, .run 1] ⟨twoReady, []⟩
    (fun t => (allSegments t.memory).length == 2) (by decide)
  exact ⟨t, beq_iff_eq.mp two, (creates_disjoint twoReady_sound run).1⟩

/-- Two threads that choose before either has recorded get the same range. -/
theorem creates_overlap : ∃ s actions t, Sound s ∧
    Run threadStep (fun t a => a.Allocating t) ⟨s, []⟩ actions t ∧
    (∀ th ∈ t.creates, 0 < th.size ∧ th.phase = .done .segmentOk) ∧ ¬ Layout t.memory := by
  obtain ⟨t, run, overlap⟩ := Run.exists_of_exec threadStep (fun t a => a.Allocating t)
    [.arrive 1 0 4, .arrive 2 0 4, .run 0, .run 1, .run 0, .run 1] ⟨twoReady, []⟩
    (fun t => (∀ th ∈ t.creates, 0 < th.size ∧ th.phase = .done .segmentOk) ∧
      ¬ (allSegments t.memory).Pairwise fun a b => a.span.Apart b.span) (by decide)
  obtain ⟨finished, overlaps⟩ := decide_eq_true_eq.mp overlap
  exact ⟨_, _, t, twoReady_sound, run, finished, fun layout => overlaps layout.apart⟩

/-! ### Everything at once -/

/-- Coordinated threads over sticks that answer every request. -/
structure Undisturbed (t : Threads) : Prop where
  coordinated : Coordinated t.memory t.creates
  answering : t.memory.devices.refusals = []

section Isolation

variable {s : State} {t u : Threads} {a : ThreadAction}

theorem Undisturbed.step (h : Undisturbed t) (clear : a.Clear t) (stepped : threadStep t a = some u) :
    Undisturbed u ∧ Follows t.memory t.creates u.memory u.creates := by
  obtain ⟨coordinated, follows, answering⟩ := threadStep_keeps h.coordinated h.answering clear stepped
  exact ⟨⟨coordinated, answering⟩, follows⟩

/-- **Compaction is isolated**: when nobody takes a range that someone else has a
claim to and no segment that a compaction has still to pass is freed, then at
every moment without a copy under way the segments are disjoint, and each one
that was there at an earlier moment has its identity, its size and the bytes it
held then. -/
theorem compaction_isolated {actions actions' : List ThreadAction} (sound : Sound s)
    (answering : s.devices.refusals = [])
    (run : Run threadStep (fun t a => a.Clear t) ⟨s, []⟩ actions t)
    (later : Run threadStep (fun t a => a.Clear t) t actions' u)
    (quiet : copies u.creates = []) :
    Layout u.memory ∧ ∀ seg' ∈ allSegments u.memory, seg'.ptr < t.memory.nextPtr →
      ∃ seg ∈ allSegments t.memory, seg.ptr = seg'.ptr ∧ seg.segmentId = seg'.segmentId ∧
        seg.size = seg'.size ∧
        ∀ bytes, Holds t.memory t.creates seg bytes → segmentBytes u.memory seg' = bytes := by
  have middle : Undisturbed t :=
    run.invariant (fun h clear stepped => (h.step clear stepped).1)
      ⟨coordinated_nil sound, answering⟩
  have final : Undisturbed u :=
    later.invariant (fun h clear stepped => (h.step clear stepped).1) middle
  have follows : Follows t.memory t.creates u.memory u.creates :=
    later.relates (fun t => Follows.refl t.memory t.creates) (fun h h' => h.trans h')
      (fun h clear stepped => h.step clear stepped) middle
  refine ⟨final.coordinated.sound.layout, fun seg' mem below => ?_⟩
  obtain ⟨seg, old, ptr, id, size, holds⟩ := follows.segments seg' mem below
  exact ⟨seg, old, ptr, id, size, fun bytes held => (holds bytes held).still (by simp [quiet])⟩

end Isolation

/-- A hole below two segments, and a process to grow. -/
private def fragmented : State :=
  (segmentDelete (segmentCreate (segmentCreate (segmentCreate twoReady 1 0 2).2 1 1 2).2 1 2 2).2
    1 0).2

theorem fragmented_sound : Sound fragmented :=
  segmentDelete_sound (segmentCreate_sound (segmentCreate_sound (segmentCreate_sound twoReady_sound
    (by decide)) (by decide)) (by decide))

/-- The two segments with the bytes 5, 6 and 7, 8. -/
private def filled : State := (ioMemoryWrite fragmented 2 4 [5, 6, 7, 8]).2

theorem filled_sound : Sound filled := ioMemoryWrite_sound fragmented_sound

/-- The compaction moves the first segment, the segment is deleted, and the second one is copied;
then the compaction ends, and the allocation comes behind it. -/
theorem compaction_isolated_of_one : ∃ t u : Threads, copies t.creates = [([2], 2)] ∧
    Layout u.memory ∧ ((allSegments u.memory).map fun seg => seg.base) = [2, 4] ∧
      ∀ seg ∈ allSegments u.memory, seg.ptr = 2 → segmentBytes u.memory seg = [7, 8] := by
  obtain ⟨t, run, found⟩ := Run.exists_of_exec threadStep (fun t a => a.Clear t)
    [.arrive 1 3 4, .run 0, .run 0, .run 0, .run 0, .run 0, .request (.segmentDelete 1 1), .run 0,
      .run 0] ⟨filled, []⟩
    (fun t => decide (copies t.creates = [([2], 2)] ∧ 2 < t.memory.nextPtr ∧
      ∀ seg ∈ allSegments t.memory,
        slice (flat t.memory.devices.listMemoryStick) 2 seg.size.toNat = [7, 8]) &&
      (exec threadStep (fun t a => a.Clear t) [.run 0, .run 0, .run 0] t).any fun u =>
        decide (copies u.creates = [] ∧
          ((allSegments u.memory).map fun seg => seg.base) = [2, 4])) (by decide)
  obtain ⟨copied, more⟩ := Bool.and_eq_true_iff.mp found
  obtain ⟨pending, known, copied⟩ := of_decide_eq_true copied
  obtain ⟨u, later, ended⟩ := Run.exists_of_exec _ _ _ _ _ more
  obtain ⟨quiet, bases⟩ := of_decide_eq_true ended
  obtain ⟨layout, kept⟩ := compaction_isolated filled_sound rfl run later quiet
  refine ⟨t, u, pending, layout, bases, fun seg' mem ptr => ?_⟩
  obtain ⟨seg, old, same, -, -, bytes⟩ := kept seg' mem (ptr ▸ known)
  apply bytes
  constructor
  · intro c mem _
    rw [pending] at mem
    obtain rfl := List.mem_singleton.mp mem
    exact copied seg old
  · intro others
    have here := others ([2], 2) (by simp [pending])
    exact absurd (by simp [same, ptr]) here

/-- A segment placed in the range that a compaction is about to fill. -/
theorem compaction_overwrites : ∃ s actions t, Sound s ∧ s.devices.refusals = [] ∧
    Run threadStep (fun _ _ => True) ⟨s, []⟩ actions t ∧
    (∀ th ∈ t.creates, 0 < th.size ∧ th.phase = .done .segmentOk) ∧ ¬ Layout t.memory := by
  obtain ⟨t, run, overlap⟩ := Run.exists_of_exec threadStep (fun _ _ => True)
    [.arrive 1 3 4, .run 0, .run 0, .arrive 2 0 2, .run 1, .run 1, .run 0, .run 0, .run 0,
      .run 0, .run 0, .run 0, .run 0, .run 0] ⟨fragmented, []⟩
    (fun t => (∀ th ∈ t.creates, 0 < th.size ∧ th.phase = .done .segmentOk) ∧
      ¬ (allSegments t.memory).Pairwise fun a b => a.span.Apart b.span) (by decide)
  obtain ⟨finished, overlaps⟩ := decide_eq_true_eq.mp overlap
  exact ⟨_, _, t, fragmented_sound, rfl, run, finished, fun layout => overlaps layout.apart⟩

end OsModel.KernelMemory
