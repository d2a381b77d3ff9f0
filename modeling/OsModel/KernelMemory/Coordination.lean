import OsModel.KernelMemory.CompactionProgress
import OsModel.KernelMemory.Requests

/-!
The threads of Kernel Memory, coordinated.

`Coordinated` is what the threads keep as long as every range is taken
unclaimed: each range chosen is free and nobody else's, and the one compaction
under way fills only ranges that nobody chose. Nothing in the sources
coordinates them; the conditions here are what it would take.

The order of the threads does not matter, so a step is proved for a thread at
the head of the list.
-/

namespace OsModel.KernelMemory

open Lib Span

/-! ### The invariant -/

/-- What a thread in the middle of a copy relies on. -/
def Copying (s : State) : Phase → Prop
  | .reading todo _ | .setting todo _ => todo ≠ []
  | .writing data todo _ => ∃ seg, todo.head?.bind (segmentAt s) = some seg ∧
      data = some (segmentBytes s seg)
  | _ => True

/-- The threads claim different free ranges. -/
structure Coordinated (s : State) (ths : List CreateThread) : Prop where
  sound : Sound s
  sized : ∀ th ∈ ths, 0 < th.size.toNat
  pendingFree : ∀ p ∈ pendings ths, Free s p
  pendingApart : (pendings ths).Pairwise Apart
  alone : (compactions ths).length ≤ 1
  moving : ∀ c ∈ compactions ths, Moving s c.1 c.2
  clear : ∀ c ∈ compactions ths, ∀ p ∈ pendings ths, (destination s c.1 c.2).Apart p
  copying : ∀ th ∈ ths, Copying s th.phase

section Coordinated

variable {s : State} {ths ths' rest : List CreateThread} {th : CreateThread}

theorem pendings_perm (perm : ths.Perm ths') : (pendings ths).Perm (pendings ths') :=
  perm.filterMap CreateThread.pending

theorem compactions_perm (perm : ths.Perm ths') : (compactions ths).Perm (compactions ths') :=
  perm.filterMap fun th : CreateThread => th.phase.compacting

theorem Coordinated.of_perm (h : Coordinated s ths) (perm : ths.Perm ths') :
    Coordinated s ths' := by
  have pending := pendings_perm perm
  have compacting := compactions_perm perm
  refine ⟨h.sound, fun th mem => h.sized th (perm.mem_iff.mpr mem),
    fun p mem => h.pendingFree p (pending.mem_iff.mpr mem),
    (pending.pairwise_iff fun apart => Apart.symm apart).mp h.pendingApart, ?_,
    fun c mem => h.moving c (compacting.mem_iff.mpr mem),
    fun c mem p mem' => h.clear c (compacting.mem_iff.mpr mem) p (pending.mem_iff.mpr mem'),
    fun th mem => h.copying th (perm.mem_iff.mpr mem)⟩
  exact compacting.length_eq ▸ h.alone

/-- The other threads are coordinated among themselves. -/
theorem Coordinated.tail (h : Coordinated s (th :: rest)) : Coordinated s rest := by
  have sub : rest.Sublist (th :: rest) := List.sublist_cons_self th rest
  have pending := sub.filterMap CreateThread.pending
  have compacting := sub.filterMap fun th => th.phase.compacting
  exact ⟨h.sound, fun th mem => h.sized th (sub.subset mem),
    fun p mem => h.pendingFree p (pending.subset mem), h.pendingApart.sublist pending,
    compacting.length_le.trans h.alone, fun c mem => h.moving c (compacting.subset mem),
    fun c mem p mem' => h.clear c (compacting.subset mem) p (pending.subset mem'),
    fun th mem => h.copying th (sub.subset mem)⟩

/-- A thread that claims nothing. -/
theorem Coordinated.cons_idle (h : Coordinated s rest) (sized : 0 < th.size.toNat)
    (idle : th.pending = none) (still : th.phase.compacting = none) :
    Coordinated s (th :: rest) := by
  have pending : pendings (th :: rest) = pendings rest := List.filterMap_cons_none idle
  have compacting : compactions (th :: rest) = compactions rest := List.filterMap_cons_none still
  refine ⟨h.sound, List.forall_mem_cons.mpr ⟨sized, h.sized⟩, pending ▸ h.pendingFree,
    pending ▸ h.pendingApart, compacting ▸ h.alone, compacting ▸ h.moving,
    by rw [pending, compacting]; exact h.clear, List.forall_mem_cons.mpr ⟨?_, h.copying⟩⟩
  unfold Copying
  split <;> simp_all [Phase.compacting]

/-- A thread that has chosen a range. -/
theorem Coordinated.cons_pending {sp : Span} (h : Coordinated s rest)
    (sized : 0 < th.size.toNat) (chose : th.pending = some sp)
    (still : th.phase.compacting = none) (free : Free s sp)
    (unclaimed : (∀ p ∈ pendings rest, p.Apart sp) ∧
      ∀ c ∈ compactions rest, (destination s c.1 c.2).Apart sp) :
    Coordinated s (th :: rest) := by
  have pending : pendings (th :: rest) = sp :: pendings rest := List.filterMap_cons_some chose
  have compacting : compactions (th :: rest) = compactions rest := List.filterMap_cons_none still
  refine ⟨h.sound, List.forall_mem_cons.mpr ⟨sized, h.sized⟩, ?_, ?_, compacting ▸ h.alone,
    compacting ▸ h.moving, ?_, List.forall_mem_cons.mpr ⟨?_, h.copying⟩⟩
  · rw [pending]
    exact List.forall_mem_cons.mpr ⟨free, h.pendingFree⟩
  · rw [pending]
    exact .cons (fun p mem => Apart.symm (unclaimed.1 p mem)) h.pendingApart
  · rw [pending, compacting]
    exact fun c mem => List.forall_mem_cons.mpr ⟨unclaimed.2 c mem, h.clear c mem⟩
  · unfold Copying
    split <;> simp_all [Phase.compacting]

/-- A thread in the middle of a compaction, the only one. -/
theorem Coordinated.cons_compacting {todo : List Nat} {cursor : UInt32} (h : Coordinated s rest)
    (sized : 0 < th.size.toNat) (idle : th.pending = none)
    (compacts : th.phase.compacting = some (todo, cursor)) (alone : compactions rest = [])
    (moving : Moving s todo cursor)
    (clear : ∀ p ∈ pendings rest, (destination s todo cursor).Apart p)
    (copying : Copying s th.phase) : Coordinated s (th :: rest) := by
  have pending : pendings (th :: rest) = pendings rest := List.filterMap_cons_none idle
  have compacting : compactions (th :: rest) = [(todo, cursor)] := by
    rw [← alone]
    exact List.filterMap_cons_some compacts
  refine ⟨h.sound, List.forall_mem_cons.mpr ⟨sized, h.sized⟩, pending ▸ h.pendingFree,
    pending ▸ h.pendingApart, by simp [compacting], ?_, ?_,
    List.forall_mem_cons.mpr ⟨copying, h.copying⟩⟩
  · rw [compacting]
    exact List.forall_mem_singleton.mpr moving
  · rw [compacting, pending]
    exact List.forall_mem_singleton.mpr clear

/-- What is known of a thread in the middle of a compaction. -/
theorem Coordinated.compacting {todo : List Nat} {cursor : UInt32}
    (h : Coordinated s (th :: rest)) (compacts : th.phase.compacting = some (todo, cursor)) :
    compactions rest = [] ∧ Moving s todo cursor ∧
      ∀ p ∈ pendings rest, (destination s todo cursor).Apart p := by
  have all : compactions (th :: rest) = (todo, cursor) :: compactions rest :=
    List.filterMap_cons_some compacts
  have alone := h.alone
  rw [all, List.length_cons] at alone
  have here : (todo, cursor) ∈ compactions (th :: rest) := by simp [all]
  refine ⟨List.eq_nil_of_length_eq_zero (by omega), h.moving _ here, fun p mem => ?_⟩
  exact h.clear _ here p (((List.sublist_cons_self th rest).filterMap _).subset mem)

end Coordinated

/-! ### Where the bytes of a segment are -/

/-- The copy a thread has made and not recorded yet. -/
def Phase.copied : Phase → Option (List Nat × UInt32)
  | .setting todo cursor => some (todo, cursor)
  | _ => none

/-- The copies made and not recorded yet. -/
def copies (ths : List CreateThread) : List (List Nat × UInt32) :=
  ths.filterMap fun th => th.phase.copied

/-- The segment holds these bytes: at its base, or already where a compaction has
copied it. -/
structure Holds (s : State) (ths : List CreateThread) (seg : HeapSegment) (bytes : List UInt8) :
    Prop where
  moved : ∀ c ∈ copies ths, c.1.head? = some seg.ptr →
    slice (flat s.devices.listMemoryStick) c.2.toNat seg.size.toNat = bytes
  still : (∀ c ∈ copies ths, c.1.head? ≠ some seg.ptr) → segmentBytes s seg = bytes

/-- Every segment that is left is an old one with its identity, its size and its
bytes. -/
structure Follows (s : State) (ths : List CreateThread) (s' : State)
    (ths' : List CreateThread) : Prop where
  ptrs : s.nextPtr ≤ s'.nextPtr
  segments : ∀ seg' ∈ allSegments s', seg'.ptr < s.nextPtr →
    ∃ seg ∈ allSegments s, seg.ptr = seg'.ptr ∧ seg.segmentId = seg'.segmentId ∧
      seg.size = seg'.size ∧ ∀ bytes, Holds s ths seg bytes → Holds s' ths' seg' bytes

section Follows

variable {s s' s'' : State} {ths ths' ths'' : List CreateThread}

theorem Follows.trans (h : Follows s ths s' ths') (h' : Follows s' ths' s'' ths'') :
    Follows s ths s'' ths'' := by
  refine ⟨h.ptrs.trans h'.ptrs, fun seg'' mem'' below => ?_⟩
  obtain ⟨seg', mem', ptr', id', size', holds'⟩ :=
    h'.segments seg'' mem'' (below.trans_le h.ptrs)
  obtain ⟨seg, mem, ptr, id, size, holds⟩ := h.segments seg' mem' (ptr'.symm ▸ below)
  exact ⟨seg, mem, ptr.trans ptr', id.trans id', size.trans size',
    fun bytes old => holds' bytes (holds bytes old)⟩

/-- Only the copies of the threads matter. -/
theorem Holds.of_copies {seg : HeapSegment} {bytes : List UInt8} (h : Holds s ths seg bytes)
    (same : ∀ c, c ∈ copies ths' ↔ c ∈ copies ths) : Holds s ths' seg bytes :=
  ⟨fun c mem => h.moved c ((same c).mp mem), fun out => h.still fun c mem => out c ((same c).mpr mem)⟩

theorem Follows.of_copies (h : Follows s ths s' ths')
    {us us' : List CreateThread} (same : ∀ c, c ∈ copies us ↔ c ∈ copies ths)
    (same' : ∀ c, c ∈ copies us' ↔ c ∈ copies ths') : Follows s us s' us' := by
  refine ⟨h.ptrs, fun seg' mem below => ?_⟩
  obtain ⟨seg, old, ptr, id, size, holds⟩ := h.segments seg' mem below
  exact ⟨seg, old, ptr, id, size, fun bytes held =>
    (holds bytes (held.of_copies fun c => (same c).symm)).of_copies same'⟩

theorem Follows.refl (s : State) (ths : List CreateThread) : Follows s ths s ths :=
  ⟨le_refl _, fun seg mem _ => ⟨seg, mem, rfl, rfl, rfl, fun _ held => held⟩⟩

end Follows

/-! ### A step that frees and takes -/

section Effects

variable {s s' : State} {ths : List CreateThread} {freed : List HeapSegment} {taken : List Span}

/-- A step that frees no segment of a compaction and takes unclaimed ranges only. -/
theorem Coordinated.effect (h : Coordinated s ths) (sound' : Sound s')
    (e : Effect s s' freed taken) (free : ∀ sp ∈ taken, Free s sp)
    (kept : ∀ c ∈ compactions ths, ∀ seg ∈ freed, seg.ptr ∉ c.1)
    (unclaimed : ∀ sp ∈ taken, (∀ p ∈ pendings ths, p.Apart sp) ∧
      ∀ c ∈ compactions ths, (destination s c.1 c.2).Apart sp) :
    Coordinated s' ths ∧ Follows s ths s' ths := by
  have alive : ∀ c ∈ compactions ths, ∀ ptr ∈ c.1, segmentAt s' ptr = segmentAt s ptr := by
    intro c mem ptr listed
    obtain ⟨seg, found⟩ := Option.isSome_iff_exists.mp ((h.moving c mem).alive ptr listed)
    obtain ⟨resident, rfl⟩ := segmentAt_mem found
    have stays := e.survives seg resident fun gone => kept c mem seg gone listed
    rw [segmentAt_eq sound' stays, found]
  have pointed_eq : ∀ c ∈ compactions ths, pointed s' c.1 = pointed s c.1 := fun c mem =>
    List.filterMap_congr (alive c mem)
  have destination_eq : ∀ c ∈ compactions ths, destination s' c.1 c.2 = destination s c.1 c.2 :=
    fun c mem => by rw [destination, destination, pointed_eq c mem]
  have bytes : ∀ seg ∈ allSegments s, segmentBytes s' seg = segmentBytes s seg := fun seg mem =>
    e.bytes _ _ fun sp hsp => Apart.symm ((free sp hsp).apart seg mem)
  constructor
  · refine ⟨sound', h.sized, fun p mem => ⟨?_, fun seg hseg => ?_⟩, h.pendingApart, h.alone,
      fun c mem => ⟨fun ptr listed => ?_, (h.moving c mem).once, ?_, fun seg hseg out => ?_⟩,
      fun c mem p hp => ?_, fun th mem => ?_⟩
    · rw [e.total]
      exact (h.pendingFree p mem).inside
    · rcases e.old seg hseg with old | ⟨-, new⟩
      · exact (h.pendingFree p mem).apart seg old
      · exact (unclaimed _ new).1 p mem
    · rw [alive c mem ptr listed]
      exact (h.moving c mem).alive ptr listed
    · rw [pointed_eq c mem, e.total]
      exact (h.moving c mem).ordered
    · rw [destination_eq c mem]
      rcases e.old seg hseg with old | ⟨-, new⟩
      · exact (h.moving c mem).clear seg old out
      · exact (unclaimed _ new).2 c mem
    · rw [destination_eq c mem]
      exact h.clear c mem p hp
    · have copying := h.copying th mem
      revert copying
      unfold Copying
      split
      · exact id
      · exact id
      · rename_i data todo cursor phase
        rintro ⟨seg, found, rfl⟩
        have here : (todo, cursor) ∈ compactions ths :=
          List.mem_filterMap.mpr ⟨th, mem, by rw [phase]; rfl⟩
        obtain ⟨ptr, head, at_ptr⟩ := Option.bind_eq_some_iff.mp found
        refine ⟨seg, ?_, by rw [bytes seg (segmentAt_mem at_ptr).1]⟩
        rw [head, Option.bind_some, alive _ here ptr (List.mem_of_mem_head? head)]
        exact at_ptr
      · exact id
  · refine ⟨e.ptrs, fun seg mem below => ?_⟩
    rcases e.old seg mem with old | ⟨new, -⟩
    · refine ⟨seg, old, rfl, rfl, rfl, fun content held => ⟨fun c copied head => ?_, fun out => ?_⟩⟩
      · obtain ⟨th, among, eq⟩ := List.mem_filterMap.mp copied
        have compacts : c ∈ compactions ths := by
          refine List.mem_filterMap.mpr ⟨th, among, ?_⟩
          revert eq
          cases th.phase <;> simp [Phase.copied, Phase.compacting]
        rw [← held.moved c copied head]
        refine e.bytes _ _ fun sp hsp => ?_
        obtain ⟨todo, cursor⟩ := c
        obtain ⟨rest, rfl⟩ : ∃ rest, todo = seg.ptr :: rest := by
          cases todo with
          | nil => simp at head
          | cons ptr rest => exact ⟨rest, by simpa using head⟩
        obtain ⟨seg', same, hand⟩ := (h.moving _ compacts).atHand
        obtain rfl := eq_of_ptr h.sound old hand.mem same
        have clear := (unclaimed sp hsp).2 _ compacts
        simp only at clear
        rw [hand.whole] at clear
        refine clear.of_subset ⟨le_refl _, ?_⟩ ⟨le_refl _, le_refl _⟩
        simp only [stop]
        omega
      · rw [bytes seg old]
        exact held.still out
    · omega

end Effects

/-! ### One step of a thread -/

section Step

variable {s s' : State} {rest : List CreateThread} {th : CreateThread} {phase : Phase}

/-- The condition on a step of a thread: a range it chooses is unclaimed, and a
compaction starts alone, over ranges nobody chose. -/
def CreateThread.Clear (s : State) (ths : List CreateThread) (th : CreateThread) : Prop :=
  match th.phase with
  | .starting | .retrying => ∀ sp ∈ placeFor s th.size, Unclaimed ⟨s, ths⟩ sp
  | .requested => compactions ths = [] ∧ ∀ p ∈ pendings ths,
      (destination s ((sortedSegments s).map HeapSegment.ptr) 0).Apart p
  | _ => True

instance (s : State) (ths : List CreateThread) (th : CreateThread) :
    Decidable (th.Clear s ths) := by
  unfold CreateThread.Clear
  split <;> infer_instance

theorem copies_cons (th : CreateThread) (rest : List CreateThread) (still : th.phase.copied = none)
    (c : List Nat × UInt32) : c ∈ copies (th :: rest) ↔ c ∈ copies rest := by
  have same : copies (th :: rest) = copies rest := List.filterMap_cons_none still
  rw [same]

/-- Choosing a hole. -/
theorem Coordinated.choose {chosen : Hole} (h : Coordinated s (th :: rest))
    (idle : th.pending = none) (still : th.phase.compacting = none)
    (selected : selectHole s.allocationStrategy (getFreeHoles s) th.size = some chosen)
    (clear : ∀ sp ∈ placeFor s th.size, Unclaimed ⟨s, th :: rest⟩ sp) :
    Coordinated s ({ th with phase := .chosen chosen.base } :: rest) := by
  have place := placeFor_of_selectHole selected
  have unclaimed := clear _ place
  have pending : pendings (th :: rest) = pendings rest := List.filterMap_cons_none idle
  have compacting : compactions (th :: rest) = compactions rest := List.filterMap_cons_none still
  simp only [Unclaimed, pending, compacting] at unclaimed
  exact h.tail.cons_pending (h.sized th List.mem_cons_self) rfl rfl (placeFor_free h.sound place)
    unclaimed

/-- A thread whose compaction goes on to the next segment, or is over. -/
theorem Coordinated.scanned {todo : List Nat} {cursor : UInt32} (h : Coordinated s rest)
    (th : CreateThread) (sized : 0 < th.size.toNat) (alone : compactions rest = [])
    (moving : Moving s todo cursor)
    (clear : ∀ p ∈ pendings rest, (destination s todo cursor).Apart p)
    (scanned : scan s todo cursor = some phase) :
    Coordinated s ({ th with phase := phase } :: rest) ∧ phase.copied = none := by
  rcases scan_spec h.sound moving with done | ⟨todo', cursor', next, nonempty, moving', low, high⟩
  · obtain rfl := Option.some.inj (scanned.symm.trans done)
    exact ⟨h.cons_idle sized rfl rfl, rfl⟩
  · obtain rfl := Option.some.inj (scanned.symm.trans next)
    refine ⟨h.cons_compacting sized rfl rfl alone moving' (fun p mem => ?_) nonempty, rfl⟩
    exact (clear p mem).of_subset ⟨low, high⟩ ⟨le_refl _, le_refl _⟩

/-- The segment at hand of a thread in the middle of a copy. -/
theorem Coordinated.atHand {todo : List Nat} {cursor : UInt32} (h : Coordinated s (th :: rest))
    (compacts : th.phase.compacting = some (todo, cursor)) (nonempty : todo ≠ []) :
    ∃ seg later, todo = seg.ptr :: later ∧ AtHand s seg later cursor ∧
      todo.head?.bind (segmentAt s) = some seg := by
  obtain ⟨-, moving, -⟩ := h.compacting compacts
  cases todo with
  | nil => exact absurd rfl nonempty
  | cons ptr later =>
      obtain ⟨seg, rfl, hand⟩ := moving.atHand
      exact ⟨seg, later, rfl, hand, hand.found⟩

/-- New contents of the sticks, while no other thread is in the middle of a copy. -/
theorem Coordinated.of_devices {d : Devices} (h : Coordinated s rest)
    (alone : compactions rest = [])
    (total : stickTotal d.listMemoryStick = stickTotal s.devices.listMemoryStick) :
    Coordinated { s with devices := d } rest := by
  refine ⟨h.sound.of_devices total, h.sized,
    fun p mem => ⟨(h.pendingFree p mem).inside, (h.pendingFree p mem).apart⟩, h.pendingApart,
    h.alone, by simp [alone], by simp [alone], fun th mem => ?_⟩
  have still : th.phase.compacting = none := by
    cases eq : th.phase.compacting with
    | none => rfl
    | some c =>
        have among : c ∈ compactions rest := List.mem_filterMap.mpr ⟨th, mem, eq⟩
        simp [alone] at among
  unfold Copying
  split <;> simp_all [Phase.compacting]

/-- The copy of a segment to its destination. -/
theorem Coordinated.write {data : Option (List UInt8)} {todo : List Nat} {cursor : UInt32}
    {seg : HeapSegment} {later : List Nat} {d : Devices} (h : Coordinated s (th :: rest))
    (phase_eq : th.phase = .writing data todo cursor) (todo_eq : todo = seg.ptr :: later)
    (hand : AtHand s seg later cursor)
    (wrote : s.devices.Wrote cursor.toNat seg.size.toNat d)
    (stored : flat d.listMemoryStick =
      writeAt (flat s.devices.listMemoryStick) cursor.toNat (segmentBytes s seg)) :
    Coordinated { s with devices := d } ({ th with phase := .setting todo cursor } :: rest) ∧
      Follows s (th :: rest) { s with devices := d }
        ({ th with phase := .setting todo cursor } :: rest) := by
  subst todo_eq
  obtain ⟨alone, moving, clear⟩ := h.compacting (by rw [phase_eq]; rfl)
  have total := wrote.stickTotal_eq
  have no_copies : copies rest = [] := by
    refine List.filterMap_eq_nil_iff.mpr fun th' mem => ?_
    have still := List.filterMap_eq_nil_iff.mp alone th' mem
    revert still
    cases th'.phase <;> simp [Phase.copied, Phase.compacting]
  have no_copy : copies (th :: rest) = [] :=
    (List.filterMap_cons_none (by rw [phase_eq]; rfl)).trans no_copies
  have one_copy : copies ({ th with phase := .setting (seg.ptr :: later) cursor } :: rest) =
      [(seg.ptr :: later, cursor)] :=
    congrArg (List.cons (seg.ptr :: later, cursor)) no_copies
  have fits : cursor.toNat + seg.size.toNat ≤ (flat s.devices.listMemoryStick).length := by
    have top := hand.top
    have down := hand.down
    rw [h.sound.total] at top
    rw [length_flat]
    simp only [HeapSegment.span, stop] at top
    omega
  have length_eq : (segmentBytes s seg).length = seg.size.toNat := by
    have top := hand.top
    rw [h.sound.total] at top
    exact length_slice (by rw [length_flat]; exact top)
  constructor
  · exact (h.tail.of_devices alone total).cons_compacting (h.sized th List.mem_cons_self) rfl rfl
      alone ⟨moving.alive, moving.once, moving.ordered, moving.clear⟩ clear (by simp [Copying])
  · refine ⟨le_refl _, fun other mem _ => ⟨other, mem, rfl, rfl, rfl, fun bytes held => ?_⟩⟩
    have before := held.still (by simp [no_copy])
    refine ⟨fun c copied head => ?_, fun out => ?_⟩
    · rw [one_copy] at copied
      obtain rfl := List.mem_singleton.mp copied
      obtain rfl := eq_of_ptr h.sound hand.mem mem (by simpa using head.symm)
      simp only
      rw [stored, ← before, ← length_eq]
      exact slice_writeAt (by rw [length_eq]; exact fits)
    · rw [one_copy] at out
      have ne : other.ptr ≠ seg.ptr := fun eq => out _ (List.mem_singleton_self _) (by simp [eq])
      have apart := moving.apart_of_ne h.sound hand mem ne
      rw [← before]
      refine wrote.bytes.slice_eq ?_
      simp only [Apart, HeapSegment.span, stop] at apart
      omega

/-- The base of a segment set to where its bytes are. -/
theorem Coordinated.set {todo : List Nat} {cursor : UInt32} {seg : HeapSegment}
    {later : List Nat} (h : Coordinated s (th :: rest))
    (phase_eq : th.phase = .setting todo cursor) (todo_eq : todo = seg.ptr :: later)
    (hand : AtHand s seg later cursor)
    (scanned : scan (setBase s seg.ptr cursor) later (cursor + seg.size) = some phase) :
    Coordinated (setBase s seg.ptr cursor) ({ th with phase := phase } :: rest) ∧
      Follows s (th :: rest) (setBase s seg.ptr cursor) ({ th with phase := phase } :: rest) := by
  subst todo_eq
  obtain ⟨alone, moving, clear⟩ := h.compacting (by rw [phase_eq]; rfl)
  obtain ⟨passed, destination_eq⟩ := moving.passed h.sound hand
  obtain ⟨low, high⟩ := hand.shrinks
  have no_copies : copies rest = [] := by
    refine List.filterMap_eq_nil_iff.mpr fun th' mem => ?_
    have still := List.filterMap_eq_nil_iff.mp alone th' mem
    revert still
    cases th'.phase <;> simp [Phase.copied, Phase.compacting]
  have moved : ∀ other ∈ allSegments (setBase s seg.ptr cursor),
      ∃ old ∈ allSegments s, moveTo seg.ptr cursor old = other := by
    intro other mem
    rw [allSegments_setBase] at mem
    exact List.mem_map.mp mem
  have others : Coordinated (setBase s seg.ptr cursor) rest := by
    refine ⟨moving.setBase_sound h.sound hand, h.tail.sized, fun p mem => ⟨?_, ?_⟩,
      h.tail.pendingApart, h.tail.alone, by simp [alone], by simp [alone], fun th' mem => ?_⟩
    · exact (h.tail.pendingFree p mem).inside
    · intro other hother
      obtain ⟨old, old_mem, rfl⟩ := moved other hother
      by_cases eq : old.ptr = seg.ptr
      · obtain rfl := eq_of_ptr h.sound hand.mem old_mem eq
        have apart := clear p mem
        rw [hand.whole] at apart
        rw [moveTo, if_pos rfl]
        refine (Apart.symm apart).of_subset ⟨le_refl _, le_refl _⟩ ⟨le_refl _, ?_⟩
        simp only [HeapSegment.span, stop]
        omega
      · rw [moveTo_of_ne eq]
        exact (h.tail.pendingFree p mem).apart old old_mem
    · have still := List.filterMap_eq_nil_iff.mp alone th' mem
      unfold Copying
      split <;> simp_all [Phase.compacting]
  obtain ⟨coordinated, still⟩ := others.scanned th (h.sized th List.mem_cons_self) alone
    passed (fun p mem => by
      rw [destination_eq]
      exact (clear p mem).of_subset ⟨low, high⟩ ⟨le_refl _, le_refl _⟩) scanned
  refine ⟨coordinated, le_refl _, fun other mem _ => ?_⟩
  obtain ⟨old, old_mem, rfl⟩ := moved other mem
  refine ⟨old, old_mem, by simp, by simp, by simp, fun bytes held => ⟨?_, fun _ => ?_⟩⟩
  · intro c copied
    rw [copies_cons _ _ still, no_copies] at copied
    simp at copied
  · have one_copy : copies (th :: rest) = [(seg.ptr :: later, cursor)] :=
      (List.filterMap_cons_some (by rw [phase_eq]; rfl)).trans (congrArg (List.cons _) no_copies)
    by_cases eq : old.ptr = seg.ptr
    · obtain rfl := eq_of_ptr h.sound hand.mem old_mem eq
      rw [moveTo, if_pos rfl]
      exact held.moved _ (one_copy ▸ List.mem_singleton_self _) rfl
    · rw [moveTo_of_ne eq]
      refine held.still fun c copied => ?_
      rw [one_copy] at copied
      obtain rfl := List.mem_singleton.mp copied
      simpa using Ne.symm eq

end Step

end OsModel.KernelMemory
