import OsModel.KernelMemory.Operations

/-!
Kernel Memory with its threads (`segment_create_thread` and
`kernel_scheduler_handler` in
`kernel_memory/src/module_handlers/kernel_scheduler_handler.c`).

Every `SEGMENT_CREATE` gets a thread of its own, which gives up its locks between
choosing a hole and recording the segment, and around each copy of a compaction.
The other requests are served one after another by the handler itself. A thread
is where it stands between two critical sections (`Phase`); one critical section,
one copy in or out of the sticks, or one request is one step.
-/

namespace OsModel.KernelMemory

open Lib

/-- Where a `segment_create_thread` stands.

In the three phases of a copy, `todo` lists the segments that `compact_memory`
has not passed yet, by their pointers and starting with the one at hand. -/
inductive Phase where
  /-- Before `get_free_holes`. -/
  | starting
  /-- `COMPACTION_REQUEST` sent, before `compact_memory`. -/
  | requested
  /-- Before `memory_read` of the first segment of `todo`. -/
  | reading (todo : List Nat) (cursor : UInt32)
  /-- Before `memory_write` of the data read. -/
  | writing (data : Option (List UInt8)) (todo : List Nat) (cursor : UInt32)
  /-- Before `seg->base = cursor`. -/
  | setting (todo : List Nat) (cursor : UInt32)
  /-- Compacted, before the second `get_free_holes`. -/
  | retrying
  /-- A hole at `base` chosen, before `list_add`. -/
  | chosen (base : UInt32)
  /-- The result is sent. -/
  | done (result : SegmentResult)
  deriving DecidableEq, Repr

structure CreateThread where
  pid : UInt32
  segmentId : UInt32
  size : UInt32
  phase : Phase
  deriving DecidableEq, Repr

/-- Kernel Memory and its `segment_create` threads. -/
structure Threads where
  memory : State
  creates : List CreateThread

/-- The segment a pointer points to; `none` once it is freed. -/
def segmentAt (s : State) (ptr : Nat) : Option HeapSegment :=
  (allSegments s).find? fun seg => seg.ptr == ptr

/-- The loop of `compact_memory` from one segment on, for as long as it keeps
`list_processes_mutex`: segments in place are passed. `none` is a use of a freed
segment. -/
def scan (s : State) : List Nat → UInt32 → Option Phase
  | [], _ => some .retrying
  | ptr :: rest, cursor =>
      match segmentAt s ptr with
      | none => none
      | some seg =>
          if seg.base ≠ cursor then some (.reading (ptr :: rest) cursor)
          else scan s rest (cursor + seg.size)

/-- The next step of a `segment_create_thread`. -/
def createStep (s : State) (th : CreateThread) : Option (State × Phase) :=
  match th.phase with
  | .starting =>
      if totalFreeSpace (getFreeHoles s) < th.size then some (s, .done .segmentNoSpace)
      else
        match selectHole s.allocationStrategy (getFreeHoles s) th.size with
        | some chosen => some (s, .chosen chosen.base)
        | none => some (s, .requested)
  | .requested => (scan s ((sortedSegments s).map HeapSegment.ptr) 0).map fun phase => (s, phase)
  | .reading todo cursor =>
      match todo.head?.bind (segmentAt s) with
      | none => none
      | some seg =>
          match memoryRead s.devices seg.base seg.size with
          | (data, d) => some ({ s with devices := d }, .writing data todo cursor)
  | .writing data todo cursor =>
      match data, todo.head?.bind (segmentAt s) with
      | none, _ => some (s, .setting todo cursor)
      | some _, none => none
      | some data, some seg =>
          some ({ s with devices := (memoryWrite s.devices cursor data seg.size).2 },
            .setting todo cursor)
  | .setting todo cursor =>
      match todo.head?.bind (segmentAt s) with
      | none => none
      | some seg =>
          let s' := setBase s seg.ptr cursor
          (scan s' todo.tail (cursor + seg.size)).map fun phase => (s', phase)
  | .retrying =>
      match selectHole s.allocationStrategy (getFreeHoles s) th.size with
      | some chosen => some (s, .chosen chosen.base)
      | none => some (s, .done .segmentError)
  | .chosen base =>
      match findPcb s th.pid with
      | none => some (s, .done .segmentError)
      | some _ => some (addSegments s th.pid [⟨th.segmentId, th.size, base⟩], .done .segmentOk)
  | .done _ => none

/-- The requests that `kernel_scheduler_handler` serves itself and that concern
the segment tables. -/
def Op.Handled : Op → Bool
  | .processCreate _ _ | .processEnd _ | .segmentDelete _ _ | .processSuspend _
  | .processDesuspend _ => true
  | .segmentCreate _ _ _ | .connectStick _ _ | .ioMemoryWrite _ _ _ _ => false

/-- What can happen next. -/
inductive ThreadAction where
  /-- A `SEGMENT_CREATE` arrives and its thread is created. -/
  | arrive (pid segmentId size : UInt32)
  /-- The thread at this position takes its next step. -/
  | run (i : Nat)
  /-- The handler serves a request. -/
  | request (op : Op)
  deriving DecidableEq, Repr

def threadStep (t : Threads) : ThreadAction → Option Threads
  | .arrive pid segmentId size =>
      some { t with creates := t.creates ++ [⟨pid, segmentId, size, .starting⟩] }
  | .run i =>
      (t.creates[i]?).bind fun th =>
        (createStep t.memory th).map fun (s, phase) =>
          ⟨s, t.creates.set i { th with phase := phase }⟩
  | .request op =>
      if op.Handled then (step t.memory op).map fun s => { t with memory := s } else none

/-! ### What the threads hold -/

/-- The range a thread has chosen and not recorded yet. -/
def CreateThread.pending (th : CreateThread) : Option Span :=
  match th.phase with
  | .chosen base => some ⟨base.toNat, th.size.toNat⟩
  | _ => none

/-- The compaction a thread is in: the segments not passed yet, and the cursor. -/
def Phase.compacting : Phase → Option (List Nat × UInt32)
  | .reading todo cursor | .writing _ todo cursor | .setting todo cursor => some (todo, cursor)
  | _ => none

/-- The ranges chosen and not recorded yet. -/
def pendings (ths : List CreateThread) : List Span := ths.filterMap CreateThread.pending

/-- The compactions under way. -/
def compactions (ths : List CreateThread) : List (List Nat × UInt32) :=
  ths.filterMap fun th => th.phase.compacting

/-- The segments that pointers point to. -/
def pointed (s : State) (todo : List Nat) : List HeapSegment := todo.filterMap (segmentAt s)

/-- Where a compaction is going to put the segments it has not passed yet. -/
def destination (s : State) (todo : List Nat) (cursor : UInt32) : Span :=
  ⟨cursor.toNat, totalSize ((pointed s todo).map HeapSegment.span)⟩

/-- A range that no thread has a claim to: neither chosen by one nor about to be
filled by a compaction. -/
def Unclaimed (t : Threads) (sp : Span) : Prop :=
  (∀ p ∈ pendings t.creates, p.Apart sp) ∧
    ∀ c ∈ compactions t.creates, (destination t.memory c.1 c.2).Apart sp

instance (t : Threads) (sp : Span) : Decidable (Unclaimed t sp) := by
  unfold Unclaimed
  infer_instance

end OsModel.KernelMemory
