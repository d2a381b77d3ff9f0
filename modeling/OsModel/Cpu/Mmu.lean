import OsModel.Utils

/-!
The MMU (`mmu_translate` in `cpu/src/manage_instructions.c`).

`translate` does the bound check in 32-bit arithmetic, as the source does, so
`seg_offset + size` can wrap. `mmuCorrect_iff` says that this is the only way
the translation goes wrong, for every address, size and table.
-/

namespace OsModel.Cpu

/-- The translation of `mmu_translate`; `none` is a `SEGMENTATION_FAULT`. A
`segment_max_size` of zero would stop the CPU with a division by zero. -/
def translate (segmentMaxSize : UInt32) (segmentTable : List Segment)
    (logicalAddress size : UInt32) : Option UInt32 :=
  let numSegment := logicalAddress / segmentMaxSize
  let segOffset := logicalAddress % segmentMaxSize
  match segmentTable.find? fun s => s.segmentId == numSegment with
  | none => none
  | some segment =>
      if segOffset + size > segment.size then none
      else some (segment.base + segOffset)

/-- A physical address inside a segment, for every 32-bit base. -/
def Contains (segment : Segment) (physicalAddress : UInt32) : Prop :=
  physicalAddress - segment.base < segment.size

/-- A segment that does not run over the end of the address space contains the
addresses from its base to its end. -/
theorem contains_iff {segment : Segment} {physicalAddress : UInt32}
    (fits : segment.base.toNat + segment.size.toNat ≤ 2 ^ 32) :
    Contains segment physicalAddress ↔ segment.base.toNat ≤ physicalAddress.toNat ∧
      physicalAddress.toNat < segment.base.toNat + segment.size.toNat := by
  have base := segment.base.toNat_lt
  have address := physicalAddress.toNat_lt
  rw [Contains, UInt32.lt_iff_toNat_lt, UInt32.toNat_sub]
  omega

section Translation

variable (segmentMaxSize : UInt32) (segmentTable : List Segment) (logicalAddress size : UInt32)

/-- The process has the segment that the address names, and the access ends
inside it. -/
def Accessible : Prop :=
  ∃ segment ∈ segmentTable, segment.segmentId = logicalAddress / segmentMaxSize ∧
    (logicalAddress % segmentMaxSize).toNat + size.toNat ≤ segment.size.toNat

/-- Every address of an access lies in the segment that the logical address
names. -/
def Owns (physicalAddress : UInt32) : Prop :=
  ∃ segment ∈ segmentTable, segment.segmentId = logicalAddress / segmentMaxSize ∧
    ∀ i < size.toNat, Contains segment (physicalAddress + UInt32.ofNat i)

/-- What is asked of the MMU: it translates the accessible ranges and no others,
to addresses of the segment. -/
structure MmuCorrect : Prop where
  succeeds_iff : (translate segmentMaxSize segmentTable logicalAddress size).isSome ↔
    Accessible segmentMaxSize segmentTable logicalAddress size
  inside : ∀ physicalAddress,
    translate segmentMaxSize segmentTable logicalAddress size = some physicalAddress →
      Owns segmentMaxSize segmentTable logicalAddress size physicalAddress

/-- The sum of the bound check wraps around to a value within the segment. -/
def Wraps : Prop :=
  ∃ segment ∈ segmentTable, segment.segmentId = logicalAddress / segmentMaxSize ∧
    2 ^ 32 ≤ (logicalAddress % segmentMaxSize).toNat + size.toNat ∧
    (logicalAddress % segmentMaxSize).toNat + size.toNat - 2 ^ 32 ≤ segment.size.toNat

instance : Decidable (Wraps segmentMaxSize segmentTable logicalAddress size) := by
  unfold Wraps
  infer_instance

end Translation

section Translation

variable {segmentMaxSize : UInt32} {segmentTable : List Segment} {logicalAddress size : UInt32}

/-- What a translation that succeeds has checked. -/
theorem translate_eq_some {physicalAddress : UInt32} :
    translate segmentMaxSize segmentTable logicalAddress size = some physicalAddress ↔
      ∃ segment, segmentTable.find? (fun s => s.segmentId == logicalAddress / segmentMaxSize) =
          some segment ∧
        ((logicalAddress % segmentMaxSize).toNat + size.toNat) % 2 ^ 32 ≤ segment.size.toNat ∧
        physicalAddress = segment.base + logicalAddress % segmentMaxSize := by
  cases found : segmentTable.find? fun s => s.segmentId == logicalAddress / segmentMaxSize with
  | none => simp [translate, found]
  | some segment =>
      simp only [translate, found, Option.some.injEq, exists_eq_left', gt_iff_lt]
      rw [← UInt32.toNat_add, ← UInt32.le_iff_toNat_le]
      by_cases beyond : segment.size < logicalAddress % segmentMaxSize + size
      · rw [if_pos beyond]
        simp [UInt32.not_le.mpr beyond]
      · rw [if_neg beyond, Option.some.injEq]
        simp [UInt32.not_lt.mp beyond, eq_comm]

/-- Inside a segment from its base on: an offset below the size. -/
theorem contains_add {segment : Segment} {offset : UInt32} {i : Nat}
    (fits : offset.toNat + i < 2 ^ 32) :
    Contains segment (segment.base + offset + UInt32.ofNat i) ↔
      offset.toNat + i < segment.size.toNat := by
  have shift : segment.base + offset + UInt32.ofNat i - segment.base = offset + UInt32.ofNat i := by
    rw [UInt32.add_assoc, UInt32.add_comm, UInt32.add_sub_cancel]
  rw [Contains, shift, UInt32.lt_iff_toNat_lt, UInt32.toNat_add, UInt32.toNat_ofNat']
  have small : i % 2 ^ 32 = i := Nat.mod_eq_of_lt (by omega)
  rw [small, Nat.mod_eq_of_lt fits]

/-- **A translated range is the segment's own** exactly when the bound check has
not wrapped. -/
theorem owns_iff (distinct : (segmentTable.map Segment.segmentId).Nodup) {physicalAddress : UInt32}
    (translated : translate segmentMaxSize segmentTable logicalAddress size =
      some physicalAddress) :
    Owns segmentMaxSize segmentTable logicalAddress size physicalAddress ↔
      ¬ Wraps segmentMaxSize segmentTable logicalAddress size := by
  obtain ⟨segment, found, checked, rfl⟩ := translate_eq_some.mp translated
  have mem := List.mem_of_find?_eq_some found
  have named : segment.segmentId = logicalAddress / segmentMaxSize := by
    simpa using List.find?_some found
  have unique : ∀ other ∈ segmentTable, other.segmentId = logicalAddress / segmentMaxSize →
      other = segment := fun other among same =>
    List.inj_on_of_nodup_map distinct among mem (same.trans named.symm)
  have bound := segment.size.toNat_lt
  have offset := (logicalAddress % segmentMaxSize).toNat_lt
  have access := size.toNat_lt
  constructor
  · rintro ⟨other, among, same, inside⟩ ⟨other', among', same', wraps, -⟩
    obtain rfl := unique other among same
    by_cases starts : (logicalAddress % segmentMaxSize).toNat < other.size.toNat
    · -- the first address after the segment
      have past := inside (other.size.toNat - (logicalAddress % segmentMaxSize).toNat) (by omega)
      rw [contains_add (by omega)] at past
      omega
    · have first := inside 0 (by omega)
      rw [contains_add (by omega)] at first
      omega
  · intro fits
    refine ⟨segment, mem, named, fun i lt => ?_⟩
    have within : (logicalAddress % segmentMaxSize).toNat + size.toNat < 2 ^ 32 := by
      by_contra wraps
      exact fits ⟨segment, mem, named, by omega, by omega⟩
    rw [contains_add (by omega)]
    omega

/-- **The MMU is correct** at an address and a size exactly when the sum of the
bound check does not wrap into the segment. -/
theorem mmuCorrect_iff (distinct : (segmentTable.map Segment.segmentId).Nodup) :
    MmuCorrect segmentMaxSize segmentTable logicalAddress size ↔
      ¬ Wraps segmentMaxSize segmentTable logicalAddress size := by
  have offset := (logicalAddress % segmentMaxSize).toNat_lt
  have access := size.toNat_lt
  constructor
  · rintro ⟨-, inside⟩ wraps
    obtain ⟨segment, mem, named, sum, small⟩ := id wraps
    have bound := segment.size.toNat_lt
    have found := find?_of_nodup distinct mem
    rw [named] at found
    have translated : translate segmentMaxSize segmentTable logicalAddress size =
        some (segment.base + logicalAddress % segmentMaxSize) :=
      translate_eq_some.mpr ⟨segment, found, by omega, rfl⟩
    exact (owns_iff distinct translated).mp (inside _ translated) wraps
  · intro fits
    refine ⟨⟨fun succeeds => ?_, ?_⟩, fun physicalAddress translated =>
      (owns_iff distinct translated).mpr fits⟩
    · obtain ⟨physicalAddress, translated⟩ := Option.isSome_iff_exists.mp succeeds
      obtain ⟨segment, found, checked, -⟩ := translate_eq_some.mp translated
      have mem := List.mem_of_find?_eq_some found
      have named : segment.segmentId = logicalAddress / segmentMaxSize := by
        simpa using List.find?_some found
      refine ⟨segment, mem, named, ?_⟩
      by_contra beyond
      have bound := segment.size.toNat_lt
      exact fits ⟨segment, mem, named, by omega, by omega⟩
    · rintro ⟨segment, mem, named, ends⟩
      have bound := segment.size.toNat_lt
      have found := find?_of_nodup distinct mem
      rw [named] at found
      exact Option.isSome_iff_exists.mpr
        ⟨_, translate_eq_some.mpr ⟨segment, found, by omega, rfl⟩⟩

end Translation

end OsModel.Cpu
