import Mathlib

/-!
Half-open spans `[base, base + size)` of natural numbers, and lists of them
laid out below a bound.

* `Ordered c l top`: the spans of `l` follow one another from `c` up to `top`.
* `gaps c l top`: what an ordered list leaves free, as a list of spans.
* `pack c l`: the same sizes back to back from `c`.

The results are those a contiguous allocator needs: a gap is free, gaps and
spans add up to the whole, and a packed list leaves one gap.
-/

namespace OsModel.Lib

/-- The half-open interval `[base, base + size)`. -/
structure Span where
  base : Nat
  size : Nat
  deriving DecidableEq, Repr

namespace Span

/-- The first point after the span. -/
def stop (s : Span) : Nat := s.base + s.size

/-- One of the two spans ends before the other starts. -/
def Apart (s t : Span) : Prop := s.stop ≤ t.base ∨ t.stop ≤ s.base

instance (s t : Span) : Decidable (Apart s t) := by unfold Apart; infer_instance

/-- The points of a span. -/
instance : Membership Nat Span := ⟨fun s a => s.base ≤ a ∧ a < s.stop⟩

theorem mem_iff {s : Span} {a : Nat} : a ∈ s ↔ s.base ≤ a ∧ a < s.stop := Iff.rfl

theorem Apart.symm {s t : Span} (h : Apart s t) : Apart t s := Or.symm h

/-- Subspans of spans that are apart are apart. -/
theorem Apart.of_subset {s t s' t' : Span} (h : Apart s t)
    (hs : s.base ≤ s'.base ∧ s'.stop ≤ s.stop) (ht : t.base ≤ t'.base ∧ t'.stop ≤ t.stop) :
    Apart s' t' := by
  simp only [Apart] at *
  omega

end Span

open OsModel.Lib.Span

/-- The spans of the list follow one another from `c`, the last one ending at
or before `top`. -/
def Ordered : Nat → List Span → Nat → Prop
  | c, [], top => c ≤ top
  | c, s :: rest, top => c ≤ s.base ∧ Ordered s.stop rest top

namespace Ordered

theorem le_top {c top : Nat} {l : List Span} (h : Ordered c l top) : c ≤ top := by
  induction l generalizing c with
  | nil => exact h
  | cons s rest ih =>
      have := ih h.2
      simp only [Ordered, stop] at *
      omega

/-- Every span of an ordered list lies between the ends. -/
theorem mem_bounds {c top : Nat} {l : List Span} (h : Ordered c l top) {s : Span} (hs : s ∈ l) :
    c ≤ s.base ∧ s.stop ≤ top := by
  induction l generalizing c with
  | nil => simp at hs
  | cons t rest ih =>
      have tail := le_top h.2
      rcases List.mem_cons.mp hs with rfl | mem
      · exact ⟨h.1, tail⟩
      · have := ih h.2 mem
        have := h.1
        simp only [stop] at *
        omega

/-- In an ordered list a span ends before the later ones start. -/
theorem sorted {c top : Nat} {l : List Span} (h : Ordered c l top) :
    l.Pairwise fun s t => s.stop ≤ t.base := by
  induction l generalizing c with
  | nil => exact .nil
  | cons s rest ih => exact .cons (fun t ht => (mem_bounds h.2 ht).1) (ih h.2)

/-- The spans of an ordered list are pairwise apart. -/
theorem pairwise {c top : Nat} {l : List Span} (h : Ordered c l top) : l.Pairwise Apart :=
  h.sorted.imp Or.inl

/-- Nonempty spans can be ordered in one way. -/
theorem eq_of_perm {c top : Nat} {l l' : List Span} (h : Ordered c l top) (h' : Ordered c l' top)
    (nonempty : ∀ s ∈ l, 0 < s.size) (perm : l.Perm l') : l = l' := by
  refine List.Perm.eq_of_pairwise ?_ h.sorted h'.sorted perm
  intro s t mem _ first second
  have size := nonempty s mem
  simp only [stop] at first second
  omega

theorem mono_start {c c' top : Nat} {l : List Span} (h : Ordered c l top) (le : c' ≤ c) :
    Ordered c' l top := by
  cases l with
  | nil => exact le.trans h
  | cons s rest => exact ⟨le.trans h.1, h.2⟩

end Ordered

/-- Nonempty spans that are pairwise apart and end below `top` are ordered once
they are sorted by base. -/
theorem ordered_of_sorted {c top : Nat} {l : List Span} (start : ∀ s ∈ l, c ≤ s.base)
    (inside : ∀ s ∈ l, s.stop ≤ top) (nonempty : ∀ s ∈ l, 0 < s.size) (le : c ≤ top)
    (apart : l.Pairwise Apart) (sorted : l.Pairwise fun s t => s.base ≤ t.base) :
    Ordered c l top := by
  induction l generalizing c with
  | nil => exact le
  | cons s rest ih =>
      rw [List.pairwise_cons] at apart sorted
      refine ⟨start s List.mem_cons_self, ih ?_ ?_ ?_ ?_ apart.2 sorted.2⟩
      · intro t ht
        have := apart.1 t ht
        have := sorted.1 t ht
        have := nonempty t (List.mem_cons_of_mem _ ht)
        simp only [Apart, stop] at *
        omega
      · exact fun t ht => inside t (List.mem_cons_of_mem _ ht)
      · exact fun t ht => nonempty t (List.mem_cons_of_mem _ ht)
      · exact inside s List.mem_cons_self

def totalSize (l : List Span) : Nat := (l.map Span.size).sum

@[simp] theorem totalSize_nil : totalSize [] = 0 := rfl

@[simp] theorem totalSize_cons (s : Span) (l : List Span) :
    totalSize (s :: l) = s.size + totalSize l := by
  simp [totalSize]

@[simp] theorem totalSize_append (l l' : List Span) :
    totalSize (l ++ l') = totalSize l + totalSize l' := by
  simp [totalSize]

theorem totalSize_perm {l l' : List Span} (h : l.Perm l') : totalSize l = totalSize l' :=
  (h.map Span.size).sum_eq

/-! ### Gaps -/

/-- The gap from `c` to `stop`, if there is one. -/
def gap (c stop : Nat) : List Span := if c < stop then [⟨c, stop - c⟩] else []

theorem mem_gap {c stop : Nat} {g : Span} :
    g ∈ gap c stop ↔ c < stop ∧ g = ⟨c, stop - c⟩ := by
  unfold gap
  split <;> simp_all

theorem totalSize_gap (c stop : Nat) : totalSize (gap c stop) = stop - c := by
  unfold gap
  split
  · simp
  · simp
    omega

/-- What the spans leave free between `c` and `top`, lowest first. -/
def gaps : Nat → List Span → Nat → List Span
  | c, [], top => gap c top
  | c, s :: rest, top => gap c s.base ++ gaps s.stop rest top

/-- A gap is nonempty, lies between the ends and is apart from every span. -/
theorem mem_gaps {c top : Nat} {l : List Span} (h : Ordered c l top) {g : Span}
    (hg : g ∈ gaps c l top) :
    0 < g.size ∧ c ≤ g.base ∧ g.stop ≤ top ∧ ∀ s ∈ l, Apart g s := by
  induction l generalizing c with
  | nil =>
      obtain ⟨lt, rfl⟩ := mem_gap.mp hg
      simp [stop]
      omega
  | cons s rest ih =>
      have tail := h.2.le_top
      rcases List.mem_append.mp hg with head | later
      · obtain ⟨lt, rfl⟩ := mem_gap.mp head
        refine ⟨by simp; omega, le_refl c, ?_, ?_⟩
        · simp only [stop] at *
          omega
        · intro t ht
          left
          rcases List.mem_cons.mp ht with rfl | mem
          · simp only [stop]
            omega
          · have := (h.2.mem_bounds mem).1
            simp only [stop] at *
            omega
      · obtain ⟨pos, above, below, apart⟩ := ih h.2 later
        have start := h.1
        refine ⟨pos, ?_, below, ?_⟩
        · simp only [stop] at *
          omega
        · intro t ht
          rcases List.mem_cons.mp ht with rfl | mem
          · exact Or.inr above
          · exact apart t mem

/-- Gaps are themselves ordered, so two gaps at different places are apart. -/
theorem gaps_ordered {c top : Nat} {l : List Span} (h : Ordered c l top) :
    Ordered c (gaps c l top) top := by
  induction l generalizing c with
  | nil =>
      have le : c ≤ top := h
      unfold gaps gap
      split
      · simp only [Ordered, stop]
        omega
      · exact le
  | cons s rest ih =>
      have tail := ih h.2
      have start := h.1
      unfold gaps gap
      split
      · refine ⟨le_refl c, tail.mono_start ?_⟩
        simp only [stop]
        omega
      · exact tail.mono_start (by simp only [stop]; omega)

/-- Between two gaps there is a span. -/
theorem gaps_separated {c top : Nat} {l : List Span} (h : Ordered c l top)
    (nonempty : ∀ s ∈ l, 0 < s.size) : (gaps c l top).Pairwise fun g g' => g.stop < g'.base := by
  have single : ∀ c stop, (gap c stop).Pairwise fun g g' => g.stop < g'.base := by
    intro c stop
    unfold gap
    split
    · exact List.pairwise_singleton _ _
    · exact .nil
  induction l generalizing c with
  | nil => exact single c top
  | cons s rest ih =>
      have tail := ih h.2 fun t mem => nonempty t (List.mem_cons_of_mem _ mem)
      refine List.pairwise_append.mpr ⟨single c s.base, tail, ?_⟩
      intro g first g' later
      obtain ⟨lt, rfl⟩ := mem_gap.mp first
      obtain ⟨-, above, -⟩ := mem_gaps h.2 later
      have size := nonempty s List.mem_cons_self
      simp only [stop] at above ⊢
      omega

/-- A point between the ends is in a gap exactly when it is in no span. -/
theorem exists_mem_gaps_iff {c top a : Nat} {l : List Span} (h : Ordered c l top) (low : c ≤ a)
    (high : a < top) : (∃ g ∈ gaps c l top, a ∈ g) ↔ ¬ ∃ s ∈ l, a ∈ s := by
  constructor
  · rintro ⟨g, among, inside⟩ ⟨s, mem, here⟩
    obtain ⟨-, -, -, apart⟩ := mem_gaps h among
    have apart := apart s mem
    simp only [Apart, mem_iff] at apart inside here
    omega
  · intro free
    induction l generalizing c with
    | nil =>
        refine ⟨⟨c, top - c⟩, mem_gap.mpr ⟨by omega, rfl⟩, low, ?_⟩
        simp only [stop]
        omega
    | cons s rest ih =>
        by_cases before : a < s.base
        · refine ⟨⟨c, s.base - c⟩, ?_, low, ?_⟩
          · exact List.mem_append_left _ (mem_gap.mpr ⟨by omega, rfl⟩)
          · simp only [stop]
            omega
        · have behind : s.stop ≤ a := by
            by_contra inside
            exact free ⟨s, List.mem_cons_self, by omega, by omega⟩
          obtain ⟨g, among, inside⟩ := ih h.2 behind fun ⟨t, mem, here⟩ =>
            free ⟨t, List.mem_cons_of_mem _ mem, here⟩
          exact ⟨g, List.mem_append_right _ among, inside⟩

/-- Gaps and spans add up to the whole. -/
theorem totalSize_gaps {c top : Nat} {l : List Span} (h : Ordered c l top) :
    totalSize (gaps c l top) + totalSize l = top - c := by
  induction l generalizing c with
  | nil =>
      rw [gaps, totalSize_gap, totalSize_nil, Nat.add_zero]
  | cons s rest ih =>
      have tail := ih h.2
      have start := h.1
      have le := h.2.le_top
      have first := totalSize_gap c s.base
      simp only [gaps, totalSize_append, totalSize_cons, first, stop] at *
      omega

/-! ### Packing -/

/-- The sizes of the list, back to back from `c`. -/
def pack : Nat → List Span → List Span
  | _, [] => []
  | c, s :: rest => ⟨c, s.size⟩ :: pack (c + s.size) rest

/-- A packed list is ordered below any bound it fits under. -/
theorem pack_ordered {c top : Nat} {l : List Span} (fits : c + totalSize l ≤ top) :
    Ordered c (pack c l) top := by
  induction l generalizing c with
  | nil => simpa [pack, Ordered] using fits
  | cons s rest ih =>
      rw [totalSize_cons] at fits
      exact ⟨le_refl c, ih (by simp only [stop]; omega)⟩

/-- Packed spans that there are end where the last one ends. -/
theorem exists_stop_pack (c : Nat) {l : List Span} (some : l ≠ []) :
    ∃ s ∈ pack c l, s.stop = c + totalSize l := by
  induction l generalizing c with
  | nil => exact absurd rfl some
  | cons s rest ih =>
      cases rest with
      | nil => exact ⟨_, List.mem_cons_self, by simp [stop]⟩
      | cons t rest =>
          obtain ⟨last, mem, eq⟩ := ih (c + s.size) (by simp)
          refine ⟨last, List.mem_cons_of_mem _ mem, ?_⟩
          rw [eq, totalSize_cons s, Nat.add_assoc]

/-- After packing, all the free space is one gap at the end. -/
theorem gaps_pack (c top : Nat) (l : List Span) :
    gaps c (pack c l) top = gap (c + totalSize l) top := by
  induction l generalizing c with
  | nil => simp [pack, gaps]
  | cons s rest ih =>
      have none : gap c c = [] := by simp [gap]
      simp only [pack, gaps, none, List.nil_append, stop, ih, totalSize_cons]
      rw [Nat.add_assoc]

end OsModel.Lib
