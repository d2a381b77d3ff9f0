import OsModel.KernelMemory.Layout

/-!
Free space (`get_free_holes`, `best_fit`, `worst_fit` and `select_hole` in
`kernel_memory/src/memory_manage.c`).

The holes are exactly the gaps between the segments (`getFreeHoles_spans`,
`getFreeHoles_complement`), so a segment put into a hole overlaps no other one
(`placeFor_free`). `selectHole_ne_iff` says when two sizes are given different
holes.
-/

namespace OsModel

/-- The interval a hole covers. -/
def Hole.span (h : Hole) : Lib.Span := ⟨h.base.toNat, h.size.toNat⟩

namespace KernelMemory

open Lib Span

/-- `list_sort` with a comparator on bases. -/
def sortByBase {α : Type} (base : α → UInt32) (l : List α) : List α :=
  l.insertionSort fun a b => base a ≤ base b

section SortByBase

variable {α : Type} (base : α → UInt32) (l : List α)

theorem perm_sortByBase : (sortByBase base l).Perm l := List.perm_insertionSort _ l

theorem pairwise_sortByBase : (sortByBase base l).Pairwise fun a b => base a ≤ base b := by
  have : Std.Total fun a b : α => base a ≤ base b := ⟨fun _ _ => UInt32.le_total _ _⟩
  have : IsTrans α fun a b : α => base a ≤ base b := ⟨fun _ _ _ => UInt32.le_trans⟩
  exact List.pairwise_insertionSort _ l

end SortByBase

/-- The loop of `get_free_holes` over the sorted occupied ranges. -/
def holesFrom (totalMemorySize cursor : UInt32) : List Hole → List Hole
  | [] => if cursor < totalMemorySize then [⟨cursor, totalMemorySize - cursor⟩] else []
  | occ :: rest =>
      (if occ.base > cursor then [⟨cursor, occ.base - cursor⟩] else []) ++
        holesFrom totalMemorySize (occ.base + occ.size) rest

/-- The `occupied` list of `get_free_holes`. -/
def occupied (s : State) : List Hole := (allSegments s).map fun seg => ⟨seg.base, seg.size⟩

def getFreeHoles (s : State) : List Hole :=
  holesFrom s.totalMemorySize 0 (sortByBase Hole.base (occupied s))

/-- `best_fit`: the first of the smallest holes that are big enough. -/
def bestFit (holes : List Hole) (size : UInt32) : Option Hole :=
  holes.foldl (fun best hole =>
    if hole.size ≥ size then
      match best with
      | none => some hole
      | some b => if hole.size < b.size then some hole else best
    else best) none

/-- `worst_fit`: the first of the biggest holes that are big enough. -/
def worstFit (holes : List Hole) (size : UInt32) : Option Hole :=
  holes.foldl (fun worst hole =>
    if hole.size ≥ size then
      match worst with
      | none => some hole
      | some w => if hole.size > w.size then some hole else worst
    else worst) none

def selectHole (strategy : AllocationStrategy) (holes : List Hole) (size : UInt32) :
    Option Hole :=
  match strategy with
  | .best => bestFit holes size
  | .worst => worstFit holes size

/-! ### The holes are the gaps -/

private theorem gap_hole {cursor stop : UInt32} :
    (if cursor < stop then [(⟨cursor, stop - cursor⟩ : Hole)] else []).map Hole.span =
      gap cursor.toNat stop.toNat := by
  by_cases lt : cursor < stop
  · rw [if_pos lt, gap, if_pos (UInt32.lt_iff_toNat_lt.mp lt)]
    simp [Hole.span, UInt32.toNat_sub_of_le _ _ (UInt32.le_of_lt lt)]
  · rw [if_neg lt, gap, if_neg (by rwa [UInt32.lt_iff_toNat_lt] at lt)]
    rfl

/-- The loop computes the gaps that the occupied ranges leave. -/
theorem holesFrom_spans {totalMemorySize cursor : UInt32} {occ : List Hole}
    (ordered : Ordered cursor.toNat (occ.map Hole.span) totalMemorySize.toNat) :
    (holesFrom totalMemorySize cursor occ).map Hole.span =
      gaps cursor.toNat (occ.map Hole.span) totalMemorySize.toNat := by
  induction occ generalizing cursor with
  | nil => exact gap_hole
  | cons o rest ih =>
      obtain ⟨start, tail⟩ := ordered
      have stop_eq : (o.base + o.size).toNat = o.span.stop := by
        have := tail.le_top
        have := totalMemorySize.toNat_lt
        rw [UInt32.toNat_add]
        exact Nat.mod_eq_of_lt (by simp only [Hole.span, stop] at *; omega)
      rw [← stop_eq] at tail
      simp only [holesFrom, List.map_append, List.map_cons, gaps, gt_iff_lt, gap_hole, ih tail,
        stop_eq]
      rfl

theorem perm_occupied (s : State) :
    ((sortByBase Hole.base (occupied s)).map Hole.span).Perm
      ((allSegments s).map HeapSegment.span) := by
  refine ((perm_sortByBase Hole.base (occupied s)).map Hole.span).trans ?_
  rw [occupied, List.map_map]
  rfl

/-- The occupied ranges in the order of `get_free_holes`. -/
theorem occupied_ordered {s : State} (placed : Placed s.totalMemorySize.toNat (allSegments s)) :
    Ordered 0 ((sortByBase Hole.base (occupied s)).map Hole.span) s.totalMemorySize.toNat := by
  have perm := perm_occupied s
  have back : ∀ {sp : Span}, sp ∈ (sortByBase Hole.base (occupied s)).map Hole.span →
      ∃ seg ∈ allSegments s, seg.span = sp := fun mem =>
    List.mem_map.mp (perm.mem_iff.mp mem)
  refine ordered_of_sorted (fun _ _ => Nat.zero_le _) ?_ ?_ (Nat.zero_le _) ?_ ?_
  · intro sp among
    obtain ⟨seg, mem, rfl⟩ := back among
    exact placed.inside seg mem
  · intro sp among
    obtain ⟨seg, mem, rfl⟩ := back among
    exact placed.sized seg mem
  · exact (perm.pairwise_iff fun apart => Apart.symm apart).mpr
      (List.pairwise_map.mpr placed.apart)
  · exact List.pairwise_map.mpr ((pairwise_sortByBase Hole.base (occupied s)).imp
      fun le => UInt32.le_iff_toNat_le.mp le)

/-- **The holes are the gaps between the segments.** -/
theorem getFreeHoles_spans {s : State} (placed : Placed s.totalMemorySize.toNat (allSegments s)) :
    (getFreeHoles s).map Hole.span =
      gaps 0 ((sortByBase Hole.base (occupied s)).map Hole.span) s.totalMemorySize.toNat :=
  holesFrom_spans (occupied_ordered placed)

/-- A hole is nonempty, inside the memory, and overlaps no segment. -/
theorem getFreeHoles_free {s : State} (sound : Sound s) {h : Hole} (mem : h ∈ getFreeHoles s) :
    0 < h.span.size ∧ h.span.stop ≤ s.totalMemorySize.toNat ∧
      ∀ seg ∈ allSegments s, h.span.Apart seg.span := by
  have among : h.span ∈ gaps 0 ((sortByBase Hole.base (occupied s)).map Hole.span)
      s.totalMemorySize.toNat := by
    rw [← getFreeHoles_spans sound.placed]
    exact List.mem_map_of_mem mem
  obtain ⟨positive, -, below, apart⟩ := mem_gaps (occupied_ordered sound.placed) among
  refine ⟨positive, below, fun seg hseg => apart seg.span ?_⟩
  refine List.mem_map.mpr ⟨⟨seg.base, seg.size⟩, ?_, rfl⟩
  exact (perm_sortByBase _ _).mem_iff.mpr (List.mem_map.mpr ⟨seg, hseg, rfl⟩)

/-- Two different holes do not overlap. -/
theorem getFreeHoles_apart {s : State} (sound : Sound s) {h h' : Hole}
    (mem : h ∈ getFreeHoles s) (mem' : h' ∈ getFreeHoles s) (ne : h ≠ h') :
    h.span.Apart h'.span := by
  have ordered := gaps_ordered (occupied_ordered sound.placed)
  rw [← getFreeHoles_spans sound.placed] at ordered
  have pairwise : (getFreeHoles s).Pairwise fun a b => a.span.Apart b.span :=
    List.pairwise_map.mp ordered.pairwise
  have : Std.Symm fun a b : Hole => a.span.Apart b.span := ⟨fun _ _ => Apart.symm⟩
  exact pairwise.forall mem mem' ne

/-- The holes of a layout: the ranges between its segments. -/
structure Complement (s : State) (holes : List Hole) : Prop where
  sized : ∀ h ∈ holes, 1 ≤ h.size
  separated : holes.Pairwise fun a b => a.span.stop < b.span.base
  inside : ∀ h ∈ holes, h.span.stop ≤ s.totalMemorySize.toNat
  free : ∀ address < s.totalMemorySize.toNat,
    (∃ h ∈ holes, address ∈ h.span) ↔ ¬ ∃ seg ∈ allSegments s, address ∈ seg.span
  total : totalSize (holes.map Hole.span) + totalSize ((allSegments s).map HeapSegment.span) =
    s.totalMemorySize.toNat

/-- **The holes are the complement of the segments**, in the order of their addresses, no two of
them adjacent. -/
theorem getFreeHoles_complement {s : State}
    (placed : Placed s.totalMemorySize.toNat (allSegments s)) :
    Complement s (getFreeHoles s) where
  sized := by
    intro h mem
    have among : h.span ∈ (getFreeHoles s).map Hole.span := List.mem_map_of_mem mem
    rw [getFreeHoles_spans placed] at among
    have positive := (mem_gaps (occupied_ordered placed) among).1
    exact UInt32.le_iff_toNat_le.mpr positive
  separated := by
    have sized : ∀ sp ∈ (sortByBase Hole.base (occupied s)).map Hole.span, 0 < sp.size := by
      intro sp mem
      obtain ⟨seg, among, rfl⟩ := List.mem_map.mp ((perm_occupied s).mem_iff.mp mem)
      exact placed.sized seg among
    have separated := gaps_separated (occupied_ordered placed) sized
    rw [← getFreeHoles_spans placed] at separated
    exact List.pairwise_map.mp separated
  inside := by
    intro h mem
    have among : h.span ∈ (getFreeHoles s).map Hole.span := List.mem_map_of_mem mem
    rw [getFreeHoles_spans placed] at among
    exact (mem_gaps (occupied_ordered placed) among).2.2.1
  free := by
    intro address below
    have free := exists_mem_gaps_iff (occupied_ordered placed) (Nat.zero_le address) below
    rw [← getFreeHoles_spans placed] at free
    have holes : (∃ h ∈ getFreeHoles s, address ∈ h.span) ↔
        ∃ g ∈ (getFreeHoles s).map Hole.span, address ∈ g := by simp
    rw [holes, free]
    refine not_congr ⟨?_, ?_⟩
    · rintro ⟨sp, mem, here⟩
      obtain ⟨seg, among, rfl⟩ := List.mem_map.mp ((perm_occupied s).mem_iff.mp mem)
      exact ⟨seg, among, here⟩
    · rintro ⟨seg, mem, here⟩
      exact ⟨seg.span, (perm_occupied s).mem_iff.mpr (List.mem_map_of_mem mem), here⟩
  total := by
    have sum := totalSize_gaps (occupied_ordered placed)
    rwa [← getFreeHoles_spans placed, totalSize_perm (perm_occupied s)] at sum

/-- Segments of two processes, one at each end and two that abut. -/
theorem getFreeHoles_complement_of_abutting :
    ∃ s : State, getFreeHoles s = [⟨4, 3⟩] ∧ Complement s (getFreeHoles s) :=
  let abutting : State :=
    { devices := ⟨[], fun _ _ => 0, [], fun _ => 0⟩
      totalMemorySize := 8
      allocationStrategy := .best
      swapBlockSize := 4
      swapTotalSize := 64
      listProcesses :=
        [⟨0, .zero, [], [⟨⟨0, 7, 1⟩, 0⟩, ⟨⟨1, 0, 2⟩, 1⟩]⟩, ⟨1, .zero, [], [⟨⟨0, 2, 2⟩, 2⟩]⟩]
      listSuspendedProcesses := []
      nextPtr := 3 }
  ⟨abutting, by decide, getFreeHoles_complement ⟨by decide, by decide, by decide⟩⟩

/-! ### The hole that is selected -/

section Select

variable {strategy : AllocationStrategy} {holes : List Hole} {size size' : UInt32} {h h' : Hole}

/-- The comparison both strategies make: replace `best` by a hole that is
better. -/
private def pick (better : Hole → Hole → Bool) (holes : List Hole) (size : UInt32)
    (best : Option Hole) : Option Hole :=
  holes.foldl (fun best hole =>
    if hole.size ≥ size then
      match best with
      | none => some hole
      | some b => if better hole b then some hole else best
    else best) best

private def better : AllocationStrategy → Hole → Hole → Bool
  | .best, hole, b => hole.size < b.size
  | .worst, hole, w => hole.size > w.size

private theorem better_trans {a b c : Hole} (first : better strategy a b = true)
    (second : better strategy b c = true) : better strategy a c = true := by
  cases strategy with
  | best =>
      simp only [better, decide_eq_true_eq] at *
      exact UInt32.lt_trans first second
  | worst =>
      simp only [better, decide_eq_true_eq] at *
      exact UInt32.lt_trans second first

/-- What is better than a hole is better than those that are not. -/
private theorem better_of_not {a b c : Hole} (first : better strategy a b = true)
    (second : better strategy c b = false) : better strategy a c = true := by
  cases strategy with
  | best =>
      simp only [better, decide_eq_true_eq, decide_eq_false_iff_not, UInt32.not_lt] at *
      exact UInt32.lt_of_lt_of_le first second
  | worst =>
      simp only [better, gt_iff_lt, decide_eq_true_eq, decide_eq_false_iff_not,
        UInt32.not_lt] at *
      exact UInt32.lt_of_le_of_lt second first

private theorem selectHole_eq_pick :
    selectHole strategy holes size = pick (better strategy) holes size none := by
  cases strategy with
  | best => simp only [selectHole, bestFit, pick, better, decide_eq_true_eq]
  | worst => simp only [selectHole, worstFit, pick, better, decide_eq_true_eq]

/-- Only the holes that are big enough count. -/
private theorem pick_filter (better : Hole → Hole → Bool) (size : UInt32) (best : Option Hole) :
    pick better holes size best =
      pick better (holes.filter fun hole => size ≤ hole.size) 0 best := by
  induction holes generalizing best with
  | nil => rfl
  | cons hole rest ih =>
      by_cases fits : size ≤ hole.size
      · rw [List.filter_cons_of_pos (by simpa using fits)]
        simp only [pick, List.foldl_cons, ge_iff_le, fits, UInt32.zero_le, if_true] at ih ⊢
        exact ih _
      · rw [List.filter_cons_of_neg (by simpa using fits)]
        simp only [pick, List.foldl_cons, ge_iff_le, fits, if_false] at ih ⊢
        exact ih _

/-- The pick is a hole of the list, or the one started with; it is big enough,
and no big enough hole is better. -/
private theorem pick_spec {start : Option Hole} (picked : pick (better strategy) holes size start
      = some h) :
    (start = some h ∨ h ∈ holes ∧ size ≤ h.size) ∧
      (∀ hole ∈ holes, size ≤ hole.size → better strategy hole h = false) ∧
      ∀ b, start = some b → better strategy b h = false := by
  induction holes generalizing start with
  | nil =>
      simp only [pick, List.foldl_nil] at picked
      refine ⟨.inl picked, by simp, fun b eq => ?_⟩
      obtain rfl : b = h := by simpa [picked] using eq.symm
      cases strategy <;> simp [better]
  | cons hole rest ih =>
      simp only [pick, List.foldl_cons] at picked ih
      split at picked
      · rename_i fits
        cases start with
        | none =>
            obtain ⟨source, best, kept⟩ := ih picked
            refine ⟨.inr ?_, ?_, by simp⟩
            · rcases source with eq | ⟨mem, enough⟩
              · obtain rfl := Option.some.inj eq
                exact ⟨List.mem_cons_self, fits⟩
              · exact ⟨List.mem_cons_of_mem _ mem, enough⟩
            · intro other mem enough
              rcases List.mem_cons.mp mem with rfl | mem
              · exact kept other rfl
              · exact best other mem enough
        | some b =>
            simp only at picked
            split at picked
            · rename_i wins
              obtain ⟨source, best, kept⟩ := ih picked
              have kept_hole := kept hole rfl
              refine ⟨.inr ?_, ?_, ?_⟩
              · rcases source with eq | ⟨mem, enough⟩
                · obtain rfl := Option.some.inj eq
                  exact ⟨List.mem_cons_self, fits⟩
                · exact ⟨List.mem_cons_of_mem _ mem, enough⟩
              · intro other mem enough
                rcases List.mem_cons.mp mem with rfl | mem
                · exact kept_hole
                · exact best other mem enough
              · intro b' eq
                obtain rfl := Option.some.inj eq
                cases strategy <;>
                  simp only [better, decide_eq_true_eq, decide_eq_false_iff_not, gt_iff_lt,
                    UInt32.lt_iff_toNat_lt] at * <;> omega
            · rename_i loses
              obtain ⟨source, best, kept⟩ := ih picked
              have kept_b := kept b rfl
              refine ⟨?_, ?_, kept⟩
              · rcases source with eq | ⟨mem, enough⟩
                · exact .inl eq
                · exact .inr ⟨List.mem_cons_of_mem _ mem, enough⟩
              · intro other mem enough
                rcases List.mem_cons.mp mem with rfl | mem
                · cases strategy <;>
                    simp only [better, decide_eq_true_eq, decide_eq_false_iff_not, gt_iff_lt,
                      UInt32.lt_iff_toNat_lt] at * <;> omega
                · exact best other mem enough
      · rename_i small
        obtain ⟨source, best, kept⟩ := ih picked
        refine ⟨?_, ?_, kept⟩
        · rcases source with eq | ⟨mem, enough⟩
          · exact .inl eq
          · exact .inr ⟨List.mem_cons_of_mem _ mem, enough⟩
        · intro other mem enough
          rcases List.mem_cons.mp mem with rfl | mem
          · exact absurd enough small
          · exact best other mem enough

/-- The pick is the one started with, or better than it and than every big enough hole before
its own place. -/
private theorem pick_first {start : Option Hole}
    (picked : pick (better strategy) holes size start = some h) :
    start = some h ∨
      (∀ b, start = some b → better strategy h b = true) ∧
        ∃ before after, holes = before ++ h :: after ∧
          ∀ hole ∈ before, size ≤ hole.size → better strategy h hole = true := by
  induction holes generalizing start with
  | nil => exact .inl picked
  | cons hole rest ih =>
      simp only [pick, List.foldl_cons] at picked ih
      by_cases fits : hole.size ≥ size
      · rw [if_pos fits] at picked
        cases start with
        | none =>
            right
            refine ⟨by simp, ?_⟩
            rcases ih picked with eq | ⟨wins, before, after, split, worse⟩
            · obtain rfl := Option.some.inj eq
              exact ⟨[], rest, rfl, by simp⟩
            · refine ⟨hole :: before, after, by rw [split]; rfl, ?_⟩
              intro other mem enough
              rcases List.mem_cons.mp mem with rfl | mem
              · exact wins other rfl
              · exact worse other mem enough
        | some b =>
            simp only at picked
            split at picked
            · rename_i first
              right
              rcases ih picked with eq | ⟨wins, before, after, split, worse⟩
              · obtain rfl := Option.some.inj eq
                refine ⟨?_, [], rest, rfl, by simp⟩
                rintro b' eq'
                obtain rfl := Option.some.inj eq'
                exact first
              · have wins := wins hole rfl
                refine ⟨?_, hole :: before, after, by rw [split]; rfl, ?_⟩
                · rintro b' eq'
                  obtain rfl := Option.some.inj eq'
                  exact better_trans wins first
                · intro other mem enough
                  rcases List.mem_cons.mp mem with rfl | mem
                  · exact wins
                  · exact worse other mem enough
            · rename_i loses
              rcases ih picked with eq | ⟨wins, before, after, split, worse⟩
              · exact .inl eq
              · refine .inr ⟨wins, hole :: before, after, by rw [split]; rfl, ?_⟩
                intro other mem enough
                rcases List.mem_cons.mp mem with rfl | mem
                · exact better_of_not (wins b rfl) (by simpa using loses)
                · exact worse other mem enough
      · rw [if_neg fits] at picked
        rcases ih picked with eq | ⟨wins, before, after, split, worse⟩
        · exact .inl eq
        · refine .inr ⟨wins, hole :: before, after, by rw [split]; rfl, ?_⟩
          intro other mem enough
          rcases List.mem_cons.mp mem with rfl | mem
          · exact absurd enough fits
          · exact worse other mem enough

private theorem pick_isSome {better : Hole → Hole → Bool} {start : Option Hole} :
    (pick better holes size start).isSome ↔
      start.isSome ∨ ∃ hole ∈ holes, size ≤ hole.size := by
  induction holes generalizing start with
  | nil => simp [pick]
  | cons hole rest ih =>
      simp only [pick, List.foldl_cons] at ih ⊢
      rw [ih]
      by_cases fits : size ≤ hole.size
      · cases start with
        | none => simp [fits]
        | some b =>
            by_cases wins : better hole b <;> simp [fits, wins]
      · simp [fits]

/-- The selected hole is one of the holes and is big enough. -/
theorem selectHole_mem (selected : selectHole strategy holes size = some h) :
    h ∈ holes ∧ size ≤ h.size := by
  rw [selectHole_eq_pick] at selected
  simpa using (pick_spec selected).1

/-- The hole that a strategy is to choose: no hole that is big enough is better, and none of the
same size is lower. -/
structure Chosen (strategy : AllocationStrategy) (holes : List Hole) (size : UInt32) (h : Hole) :
    Prop where
  mem : h ∈ holes
  enough : size ≤ h.size
  smallest : strategy = .best → ∀ hole ∈ holes, size ≤ hole.size → h.size ≤ hole.size
  biggest : strategy = .worst → ∀ hole ∈ holes, size ≤ hole.size → hole.size ≤ h.size
  lowest : ∀ hole ∈ holes, hole.size = h.size → h.base ≤ hole.base

/-- `select_hole` chooses from holes in the order of their bases. -/
theorem selectHole_chosen (sorted : holes.Pairwise fun a b => a.base ≤ b.base)
    (selected : selectHole strategy holes size = some h) : Chosen strategy holes size h := by
  rw [selectHole_eq_pick] at selected
  obtain ⟨source, best, -⟩ := pick_spec selected
  obtain ⟨mem, enough⟩ : h ∈ holes ∧ size ≤ h.size := by simpa using source
  refine ⟨mem, enough, ?_, ?_, ?_⟩
  · rintro rfl hole among fits
    simpa [better] using best hole among fits
  · rintro rfl hole among fits
    simpa [better] using best hole among fits
  · intro hole among same
    rcases pick_first selected with eq | ⟨-, before, after, rfl, worse⟩
    · cases eq
    · rcases List.mem_append.mp among with first | later
      · have wins := worse hole first (same ▸ enough)
        cases strategy <;> simp [better, same] at wins
      · rcases List.mem_cons.mp later with rfl | later
        · exact UInt32.le_refl _
        · have tail := (List.pairwise_append.mp sorted).2.1
          exact (List.pairwise_cons.mp tail).1 hole later

/-- A hole is selected as soon as one is big enough. -/
theorem selectHole_isSome :
    (selectHole strategy holes size).isSome ↔ ∃ hole ∈ holes, size ≤ hole.size := by
  simp [selectHole_eq_pick, pick_isSome]

/-- Best fit selects a hole no bigger than any other that is big enough. -/
theorem bestFit_le (selected : bestFit holes size = some h) {hole : Hole} (mem : hole ∈ holes)
    (fits : size ≤ hole.size) : h.size ≤ hole.size := by
  have := (pick_spec (selectHole_eq_pick.symm.trans
    (show selectHole .best holes size = some h from selected))).2.1 hole mem fits
  simpa [better] using this

/-- Two sizes that the same holes can serve are given the same hole. -/
private theorem pick_eq_of_same {better : Hole → Hole → Bool}
    (same : ∀ hole ∈ holes, size ≤ hole.size ↔ size' ≤ hole.size) :
    pick better holes size none = pick better holes size' none := by
  rw [pick_filter better size, pick_filter better size']
  congr 1
  exact List.filter_congr fun hole mem => by simp [same hole mem]

/-- Worst fit does not look at the size: as long as some hole serves the bigger
one, it is selected for both. -/
private theorem pick_worst_eq (start start' : Option Hole) (le : size ≤ size')
    (starts : start = start' ∧ (∀ w, start' = some w → size' ≤ w.size) ∨
      start' = none ∧ ∀ w, start = some w → w.size < size') :
    pick (better .worst) holes size start = pick (better .worst) holes size' start' ∨
      pick (better .worst) holes size' start' = none := by
  induction holes generalizing start start' with
  | nil =>
      rcases starts with ⟨rfl, -⟩ | ⟨rfl, -⟩
      · exact .inl rfl
      · exact .inr rfl
  | cons hole rest ih =>
      simp only [pick, List.foldl_cons, ge_iff_le] at ih ⊢
      by_cases big : size' ≤ hole.size
      · have also : size ≤ hole.size := UInt32.le_trans le big
        rw [if_pos big, if_pos also]
        apply ih
        left
        rcases starts with ⟨rfl, bounded⟩ | ⟨rfl, bounded⟩
        · refine ⟨rfl, fun w eq => ?_⟩
          cases start with
          | none =>
              obtain rfl := Option.some.inj eq
              exact big
          | some w' =>
              simp only at eq
              split at eq
              · obtain rfl := Option.some.inj eq
                exact big
              · exact bounded w eq
        · cases start with
          | none =>
              refine ⟨rfl, fun w eq => ?_⟩
              obtain rfl := Option.some.inj eq
              exact big
          | some w' =>
              have less : hole.size > w'.size :=
                UInt32.lt_of_lt_of_le (bounded w' rfl) big
              refine ⟨by simp [better, less], fun w eq => ?_⟩
              obtain rfl := Option.some.inj eq
              exact big
      · rw [if_neg big]
        apply ih
        rw [UInt32.not_le] at big
        rcases starts with ⟨rfl, bounded⟩ | ⟨rfl, bounded⟩
        · cases start with
          | none =>
              right
              refine ⟨rfl, fun w eq => ?_⟩
              split at eq
              · obtain rfl := Option.some.inj eq
                exact big
              · simp at eq
          | some w' =>
              left
              have less : ¬ hole.size > w'.size :=
                UInt32.not_lt.mpr (UInt32.le_of_lt (UInt32.lt_of_lt_of_le big (bounded w' rfl)))
              refine ⟨by simp [better, less], bounded⟩
        · right
          refine ⟨rfl, fun w eq => ?_⟩
          cases start with
          | none =>
              split at eq
              · obtain rfl := Option.some.inj eq
                exact big
              · simp at eq
          | some w' =>
              simp only at eq
              split at eq
              · split at eq
                · obtain rfl := Option.some.inj eq
                  exact big
                · exact bounded w eq
              · exact bounded w eq

/-- Some hole is big enough for the smaller of the two sizes only, and the
strategy looks for the smallest hole. -/
def Separates (strategy : AllocationStrategy) (holes : List Hole) (a b : UInt32) : Prop :=
  strategy = .best ∧
    ∃ hole ∈ holes, min a.toNat b.toNat ≤ hole.size.toNat ∧ hole.size.toNat < max a.toNat b.toNat

instance (strategy : AllocationStrategy) (holes : List Hole) (a b : UInt32) :
    Decidable (Separates strategy holes a b) := by
  unfold Separates
  infer_instance

theorem Separates.symm {a b : UInt32} (h : Separates strategy holes a b) :
    Separates strategy holes b a := by
  obtain ⟨best, hole, mem, low, high⟩ := h
  exact ⟨best, hole, mem, by rwa [min_comm], by rwa [max_comm]⟩

private theorem selectHole_ne_iff_of_le (le : size ≤ size')
    (selected : selectHole strategy holes size = some h)
    (selected' : selectHole strategy holes size' = some h') :
    h ≠ h' ↔ Separates strategy holes size size' := by
  have le' := UInt32.le_iff_toNat_le.mp le
  constructor
  · intro ne
    cases strategy with
    | best =>
        by_contra alike
        apply ne
        have same : ∀ hole ∈ holes, size ≤ hole.size ↔ size' ≤ hole.size := by
          intro hole mem
          refine ⟨fun fits => ?_, UInt32.le_trans le⟩
          by_contra small
          refine alike ⟨rfl, hole, mem, ?_, ?_⟩
          · rw [min_eq_left le']
            exact UInt32.le_iff_toNat_le.mp fits
          · rw [max_eq_right le']
            exact UInt32.lt_iff_toNat_lt.mp (UInt32.not_le.mp small)
        rw [selectHole_eq_pick, pick_eq_of_same same, ← selectHole_eq_pick, selected'] at selected
        exact (Option.some.inj selected).symm
    | worst =>
        rw [selectHole_eq_pick] at selected selected'
        rcases pick_worst_eq none none le (by simp)
          with eq | none
        · rw [selected, selected'] at eq
          exact absurd (Option.some.inj eq) ne
        · rw [none] at selected'
          simp at selected'
  · rintro ⟨rfl, hole, mem, low, high⟩ rfl
    rw [min_eq_left le'] at low
    rw [max_eq_right le'] at high
    have smallest := bestFit_le selected mem (UInt32.le_iff_toNat_le.mpr low)
    have enough := (selectHole_mem selected').2
    rw [UInt32.le_iff_toNat_le] at smallest enough
    omega

/-- **Two sizes are given different holes exactly when the strategy separates
them**: worst fit never does, best fit does when some hole serves only the
smaller one. -/
theorem selectHole_ne_iff (selected : selectHole strategy holes size = some h)
    (selected' : selectHole strategy holes size' = some h') :
    h ≠ h' ↔ Separates strategy holes size size' := by
  rcases UInt32.le_total size size' with le | le
  · exact selectHole_ne_iff_of_le le selected selected'
  · rw [ne_comm, selectHole_ne_iff_of_le le selected' selected]
    exact ⟨Separates.symm, Separates.symm⟩

end Select

/-! ### The place of a new segment -/

/-- The range that a segment of `size` bytes would take in the hole selected for
it. -/
def placeFor (s : State) (size : UInt32) : Option Span :=
  (selectHole s.allocationStrategy (getFreeHoles s) size).map fun chosen =>
    ⟨chosen.base.toNat, size.toNat⟩

/-- A range of free memory. -/
structure Free (s : State) (sp : Span) : Prop where
  inside : sp.stop ≤ s.totalMemorySize.toNat
  apart : ∀ seg ∈ allSegments s, sp.Apart seg.span

theorem placeFor_of_selectHole {s : State} {size : UInt32} {chosen : Hole}
    (selected : selectHole s.allocationStrategy (getFreeHoles s) size = some chosen) :
    placeFor s size = some ⟨chosen.base.toNat, size.toNat⟩ := by
  rw [placeFor, selected, Option.map_some]

/-- A new segment in the hole selected for it is in free memory. -/
theorem placeFor_free {s : State} {size : UInt32} {sp : Span} (sound : Sound s)
    (place : placeFor s size = some sp) : Free s sp := by
  obtain ⟨chosen, selected, rfl⟩ := Option.map_eq_some_iff.mp place
  obtain ⟨among, enough⟩ := selectHole_mem selected
  obtain ⟨-, below, free⟩ := getFreeHoles_free sound among
  rw [UInt32.le_iff_toNat_le] at enough
  have within : chosen.span.base ≤ chosen.base.toNat ∧
      chosen.base.toNat + size.toNat ≤ chosen.span.stop := by
    simp only [Hole.span, stop]
    omega
  exact ⟨within.2.trans below, fun seg mem => (free seg mem).of_subset within ⟨le_refl _, le_refl _⟩⟩

end KernelMemory

end OsModel
