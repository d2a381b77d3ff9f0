import OsModel.Lib.Run
import Mathlib.Logic.Relation

/-!
Threads that take their locks in order never wait for each other in a circle.

`Code L` is what a function does with locks: which ones it takes and gives back, where it
waits for something that is not a lock, and how this goes on in branches and loops. What
the branches depend on is left open, so a function is modelled by all the ways it can go.
Any number of threads run such code, one step at a time (`step`).

An `Order` ranks the locks, and says which of them a thread may have while it waits for
something else. `Code.Ordered` checks code against an order: a lock is taken above all that
the thread has, and what is given back is there. If the code of every thread passes, then
in every state that a run reaches (`acyclic`, `leads_to_patient`, `leads_to_mover`):

* no chain of threads that wait for each other's locks is closed;
* behind every lock that is taken, such a chain ends at a thread that can go on, or at one
  that waits for something else and has only locks that it may have then;
* above the locks that a waiting thread may have, it ends at a thread that can go on.
-/

namespace OsModel.Lib.Locks

/-! ### Code -/

/-- What code does with locks; `any` looks at one of many objects of a kind. -/
inductive Code (L : Type) where
  | skip
  | lock (l : L)
  | unlock (l : L)
  | wait
  | seq (first second : Code L)
  | choice (left right : Code L)
  | loop (body : Code L)
  | any (body : ℕ → Code L)

/-- What a step does. -/
inductive Label (L : Type) where
  | silent
  | wait
  | lock (l : L)
  | unlock (l : L)
  deriving DecidableEq

namespace Code

variable {L : Type}

/-- The next step, where `n` says how a branch goes: left for zero, out of a loop for zero,
and at the `n`-th object. -/
def next (n : ℕ) : Code L → Option (Label L × Code L)
  | .skip => none
  | .lock l => some (.lock l, .skip)
  | .unlock l => some (.unlock l, .skip)
  | .wait => some (.wait, .skip)
  | .seq first second =>
      match next n first with
      | none => some (.silent, second)
      | some (label, rest) => some (label, .seq rest second)
  | .choice left right => some (.silent, if n = 0 then left else right)
  | .loop body => some (.silent, if n = 0 then .skip else .seq body (.loop body))
  | .any body => some (.silent, body n)

/-- What the next step does, whichever way the branches go. -/
def head (c : Code L) : Option (Label L) := (c.next 0).map Prod.fst

theorem eq_skip_of_next {c : Code L} {n : ℕ} (ended : c.next n = none) : c = .skip := by
  cases c <;> simp_all [next]
  split at ended <;> simp at ended

/-- Code that is not done can go on in some way. -/
theorem exists_next {c : Code L} {label : Label L} (first : c.head = some label) :
    ∃ n rest, c.next n = some (label, rest) := by
  obtain ⟨⟨_, rest⟩, taken, rfl⟩ := Option.map_eq_some_iff.mp first
  exact ⟨0, rest, taken⟩

theorem eq_skip_of_head {c : Code L} (ended : c.head = none) : c = .skip :=
  eq_skip_of_next (Option.map_eq_none_iff.mp ended)

end Code

/-! ### Threads -/

/-- What every thread has left to do, and who has each lock. -/
structure Threads (τ L : Type) where
  todo : τ → Code L
  owner : L → Option τ

namespace Threads

variable {τ L : Type} [DecidableEq τ] [DecidableEq L]

/-- The threads before their first step. A thread that is created later is one that has not
moved yet. -/
def start (code : τ → Code L) : Threads τ L := ⟨code, fun _ => none⟩

/-- A step of one thread. A lock that is taken is not taken again, not even by its owner,
and only its owner gives it back. -/
def step (s : Threads τ L) : τ × ℕ → Option (Threads τ L)
  | (t, n) =>
      match (s.todo t).next n with
      | none => none
      | some (label, rest) =>
          let todo := Function.update s.todo t rest
          match label with
          | .silent | .wait => some { s with todo }
          | .lock l =>
              if s.owner l = none then some ⟨todo, Function.update s.owner l (some t)⟩ else none
          | .unlock l =>
              if s.owner l = some t then some ⟨todo, Function.update s.owner l none⟩ else none

/-- What the threads can come to. -/
def Reachable (code : τ → Code L) (s : Threads τ L) : Prop :=
  ∃ as, Run step (fun _ _ => True) (start code) as s

/-- The next thing that `t` does is to take a lock that `u` has. -/
def WaitsFor (s : Threads τ L) (t u : τ) : Prop :=
  ∃ l, (s.todo t).head = some (.lock l) ∧ s.owner l = some u

/-- The next thing that `t` does is to wait for something that is not a lock. -/
def AtWait (s : Threads τ L) (t : τ) : Prop := (s.todo t).head = some .wait

/-- `t` can go on without anything from outside. -/
def CanMove (s : Threads τ L) (t : τ) : Prop :=
  ¬ s.AtWait t ∧ ∃ n u, s.step (t, n) = some u

end Threads

/-! ### Orders -/

/-- How the locks are ranked, and those that a thread may have while it waits. -/
structure Order (L : Type) where
  rank : L → ℕ
  patient : L → Prop
  top : ℕ
  bounded : ∀ l, rank l ≤ top

/-- The locks that rank below `n`. -/
def Order.Below {L : Type} (o : Order L) (n : ℕ) (l : L) : Prop := o.rank l < n

@[grind =]
theorem Order.below_iff {L : Type} (o : Order L) (n : ℕ) (l : L) : o.Below n l ↔ o.rank l < n :=
  Iff.rfl

section

variable {L : Type}

/-- The locks that a thread has after a step, and what the order asks of it. -/
def Label.Passes [DecidableEq L] (o : Order L) (held held' : List L) : Label L → Prop
  | .silent => held' = held
  | .wait => held' = held ∧ ∀ k ∈ held, o.patient k
  | .lock l => held' = l :: held ∧ ∀ k ∈ held, o.rank k < o.rank l
  | .unlock l => held' = held.erase l ∧ l ∈ held

end

namespace Code

variable {L : Type} [DecidableEq L]

/-- The locks that a thread has after the code. -/
def after : Code L → List L → List L
  | .skip, held | .wait, held | .loop _, held => held
  | .lock l, held => l :: held
  | .unlock l, held => held.erase l
  | .seq first second, held => second.after (first.after held)
  | .choice left _, held => left.after held
  | .any body, held => (body 0).after held

/-- The code takes locks upwards, gives back what it has, and does both in the same way
whichever way it goes. -/
def Ordered (o : Order L) : Code L → List L → Prop
  | .skip, _ => True
  | .wait, held => ∀ k ∈ held, o.patient k
  | .lock l, held => ∀ k ∈ held, o.rank k < o.rank l
  | .unlock l, held => l ∈ held
  | .seq first second, held => first.Ordered o held ∧ second.Ordered o (first.after held)
  | .choice left right, held =>
      left.Ordered o held ∧ right.Ordered o held ∧ right.after held = left.after held
  | .loop body, held => body.Ordered o held ∧ body.after held = held
  | .any body, held => ∀ n, (body n).Ordered o held ∧ (body n).after held = (body 0).after held

/-- A step of ordered code leaves ordered code, with the same locks in the end. -/
theorem Ordered.next {o : Order L} {c rest : Code L} {held : List L} {n : ℕ} {label : Label L}
    (ordered : c.Ordered o held) (taken : c.next n = some (label, rest)) :
    ∃ held', Label.Passes o held held' label ∧ rest.Ordered o held' ∧
      rest.after held' = c.after held := by
  induction c generalizing label rest with
  | skip => simp [Code.next] at taken
  | lock l =>
      obtain ⟨rfl, rfl⟩ : Label.lock l = label ∧ Code.skip = rest := by
        simpa [Code.next] using taken
      exact ⟨l :: held, ⟨rfl, ordered⟩, trivial, rfl⟩
  | unlock l =>
      obtain ⟨rfl, rfl⟩ : Label.unlock l = label ∧ Code.skip = rest := by
        simpa [Code.next] using taken
      exact ⟨held.erase l, ⟨rfl, ordered⟩, trivial, rfl⟩
  | wait =>
      obtain ⟨rfl, rfl⟩ : Label.wait = label ∧ Code.skip = rest := by simpa [Code.next] using taken
      exact ⟨held, ⟨rfl, ordered⟩, trivial, rfl⟩
  | seq first second ihFirst ihSecond =>
      obtain ⟨orderedFirst, orderedSecond⟩ := ordered
      simp only [Code.next] at taken
      split at taken
      · rename_i ended
        obtain rfl := eq_skip_of_next ended
        obtain ⟨rfl, rfl⟩ : Label.silent = label ∧ second = rest := by simpa using taken
        exact ⟨held, rfl, orderedSecond, rfl⟩
      · rename_i label' rest' moved
        obtain ⟨rfl, rfl⟩ : label' = label ∧ Code.seq rest' second = rest := by simpa using taken
        obtain ⟨held', passes, orderedRest, same⟩ := ihFirst orderedFirst moved
        refine ⟨held', passes, ⟨orderedRest, ?_⟩, ?_⟩
        · rw [same]
          exact orderedSecond
        · simp only [after, same]
  | choice left right =>
      obtain ⟨orderedLeft, orderedRight, same⟩ := ordered
      obtain ⟨rfl, rfl⟩ : Label.silent = label ∧ (if n = 0 then left else right) = rest := by
        simpa [Code.next] using taken
      refine ⟨held, rfl, ?_⟩
      by_cases zero : n = 0
      · rw [if_pos zero]
        exact ⟨orderedLeft, rfl⟩
      · rw [if_neg zero]
        exact ⟨orderedRight, same⟩
  | loop body =>
      obtain ⟨orderedBody, same⟩ := ordered
      obtain ⟨rfl, rfl⟩ : Label.silent = label ∧
          (if n = 0 then Code.skip else .seq body (.loop body)) = rest := by
        simpa [Code.next] using taken
      refine ⟨held, rfl, ?_⟩
      by_cases zero : n = 0
      · rw [if_pos zero]
        exact ⟨trivial, rfl⟩
      · rw [if_neg zero]
        refine ⟨⟨orderedBody, ?_⟩, ?_⟩
        · rw [same]
          exact ⟨orderedBody, same⟩
        · simp only [after, same]
  | any body =>
      obtain ⟨rfl, rfl⟩ : Label.silent = label ∧ body n = rest := by simpa [Code.next] using taken
      exact ⟨held, rfl, (ordered n).1, (ordered n).2⟩

/-- All the locks that the code takes, wherever it goes, are among `p`. -/
def Takes (p : L → Prop) : Code L → Prop
  | .skip | .wait | .unlock _ => True
  | .lock l => p l
  | .seq first second | .choice first second => first.Takes p ∧ second.Takes p
  | .loop body => body.Takes p
  | .any body => ∀ n, (body n).Takes p

omit [DecidableEq L] in
theorem Takes.mono {p q : L → Prop} {c : Code L} (weaker : ∀ l, p l → q l) (takes : c.Takes p) :
    c.Takes q := by
  induction c with
  | skip | wait | unlock => trivial
  | lock l => exact weaker l takes
  | seq first second ih ih' | choice first second ih ih' => exact ⟨ih takes.1, ih' takes.2⟩
  | loop body ih => exact ih takes
  | any body ih =>
      intro n
      exact ih n (takes n)

omit [DecidableEq L] in
/-- A step of such code takes a lock among them, and leaves such code. -/
theorem Takes.next {p : L → Prop} {c rest : Code L} {n : ℕ} {label : Label L} (takes : c.Takes p)
    (taken : c.next n = some (label, rest)) : (∀ l, label = .lock l → p l) ∧ rest.Takes p := by
  induction c generalizing label rest with
  | skip => simp [Code.next] at taken
  | lock l =>
      obtain ⟨rfl, rfl⟩ : Label.lock l = label ∧ Code.skip = rest := by
        simpa [Code.next] using taken
      refine ⟨?_, trivial⟩
      rintro l' ⟨⟩
      exact takes
  | unlock | wait =>
      simp only [Code.next, Option.some.injEq, Prod.mk.injEq] at taken
      obtain ⟨rfl, rfl⟩ := taken
      exact ⟨by simp, trivial⟩
  | seq first second ih _ =>
      obtain ⟨takesFirst, takesSecond⟩ := takes
      simp only [Code.next] at taken
      split at taken
      · obtain ⟨rfl, rfl⟩ : Label.silent = label ∧ second = rest := by simpa using taken
        exact ⟨by simp, takesSecond⟩
      · rename_i label' rest' moved
        obtain ⟨rfl, rfl⟩ : label' = label ∧ Code.seq rest' second = rest := by simpa using taken
        obtain ⟨among, later⟩ := ih takesFirst moved
        exact ⟨among, later, takesSecond⟩
  | choice left right =>
      simp only [Code.next, Option.some.injEq, Prod.mk.injEq] at taken
      obtain ⟨rfl, rfl⟩ := taken
      refine ⟨by simp, ?_⟩
      split
      · exact takes.1
      · exact takes.2
  | loop body =>
      simp only [Code.next, Option.some.injEq, Prod.mk.injEq] at taken
      obtain ⟨rfl, rfl⟩ := taken
      refine ⟨by simp, ?_⟩
      split
      · trivial
      · exact ⟨takes, takes⟩
  | any body =>
      simp only [Code.next, Option.some.injEq, Prod.mk.injEq] at taken
      obtain ⟨rfl, rfl⟩ := taken
      exact ⟨by simp, takes n⟩

/-- The statements of a block, in turn. -/
def block : List (Code L) → Code L
  | [] => .skip
  | c :: rest => .seq c (block rest)

/-- A branch between two blocks. -/
def either (left right : List (Code L)) : Code L := .choice (block left) (block right)

/-- A branch between any number of blocks, or none of them. -/
def switch : List (List (Code L)) → Code L
  | [] => .skip
  | c :: rest => .choice (block c) (switch rest)

/-- A critical section that does nothing else with locks. -/
def critical (l : L) : Code L := block [.lock l, .unlock l]

/-- From the locks `held` the code keeps the order, and it ends with the locks `held'`. -/
structure Has (o : Order L) (held : List L) (c : Code L) (held' : List L) : Prop where
  ordered : c.Ordered o held
  ends : c.after held = held'

/-- Who calls the code with locks among `may` keeps the order, and has the same locks then. -/
def Fits (o : Order L) (may : L → Prop) (c : Code L) : Prop :=
  ∀ held : List L, (∀ k ∈ held, may k) → c.Has o held held

namespace Has

variable {o : Order L} {may : L → Prop} {held held' middle : List L} {c c' : Code L}
  {rest : List (Code L)} {body : ℕ → Code L} {l l' : L}

/-- The rule for statements that follow each other, from which those for a block come. -/
theorem seq (first : c.Has o held middle) (second : c'.Has o middle held') :
    (c.seq c').Has o held held' := by
  constructor
  · refine ⟨first.ordered, ?_⟩
    rw [first.ends]
    exact second.ordered
  · rw [after, first.ends, second.ends]

theorem nil : (block []).Has o held held := ⟨trivial, rfl⟩

theorem lock (below : ∀ k ∈ held, o.rank k < o.rank l)
    (after : (block rest).Has o (l :: held) held') : (block (.lock l :: rest)).Has o held held' :=
  seq ⟨below, rfl⟩ after

theorem unlock (after : (block rest).Has o held held') :
    (block (.unlock l :: rest)).Has o (l :: held) held' :=
  seq ⟨List.mem_cons_self, List.erase_cons_head ..⟩ after

/-- What was taken before the last lock is given back before it. -/
theorem unlockBelow (other : l' ≠ l) (after : (block rest).Has o (l' :: held) held') :
    (block (.unlock l :: rest)).Has o (l' :: l :: held) held' := by
  have given : (Code.unlock l).Has o (l' :: l :: held) (l' :: held) := by
    constructor
    · exact List.mem_cons_of_mem _ List.mem_cons_self
    · rw [Code.after, List.erase_cons_tail (by simpa using other), List.erase_cons_head]
  exact seq given after

theorem wait (patient : ∀ k ∈ held, o.patient k) (after : (block rest).Has o held held') :
    (block (.wait :: rest)).Has o held held' :=
  seq ⟨patient, rfl⟩ after

/-- Without a lock, any code may wait. -/
theorem idle (after : (block rest).Has o [] held') : (block (.wait :: rest)).Has o [] held' := by
  apply wait
  · simp
  · exact after

theorem call (fits : c.Fits o may) (allowed : ∀ k ∈ held, may k)
    (after : (block rest).Has o held held') : (block (c :: rest)).Has o held held' :=
  seq (fits held allowed) after

theorem either {left right : List (Code L)} (first : (block left).Has o held held')
    (second : (block right).Has o held held') : (either left right).Has o held held' :=
  ⟨⟨first.ordered, second.ordered, second.ends.trans first.ends.symm⟩, first.ends⟩

theorem switch {cases : List (List (Code L))}
    (each : ∀ c ∈ cases, (block c).Has o held held) : (switch cases).Has o held held := by
  induction cases with
  | nil => exact nil
  | cons c rest ih =>
      have first := each c List.mem_cons_self
      have others := ih fun c' among => each c' (List.mem_cons_of_mem _ among)
      exact ⟨⟨first.ordered, others.ordered, others.ends.trans first.ends.symm⟩, first.ends⟩

theorem last (only : c.Has o held held') : (block [c]).Has o held held' := seq only nil

theorem loop (turn : c.Has o held held) : c.loop.Has o held held :=
  ⟨⟨turn.ordered, turn.ends⟩, rfl⟩

theorem any (each : ∀ n, (body n).Has o held held') : (Code.any body).Has o held held' := by
  constructor
  · intro n
    exact ⟨(each n).ordered, (each n).ends.trans (each 0).ends.symm⟩
  · exact (each 0).ends

end Has

namespace Fits

variable {o : Order L} {may may' : L → Prop} {c : Code L} {body : ℕ → Code L} {l : L}

theorem mono (fits : c.Fits o may') (weaker : ∀ k, may k → may' k) : c.Fits o may := by
  intro held allowed
  apply fits
  intro k has
  exact weaker k (allowed k has)

theorem critical (below : ∀ k, may k → o.rank k < o.rank l) : (critical l).Fits o may := by
  intro held allowed
  apply Has.lock
  · intro k has
    exact below k (allowed k has)
  · exact .unlock .nil

theorem any (each : ∀ n, (body n).Fits o may) : (Code.any body).Fits o may := by
  intro held allowed
  exact .any fun n => each n held allowed

theorem loop (turn : c.Fits o may) : c.loop.Fits o may := by
  intro held allowed
  exact .loop (turn held allowed)

/-- What a thread runs has no lock in the beginning and none in the end. -/
theorem thread (fits : c.Fits o may) : c.Has o [] [] := by
  apply fits
  simp

end Fits

end Code

/-! ### Runs -/

namespace Threads

variable {τ L : Type} [DecidableEq τ] [DecidableEq L] {o : Order L} {code : τ → Code L}
  {s u : Threads τ L} {held : τ → List L}

/-- Every thread has the locks that it owns, keeps the order, and gives them all back. -/
structure Sound (o : Order L) (s : Threads τ L) (held : τ → List L) : Prop where
  ordered : ∀ t, (s.todo t).Ordered o (held t)
  returns : ∀ t, (s.todo t).after (held t) = []
  distinct : ∀ t, (held t).Nodup
  owns : ∀ t l, s.owner l = some t ↔ l ∈ held t

omit [DecidableEq τ] in
theorem Sound.start (fits : ∀ t, (code t).Has o [] []) :
    Sound o (start code) (fun _ => []) where
  ordered t := (fits t).ordered
  returns t := (fits t).ends
  distinct _ := List.nodup_nil
  owns t l := by simp [Threads.start]

/-- What a thread does next is the same for each kind of step. -/
theorem step_todo {t : τ} {n : ℕ} {label : Label L} {rest : Code L}
    (moved : (s.todo t).next n = some (label, rest)) (taken : s.step (t, n) = some u) :
    u.todo = Function.update s.todo t rest := by
  simp only [Threads.step, moved] at taken
  cases label <;> grind

/-- What a thread has after a step. -/
theorem Sound.step {t : τ} {n : ℕ} (sound : Sound o s held) (taken : s.step (t, n) = some u) :
    ∃ held', Sound o u held' := by
  cases moved : (s.todo t).next n with
  | none => simp [Threads.step, moved] at taken
  | some result =>
      obtain ⟨label, rest⟩ := result
      obtain ⟨has, passes, ordered, same⟩ := (sound.ordered t).next moved
      refine ⟨Function.update held t has, ?_⟩
      have todo := step_todo moved taken
      have ordered' : ∀ v, (u.todo v).Ordered o (Function.update held t has v) := by
        intro v
        rw [todo]
        by_cases it : v = t
        · subst it
          simpa using ordered
        · simpa [it] using sound.ordered v
      have returns' : ∀ v, (u.todo v).after (Function.update held t has v) = [] := by
        intro v
        rw [todo]
        by_cases it : v = t
        · subst it
          simpa using same.trans (sound.returns v)
        · simpa [it] using sound.returns v
      cases label with
      | silent | wait =>
          have kept : has = held t := by
            first
              | exact passes
              | exact passes.1
          have owner : u.owner = s.owner := by
            simp only [Threads.step, moved, Option.some.injEq] at taken
            rw [← taken]
          rw [kept, Function.update_eq_self] at ordered' returns' ⊢
          exact ⟨ordered', returns', sound.distinct, fun v k => owner ▸ sound.owns v k⟩
      | lock l =>
          obtain ⟨rfl, -⟩ := passes
          simp only [Threads.step, moved] at taken
          split at taken
          · rename_i free
            obtain rfl := Option.some.inj taken
            have fresh : ∀ v, l ∉ held v := by
              intro v has
              rw [← sound.owns, free] at has
              simp at has
            refine ⟨ordered', returns', ?_, ?_⟩
            · intro v
              by_cases it : v = t
              · subst it
                simpa using ⟨fresh v, sound.distinct v⟩
              · simpa [it] using sound.distinct v
            · intro v k
              have before := sound.owns v k
              have nobody := fresh v
              by_cases it : v = t <;> by_cases that : k = l <;> grind [Function.update]
          · simp at taken
      | unlock l =>
          obtain ⟨rfl, -⟩ := passes
          simp only [Threads.step, moved] at taken
          split at taken
          · rename_i owned
            obtain rfl := Option.some.inj taken
            refine ⟨ordered', returns', ?_, ?_⟩
            · intro v
              by_cases it : v = t
              · subst it
                simpa using (sound.distinct v).erase l
              · simpa [it] using sound.distinct v
            · intro v k
              have before := sound.owns v k
              have this := sound.owns v l
              have gone := (sound.distinct v).mem_erase_iff (a := l) (b := k)
              by_cases it : v = t <;> by_cases that : k = l <;> grind [Function.update]
          · simp at taken

/-- In every state that a run reaches, the threads have their locks in order. -/
theorem Reachable.sound (fits : ∀ t, (code t).Has o [] []) (reached : Reachable code s) :
    ∃ held, Sound o s held := by
  obtain ⟨as, run⟩ := reached
  have keeps : ∀ {s : Threads τ L} {a : τ × ℕ} {u : Threads τ L}, (∃ held, Sound o s held) →
      True → s.step a = some u → ∃ held, Sound o u held := by
    intro s a u inv _ taken
    obtain ⟨held, sound⟩ := inv
    exact sound.step taken
  exact run.invariant keeps ⟨_, Sound.start fits⟩

/-- Code that takes only some locks goes on that way. -/
theorem Reachable.takes {p : L → Prop} {t : τ} (takes : (code t).Takes p)
    (reached : Reachable code s) : (s.todo t).Takes p := by
  obtain ⟨as, run⟩ := reached
  have keeps : ∀ {s : Threads τ L} {a : τ × ℕ} {u : Threads τ L}, (s.todo t).Takes p →
      True → s.step a = some u → (u.todo t).Takes p := by
    intro s a u inv _ taken
    obtain ⟨v, n⟩ := a
    cases moved : (s.todo v).next n with
    | none => simp [Threads.step, moved] at taken
    | some result =>
        obtain ⟨label, rest⟩ := result
        have todo : u.todo = Function.update s.todo v rest := step_todo moved taken
        rw [todo]
        by_cases it : t = v
        · subst it
          simpa using (inv.next moved).2
        · simpa [it] using inv
  exact run.invariant keeps takes

omit [DecidableEq τ] in
/-- A thread that is done has no lock. -/
theorem Sound.done {t : τ} (sound : Sound o s held) (done : s.todo t = .skip) : held t = [] := by
  have returns := sound.returns t
  rw [done] at returns
  exact returns

omit [DecidableEq τ] in
/-- What a thread takes ranks above all that it has. -/
theorem Sound.rises {t : τ} {l k : L} (sound : Sound o s held)
    (takes : (s.todo t).head = some (.lock l)) (has : k ∈ held t) : o.rank k < o.rank l := by
  obtain ⟨n, rest, taken⟩ := Code.exists_next takes
  obtain ⟨_, passes, _, _⟩ := (sound.ordered t).next taken
  exact passes.2 k has

omit [DecidableEq τ] in
theorem Sound.waits {t : τ} {k : L} (sound : Sound o s held) (waits : s.AtWait t)
    (has : k ∈ held t) : o.patient k := by
  obtain ⟨n, rest, taken⟩ := Code.exists_next waits
  obtain ⟨_, passes, _, _⟩ := (sound.ordered t).next taken
  exact passes.2 k has

/-- How high the lock that a thread waits for ranks. -/
def level (o : Order L) (s : Threads τ L) (t : τ) : ℕ :=
  match (s.todo t).head with
  | some (.lock l) => o.rank l
  | _ => o.top + 1

omit [DecidableEq τ] in
/-- Along the chain of owners, the locks that are waited for rank higher and higher. -/
theorem Sound.level_lt {t v : τ} (sound : Sound o s held) (waits : s.WaitsFor t v) :
    level o s t < level o s v := by
  obtain ⟨l, takes, owned⟩ := waits
  have has : l ∈ held v := (sound.owns v l).mp owned
  have first : level o s t = o.rank l := by simp only [level, takes]
  rw [first]
  cases second : (s.todo v).head with
  | none =>
      simp only [level, second]
      exact Nat.lt_succ_of_le (o.bounded l)
  | some label =>
      cases label with
      | lock l' =>
          simp only [level, second]
          exact sound.rises second has
      | silent | wait | unlock =>
          simp only [level, second]
          exact Nat.lt_succ_of_le (o.bounded l)

/-- A thread that is not done can go on, waits for something else, or waits for a lock. -/
theorem Sound.cases {t : τ} (sound : Sound o s held) (busy : s.todo t ≠ .skip) :
    s.CanMove t ∨ s.AtWait t ∨
      ∃ v l, s.WaitsFor t v ∧ l ∈ held v ∧ ∀ k ∈ held t, o.rank k < o.rank l := by
  cases first : (s.todo t).head with
  | none => exact absurd (Code.eq_skip_of_head first) busy
  | some label =>
      obtain ⟨n, rest, moved⟩ := Code.exists_next first
      cases label with
      | wait => exact .inr (.inl first)
      | silent =>
          left
          constructor
          · simp [AtWait, first]
          · exact ⟨n, by simp [Threads.step, moved]⟩
      | unlock l =>
          left
          obtain ⟨_, passes, _, _⟩ := (sound.ordered t).next moved
          have owned := (sound.owns t l).mpr passes.2
          constructor
          · simp [AtWait, first]
          · exact ⟨n, by simp [Threads.step, moved, owned]⟩
      | lock l =>
          cases owner : s.owner l with
          | none =>
              left
              constructor
              · simp [AtWait, first]
              · exact ⟨n, by simp [Threads.step, moved, owner]⟩
          | some v =>
              right
              right
              refine ⟨v, l, ⟨l, first, owner⟩, (sound.owns v l).mp owner, ?_⟩
              intro k has
              exact sound.rises first has

omit [DecidableEq τ] in
theorem Sound.busy {t : τ} {l : L} (sound : Sound o s held) (has : l ∈ held t) :
    s.todo t ≠ .skip := by
  intro done
  rw [sound.done done] at has
  simp at has

/-- Behind a lock that is taken, the chain of owners ends with one that ranks no lower. -/
theorem Sound.chain {t : τ} {l : L} (sound : Sound o s held) (has : l ∈ held t) :
    ∃ v l', Relation.ReflTransGen s.WaitsFor t v ∧ l' ∈ held v ∧ o.rank l ≤ o.rank l' ∧
      (s.CanMove v ∨ s.AtWait v) := by
  induction left : o.top - o.rank l using Nat.strongRecOn generalizing t l with
  | _ n ih =>
      rcases sound.cases (sound.busy has) with moves | waits | ⟨v, l', waitsFor, has', rises⟩
      · exact ⟨t, l, .refl, has, Nat.le_refl _, .inl moves⟩
      · exact ⟨t, l, .refl, has, Nat.le_refl _, .inr waits⟩
      · have nearer : o.top - o.rank l' < n := by
          have bound := o.bounded l'
          have higher := rises l has
          omega
        obtain ⟨w, l'', chain, has'', higher, ends⟩ := ih _ nearer has' rfl
        have further := rises l has
        exact ⟨w, l'', chain.head waitsFor, has'', by omega, ends⟩

section

variable (fits : ∀ t, (code t).Has o [] []) (reached : Reachable code s)
include fits reached

/-- **No threads wait for each other in a circle.** -/
theorem acyclic (t : τ) : ¬ Relation.TransGen s.WaitsFor t t := by
  obtain ⟨held, sound⟩ := reached.sound fits
  have rises : ∀ {t v}, Relation.TransGen s.WaitsFor t v → level o s t < level o s v := by
    intro t v chain
    induction chain with
    | single waits => exact sound.level_lt waits
    | tail _ waits ih => exact Nat.lt_trans ih (sound.level_lt waits)
  intro circle
  exact Nat.lt_irrefl _ (rises circle)

/-- **Behind every lock that is taken**, a thread can go on, or waits for something else and
has only locks that it may have then. -/
theorem leads_to_patient {t : τ} {l : L} (owned : s.owner l = some t) :
    ∃ v, Relation.ReflTransGen s.WaitsFor t v ∧
      (s.CanMove v ∨ s.AtWait v ∧ ∀ k, s.owner k = some v → o.patient k) := by
  obtain ⟨held, sound⟩ := reached.sound fits
  obtain ⟨v, l', chain, _, _, ends⟩ := sound.chain ((sound.owns t l).mp owned)
  refine ⟨v, chain, ?_⟩
  rcases ends with moves | waits
  · exact .inl moves
  · right
    constructor
    · exact waits
    · intro k has
      exact sound.waits waits ((sound.owns v k).mp has)

/-- **Behind every lock above those that a waiting thread may have**, a thread can go on. -/
theorem leads_to_mover {t : τ} {l : L} (above : ∀ k, o.patient k → o.rank k < o.rank l)
    (owned : s.owner l = some t) :
    ∃ v, Relation.ReflTransGen s.WaitsFor t v ∧ s.CanMove v := by
  obtain ⟨held, sound⟩ := reached.sound fits
  obtain ⟨v, l', chain, has, higher, ends⟩ := sound.chain ((sound.owns t l).mp owned)
  refine ⟨v, chain, ?_⟩
  rcases ends with moves | waits
  · exact moves
  · have lower := above l' (sound.waits waits has)
    omega

/-- **A thread that takes only locks above those that a waiting thread may have** waits for
something else, or some thread can go on for it. -/
theorem leads_to_mover_of_takes {t : τ}
    (takes : (code t).Takes fun l => ∀ k, o.patient k → o.rank k < o.rank l)
    (busy : s.todo t ≠ .skip) (wants : ¬ s.AtWait t) :
    ∃ v, Relation.ReflTransGen s.WaitsFor t v ∧ s.CanMove v := by
  obtain ⟨held, sound⟩ := reached.sound fits
  rcases sound.cases busy with moves | waits | ⟨v, _, waitsFor, _⟩
  · exact ⟨t, .refl, moves⟩
  · exact absurd waits wants
  · obtain ⟨l, next, owned⟩ := waitsFor
    obtain ⟨n, rest, moved⟩ := Code.exists_next next
    have above := ((reached.takes takes).next moved).1 l rfl
    obtain ⟨w, chain, moves⟩ := leads_to_mover fits reached above owned
    exact ⟨w, chain.head ⟨l, next, owned⟩, moves⟩

/-- A thread that waits for something else has only locks that it may have then. -/
theorem patient_of_atWait {t : τ} {l : L} (waits : s.AtWait t) (owned : s.owner l = some t) :
    o.patient l := by
  obtain ⟨held, sound⟩ := reached.sound fits
  exact sound.waits waits ((sound.owns t l).mp owned)

end

end Threads

end OsModel.Lib.Locks
