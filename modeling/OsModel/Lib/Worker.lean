import OsModel.Lib.Channel

/-!
A worker between two connections.

Requests come in on the one connection, and for each of them an answer goes out on the other.
The client does not wait: there may be requests and answers under way at once, each of them in
parts.

* `Worker.run_spec`: the answers that have come are those of the first requests, in order.
* `Worker.answer`: as long as one is missing, it can come.
* `Worker.inOrder`: both of every worker.
-/

namespace OsModel.Lib

variable {Q A N : Type}

/-- What a worker takes and gives, and what it makes of a request. This may depend on something
that is not in the request; it is usable when the answer can go out. -/
structure Worker (Q A N : Type) where
  requests : Codec Q
  answers : Codec A
  serve : N → Q → Option A
  usable : N → Q → Prop
  serves : ∀ n q, requests.fits q → usable n q → ∃ a, serve n q = some a ∧ answers.fits a
  chance : ∀ q, requests.fits q → ∃ n, usable n q

/-- The connections of a worker. -/
structure Bench where
  toWorker : Wire
  toClient : Wire

/-- What happens: the client sends a request, `n` bytes get across, the worker serves a request,
and the client receives an answer. -/
inductive BenchAction (Q A N : Type) where
  | send (q : Q)
  | toWorker (n : ℕ)
  | serve (q : Q) (chance : N) (a : A)
  | toClient (n : ℕ)
  | receive (a : A)

/-- The request that a step sends. -/
def BenchAction.sends : BenchAction Q A N → Option Q
  | .send q => some q
  | _ => none

/-- The answer that a step receives. -/
def BenchAction.receives : BenchAction Q A N → Option A
  | .receive a => some a
  | _ => none

namespace Worker

variable (x : Worker Q A N)

def start : Bench := ⟨⟨[], []⟩, ⟨[], []⟩⟩

/-- Only requests that fit are sent, and what the worker depends on is usable. -/
def ok (_ : Bench) : BenchAction Q A N → Prop
  | .send q => x.requests.fits q
  | .serve q n _ => x.usable n q
  | .toWorker _ | .toClient _ | .receive _ => True

/-- What there is of a run: the requests that have been served, with their answers; those that
wait; and the answers that have not come yet. -/
structure Carried (b : Bench) (sent : List Q) (received : List A) (done : List (Q × A))
    (waiting : List Q) (coming : List A) : Prop where
  sent : sent = done.map Prod.fst ++ waiting
  answered : done.map Prod.snd = received ++ coming
  served : ∀ pair ∈ done, ∃ n, x.usable n pair.1 ∧ x.serve n pair.1 = some pair.2
  toWorker : x.requests.Carries b.toWorker waiting
  toClient : x.answers.Carries b.toClient coming
  fits : ∀ q ∈ waiting, x.requests.fits q

variable [DecidableEq Q] [DecidableEq A]

def step (b : Bench) : BenchAction Q A N → Option Bench
  | .send q => (x.requests.step b.toWorker (.send q)).map fun w => { b with toWorker := w }
  | .toWorker n => (x.requests.step b.toWorker (.arrive n)).map fun w => { b with toWorker := w }
  | .serve q n a => do
      let toWorker ← x.requests.step b.toWorker (.receive q)
      let a' ← x.serve n q
      if a' = a then do
        let toClient ← x.answers.step b.toClient (.send a)
        pure ⟨toWorker, toClient⟩
      else none
  | .toClient n => (x.answers.step b.toClient (.arrive n)).map fun w => { b with toClient := w }
  | .receive a => (x.answers.step b.toClient (.receive a)).map fun w => { b with toClient := w }

variable {x} {b b' : Bench} {sent : List Q} {received : List A} {done : List (Q × A)}
  {waiting : List Q} {coming : List A} {q : Q} {a : A} {n : N}

/-- The next request is served. -/
theorem Carried.serve (carried : x.Carried b sent received done waiting coming)
    (usable : x.usable n q) (taken : x.step b (.serve q n a) = some b') :
    ∃ rest, waiting = q :: rest ∧
      x.Carried b' sent received (done ++ [(q, a)]) rest (coming ++ [a]) := by
  simp only [step, bind, Option.bind_eq_some_iff] at taken
  obtain ⟨w, took, a', served, taken⟩ := taken
  split at taken
  · rename_i same
    subst same
    obtain ⟨w', went, made⟩ := Option.bind_eq_some_iff.mp taken
    obtain rfl := Option.some.inj made
    obtain ⟨rest, rfl, later⟩ := carried.toWorker.receive took
    obtain ⟨a'', served', fits⟩ :=
      x.serves n q (carried.fits q List.mem_cons_self) usable
    obtain rfl := Option.some.inj (served.symm.trans served')
    refine ⟨rest, rfl, ?_, ?_, ?_, later, carried.toClient.send fits went, ?_⟩
    · rw [carried.sent, List.map_append, List.append_assoc]
      rfl
    · rw [List.map_append, carried.answered, List.append_assoc]
      rfl
    · intro pair among
      rcases List.mem_append.mp among with before | last
      · exact carried.served pair before
      · obtain rfl := List.mem_singleton.mp last
        exact ⟨n, usable, served⟩
    · exact fun other among => carried.fits other (List.mem_cons_of_mem _ among)
  · cases taken

/-- **The answers that have come are those of the first requests**, in order and nothing else;
the other requests wait, or their answers are under way. -/
theorem run_spec {as : List (BenchAction Q A N)} (run : Run x.step x.ok start as b) :
    ∃ done waiting coming, x.Carried b (as.filterMap BenchAction.sends)
      (as.filterMap BenchAction.receives) done waiting coming := by
  induction run with
  | refl => exact ⟨[], [], [], rfl, rfl, by simp, .nil, .nil, by simp⟩
  | @snoc b b' as action _ ok taken ih =>
      obtain ⟨done, waiting, coming, carried⟩ := ih
      rw [List.filterMap_append, List.filterMap_append]
      cases action with
      | send q =>
          obtain ⟨w, went, rfl⟩ := Option.map_eq_some_iff.mp taken
          refine ⟨done, waiting ++ [q], coming, ?_, ?_, carried.served,
            carried.toWorker.send ok went, carried.toClient, ?_⟩
          · rw [carried.sent, List.append_assoc]
            rfl
          · rw [carried.answered]
            exact congrArg (· ++ coming) (List.append_nil _).symm
          · intro other among
            rcases List.mem_append.mp among with before | last
            · exact carried.fits other before
            · obtain rfl := List.mem_singleton.mp last
              exact ok
      | toWorker n =>
          simp only [step, Option.map_eq_some_iff] at taken
          obtain ⟨w, came, rfl⟩ := taken
          refine ⟨done, waiting, coming, ?_, ?_, carried.served, carried.toWorker.arrive came,
            carried.toClient, carried.fits⟩
          · exact (List.append_nil _).trans carried.sent
          · exact carried.answered.trans (congrArg (· ++ coming) (List.append_nil _).symm)
      | serve q n a =>
          obtain ⟨rest, -, later⟩ := carried.serve ok taken
          refine ⟨done ++ [(q, a)], rest, coming ++ [a], ?_⟩
          change x.Carried b' (_ ++ []) (_ ++ []) _ _ _
          rwa [List.append_nil, List.append_nil]
      | toClient n =>
          simp only [step, Option.map_eq_some_iff] at taken
          obtain ⟨w, came, rfl⟩ := taken
          refine ⟨done, waiting, coming, ?_, ?_, carried.served, carried.toWorker,
            carried.toClient.arrive came, carried.fits⟩
          · exact (List.append_nil _).trans carried.sent
          · exact carried.answered.trans (congrArg (· ++ coming) (List.append_nil _).symm)
      | receive a =>
          obtain ⟨w, took, rfl⟩ := Option.map_eq_some_iff.mp taken
          obtain ⟨coming', rfl, later⟩ := carried.toClient.receive took
          refine ⟨done, waiting, coming', ?_, ?_, carried.served, carried.toWorker, later,
            carried.fits⟩
          · exact (List.append_nil _).trans carried.sent
          · rw [carried.answered]
            exact (List.append_assoc _ [a] coming').symm

/-- An answer that is under way can be received. -/
theorem Carried.receives (carried : x.Carried b sent received done waiting (a :: coming)) :
    ∃ more b', Run x.step x.ok b more b' ∧
      more.filterMap (BenchAction.sends (N := N)) = [] ∧
        more.filterMap BenchAction.receives = [a] := by
  obtain ⟨v, v', came, took, -⟩ := Codec.receive_next carried.toClient
  have arrival :
      x.step b (.toClient b.toClient.underWay.length) = some { b with toClient := v } := by
    simp [step, came]
  have receipt : x.step { b with toClient := v } (.receive a) = some { b with toClient := v' } := by
    simp [step, took]
  have first : Run x.step x.ok b [.toClient b.toClient.underWay.length] { b with toClient := v } :=
    .single trivial arrival
  have second : Run x.step x.ok { b with toClient := v } [.receive a] { b with toClient := v' } :=
    .single trivial receipt
  exact ⟨_, _, first.trans second, rfl, rfl⟩

/-- A request that waits can be served. -/
theorem Carried.serves (carried : x.Carried b sent received done (q :: waiting) coming) :
    ∃ more b' a, Run x.step x.ok b more b' ∧
      more.filterMap (BenchAction.sends (N := N)) = [] ∧
        more.filterMap BenchAction.receives = [] ∧
          x.Carried b' sent received (done ++ [(q, a)]) waiting (coming ++ [a]) := by
  obtain ⟨v, v', came, took, -⟩ := Codec.receive_next carried.toWorker
  obtain ⟨n, usable⟩ := x.chance q (carried.fits q List.mem_cons_self)
  obtain ⟨a, served, fits⟩ := x.serves n q (carried.fits q List.mem_cons_self) usable
  obtain ⟨w, went⟩ := Codec.exists_send b.toClient fits
  have arrival :
      x.step b (.toWorker b.toWorker.underWay.length) = some { b with toWorker := v } := by
    simp [step, came]
  have service : x.step { b with toWorker := v } (.serve q n a) = some ⟨v', w⟩ := by
    simp [step, took, served, went]
  have before : x.Carried { b with toWorker := v } sent received done (q :: waiting) coming :=
    { carried with toWorker := carried.toWorker.arrive came }
  obtain ⟨rest, same, after⟩ := before.serve usable service
  obtain ⟨-, rfl⟩ := List.cons_eq_cons.mp same
  have first : Run x.step x.ok b [.toWorker b.toWorker.underWay.length] { b with toWorker := v } :=
    .single trivial arrival
  have second : Run x.step x.ok { b with toWorker := v } [.serve q n a] ⟨v', w⟩ :=
    .single usable service
  exact ⟨_, _, a, first.trans second, rfl, rfl, after⟩

/-- **No request is forgotten**: as long as an answer is missing, it can come. -/
theorem answer {as : List (BenchAction Q A N)} (run : Run x.step x.ok start as b)
    (missing : (as.filterMap BenchAction.receives).length <
      (as.filterMap BenchAction.sends).length) :
    ∃ more b' a, Run x.step x.ok b more b' ∧ more.filterMap BenchAction.sends = [] ∧
      more.filterMap BenchAction.receives = [a] := by
  obtain ⟨done, waiting, coming, carried⟩ := run_spec run
  have length := congrArg List.length carried.sent
  have length' := congrArg List.length carried.answered
  simp only [List.length_append, List.length_map] at length length'
  cases coming with
  | cons a coming =>
      obtain ⟨more, b', further, silent, came⟩ := carried.receives
      exact ⟨more, b', a, further, silent, came⟩
  | nil =>
      cases waiting with
      | nil =>
          simp only [List.length_nil] at length length'
          omega
      | cons q waiting =>
          obtain ⟨more, b', a, further, silent, silent', carried'⟩ := carried.serves
          obtain ⟨more', b'', further', silent'', came⟩ := carried'.receives
          refine ⟨more ++ more', b'', a, further.trans further', ?_, ?_⟩
          · rw [List.filterMap_append, silent, silent'']
            rfl
          · rw [List.filterMap_append, silent', came]
            rfl

/-- What a worker owes to a client that sends requests and waits for the answers. -/
structure InOrder (x : Worker Q A N) : Prop where
  /-- The answers that have come are those of the first requests, in order and nothing else. -/
  answered : ∀ as b, Run x.step x.ok start as b → ∃ done waiting coming,
    x.Carried b (as.filterMap BenchAction.sends) (as.filterMap BenchAction.receives) done waiting
      coming
  /-- As long as an answer is missing, it can come. -/
  answer : ∀ as b, Run x.step x.ok start as b →
    (as.filterMap BenchAction.receives).length < (as.filterMap BenchAction.sends).length →
      ∃ more b' a, Run x.step x.ok b more b' ∧ more.filterMap BenchAction.sends = [] ∧
        more.filterMap BenchAction.receives = [a]

theorem inOrder (x : Worker Q A N) : x.InOrder where
  answered _ _ run := run_spec run
  answer _ _ run missing := answer run missing

end Worker

end OsModel.Lib
