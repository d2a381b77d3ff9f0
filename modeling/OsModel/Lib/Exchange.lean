import Mathlib.Logic.Function.Basic
import OsModel.Lib.Channel

/-!
A server and its clients, over connections.

Each client sends a request and waits; the server takes the requests of its connections, changes
its state and answers; and a handler at the client's end leaves the answer in a box where the
client finds it. Bytes get across in pieces, and everyone goes on when he can.

An `Exchange` is the code of the parties with what makes it sound: the server does what an
abstract value does (`serves`), and a client takes from its box what was put there
(`take_empty`, `take_post`). The clients of such an exchange share an object whose operations
take effect at once, each between its request and its answer:

* `Exchange.simulates`: what the clients see is what they would see of the object.
* `Exchange.answered`: a client that waits can always be answered.
* `Exchange.realises`: every use of the object comes about.
* `Exchange.isObject`: all this of every exchange.
-/

namespace OsModel.Lib

variable {C Q A R N B S T : Type}

/-! ### The object -/

/-- Where a client of an object is: nowhere, behind its request, or behind its operation. -/
inductive Status (Q R : Type) where
  | idle
  | asked (q : Q)
  | done (r : R)

/-- A value that clients share. -/
structure Object (C Q R T : Type) where
  value : T
  status : C → Status Q R

/-- A client asks; its operation takes effect; it goes on. -/
inductive ObjectAction (C Q A R : Type) where
  | ask (c : C) (q : Q)
  | perform (c : C) (a : A)
  | wake (c : C) (r : R)

/-! ### The parties -/

/-- A client's end: its connection both ways, its box, and the request it waits for. -/
structure Desk (Q B : Type) where
  toServer : Wire
  toClient : Wire
  box : B
  waiting : Option Q

/-- A desk where nothing has happened. -/
def Desk.new (box : B) : Desk Q B := ⟨⟨[], []⟩, ⟨[], []⟩, box, none⟩

/-- The server and the desks. -/
structure Site (C Q B S : Type) where
  server : S
  desk : C → Desk Q B

/-- Another desk for a client. -/
def Site.set [DecidableEq C] (s : Site C Q B S) (c : C) (d : Desk Q B) : Site C Q B S :=
  { s with desk := Function.update s.desk c d }

section Sites

variable [DecidableEq C] (s : Site C Q B S) (c : C) (d d' : Desk Q B)

@[simp]
theorem Site.server_set : (s.set c d).server = s.server := rfl

@[simp]
theorem Site.desk_set : (s.set c d).desk c = d := Function.update_self ..

@[simp]
theorem Site.set_set : (s.set c d).set c d' = s.set c d' := by
  simp [Site.set]

end Sites

/-- What happens at a desk: the client asks, `n` bytes get to the server or to the client, the
handler takes an answer, and the client goes on with what it finds. -/
inductive DeskAction (Q A R : Type) where
  | ask (q : Q)
  | toServer (n : ℕ)
  | toClient (n : ℕ)
  | handle (a : A)
  | wake (r : R)

/-- What happens: something at a desk, or the server serves a request. What it makes of it may
depend on something that is not in its state. -/
inductive SiteAction (C Q A R N : Type) where
  | desk (c : C) (action : DeskAction Q A R)
  | serve (c : C) (q : Q) (chance : N) (a : A)

/-- What the clients see of it. -/
def SiteAction.visible : SiteAction C Q A R N → Option (ObjectAction C Q A R)
  | .desk c (.ask q) => some (.ask c q)
  | .desk c (.wake r) => some (.wake c r)
  | .desk _ (.toServer _) | .desk _ (.toClient _) | .desk _ (.handle _) => none
  | .serve c _ _ a => some (.perform c a)

/-- The code of the parties, and why it is sound. -/
structure Exchange (Q A R N B S T : Type) where
  requests : Codec Q
  answers : Codec A
  serve : S → N → Q → Option (S × A)
  empty : B
  post : B → A → B
  take : B → Q → R → Option B
  perform : T → Q → A → Option T
  result : A → R
  Abs : S → T → Prop
  usable : N → Prop
  chance : N
  usable_chance : usable chance
  serves : ∀ s t n q, Abs s t → usable n → requests.fits q → ∃ s' a t',
    serve s n q = some (s', a) ∧ perform t q a = some t' ∧ Abs s' t' ∧ answers.fits a
  take_empty : ∀ q r, take empty q r = none
  take_post : ∀ t q a t', perform t q a = some t' → ∀ r b,
    take (post empty a) q r = some b ↔ r = result a ∧ b = empty

namespace Exchange

variable (x : Exchange Q A R N B S T)

/-! ### Where a request is -/

/-- What the connections of a desk carry, and what is in its box. -/
structure Carried (d : Desk Q B) (qs : List Q) (as : List A) (b : B) : Prop where
  toServer : x.requests.Carries d.toServer qs
  toClient : x.answers.Carries d.toClient as
  box : d.box = b

/-- The server may have answered this. -/
def Performed (q : Q) (a : A) : Prop := ∃ t t', x.perform t q a = some t'

/-- There is one request at most at a desk: on its way to the server, or answered and on its way
back, or in the box. -/
inductive Place (d : Desk Q B) : Status Q R → Prop where
  | idle : d.waiting = none → x.Carried d [] [] x.empty → Place d .idle
  | asked (q : Q) : d.waiting = some q → x.requests.fits q → x.Carried d [q] [] x.empty →
      Place d (.asked q)
  | served (q : Q) (a : A) : d.waiting = some q → x.Performed q a → x.Carried d [] [a] x.empty →
      Place d (.done (x.result a))
  | handled (q : Q) (a : A) : d.waiting = some q → x.Performed q a →
      x.Carried d [] [] (x.post x.empty a) → Place d (.done (x.result a))

/-- The server has the value of the object, and every client is where it is there. -/
structure Rel (s : Site C Q B S) (o : Object C Q R T) : Prop where
  value : x.Abs s.server o.value
  place : ∀ c, x.Place (s.desk c) (o.status c)

section Places

variable {x} {d : Desk Q B} {qs : List Q} {as : List A} {b : B} {w : Wire} {s : Site C Q B S}
  {o : Object C Q R T}

theorem Carried.withToServer (carried : x.Carried d qs as b) {qs' : List Q}
    (now : x.requests.Carries w qs') : x.Carried { d with toServer := w } qs' as b :=
  ⟨now, carried.toClient, carried.box⟩

theorem Carried.withToClient (carried : x.Carried d qs as b) {as' : List A}
    (now : x.answers.Carries w as') : x.Carried { d with toClient := w } qs as' b :=
  ⟨carried.toServer, now, carried.box⟩

/-- One desk changes. -/
theorem Rel.update [DecidableEq C] (rel : x.Rel s o) (c : C) {server : S} {t : T} {st : Status Q R}
    (value : x.Abs server t) (place : x.Place d st) :
    x.Rel ({ s with server := server }.set c d) ⟨t, Function.update o.status c st⟩ := by
  refine ⟨value, ?_⟩
  intro c'
  by_cases same : c' = c
  · subst same
    simpa using place
  · simpa [Site.set, same] using rel.place c'

/-- A desk changes, and its client is where it was. -/
theorem Rel.updateDesk [DecidableEq C] (rel : x.Rel s o) (c : C) (place : x.Place d (o.status c)) :
    x.Rel (s.set c d) o := by
  have updated := rel.update c rel.value place
  rwa [Function.update_eq_self] at updated

end Places

/-! ### Steps -/

variable [DecidableEq C] [DecidableEq Q] [DecidableEq A]

def objectStep [DecidableEq R] (o : Object C Q R T) : ObjectAction C Q A R → Option (Object C Q R T)
  | .ask c q =>
      match o.status c with
      | .idle => some { o with status := Function.update o.status c (.asked q) }
      | _ => none
  | .perform c a =>
      match o.status c with
      | .asked q => (x.perform o.value q a).map fun t =>
          ⟨t, Function.update o.status c (.done (x.result a))⟩
      | _ => none
  | .wake c r =>
      match o.status c with
      | .done r' =>
          if r = r' then some { o with status := Function.update o.status c .idle } else none
      | _ => none

def deskStep (d : Desk Q B) : DeskAction Q A R → Option (Desk Q B)
  | .ask q =>
      match d.waiting with
      | some _ => none
      | none => (x.requests.step d.toServer (.send q)).map fun w =>
          { d with toServer := w, waiting := some q }
  | .toServer n => (x.requests.step d.toServer (.arrive n)).map fun w => { d with toServer := w }
  | .toClient n => (x.answers.step d.toClient (.arrive n)).map fun w => { d with toClient := w }
  | .handle a => (x.answers.step d.toClient (.receive a)).map fun w =>
      { d with toClient := w, box := x.post d.box a }
  | .wake r => (d.waiting.bind fun q => x.take d.box q r).map fun b =>
      { d with box := b, waiting := none }

def step (s : Site C Q B S) : SiteAction C Q A R N → Option (Site C Q B S)
  | .desk c action => (x.deskStep (s.desk c) action).map (s.set c)
  | .serve c q n a => do
      let d := s.desk c
      let toServer ← x.requests.step d.toServer (.receive q)
      let (server, a') ← x.serve s.server n q
      if a' = a then do
        let toClient ← x.answers.step d.toClient (.send a)
        pure ({ s with server := server }.set c
          { d with toServer := toServer, toClient := toClient })
      else none

/-- Only requests that fit are sent, and what the server depends on is usable. -/
def ok (_ : Site C Q B S) : SiteAction C Q A R N → Prop
  | .desk _ (.ask q) => x.requests.fits q
  | .serve _ _ n _ => x.usable n
  | .desk _ (.toServer _) | .desk _ (.toClient _) | .desk _ (.handle _) | .desk _ (.wake _) => True

def start (server : S) : Site C Q B S := ⟨server, fun _ => .new x.empty⟩

/-- The object at the beginning. -/
def initial (value : T) : Object C Q R T := ⟨value, fun _ => .idle⟩

/-! ### What a step does at a desk -/

section Desks

variable {x} {d d' : Desk Q B} {st : Status Q R} {q : Q} {a : A} {r : R} {qs : List Q}
  {as : List A} {b : B} {w : Wire}

omit [DecidableEq A] in
/-- Bytes that get to the server change nothing. -/
theorem Place.toServer (place : x.Place d st) {n : ℕ}
    (came : x.requests.step d.toServer (.arrive n) = some w) :
    x.Place { d with toServer := w } st := by
  cases place with
  | idle waiting carried =>
      exact .idle waiting (carried.withToServer (carried.toServer.arrive came))
  | asked q waiting fits carried =>
      exact .asked q waiting fits (carried.withToServer (carried.toServer.arrive came))
  | served q a waiting performed carried =>
      exact .served q a waiting performed (carried.withToServer (carried.toServer.arrive came))
  | handled q a waiting performed carried =>
      exact .handled q a waiting performed (carried.withToServer (carried.toServer.arrive came))

omit [DecidableEq Q] in
/-- Bytes that get to the client change nothing. -/
theorem Place.toClient (place : x.Place d st) {n : ℕ}
    (came : x.answers.step d.toClient (.arrive n) = some w) :
    x.Place { d with toClient := w } st := by
  cases place with
  | idle waiting carried =>
      exact .idle waiting (carried.withToClient (carried.toClient.arrive came))
  | asked q waiting fits carried =>
      exact .asked q waiting fits (carried.withToClient (carried.toClient.arrive came))
  | served q a waiting performed carried =>
      exact .served q a waiting performed (carried.withToClient (carried.toClient.arrive came))
  | handled q a waiting performed carried =>
      exact .handled q a waiting performed (carried.withToClient (carried.toClient.arrive came))

omit [DecidableEq Q] in
/-- The handler puts an answer that has come back into the box. -/
theorem Place.handle (place : x.Place d st)
    (took : x.answers.step d.toClient (.receive a) = some w) :
    x.Place { d with toClient := w, box := x.post d.box a } st := by
  cases place with
  | idle waiting carried =>
      obtain ⟨_, nothing, _⟩ := carried.toClient.receive took
      cases nothing
  | asked q waiting fits carried =>
      obtain ⟨_, nothing, _⟩ := carried.toClient.receive took
      cases nothing
  | served q a' waiting performed carried =>
      obtain ⟨_, only, empty⟩ := carried.toClient.receive took
      obtain ⟨rfl, rfl⟩ := List.cons_eq_cons.mp only
      exact .handled q a' waiting performed ⟨carried.toServer, empty, by rw [carried.box]⟩
  | handled q a' waiting performed carried =>
      obtain ⟨_, nothing, _⟩ := carried.toClient.receive took
      cases nothing

/-- A client asks when it has nothing to wait for. -/
theorem Place.ask (place : x.Place d st) (fits : x.requests.fits q)
    (taken : x.deskStep d (.ask q) = some d') : st = .idle ∧ x.Place d' (.asked q) := by
  cases place with
  | idle waiting carried =>
      simp only [deskStep, waiting, Option.map_eq_some_iff] at taken
      obtain ⟨w, went, rfl⟩ := taken
      have carried' := carried.withToServer (carried.toServer.send fits went)
      exact ⟨rfl, .asked q rfl fits ⟨carried'.toServer, carried'.toClient, carried'.box⟩⟩
  | asked _ waiting | served _ _ waiting | handled _ _ waiting => simp [deskStep, waiting] at taken

/-- A client goes on with what its operation has given. -/
theorem Place.wake (place : x.Place d st) (taken : x.deskStep d (.wake r) = some d') :
    st = .done r ∧ x.Place d' .idle := by
  simp only [deskStep, Option.map_eq_some_iff, Option.bind_eq_some_iff] at taken
  obtain ⟨b, ⟨q, waiting, took⟩, rfl⟩ := taken
  cases place with
  | idle none_waiting => simp [none_waiting] at waiting
  | asked _ _ _ carried | served _ _ _ _ carried => simp [carried.box, x.take_empty] at took
  | handled q' a waiting' performed carried =>
      obtain rfl := Option.some.inj (waiting'.symm.trans waiting)
      obtain ⟨t, t', performed⟩ := performed
      rw [carried.box, x.take_post t q' a t' performed] at took
      obtain ⟨rfl, rfl⟩ := took
      exact ⟨rfl, .idle rfl ⟨carried.toServer, carried.toClient, rfl⟩⟩

omit [DecidableEq A] in
/-- What the server takes is the request of a client that waits for it. -/
theorem Place.serve (place : x.Place d st)
    (took : x.requests.step d.toServer (.receive q) = some w) :
    st = .asked q ∧ d.waiting = some q ∧ x.requests.fits q ∧
      x.Carried { d with toServer := w } [] [] x.empty := by
  cases place with
  | asked q' waiting fits carried =>
      obtain ⟨_, only, empty⟩ := carried.toServer.receive took
      obtain ⟨rfl, rfl⟩ := List.cons_eq_cons.mp only
      exact ⟨rfl, waiting, fits, carried.withToServer empty⟩
  | idle waiting carried =>
      obtain ⟨_, nothing, _⟩ := carried.toServer.receive took
      cases nothing
  | served q' a waiting performed carried =>
      obtain ⟨_, nothing, _⟩ := carried.toServer.receive took
      cases nothing
  | handled q' a waiting performed carried =>
      obtain ⟨_, nothing, _⟩ := carried.toServer.receive took
      cases nothing

end Desks

section Simulation

variable [DecidableEq R]

/-- **The clients share an object.** -/
theorem simulates (x : Exchange Q A R N B S T) :
    Simulation (x.step (C := C)) x.ok x.objectStep SiteAction.visible x.Rel where
  hidden := by
    intro s s' o action rel ok taken hidden
    cases action with
    | serve c q n a => cases hidden
    | desk c action =>
        obtain ⟨d, changed, rfl⟩ := Option.map_eq_some_iff.mp taken
        cases action with
        | ask q => cases hidden
        | wake r => cases hidden
        | toServer n =>
            simp only [deskStep, Option.map_eq_some_iff] at changed
            obtain ⟨w, came, rfl⟩ := changed
            exact rel.updateDesk c ((rel.place c).toServer came)
        | toClient n =>
            simp only [deskStep, Option.map_eq_some_iff] at changed
            obtain ⟨w, came, rfl⟩ := changed
            exact rel.updateDesk c ((rel.place c).toClient came)
        | handle a =>
            simp only [deskStep, Option.map_eq_some_iff] at changed
            obtain ⟨w, took, rfl⟩ := changed
            exact rel.updateDesk c ((rel.place c).handle took)
  seen := by
    intro s s' o action b rel ok taken seen
    cases action with
    | serve c q n a =>
        obtain rfl := Option.some.inj seen
        simp only [step, bind, Option.bind_eq_some_iff] at taken
        obtain ⟨w, took, ⟨server, a'⟩, served, rest⟩ := taken
        split at rest
        · rename_i same
          subst same
          simp only [Option.bind_eq_some_iff, pure, Option.some.injEq] at rest
          obtain ⟨w', replied, rfl⟩ := rest
          obtain ⟨status, waiting, fits, carried⟩ := (rel.place c).serve took
          obtain ⟨server', a'', t', served', performed, value, answered⟩ :=
            x.serves s.server o.value n q rel.value ok fits
          obtain ⟨rfl, rfl⟩ := Prod.mk.inj (Option.some.inj (served.symm.trans served'))
          refine ⟨⟨t', Function.update o.status c (.done (x.result a'))⟩, ?_, ?_⟩
          · simp [objectStep, status, performed]
          · have back := carried.withToClient (carried.toClient.send answered replied)
            exact rel.update c value (.served q a' waiting ⟨_, _, performed⟩ back)
        · cases rest
    | desk c action =>
        obtain ⟨d, changed, rfl⟩ := Option.map_eq_some_iff.mp taken
        cases action with
        | toServer n | toClient n | handle a => cases seen
        | ask q =>
            obtain rfl := Option.some.inj seen
            obtain ⟨status, place⟩ := (rel.place c).ask ok changed
            refine ⟨_, ?_, rel.update c rel.value place⟩
            simp [objectStep, status]
        | wake r =>
            obtain rfl := Option.some.inj seen
            obtain ⟨status, place⟩ := (rel.place c).wake changed
            refine ⟨_, ?_, rel.update c rel.value place⟩
            simp [objectStep, status]

end Simulation

/-! ### Everyone is answered -/

section Progress

variable {x} {s : Site C Q B S} {o : Object C Q R T} {c : C} {d : Desk Q B} {q : Q} {a : A} {r : R}

/-- A step at one desk, which sends no request. -/
theorem run_desk {action : DeskAction Q A R}
    (changed : x.deskStep (s.desk c) action = some d) (quiet : ∀ q, action ≠ .ask q) :
    Run (x.step (N := N)) x.ok s [.desk c action] (s.set c d) := by
  have taken : x.step (N := N) s (.desk c action) = some (s.set c d) := by
    rw [step, changed]
    rfl
  have ok : x.ok s (.desk c action) := by
    cases action with
    | ask q => exact absurd rfl (quiet q)
    | toServer | toClient | handle | wake => trivial
  exact .single ok taken

/-- The client goes on when its answer is in the box. -/
theorem wakes (waiting : (s.desk c).waiting = some q) (performed : x.Performed q a)
    (carried : x.Carried (s.desk c) [] [] (x.post x.empty a)) :
    ∃ s', Run (x.step (N := N)) x.ok s [.desk c (.wake (x.result a))] s' := by
  obtain ⟨t, t', performed⟩ := performed
  have took := (x.take_post t q a t' performed (x.result a) x.empty).mpr ⟨rfl, rfl⟩
  have changed : x.deskStep (s.desk c) (.wake (x.result a)) =
      some { s.desk c with box := x.empty, waiting := none } := by
    simp [deskStep, waiting, carried.box, took]
  exact ⟨_, run_desk changed (by simp)⟩

/-- An answer that has gone out gets to its client. -/
theorem returns (waiting : (s.desk c).waiting = some q) (performed : x.Performed q a)
    (carried : x.Carried (s.desk c) [] [a] x.empty) :
    ∃ as s', Run x.step x.ok s as s' ∧
      as.filterMap (SiteAction.visible (N := N)) = [.wake c (x.result a)] := by
  obtain ⟨v, v', arrives, receives, empty⟩ := Codec.receive_next carried.toClient
  have first : x.deskStep (s.desk c) (.toClient (s.desk c).toClient.underWay.length) =
      some { s.desk c with toClient := v } := by
    simp [deskStep, arrives]
  have second : x.deskStep ((s.set c { s.desk c with toClient := v }).desk c) (.handle a) =
      some { s.desk c with toClient := v', box := x.post x.empty a } := by
    simp [deskStep, receives, carried.box]
  have run := (run_desk (N := N) first (by simp)).trans (run_desk second (by simp))
  rw [Site.set_set] at run
  have there : x.Carried ((s.set c { s.desk c with
      toClient := v', box := x.post x.empty a }).desk c) [] [] (x.post x.empty a) := by
    rw [Site.desk_set]
    exact ⟨carried.toServer, empty, rfl⟩
  obtain ⟨s', woken⟩ := wakes (N := N) (by rw [Site.desk_set]; exact waiting) performed there
  exact ⟨_, s', run.trans woken, rfl⟩

/-- A client behind its operation goes on. -/
theorem Place.wakes {st : Status Q R} (place : x.Place (s.desk c) st) (status : st = .done r) :
    ∃ as s', Run x.step x.ok s as s' ∧
      as.filterMap (SiteAction.visible (N := N)) = [.wake c r] := by
  cases place with
  | idle | asked => cases status
  | served q a waiting performed carried =>
      obtain rfl := Status.done.inj status
      exact returns waiting performed carried
  | handled q a waiting performed carried =>
      obtain rfl := Status.done.inj status
      obtain ⟨s', woken⟩ := Exchange.wakes (N := N) waiting performed carried
      exact ⟨_, s', woken, rfl⟩

/-- A request that has gone out is served. -/
theorem Rel.serves (rel : x.Rel s o) (status : o.status c = .asked q) :
    ∃ as s' a, Run x.step x.ok s as s' ∧
      as.filterMap (SiteAction.visible (N := N)) = [.perform c a] := by
  have place := rel.place c
  rw [status] at place
  cases place with
  | asked _ waiting fits carried =>
      obtain ⟨v, v', arrives, receives, empty⟩ := Codec.receive_next carried.toServer
      obtain ⟨server, a, t, served, performed, value, answered⟩ :=
        x.serves s.server o.value x.chance q rel.value x.usable_chance fits
      obtain ⟨w, replied⟩ := Codec.exists_send (s.desk c).toClient answered
      have first : x.deskStep (s.desk c) (.toServer (s.desk c).toServer.underWay.length) =
          some { s.desk c with toServer := v } := by
        simp [deskStep, arrives]
      have came := run_desk (N := N) first (by simp)
      have second : x.step (s.set c { s.desk c with toServer := v }) (.serve c q x.chance a) =
          some ({ s with server := server }.set c
            { s.desk c with toServer := v', toClient := w }) := by
        simp [step, receives, served, replied, Site.set]
      have usable : x.ok (s.set c { s.desk c with toServer := v }) (.serve c q x.chance a) :=
        x.usable_chance
      exact ⟨_, _, a, came.trans (.single usable second), rfl⟩

end Progress

/-! ### What the clients have -/

variable [DecidableEq R]

/-- A request that fits is sent, and its answer is the only one that the object may give. -/
def Definite (o : Object C Q R T) : ObjectAction C Q A R → Prop
  | .ask _ q => x.requests.fits q
  | .perform c a => ∀ q, o.status c = .asked q → ∀ a' t, x.perform o.value q a' = some t → a' = a
  | .wake _ _ => True

section Results

variable {x} {s : Site C Q B S} {o o' : Object C Q R T} {c : C} {q : Q}

omit [DecidableEq A] [DecidableEq Q] [DecidableEq C] [DecidableEq R] in
theorem Rel.waiting_iff (rel : x.Rel s o) (c : C) :
    (s.desk c).waiting = none ↔ o.status c = .idle := by
  have place := rel.place c
  generalize o.status c = st at place
  cases place with
  | idle waiting => simp [waiting]
  | asked _ waiting | served _ _ waiting | handled _ _ waiting => simp [waiting]

/-- What a run shows is a step of the object. -/
theorem Rel.shows {as : List (SiteAction C Q A R N)} {s' : Site C Q B S}
    {b : ObjectAction C Q A R} (rel : x.Rel s o) (run : Run x.step x.ok s as s')
    (shown : as.filterMap SiteAction.visible = [b]) :
    ∃ o', x.objectStep o b = some o' ∧ x.Rel s' o' := by
  obtain ⟨o', steps, rel'⟩ := (simulates x).run rel run
  rw [shown] at steps
  exact ⟨o', steps.step_of_single, rel'⟩

/-- **A client that waits can always be answered.** -/
theorem Rel.answered (rel : x.Rel s o) (waiting : (s.desk c).waiting = some q) :
    ∃ as s' r, Run (x.step (N := N)) x.ok s as s' ∧
      (as.filterMap SiteAction.visible = [.wake c r] ∨
        ∃ a, as.filterMap SiteAction.visible = [.perform c a, .wake c r]) := by
  cases status : o.status c with
  | idle =>
      rw [(rel.waiting_iff c).mpr status] at waiting
      cases waiting
  | done r =>
      obtain ⟨as, s', run, shown⟩ := (rel.place c).wakes (N := N) status
      exact ⟨as, s', r, run, .inl shown⟩
  | asked q' =>
      obtain ⟨as, s', a, run, shown⟩ := rel.serves (N := N) status
      obtain ⟨o', performed, rel'⟩ := rel.shows run shown
      have status' : o'.status c = .done (x.result a) := by
        simp only [objectStep, status, Option.map_eq_some_iff] at performed
        obtain ⟨t, -, rfl⟩ := performed
        exact Function.update_self ..
      obtain ⟨as', s'', run', shown'⟩ := (rel'.place c).wakes (N := N) status'
      refine ⟨as ++ as', s'', x.result a, run.trans run', .inr ⟨a, ?_⟩⟩
      rw [List.filterMap_append, shown, shown']
      rfl

/-- A step of the object, brought about by the parties. -/
theorem Rel.realises {b : ObjectAction C Q A R} (rel : x.Rel s o) (definite : x.Definite o b)
    (taken : x.objectStep o b = some o') :
    ∃ as s', Run (x.step (N := N)) x.ok s as s' ∧ as.filterMap SiteAction.visible = [b] ∧
      x.Rel s' o' := by
  suffices found : ∃ as s', Run (x.step (N := N)) x.ok s as s' ∧
      as.filterMap SiteAction.visible = [b] by
    obtain ⟨as, s', run, shown⟩ := found
    obtain ⟨o'', steps, rel'⟩ := rel.shows run shown
    obtain rfl := Option.some.inj (steps.symm.trans taken)
    exact ⟨as, s', run, shown, rel'⟩
  cases b with
  | ask c q =>
      cases status : o.status c with
      | asked | done => simp [objectStep, status] at taken
      | idle =>
          have waiting := (rel.waiting_iff c).mpr status
          obtain ⟨w, went⟩ := Codec.exists_send (s.desk c).toServer definite
          have asks : x.step (N := N) s (.desk c (.ask q)) =
              some (s.set c { s.desk c with toServer := w, waiting := some q }) := by
            simp [step, deskStep, waiting, went]
          have asking : x.ok (N := N) s (.desk c (.ask q)) := definite
          exact ⟨_, _, .single asking asks, rfl⟩
  | perform c a =>
      cases status : o.status c with
      | idle | done => simp [objectStep, status] at taken
      | asked q =>
          obtain ⟨as, s', a', run, shown⟩ := rel.serves (N := N) status
          obtain ⟨o'', performed, -⟩ := rel.shows run shown
          simp only [objectStep, status, Option.map_eq_some_iff] at performed
          obtain ⟨t, performed, -⟩ := performed
          obtain rfl := definite q status a' t performed
          exact ⟨as, s', run, shown⟩
  | wake c r =>
      cases status : o.status c with
      | idle | asked => simp [objectStep, status] at taken
      | done r' =>
          simp only [objectStep, status] at taken
          split at taken
          · rename_i same
            subst same
            exact (rel.place c).wakes (N := N) status
          · cases taken

omit [DecidableEq A] [DecidableEq Q] in
/-- A client asks, its operation takes effect, and it goes on. -/
theorem uses {t : T} {a : A} (idle : o.status c = .idle) (fits : x.requests.fits q)
    (performed : x.perform o.value q a = some t)
    (only : ∀ a' t', x.perform o.value q a' = some t' → a' = a) :
    Run x.objectStep x.Definite o [.ask c q, .perform c a, .wake c (x.result a)]
      ⟨t, o.status⟩ := by
  have asked : x.objectStep (A := A) o (.ask c q) =
      some { o with status := Function.update o.status c (.asked q) } := by
    simp [objectStep, idle]
  have done : x.objectStep { o with status := Function.update o.status c (.asked q) }
      (.perform c a) = some ⟨t, Function.update o.status c (.done (x.result a))⟩ := by
    simp [objectStep, performed]
  have woken : x.objectStep (A := A) ⟨t, Function.update o.status c (.done (x.result a))⟩
      (.wake c (x.result a)) = some ⟨t, o.status⟩ := by
    simp [objectStep, ← idle]
  have definite : x.Definite { o with status := Function.update o.status c (.asked q) }
      (.perform c a) := by
    intro q' status
    obtain rfl : q = q' := by simpa using status
    exact only
  have asks : Run x.objectStep x.Definite o [.ask c q] _ := .single fits asked
  have goes : Run x.objectStep x.Definite _ [.wake c (x.result a)] ⟨t, o.status⟩ :=
    .single trivial woken
  exact (asks.trans (.single definite done)).trans goes

omit [DecidableEq A] [DecidableEq Q] [DecidableEq C] [DecidableEq R] in
theorem rel_start {server : S} {value : T} (abs : x.Abs server value) :
    x.Rel (x.start server) (initial (C := C) (Q := Q) (R := R) value) := by
  refine ⟨abs, ?_⟩
  intro c
  exact .idle rfl ⟨.nil, .nil, rfl⟩

end Results

/-- What an exchange owes to clients who think of an object. -/
structure IsObject (C : Type) [DecidableEq C] (x : Exchange Q A R N B S T) (server : S)
    (value : T) : Prop where
  /-- What the clients see is what they would see of the object, and they wait when they would
  there. -/
  shown : ∀ as s, Run x.step x.ok (x.start (C := C) server) as s →
    ∃ o, Run x.objectStep (fun _ _ => True) (initial value)
        (as.filterMap (SiteAction.visible (N := N))) o ∧
      ∀ c, (s.desk c).waiting = none ↔ o.status c = .idle
  /-- A client that waits can always be answered, whatever the others do. -/
  answered : ∀ as s, Run x.step x.ok (x.start (C := C) server) as s →
    ∀ c q, (s.desk c).waiting = some q → ∃ more s' r, Run (x.step (N := N)) x.ok s more s' ∧
      (more.filterMap SiteAction.visible = [.wake c r] ∨
        ∃ a, more.filterMap SiteAction.visible = [.perform c a, .wake c r])
  /-- Every definite use of the object comes about. -/
  realised : ∀ bs o, Run x.objectStep x.Definite (initial (C := C) value) bs o →
    ∃ as s, Run (x.step (N := N)) x.ok (x.start server) as s ∧
      as.filterMap SiteAction.visible = bs

theorem isObject {x : Exchange Q A R N B S T} {server : S} {value : T}
    (abs : x.Abs server value) : IsObject C x server value where
  shown as s run := by
    obtain ⟨o, steps, rel⟩ := (simulates x).run (rel_start abs) run
    exact ⟨o, steps, rel.waiting_iff⟩
  answered as s run c q waiting := by
    obtain ⟨o, -, rel⟩ := (simulates x).run (rel_start abs) run
    exact rel.answered waiting
  realised bs o run := by
    have way : ∀ {s : Site C Q B S} {o o' : Object C Q R T} {b : ObjectAction C Q A R},
        x.Rel s o → x.Definite o b → x.objectStep o b = some o' →
          ∃ as s', Run (x.step (N := N)) x.ok s as s' ∧
            as.filterMap SiteAction.visible = [b] ∧ x.Rel s' o' :=
      fun rel => rel.realises
    obtain ⟨as, s, run', shown, -⟩ := Run.realised way (rel_start abs) run
    exact ⟨as, s, run', shown⟩

end Exchange

end OsModel.Lib
