import OsModel.Lib.Codec
import OsModel.Lib.Simulation

/-!
Messages over a stream of bytes.

A `Codec` is how the messages of a connection go out and how they are received. Its bytes get
across in pieces of any size, so a message may arrive in parts, or many at once; the receiver
takes the next message when it has all its bytes, and waits if it has not (`Patient`).

* `Codec.simulates`: such a connection is a queue of messages, once the arrival of bytes is
  hidden.
* `Codec.run_spec`: what has been received is the first part of what was sent, in order and
  nothing else, and the bytes that are left spell the rest.
* `Codec.receive_next`: when all bytes have arrived, the next message can be received.
* `Codec.realises`: every order of sending and receiving that a queue has comes about.
* `Codec.isQueue`: all this of every codec.
-/

namespace OsModel.Lib

/-! ### Receivers that wait -/

/-- More bytes behind those that it needs do not change what a receiver takes. -/
def Patient {α : Type} (r : StateT (List UInt8) Option α) : Prop :=
  ∀ stream a rest, r stream = some (a, rest) → ∀ more, r (stream ++ more) = some (a, rest ++ more)

namespace Patient

variable {α β : Type} {r r' : StateT (List UInt8) Option α}

theorem pure (a : α) : Patient (pure a) := by
  intro stream b rest taken more
  obtain ⟨rfl, rfl⟩ := Prod.mk.inj (Option.some.inj taken)
  rfl

theorem failure : Patient (failure : StateT (List UInt8) Option α) := by
  intro stream a rest taken
  cases taken

/-- One message after another. -/
theorem bind {f : α → StateT (List UInt8) Option β} (first : Patient r)
    (second : ∀ a, Patient (f a)) : Patient (r >>= f) := by
  intro stream b rest taken more
  simp only [Bind.bind, StateT.bind] at taken ⊢
  cases got : r stream with
  | none => simp [got] at taken
  | some result =>
      obtain ⟨a, middle⟩ := result
      rw [got, Option.bind_some] at taken
      rw [first stream a middle got more, Option.bind_some]
      exact second a middle b rest taken more

/-- A choice that is made without taking anything. -/
theorem lift (choice : Option α) : Patient (choice : StateT (List UInt8) Option α) := by
  cases choice with
  | none => exact failure
  | some a => exact pure a

theorem ite {c : Prop} [Decidable c] (yes : Patient r) (no : Patient r') :
    Patient (if c then r else r') := by
  split
  · exact yes
  · exact no

end Patient

/-! ### Connections -/

/-- How the messages of a connection are sent and received. Those that fit go out, and are
taken from a stream that begins with them. -/
structure Codec (M : Type) where
  send : M → Option (List UInt8)
  receive : StateT (List UInt8) Option M
  fits : M → Prop
  sent : ∀ m, fits m → ∃ bytes, send m = some bytes ∧ Consumes receive bytes m
  patient : Patient receive
  waits : receive [] = none

/-- The bytes of a connection: those under way, and those that the receiver has. -/
structure Wire where
  underWay : List UInt8
  arrived : List UInt8

/-- What happens on a connection; `arrive n` is the arrival of the next `n` bytes. -/
inductive WireAction (M : Type) where
  | send (m : M)
  | arrive (n : ℕ)
  | receive (m : M)

/-- What happens to a queue. -/
inductive QueueAction (M : Type) where
  | put (m : M)
  | take (m : M)

def queueStep {M : Type} [DecidableEq M] (q : List M) : QueueAction M → Option (List M)
  | .put m => some (q ++ [m])
  | .take m =>
      match q with
      | [] => none
      | m' :: rest => if m' = m then some rest else none

/-- A step of a connection as one of a queue; the arrival of bytes is none. -/
def WireAction.visible {M : Type} : WireAction M → Option (QueueAction M)
  | .send m => some (.put m)
  | .arrive _ => none
  | .receive m => some (.take m)

/-- The message that a step sends. -/
def WireAction.sends {M : Type} : WireAction M → Option M
  | .send m => some m
  | .arrive _ | .receive _ => none

/-- The message that a step receives. -/
def WireAction.receives {M : Type} : WireAction M → Option M
  | .receive m => some m
  | .send _ | .arrive _ => none

namespace Codec

variable {M : Type} (codec : Codec M)

def step [DecidableEq M] (w : Wire) : WireAction M → Option Wire
  | .send m => (codec.send m).map fun bytes => { w with underWay := w.underWay ++ bytes }
  | .arrive n => some ⟨w.underWay.drop n, w.arrived ++ w.underWay.take n⟩
  | .receive m =>
      match codec.receive w.arrived with
      | none => none
      | some (m', rest) => if m' = m then some { w with arrived := rest } else none

/-- Only messages that fit are sent. -/
def ok (_ : Wire) : WireAction M → Prop
  | .send m => codec.fits m
  | .arrive _ | .receive _ => True

/-- The bytes are those of the messages, one after another. -/
inductive Spells : List M → List UInt8 → Prop where
  | nil : Spells [] []
  | cons {m : M} {q : List M} {bytes more : List UInt8} : codec.fits m →
      codec.send m = some bytes → Spells q more → Spells (m :: q) (bytes ++ more)

/-- The messages that have been sent and not received. -/
def Carries (w : Wire) (q : List M) : Prop := codec.Spells q (w.arrived ++ w.underWay)

variable {codec} {q : List M} {m : M} {bytes more : List UInt8} {w w' : Wire}

theorem Spells.snoc (spells : codec.Spells q more) (fits : codec.fits m)
    (sent : codec.send m = some bytes) : codec.Spells (q ++ [m]) (more ++ bytes) := by
  induction spells with
  | nil => simpa using Spells.nil.cons fits sent
  | cons fits' sent' _ ih =>
      rw [List.cons_append, List.append_assoc]
      exact .cons fits' sent' ih

/-- **What is received is the next message**, also when bytes are still missing behind it. -/
theorem Spells.receive {stream rest : List UInt8} (spells : codec.Spells q (stream ++ more))
    (taken : codec.receive stream = some (m, rest)) :
    ∃ q', q = m :: q' ∧ codec.Spells q' (rest ++ more) := by
  have whole := codec.patient stream m rest taken more
  generalize all : stream ++ more = bytes at spells whole
  cases spells with
  | nil =>
      rw [codec.waits] at whole
      cases whole
  | @cons m' q' bytes' more' fits sent later =>
      obtain ⟨bytes'', sent', consumes⟩ := codec.sent m' fits
      obtain rfl : bytes' = bytes'' := Option.some.inj (sent.symm.trans sent')
      rw [consumes more'] at whole
      obtain ⟨rfl, rfl⟩ : m' = m ∧ more' = rest ++ more := by simpa using whole
      exact ⟨q', rfl, later⟩

section Steps

variable [DecidableEq M]

/-- What is sent is carried behind the rest. -/
theorem Carries.send (carries : codec.Carries w q) (fits : codec.fits m)
    (taken : codec.step w (.send m) = some w') : codec.Carries w' (q ++ [m]) := by
  obtain ⟨bytes, sent, rfl⟩ := Option.map_eq_some_iff.mp taken
  rw [Carries, ← List.append_assoc]
  exact Spells.snoc carries fits sent

/-- The arrival of bytes changes nothing. -/
theorem Carries.arrive {n : ℕ} (carries : codec.Carries w q)
    (taken : codec.step w (.arrive n) = some w') : codec.Carries w' q := by
  obtain rfl := Option.some.inj taken
  rwa [Carries, List.append_assoc, List.take_append_drop]

/-- What is received is what is carried in front. -/
theorem Carries.receive (carries : codec.Carries w q)
    (taken : codec.step w (.receive m) = some w') : ∃ q', q = m :: q' ∧ codec.Carries w' q' := by
  simp only [step] at taken
  split at taken
  · cases taken
  · rename_i m' rest got
    split at taken
    · rename_i same
      subst same
      obtain rfl := Option.some.inj taken
      exact Spells.receive carries got
    · cases taken

/-- What fits can be sent. -/
theorem exists_send (w : Wire) (fits : codec.fits m) : ∃ w', codec.step w (.send m) = some w' := by
  obtain ⟨bytes, sent, _⟩ := codec.sent m fits
  exact ⟨{ w with underWay := w.underWay ++ bytes }, by simp [step, sent]⟩

/-- **A connection is a queue**: sending puts a message at its end, and receiving takes the
first one, however the bytes get across. -/
theorem simulates : Simulation codec.step codec.ok queueStep WireAction.visible codec.Carries where
  hidden := by
    intro w w' q a carries _ taken hidden
    cases a with
    | send m => cases hidden
    | receive m => cases hidden
    | arrive n => exact carries.arrive taken
  seen := by
    intro w w' q a b carries ok taken seen
    cases a with
    | arrive n => cases seen
    | send m =>
        obtain rfl := Option.some.inj seen
        exact ⟨q ++ [m], rfl, carries.send ok taken⟩
    | receive m =>
        obtain rfl := Option.some.inj seen
        obtain ⟨q', rfl, later⟩ := carries.receive taken
        exact ⟨q', by simp [queueStep], later⟩

variable {as : List (WireAction M)}

/-- **What has been received is what was sent first**, and the bytes that are left spell what
has not been received. -/
theorem run_spec (run : Run codec.step codec.ok ⟨[], []⟩ as w) :
    ∃ q, as.filterMap WireAction.sends = as.filterMap WireAction.receives ++ q ∧
      codec.Carries w q := by
  induction run with
  | refl => exact ⟨[], rfl, .nil⟩
  | @snoc v v' as a _ ok taken ih =>
      obtain ⟨q, same, carries⟩ := ih
      rw [List.filterMap_append, List.filterMap_append, same]
      cases a with
      | arrive n =>
          refine ⟨q, ?_, carries.arrive taken⟩
          change _ ++ q ++ [] = _ ++ [] ++ q
          simp
      | send m =>
          refine ⟨q ++ [m], ?_, carries.send ok taken⟩
          change _ ++ q ++ [m] = _ ++ [] ++ (q ++ [m])
          simp
      | receive m =>
          obtain ⟨q', rfl, later⟩ := carries.receive taken
          refine ⟨q', ?_, later⟩
          change _ ++ m :: q' ++ [] = _ ++ [m] ++ q'
          simp

/-- **Nothing gets stuck**: once all bytes have arrived, the next message can be received. -/
theorem receive_next (spells : codec.Carries w (m :: q)) :
    ∃ v v', codec.step w (.arrive w.underWay.length) = some v ∧
      codec.step v (.receive m) = some v' ∧ codec.Carries v' q := by
  unfold Carries at spells
  generalize all : w.arrived ++ w.underWay = bytes at spells
  cases spells with
  | @cons _ _ bytes more fits sent later =>
      obtain ⟨bytes', sent', consumes⟩ := codec.sent m fits
      obtain rfl : bytes = bytes' := Option.some.inj (sent.symm.trans sent')
      refine ⟨⟨[], bytes ++ more⟩, ⟨[], more⟩, ?_, ?_, ?_⟩
      · simp [step, all]
      · simp [step, consumes more]
      · simpa [Carries] using later

/-- **Every order of sending and receiving that a queue has comes about**, if what is put into
the queue fits. -/
theorem realises {bs : List (QueueAction M)}
    (run : Run queueStep (fun _ b => ∀ m, b = .put m → codec.fits m) [] bs q) :
    ∃ as w, Run codec.step codec.ok ⟨[], []⟩ as w ∧ as.filterMap WireAction.visible = bs ∧
      codec.Carries w q := by
  have way : ∀ {w : Wire} {q q' : List M} {b : QueueAction M},
      codec.Carries w q → (∀ m, b = .put m → codec.fits m) →
        queueStep q b = some q' → ∃ as w', Run codec.step codec.ok w as w' ∧
          as.filterMap WireAction.visible = [b] ∧ codec.Carries w' q' := by
    intro w q q' b spells fits taken
    cases b with
    | put m =>
        obtain rfl := Option.some.inj taken
        obtain ⟨w', sends⟩ := exists_send w (fits m rfl)
        have ok : codec.ok w (.send m) := fits m rfl
        exact ⟨_, w', .single ok sends, rfl, spells.send ok sends⟩
    | take m =>
        cases q with
        | nil => cases taken
        | cons m' rest =>
            simp only [queueStep] at taken
            split at taken
            · rename_i first
              obtain rfl := Option.some.inj taken
              subst first
              obtain ⟨v, v', arrives, receives, spells'⟩ := receive_next spells
              have arriving : codec.ok w (.arrive w.underWay.length) := trivial
              have receiving : codec.ok v (.receive m') := trivial
              have arrival := Run.single arriving arrives
              have receipt := Run.single receiving receives
              exact ⟨_, _, arrival.trans receipt, rfl, spells'⟩
            · cases taken
  have start : codec.Carries ⟨[], []⟩ [] := .nil
  exact Run.realised way start run

/-- What a connection owes to those who think of it as a queue of messages. -/
structure IsQueue (codec : Codec M) : Prop where
  /-- What has been received was sent first and in this order, and the bytes that are left are
  those of the messages that were sent later. -/
  received : ∀ as w, Run codec.step codec.ok ⟨[], []⟩ as w →
    ∃ q, as.filterMap WireAction.sends = as.filterMap WireAction.receives ++ q ∧
      codec.Carries w q
  /-- What the receiver makes of the bytes that it has is the next message, or nothing. -/
  nothingElse : ∀ w q m rest, codec.Carries w q → codec.receive w.arrived = some (m, rest) →
    q.head? = some m
  /-- No message gets stuck: when all bytes have arrived, the next one can be received. -/
  next : ∀ w q m, codec.Carries w (m :: q) →
    ∃ v v', codec.step w (.arrive w.underWay.length) = some v ∧
      codec.step v (.receive m) = some v' ∧ codec.Carries v' q
  /-- Whatever a queue can do comes about. -/
  realised : ∀ bs q, Run queueStep (fun _ b => ∀ m, b = .put m → codec.fits m) [] bs q →
    ∃ as w, Run codec.step codec.ok ⟨[], []⟩ as w ∧ as.filterMap WireAction.visible = bs ∧
      codec.Carries w q

theorem isQueue (codec : Codec M) : codec.IsQueue where
  received _ _ run := run_spec run
  nothingElse w q m rest carries taken := by
    obtain ⟨q', rfl, _⟩ := Spells.receive carries taken
    rfl
  next _ _ _ carries := receive_next carries
  realised _ _ run := realises run

end Steps

end Codec

end OsModel.Lib
