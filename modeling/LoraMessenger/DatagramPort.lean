/-
The contract of a datagram port.

A call of `try_receive` takes out the next datagram that waits at the port.  If the
destination is too small for it, the call is invalid and the datagram stays, so that
a later call with a large enough destination gets it.  Between two such calls anything
may happen: sends, arrivals, the passing of time.

* `DatagramPort` — a port, and what waits at it;
* `Contract` — what the documentation of the port asks for, over a whole run;
* `Keeps` — what one call has to do, and `contract_of_keeps`.
-/
import LoraMessenger.Radio

namespace Lora

/-- A port over states `σ`.  The calls of `try_receive` are those of the caller, the
other calls `κ` are all that can happen besides. -/
structure DatagramPort (σ κ : Type) where
  maximumDatagramSize : σ → ℕ
  connected : σ → Bool
  closed : σ → Bool
  tryReceive : (destinationCapacity : ℕ) → σ → DatagramReceiveResult × σ
  other : κ → σ → σ
  /-- The datagram that the next call would take out. -/
  next : σ → Option Bytes

inductive PortCall (κ : Type) where
  | tryReceive (destinationCapacity : ℕ)
  | other (call : κ)

namespace DatagramPort

variable {σ κ : Type} (port : DatagramPort σ κ)

/-- The link is open and connected. -/
def up (state : σ) : Prop := port.connected state ∧ port.closed state = false

def call (state : σ) : PortCall κ → σ
  | .tryReceive destinationCapacity => (port.tryReceive destinationCapacity state).2
  | .other call => port.other call state

def run (state : σ) (calls : List (PortCall κ)) : σ := calls.foldl port.call state

/-- The link stays up, and no destination is large enough for the datagram. -/
def Waits (datagram : Bytes) : σ → List (PortCall κ) → Prop
  | state, [] => port.up state
  | state, call :: calls => port.up state ∧
      (∀ destinationCapacity, call = .tryReceive destinationCapacity →
        destinationCapacity < datagram.length) ∧
      Waits datagram (port.call state call) calls

/-- A call of `try_receive`, and those that come after it. -/
structure Honours (state : σ) (destinationCapacity : ℕ) (after : List (PortCall κ)) : Prop where
  refused : ∀ datagram, port.up state → port.up (port.tryReceive destinationCapacity state).2 →
    port.next state = some datagram → datagram.length ≤ port.maximumDatagramSize state →
    destinationCapacity < datagram.length →
    (port.tryReceive destinationCapacity state).1.status = .invalid ∧
    port.next (port.tryReceive destinationCapacity state).2 = some datagram ∧
    ∀ between largeCapacity rest, after = between ++ .tryReceive largeCapacity :: rest →
      port.Waits datagram (port.tryReceive destinationCapacity state).2 between →
      port.up (port.tryReceive largeCapacity
        (port.run (port.tryReceive destinationCapacity state).2 between)).2 →
      datagram.length ≤ largeCapacity →
      (port.tryReceive largeCapacity
        (port.run (port.tryReceive destinationCapacity state).2 between)).1 = ⟨.received, datagram⟩
  whole : (port.tryReceive destinationCapacity state).1.status = .received →
    (port.tryReceive destinationCapacity state).1.datagram.length ≤ destinationCapacity ∧
    port.next state = some (port.tryReceive destinationCapacity state).1.datagram

def Contract (start : σ) (calls : List (PortCall κ)) : Prop :=
  ∀ before destinationCapacity after, calls = before ++ .tryReceive destinationCapacity :: after →
    port.Honours (port.run start before) destinationCapacity after

/-! ### One call at a time -/

/-- What the calls of a port do, where `allowed` says which destinations it can cope with
and `Holds` that a datagram that was refused still waits. -/
structure Keeps (allowed : ℕ → σ → Prop) (Holds : Bytes → σ → Prop) : Prop where
  refuses : ∀ {state datagram destinationCapacity}, allowed destinationCapacity state →
    port.up state → port.up (port.tryReceive destinationCapacity state).2 →
    port.next state = some datagram → datagram.length ≤ port.maximumDatagramSize state →
    destinationCapacity < datagram.length →
    (port.tryReceive destinationCapacity state).1.status = .invalid ∧
      Holds datagram (port.tryReceive destinationCapacity state).2 ∧
      port.maximumDatagramSize (port.tryReceive destinationCapacity state).2 =
        port.maximumDatagramSize state
  next : ∀ {state datagram}, Holds datagram state → port.up state → port.next state = some datagram
  delivers : ∀ {state datagram destinationCapacity}, Holds datagram state → port.up state →
    port.up (port.tryReceive destinationCapacity state).2 → 0 < datagram.length →
    datagram.length ≤ port.maximumDatagramSize state → datagram.length ≤ destinationCapacity →
    (port.tryReceive destinationCapacity state).1 = ⟨.received, datagram⟩
  whole : ∀ {state destinationCapacity},
    (port.tryReceive destinationCapacity state).1.status = .received →
    (port.tryReceive destinationCapacity state).1.datagram.length ≤ destinationCapacity ∧
    port.next state = some (port.tryReceive destinationCapacity state).1.datagram
  holds : ∀ {state datagram call}, Holds datagram state → port.up state →
    port.up (port.other call state) → Holds datagram (port.other call state) ∧
      port.maximumDatagramSize (port.other call state) = port.maximumDatagramSize state

variable {port} {allowed : ℕ → σ → Prop} {Holds : Bytes → σ → Prop}

/-- All destinations that a run uses are allowed. -/
def Allowed (port : DatagramPort σ κ) (allowed : ℕ → σ → Prop) (start : σ)
    (calls : List (PortCall κ)) : Prop :=
  ∀ before destinationCapacity after, calls = before ++ .tryReceive destinationCapacity :: after →
    allowed destinationCapacity (port.run start before)

theorem Waits.up {datagram : Bytes} {state : σ} {calls : List (PortCall κ)}
    (h : port.Waits datagram state calls) : port.up state := by
  cases calls with
  | nil => exact h
  | cons call calls => exact h.1

/-- A datagram that was refused still waits when all those calls have been made. -/
theorem Keeps.run (hkeeps : port.Keeps allowed Holds) {datagram : Bytes} {state : σ}
    {calls : List (PortCall κ)} (hallowed : port.Allowed allowed state calls)
    (hholds : Holds datagram state) (hlength : datagram.length ≤ port.maximumDatagramSize state)
    (hwaits : port.Waits datagram state calls) :
    Holds datagram (port.run state calls) ∧ port.up (port.run state calls) ∧
      datagram.length ≤ port.maximumDatagramSize (port.run state calls) := by
  induction calls generalizing state with
  | nil => exact ⟨hholds, hwaits, hlength⟩
  | cons call calls ih =>
    obtain ⟨hup, hsmall, hlater⟩ := hwaits
    have hallowed' : port.Allowed allowed (port.call state call) calls := by
      intro before destinationCapacity after hcalls
      exact hallowed (call :: before) destinationCapacity after (by rw [hcalls]; rfl)
    have hstep : Holds datagram (port.call state call) ∧
        port.maximumDatagramSize (port.call state call) = port.maximumDatagramSize state := by
      cases call with
      | tryReceive destinationCapacity =>
        exact (hkeeps.refuses (hallowed [] destinationCapacity calls rfl) hup hlater.up
          (hkeeps.next hholds hup) hlength (hsmall destinationCapacity rfl)).2
      | other call => exact hkeeps.holds hholds hup hlater.up
    exact ih hallowed' hstep.1 (hstep.2 ▸ hlength) hlater

theorem run_append (state : σ) (first second : List (PortCall κ)) :
    port.run state (first ++ second) = port.run (port.run state first) second :=
  List.foldl_append ..

theorem contract_of_keeps (hkeeps : port.Keeps allowed Holds) {start : σ}
    {calls : List (PortCall κ)}
    (hallowed : port.Allowed allowed start calls) : port.Contract start calls := by
  rintro before destinationCapacity after rfl
  refine ⟨fun datagram hup hup' hnext hlength hsmall => ?_, hkeeps.whole⟩
  obtain ⟨hstatus, hholds, hsame⟩ :=
    hkeeps.refuses (hallowed before destinationCapacity after rfl) hup hup' hnext hlength hsmall
  refine ⟨hstatus, hkeeps.next hholds hup', ?_⟩
  rintro between largeCapacity rest rfl hwaits hup'' hlarge
  have hbetween : port.Allowed allowed (port.tryReceive destinationCapacity
      (port.run start before)).2 between := by
    rintro first capacity second rfl
    have hall := hallowed (before ++ .tryReceive destinationCapacity :: first) capacity
      (second ++ .tryReceive largeCapacity :: rest) (by simp)
    rwa [run_append] at hall
  obtain ⟨hstill, hstays, hfits⟩ := hkeeps.run hbetween hholds (hsame ▸ hlength) hwaits
  exact hkeeps.delivers hstill hstays hup'' (by omega) hfits hlarge

end DatagramPort

end Lora
