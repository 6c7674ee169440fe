/-
The ports of the radio.

The transport, the radio policy and the source of random bytes are interfaces
of the source.  `Radio ε` bundles one implementation of each over a common
state `ε`; every call returns its answer and the new state.  `Radio.recording`
adds the list of the datagrams that were offered for sending.
-/
import LoraMessenger.Uuid

namespace Lora

def kMinimumDatagramMtu : ℕ := 48
def kMaximumDatagramBytes : ℕ := 255

inductive DatagramSendStatus where
  | accepted
  | wouldBlock
  | disconnected
  | closed
  | invalid
deriving DecidableEq

inductive DatagramReceiveStatus where
  | received
  | wouldBlock
  | disconnected
  | closed
  | invalid
deriving DecidableEq

/-- The datagram is what the source writes to the caller's buffer. -/
structure DatagramReceiveResult where
  status : DatagramReceiveStatus
  datagram : Bytes

inductive RadioTransmitStatus where
  | allowed
  | deferred
  | locked
  | invalid
deriving DecidableEq

structure RadioTransmitDecision where
  status : RadioTransmitStatus
  notBeforeTick : ℕ
deriving DecidableEq

/-- `IDatagramTransport`, `IRadioPolicy` and `IRandomBytes` over one state. -/
structure Radio (ε : Type) where
  maximumDatagramSize : ε → ℕ
  connected : ε → Bool
  closed : ε → Bool
  trySend : Bytes → ε → DatagramSendStatus × ε
  tryReceive : (capacity : ℕ) → ε → DatagramReceiveResult × ε
  close : ε → ε
  evaluateTransmit : (now size : ℕ) → ε → RadioTransmitDecision × ε
  recordTransmit : (now size : ℕ) → ε → ε
  fill : (size : ℕ) → ε → Option (Vector UInt8 size) × ε

/-- A call of `try_send` and its answer. -/
structure Offer where
  datagram : Bytes
  status : DatagramSendStatus
deriving DecidableEq

variable {ε : Type}

/-- The same radio, with a record of what it was offered. -/
def Radio.recording (radio : Radio ε) : Radio (ε × List Offer) where
  maximumDatagramSize state := radio.maximumDatagramSize state.1
  connected state := radio.connected state.1
  closed state := radio.closed state.1
  trySend datagram state :=
    let answer := radio.trySend datagram state.1
    (answer.1, answer.2, state.2 ++ [⟨datagram, answer.1⟩])
  tryReceive capacity state :=
    let answer := radio.tryReceive capacity state.1
    (answer.1, answer.2, state.2)
  close state := (radio.close state.1, state.2)
  evaluateTransmit now size state :=
    let answer := radio.evaluateTransmit now size state.1
    (answer.1, answer.2, state.2)
  recordTransmit now size state := (radio.recordTransmit now size state.1, state.2)
  fill size state :=
    let answer := radio.fill size state.1
    (answer.1, answer.2, state.2)

end Lora
