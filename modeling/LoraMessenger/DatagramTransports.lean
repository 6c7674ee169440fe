/-
The transports behind the datagram port.

The transport of the Cap LoRa-1262 polls the radio before it looks at its one
buffered datagram.  The transport over UDP passes the caller's destination on to the
socket, which reads like `recvfrom`: a datagram that does not fit is cut off and gone.

* `CapLora1262Transport`, `UdpBroadcastTransport` — the two transports;
* `CapLora1262Transport.port_keeps` — the first keeps the contract of the port;
* `UdpBroadcastTransport.contract_iff` — the second keeps it as long as it is never
  given a destination that is too small.
-/
import LoraMessenger.SimulatedRadioBus

namespace Lora

/-! ### The Cap LoRa-1262 -/

inductive RadioStartStatus where
  | started
  | busy
  | failed
deriving DecidableEq

inductive RadioPollStatus where
  | idle
  | transmitComplete
  | received
  | failed
deriving DecidableEq

/-- The datagram is what the radio writes to the buffer. -/
structure RadioPollResult where
  status : RadioPollStatus
  datagram : Bytes

/-- `ICapLora1262Radio` over states `ε`. -/
structure CapLora1262Radio (ε : Type) where
  ready : ε → Bool
  tryStartTransmit : Bytes → ε → RadioStartStatus × ε
  poll : ε → RadioPollResult × ε
  shutdown : ε → ε

/-- An empty `pendingReceive` stands for `pending_receive_size_ == 0`. -/
structure CapLora1262Transport (ε : Type) where
  mtu : ℕ := 0
  pendingReceive : Bytes := []
  closed : Bool := false
  radio : ε

namespace CapLora1262Transport

variable {ε : Type} (radio : CapLora1262Radio ε)

/-- The constructor. -/
def new (mtu : ℕ) (state : ε) : CapLora1262Transport ε :=
  if mtu ≥ kMinimumDatagramMtu ∧ mtu ≤ kMaximumDatagramBytes ∧ radio.ready state then
    { mtu := mtu, radio := state }
  else { closed := true, radio := radio.shutdown state }

variable (transport : CapLora1262Transport ε)

def maximumDatagramSize : ℕ := if transport.closed then 0 else transport.mtu

def connected : Bool := !transport.closed && radio.ready transport.radio

/-- `close`, and `fail_closed` but for its counter. -/
def close : CapLora1262Transport ε :=
  if transport.closed then transport
  else { transport with
    closed := true
    pendingReceive := []
    radio := radio.shutdown transport.radio }

def serviceRadio : CapLora1262Transport ε :=
  if transport.closed then transport
  else
    let (result, state) := radio.poll transport.radio
    let transport := { transport with radio := state }
    match result.status with
    | .idle => transport
    | .transmitComplete => transport
    | .received =>
      if result.datagram.length = 0 ∨ result.datagram.length > transport.mtu then transport
      else if transport.pendingReceive ≠ [] then transport
      else { transport with pendingReceive := result.datagram }
    | .failed => transport.close radio

def trySend (data : Bytes) : CapLora1262Transport ε × DatagramSendStatus :=
  if transport.closed then (transport, .closed)
  else if data.length = 0 ∨ data.length > transport.mtu then (transport, .invalid)
  else
    let transport := transport.serviceRadio radio
    if transport.closed then (transport, .disconnected)
    else
      let (status, state) := radio.tryStartTransmit data transport.radio
      let transport := { transport with radio := state }
      match status with
      | .started => (transport, .accepted)
      | .busy => (transport, .wouldBlock)
      | .failed => (transport.close radio, .disconnected)

def tryReceive (destinationCapacity : ℕ) : DatagramReceiveResult × CapLora1262Transport ε :=
  if transport.closed then (⟨.closed, []⟩, transport)
  else if destinationCapacity = 0 then (⟨.invalid, []⟩, transport)
  else
    let transport := transport.serviceRadio radio
    if transport.closed then (⟨.disconnected, []⟩, transport)
    else if transport.pendingReceive = [] then (⟨.wouldBlock, []⟩, transport)
    else if destinationCapacity < transport.pendingReceive.length then (⟨.invalid, []⟩, transport)
    else (⟨.received, transport.pendingReceive⟩, { transport with pendingReceive := [] })

/-- The datagram that is buffered, or else the one that the radio has ready. -/
def next : Option Bytes :=
  if transport.pendingReceive ≠ [] then some transport.pendingReceive
  else
    let (result, _) := radio.poll transport.radio
    if result.status = .received ∧
      ¬(result.datagram.length = 0 ∨ result.datagram.length > transport.mtu)
    then some result.datagram else none

end CapLora1262Transport

inductive CapCall where
  | trySend (data : Bytes)
  | close

namespace CapLora1262Transport

variable {ε : Type} (radio : CapLora1262Radio ε)

def port : DatagramPort (CapLora1262Transport ε) CapCall where
  maximumDatagramSize := maximumDatagramSize
  connected := connected radio
  closed transport := transport.closed
  tryReceive destinationCapacity transport := transport.tryReceive radio destinationCapacity
  other call transport := match call with
    | .trySend data => (transport.trySend radio data).1
    | .close => transport.close radio
  next := next radio

/-- A datagram waits in the buffer or at the radio. -/
def Holds (datagram : Bytes) (transport : CapLora1262Transport ε) : Prop :=
  transport.next radio = some datagram

variable {radio} {transport : CapLora1262Transport ε} {datagram : Bytes}

theorem closed_close : (transport.close radio).closed := by
  unfold close
  split
  · assumption
  · rfl

/-- If the radio does not fail, the datagram that waits is now in the buffer. -/
theorem serviceRadio_of_open (h : (transport.serviceRadio radio).closed = false) :
    transport.closed = false ∧ (transport.serviceRadio radio).mtu = transport.mtu ∧
      (transport.serviceRadio radio).pendingReceive = (transport.next radio).getD [] := by
  unfold serviceRadio next at *
  split at h
  · rename_i hclosed
    rw [hclosed] at h
    cases h
  rename_i hopen
  rw [if_neg hopen]
  generalize radio.poll transport.radio = polled at h ⊢
  obtain ⟨⟨status, datagram⟩, state⟩ := polled
  refine ⟨by simpa using hopen, ?_⟩
  by_cases hbuffer : transport.pendingReceive = []
  · cases status with
    | idle => simp [hbuffer]
    | transmitComplete => simp [hbuffer]
    | received =>
      dsimp only
      by_cases hsize : datagram.length = 0 ∨ datagram.length > transport.mtu
      · simp only [hbuffer, hsize]
        simp
      · simp only [hbuffer, hsize]
        simp
    | failed => simp [closed_close] at h
  · cases status with
    | idle => simp [hbuffer]
    | transmitComplete => simp [hbuffer]
    | received =>
      dsimp only
      split
      · simp
      · simp
    | failed => simp [closed_close] at h

theorem ne_nil_of_next (h : transport.next radio = some datagram) : datagram ≠ [] := by
  unfold next at h
  rintro rfl
  split at h
  · rename_i hbuffer
    exact hbuffer (Option.some.inj h)
  · dsimp only at h
    split at h
    · rename_i hready
      rw [Option.some.inj h] at hready
      exact hready.2 (.inl rfl)
    · cases h

theorem next_of_pendingReceive (h : transport.pendingReceive = datagram) (hne : datagram ≠ []) :
    transport.next radio = some datagram := by
  rw [next, if_pos (h ▸ hne), h]

section Receive

variable {destinationCapacity : ℕ} (hcapacity : destinationCapacity ≠ 0)

include hcapacity

/-- `try_receive` leaves the link open only if the radio has not failed. -/
theorem serviceRadio_open_of_tryReceive
    (h : (transport.tryReceive radio destinationCapacity).2.closed = false) :
    (transport.serviceRadio radio).closed = false := by
  unfold tryReceive at h
  split at h
  · rename_i hclosed
    rw [hclosed] at h
    cases h
  dsimp only at h
  split at h
  · exact h
  · rename_i hopen
    simpa using hopen

theorem tryReceive_of_next (hopen : (transport.serviceRadio radio).closed = false)
    (hnext : transport.next radio = some datagram) :
    transport.tryReceive radio destinationCapacity =
      if destinationCapacity < datagram.length then (⟨.invalid, []⟩, transport.serviceRadio radio)
      else (⟨.received, datagram⟩, { transport.serviceRadio radio with pendingReceive := [] }) := by
  obtain ⟨hbefore, -, hbuffer⟩ := serviceRadio_of_open hopen
  rw [hnext, Option.getD_some] at hbuffer
  rw [tryReceive, if_neg (by simp [hbefore]), if_neg hcapacity]
  dsimp only
  rw [if_neg (by simp [hopen]), hbuffer, if_neg (ne_nil_of_next hnext)]

end Receive

theorem of_received {destinationCapacity : ℕ}
    (h : (transport.tryReceive radio destinationCapacity).1.status = .received) :
    (transport.tryReceive radio destinationCapacity).1.datagram.length ≤ destinationCapacity ∧
      transport.next radio = some (transport.tryReceive radio destinationCapacity).1.datagram := by
  unfold tryReceive at h ⊢
  split at h
  · cases h
  rename_i hbefore
  split at h
  · cases h
  rename_i hcapacity
  dsimp only at h
  split at h
  · cases h
  rename_i hopen
  split at h
  · cases h
  rename_i hbuffer
  split at h
  · cases h
  rename_i hlarge
  obtain ⟨-, -, hpending⟩ := serviceRadio_of_open (by simpa using hopen)
  rw [if_neg hbefore, if_neg hcapacity]
  dsimp only
  rw [if_neg hopen, if_neg hbuffer, if_neg hlarge]
  refine ⟨Nat.le_of_not_lt hlarge, ?_⟩
  rcases hnext : transport.next radio with _ | datagram
  · rw [hnext] at hpending
    exact absurd hpending hbuffer
  · rw [hnext, Option.getD_some] at hpending
    rw [hpending]

/-- A send services the radio as well. -/
theorem holds_trySend {data : Bytes} (hopen : (transport.trySend radio data).1.closed = false)
    (hnext : transport.next radio = some datagram) :
    (transport.trySend radio data).1.next radio = some datagram ∧
      (transport.trySend radio data).1.mtu = transport.mtu := by
  unfold trySend at hopen ⊢
  split at hopen
  · rename_i hclosed
    rw [hclosed] at hopen
    cases hopen
  rename_i hbefore
  rw [if_neg hbefore]
  split at hopen
  · rename_i hinvalid
    rw [if_pos hinvalid]
    exact ⟨hnext, rfl⟩
  rename_i hvalid
  rw [if_neg hvalid]
  dsimp only at hopen ⊢
  split at hopen
  · rename_i hclosed
    rw [hclosed] at hopen
    cases hopen
  rename_i hserviced
  rw [if_neg hserviced]
  obtain ⟨-, hmtu, hbuffer⟩ := serviceRadio_of_open (by simpa using hserviced)
  rw [hnext, Option.getD_some] at hbuffer
  have hne := ne_nil_of_next hnext
  cases hstatus : (radio.tryStartTransmit data (transport.serviceRadio radio).radio).1 with
  | started => exact ⟨next_of_pendingReceive hbuffer hne, hmtu⟩
  | busy => exact ⟨next_of_pendingReceive hbuffer hne, hmtu⟩
  | failed => simp [hstatus, closed_close] at hopen

theorem maximumDatagramSize_of_open (h : transport.closed = false) :
    transport.maximumDatagramSize = transport.mtu := by
  rw [maximumDatagramSize, h]
  rfl

theorem port_keeps (radio : CapLora1262Radio ε) :
    (port radio).Keeps (fun _ _ => True) (Holds radio) where
  refuses {transport datagram destinationCapacity} _ hup hup' hnext _ hsmall := by
    have hclosed : transport.closed = false := hup.2
    by_cases hcapacity : destinationCapacity = 0
    · have hsame : transport.tryReceive radio destinationCapacity =
          (⟨.invalid, []⟩, transport) := by
        rw [tryReceive, if_neg (by simp [hclosed]), if_pos hcapacity]
      show (transport.tryReceive radio destinationCapacity).1.status = _ ∧
        Holds radio datagram (transport.tryReceive radio destinationCapacity).2 ∧
        (transport.tryReceive radio destinationCapacity).2.maximumDatagramSize =
          transport.maximumDatagramSize
      rw [hsame]
      exact ⟨rfl, hnext, rfl⟩
    · have hopen := serviceRadio_open_of_tryReceive hcapacity hup'.2
      obtain ⟨hbefore, hmtu, hbuffer⟩ := serviceRadio_of_open hopen
      have hreceive := tryReceive_of_next hcapacity hopen hnext
      rw [if_pos hsmall] at hreceive
      show (transport.tryReceive radio destinationCapacity).1.status = _ ∧
        Holds radio datagram (transport.tryReceive radio destinationCapacity).2 ∧
        (transport.tryReceive radio destinationCapacity).2.maximumDatagramSize =
          transport.maximumDatagramSize
      rw [hreceive]
      refine ⟨rfl, next_of_pendingReceive ?_ (ne_nil_of_next hnext), ?_⟩
      · rw [hbuffer]
        exact congrArg (Option.getD · []) hnext
      · rw [maximumDatagramSize_of_open hopen, maximumDatagramSize_of_open hbefore, hmtu]
  next hholds _ := hholds
  delivers {transport datagram destinationCapacity} hholds hup hup' hpos _ hlarge := by
    have hcapacity : destinationCapacity ≠ 0 := by omega
    have hopen := serviceRadio_open_of_tryReceive hcapacity hup'.2
    show (transport.tryReceive radio destinationCapacity).1 = _
    rw [tryReceive_of_next hcapacity hopen hholds, if_neg (by omega)]
  whole hreceived := of_received hreceived
  holds {transport datagram call} hholds hup hup' := by
    cases call with
    | trySend data =>
      have hopen : (transport.trySend radio data).1.closed = false := hup'.2
      have hbefore : transport.closed = false := hup.2
      obtain ⟨hnext, hmtu⟩ := holds_trySend hopen hholds
      refine ⟨hnext, ?_⟩
      show (transport.trySend radio data).1.maximumDatagramSize = transport.maximumDatagramSize
      rw [maximumDatagramSize_of_open hopen, maximumDatagramSize_of_open hbefore, hmtu]
    | close =>
      have hclosed : (transport.close radio).closed = false := hup'.2
      rw [closed_close] at hclosed
      cases hclosed

end CapLora1262Transport

/-! ### UDP broadcast -/

inductive UdpSocketSendStatus where
  | sent
  | wouldBlock
  | disconnected
  | failed
deriving DecidableEq

inductive UdpSocketReceiveStatus where
  | received
  | wouldBlock
  | disconnected
  | truncated
  | failed
deriving DecidableEq

/-- The datagram is what the socket writes to the buffer. -/
structure UdpSocketReceiveResult where
  status : UdpSocketReceiveStatus
  datagram : Bytes

/-- A socket and the datagrams that the kernel holds for it.  A broken one answers every
call with an error that does not go away. -/
structure UdpBroadcastSocket where
  ready : Bool := true
  connected : Bool := true
  broken : Bool := false
  queue : List Bytes := []

/-- `recvfrom` takes the datagram out of the queue, whether it fits or not. -/
def UdpBroadcastSocket.tryReceive (destinationCapacity : ℕ) (socket : UdpBroadcastSocket) :
    UdpSocketReceiveResult × UdpBroadcastSocket :=
  if !socket.ready || socket.broken then (⟨.failed, []⟩, socket)
  else if !socket.connected then (⟨.disconnected, []⟩, socket)
  else match socket.queue with
    | [] => (⟨.wouldBlock, []⟩, socket)
    | datagram :: queue =>
      if datagram.length > destinationCapacity then
        (⟨.truncated, datagram.take destinationCapacity⟩, { socket with queue := queue })
      else (⟨.received, datagram⟩, { socket with queue := queue })

structure UdpBroadcastTransport where
  mtu : ℕ := 0
  closed : Bool := false
  socket : UdpBroadcastSocket

namespace UdpBroadcastTransport

/-- The constructor. -/
def new (mtu : ℕ) (socket : UdpBroadcastSocket) : UdpBroadcastTransport :=
  if mtu ≥ kMinimumDatagramMtu ∧ mtu ≤ kMaximumDatagramBytes ∧ socket.ready then
    { mtu := mtu, socket := socket }
  else { closed := true, socket := { socket with ready := false } }

variable (transport : UdpBroadcastTransport)

def maximumDatagramSize : ℕ := if transport.closed then 0 else transport.mtu

def connected : Bool :=
  !transport.closed && transport.socket.ready && transport.socket.connected

/-- `close`, and `fail_closed` but for its counter. -/
def close : UdpBroadcastTransport :=
  if transport.closed then transport
  else { transport with closed := true, socket := { transport.socket with ready := false } }

/-- `answer` is what the socket says to the send. -/
def trySend (data : Bytes) (answer : UdpSocketSendStatus) :
    UdpBroadcastTransport × DatagramSendStatus :=
  if transport.closed then (transport, .closed)
  else if data.length = 0 ∨ data.length > transport.mtu then (transport, .invalid)
  else match answer with
    | .sent => (transport, .accepted)
    | .wouldBlock => (transport, .wouldBlock)
    | .disconnected => (transport, .disconnected)
    | .failed => (transport.close, .disconnected)

def tryReceive (destinationCapacity : ℕ) : DatagramReceiveResult × UdpBroadcastTransport :=
  if transport.closed then (⟨.closed, []⟩, transport)
  else if destinationCapacity = 0 then (⟨.invalid, []⟩, transport)
  else
    let (result, socket) := transport.socket.tryReceive destinationCapacity
    let transport := { transport with socket := socket }
    match result.status with
    | .received =>
      if result.datagram.length = 0 ∨ result.datagram.length > transport.mtu ∨
          result.datagram.length > destinationCapacity then (⟨.wouldBlock, []⟩, transport)
      else (⟨.received, result.datagram⟩, transport)
    | .wouldBlock => (⟨.wouldBlock, []⟩, transport)
    | .disconnected => (⟨.disconnected, []⟩, transport)
    | .truncated => (⟨.wouldBlock, []⟩, transport)
    | .failed => (⟨.disconnected, []⟩, transport.close)

end UdpBroadcastTransport

/-- The last three are what happens to the socket. -/
inductive UdpCall where
  | trySend (data : Bytes) (answer : UdpSocketSendStatus)
  | close
  | arrive (datagram : Bytes)
  | setConnected (connected : Bool)
  | breakDown

namespace UdpBroadcastTransport

def other (call : UdpCall) (transport : UdpBroadcastTransport) : UdpBroadcastTransport :=
  match call with
  | .trySend data answer => (transport.trySend data answer).1
  | .close => transport.close
  | .arrive datagram => { transport with
      socket := { transport.socket with queue := transport.socket.queue ++ [datagram] } }
  | .setConnected connected => { transport with
      socket := { transport.socket with connected := connected } }
  | .breakDown => { transport with socket := { transport.socket with broken := true } }

def port : DatagramPort UdpBroadcastTransport UdpCall where
  maximumDatagramSize := maximumDatagramSize
  connected := connected
  closed transport := transport.closed
  tryReceive destinationCapacity transport := transport.tryReceive destinationCapacity
  other := other
  next transport := transport.socket.queue.head?

/-- The socket does not truncate the datagram that the call takes out. -/
def Fits (destinationCapacity : ℕ) (transport : UdpBroadcastTransport) : Prop :=
  ∀ datagram, port.up transport → transport.socket.broken = false →
    transport.socket.queue.head? = some datagram → datagram.length ≤ transport.mtu →
    destinationCapacity = 0 ∨ datagram.length ≤ destinationCapacity

variable {transport : UdpBroadcastTransport} {datagram : Bytes} {destinationCapacity : ℕ}

theorem closed_close : transport.close.closed := by
  unfold close
  split
  · assumption
  · rfl

theorem maximumDatagramSize_of_open (h : transport.closed = false) :
    transport.maximumDatagramSize = transport.mtu := by
  rw [maximumDatagramSize, h]
  rfl

theorem up_iff : port.up transport ↔ transport.closed = false ∧ transport.socket.ready = true ∧
    transport.socket.connected = true := by
  show transport.connected = true ∧ transport.closed = false ↔ _
  unfold connected
  cases transport.closed <;> simp

theorem tryReceive_zero (h : transport.closed = false) :
    transport.tryReceive 0 = (⟨.invalid, []⟩, transport) := by
  rw [tryReceive, if_neg (by simp [h]), if_pos rfl]

theorem closed_of_broken (hbroken : transport.socket.broken) (hcapacity : destinationCapacity ≠ 0) :
    (transport.tryReceive destinationCapacity).2.closed := by
  unfold tryReceive
  split
  · assumption
  unfold UdpBroadcastSocket.tryReceive
  rw [if_pos (by simp [hbroken])]
  exact closed_close

section Read

variable (hup : port.up transport) (hbroken : transport.socket.broken = false)
  (hnext : transport.socket.queue.head? = some datagram)

include hup hbroken hnext

theorem socket_tryReceive : transport.socket.tryReceive destinationCapacity =
    if datagram.length > destinationCapacity then
      (⟨.truncated, datagram.take destinationCapacity⟩,
        { transport.socket with queue := transport.socket.queue.tail })
    else (⟨.received, datagram⟩,
      { transport.socket with queue := transport.socket.queue.tail }) := by
  obtain ⟨-, hready, hconnected⟩ := up_iff.1 hup
  obtain ⟨queue, hqueue⟩ := List.head?_eq_some_iff.1 hnext
  rw [UdpBroadcastSocket.tryReceive, if_neg (by simp [hready, hbroken]),
    if_neg (by simp [hconnected]), hqueue]
  rfl

theorem tryReceive_of_small (hcapacity : destinationCapacity ≠ 0)
    (hsmall : destinationCapacity < datagram.length) :
    transport.tryReceive destinationCapacity = (⟨.wouldBlock, []⟩,
      { transport with socket :=
      { transport.socket with queue := transport.socket.queue.tail } }) := by
  have hclosed : transport.closed = false := hup.2
  rw [tryReceive, if_neg (by simp [hclosed]), if_neg hcapacity,
    socket_tryReceive hup hbroken hnext, if_pos hsmall]

theorem tryReceive_of_large (hpos : 0 < datagram.length) (hmtu : datagram.length ≤ transport.mtu)
    (hlarge : datagram.length ≤ destinationCapacity) :
    (transport.tryReceive destinationCapacity).1 = ⟨.received, datagram⟩ := by
  have hclosed : transport.closed = false := hup.2
  rw [tryReceive, if_neg (by simp [hclosed]), if_neg (by omega),
    socket_tryReceive hup hbroken hnext, if_neg (by omega)]
  dsimp only
  rw [if_neg (by omega)]

end Read

theorem socket_of_received {socket : UdpBroadcastSocket}
    (h : (socket.tryReceive destinationCapacity).1.status = .received) :
    socket.queue.head? = some (socket.tryReceive destinationCapacity).1.datagram := by
  unfold UdpBroadcastSocket.tryReceive at h ⊢
  split at h
  · cases h
  rename_i hready
  rw [if_neg hready]
  split at h
  · cases h
  rename_i hconnected
  rw [if_neg hconnected]
  rcases hqueue : socket.queue with _ | ⟨datagram, queue⟩
  · rw [hqueue] at h
    cases h
  · rw [hqueue] at h
    dsimp only at h ⊢
    split at h
    · cases h
    · rename_i hfits
      rw [if_neg hfits]
      rfl

theorem of_received (h : (transport.tryReceive destinationCapacity).1.status = .received) :
    (transport.tryReceive destinationCapacity).1.datagram.length ≤ destinationCapacity ∧
      transport.socket.queue.head? =
        some (transport.tryReceive destinationCapacity).1.datagram := by
  unfold tryReceive at h ⊢
  split at h
  · cases h
  rename_i hopen
  by_cases hcapacity : destinationCapacity = 0
  · rw [if_pos hcapacity] at h
    cases h
  rw [if_neg hcapacity] at h
  rw [if_neg hopen, if_neg hcapacity]
  dsimp only at h ⊢
  rcases hstatus : (transport.socket.tryReceive destinationCapacity).1.status with _ | _ | _ | _ | _
  case received =>
    simp only [hstatus] at h ⊢
    split at h
    · cases h
    rename_i hkept
    rw [if_neg hkept]
    exact ⟨by dsimp only; omega, socket_of_received hstatus⟩
  all_goals
    simp only [hstatus] at h
    cases h

/-- A send takes nothing out of the queue. -/
theorem trySend_of_open {data : Bytes} {answer : UdpSocketSendStatus}
    (hopen : (transport.trySend data answer).1.closed = false) :
    (transport.trySend data answer).1 = transport := by
  unfold trySend at hopen ⊢
  split at hopen
  · rename_i hclosed
    rw [hclosed] at hopen
    cases hopen
  rename_i hbefore
  rw [if_neg hbefore]
  split at hopen
  · rename_i hinvalid
    rw [if_pos hinvalid]
  rename_i hvalid
  rw [if_neg hvalid]
  cases answer with
  | sent => rfl
  | wouldBlock => rfl
  | disconnected => rfl
  | failed =>
    rw [closed_close] at hopen
    cases hopen

theorem holds_other {call : UdpCall} (hup : port.up (transport.other call))
    (hnext : transport.socket.queue.head? = some datagram) :
    (transport.other call).socket.queue.head? = some datagram ∧
      (transport.other call).mtu = transport.mtu := by
  have hopen := hup.2
  cases call with
  | trySend data answer =>
    have hsame : transport.other (.trySend data answer) = transport := trySend_of_open hopen
    rw [hsame]
    exact ⟨hnext, rfl⟩
  | close =>
    have hclosed : transport.close.closed = false := hopen
    rw [closed_close] at hclosed
    cases hclosed
  | arrive arrived =>
    refine ⟨?_, rfl⟩
    obtain ⟨queue, hqueue⟩ := List.head?_eq_some_iff.1 hnext
    show (transport.socket.queue ++ [arrived]).head? = some datagram
    rw [hqueue]
    rfl
  | setConnected connected => exact ⟨hnext, rfl⟩
  | breakDown => exact ⟨hnext, rfl⟩

theorem port_keeps :
    port.Keeps Fits (fun datagram transport => transport.socket.queue.head? = some datagram) where
  refuses {transport datagram destinationCapacity} hfits hup hup' hnext hlength hsmall := by
    rw [show port.maximumDatagramSize transport = transport.mtu from
      maximumDatagramSize_of_open hup.2] at hlength
    -- the transport looks at an empty destination before it asks the socket
    have hcapacity : destinationCapacity = 0 := by
      by_contra hcapacity
      rcases hbroken : transport.socket.broken with _ | _
      · rcases hfits datagram hup hbroken hnext hlength with hzero | hlarge
        · exact hcapacity hzero
        · omega
      · have hclosed := closed_of_broken hbroken hcapacity
        exact absurd hup'.2 (by simpa [port] using hclosed)
    subst hcapacity
    show (transport.tryReceive 0).1.status = _ ∧
      (transport.tryReceive 0).2.socket.queue.head? = _ ∧
      (transport.tryReceive 0).2.maximumDatagramSize = transport.maximumDatagramSize
    rw [tryReceive_zero hup.2]
    exact ⟨rfl, hnext, rfl⟩
  next hholds _ := hholds
  delivers {transport datagram destinationCapacity} hholds hup hup' hpos hlength hlarge := by
    rw [show port.maximumDatagramSize transport = transport.mtu from
      maximumDatagramSize_of_open hup.2] at hlength
    rcases hbroken : transport.socket.broken with _ | _
    · exact tryReceive_of_large hup hbroken hholds hpos hlength hlarge
    · have hclosed := closed_of_broken hbroken (show destinationCapacity ≠ 0 by omega)
      exact absurd hup'.2 (by simpa [port] using hclosed)
  whole hreceived := of_received hreceived
  holds {transport datagram call} hholds hup hup' := by
    have hopen : (transport.other call).closed = false := hup'.2
    have hbefore : transport.closed = false := hup.2
    obtain ⟨hnext, hmtu⟩ := holds_other hup' hholds
    refine ⟨hnext, ?_⟩
    show (transport.other call).maximumDatagramSize = transport.maximumDatagramSize
    rw [maximumDatagramSize_of_open hopen, maximumDatagramSize_of_open hbefore, hmtu]

/-- A destination that is too small, but not empty, breaks the contract. -/
theorem fits_of_honours {after : List (PortCall UdpCall)}
    (h : port.Honours transport destinationCapacity after) :
    Fits destinationCapacity transport := by
  intro datagram hup hbroken hnext hlength
  by_contra! hsmall
  obtain ⟨hcapacity, hsmall⟩ := hsmall
  have hread := tryReceive_of_small hup hbroken hnext hcapacity hsmall
  have hmaximum : datagram.length ≤ transport.maximumDatagramSize := by
    rwa [maximumDatagramSize_of_open hup.2]
  have hup' : port.up (transport.tryReceive destinationCapacity).2 := by
    rw [hread, up_iff]
    exact up_iff.1 hup
  have hstatus : (transport.tryReceive destinationCapacity).1.status = .invalid :=
    (h.refused datagram hup hup' hnext hmaximum hsmall).1
  rw [hread] at hstatus
  cases hstatus

theorem contract_iff {start : UdpBroadcastTransport} {calls : List (PortCall UdpCall)} :
    port.Contract start calls ↔ port.Allowed Fits start calls := by
  constructor
  · intro h before destinationCapacity after hcalls
    exact fits_of_honours (h before destinationCapacity after hcalls)
  · exact DatagramPort.contract_of_keeps port_keeps

end UdpBroadcastTransport

/-! ### All of them -/

/-- The bus and the Cap LoRa-1262 keep the contract of the port in every run.  The UDP
transport does so exactly as long as its socket never has to truncate. -/
theorem transports_keep_contract {ε : Type} (endpoint : EndpointId) (bus : SimulatedRadioBus)
    (busCalls : List (PortCall BusCall)) (radio : CapLora1262Radio ε) (cap : CapLora1262Transport ε)
    (capCalls : List (PortCall CapCall)) (udp : UdpBroadcastTransport)
    (udpCalls : List (PortCall UdpCall)) :
    (SimulatedRadioBus.port endpoint).Contract bus busCalls ∧
    (CapLora1262Transport.port radio).Contract cap capCalls ∧
    (UdpBroadcastTransport.port.Contract udp udpCalls ↔
      ∀ before destinationCapacity after, udpCalls =
        before ++ .tryReceive destinationCapacity :: after →
        UdpBroadcastTransport.Fits destinationCapacity
          (UdpBroadcastTransport.port.run udp before)) := by
  refine ⟨?_, ?_, UdpBroadcastTransport.contract_iff⟩
  · exact DatagramPort.contract_of_keeps (SimulatedRadioBus.port_keeps endpoint)
      (fun _ _ _ _ => trivial)
  · exact DatagramPort.contract_of_keeps (CapLora1262Transport.port_keeps radio)
      (fun _ _ _ _ => trivial)

/-- A datagram of fifty bytes and a destination of ten: the answer is that nothing waits,
and then nothing does. -/
theorem udp_contract_fails_truncated :
    ¬UdpBroadcastTransport.port.Contract
      (UdpBroadcastTransport.new kMaximumDatagramBytes { queue := [List.replicate 50 7] })
      [.tryReceive 10, .tryReceive 64] := by
  rw [UdpBroadcastTransport.contract_iff]
  intro h
  rcases h [] 10 [.tryReceive 64] rfl (List.replicate 50 7)
    ⟨rfl, rfl⟩ rfl rfl (by decide) with h | h
  · exact absurd h (by decide)
  · exact absurd h (by decide)

end Lora
