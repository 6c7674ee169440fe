/-
The simulated radio bus.

Two endpoints with a queue of arrived datagrams each.  A datagram that is sent is
scheduled for a tick, perhaps dropped, doubled, changed or delayed on the way, and
is put at the end of the queue when the tick has come.  All that is under way is lost
when the link goes down.

* `sendFrom`, `receiveFor`, … — the calls on the bus and its endpoints;
* `other_grows` — a call only adds to the queue of an endpoint whose link
  stays up;
* `port_keeps` — an endpoint keeps the contract of the port.
-/
import LoraMessenger.DatagramPort
import LoraMessenger.Scheduler

namespace Lora

inductive EndpointId where
  | first
  | second
deriving DecidableEq

def EndpointId.other : EndpointId → EndpointId
  | .first => .second
  | .second => .first

structure BusConfig where
  mtu : ℕ := kMaximumDatagramBytes
  maxScheduledEvents : ℕ := 64
  maxInboundDatagrams : ℕ := 64
  maxFaultDirectives : ℕ := 64

/-- A directive applies once to the next accepted send from its source. -/
structure FaultDirective where
  drop : Bool := false
  duplicate : Bool := false
  corruptByteIndex : Option ℕ := none
  corruptXorMask : UInt8 := 0x01
  delayTicks : ℕ := 0

def FaultDirective.copies (directive : FaultDirective) : ℕ :=
  if directive.drop then 0 else if directive.duplicate then 2 else 1

/-- The datagram as it arrives. -/
def FaultDirective.corrupt (directive : FaultDirective) (data : Bytes) : Bytes :=
  match directive.corruptByteIndex with
  | none => data
  | some index => data.set index (data.getD index 0 ^^^ directive.corruptXorMask)

structure ScheduledEvent where
  deliveryTick : ℕ
  ordinal : ℕ
  source : EndpointId
  destination : EndpointId
  datagram : Bytes

structure BusStatistics where
  acceptedSends : UInt64 := 0
  wouldBlockSends : UInt64 := 0
  disconnectedSends : UInt64 := 0
  closedSends : UInt64 := 0
  invalidSends : UInt64 := 0
  receivedDatagrams : UInt64 := 0
  deliveredDatagrams : UInt64 := 0
  faultDrops : UInt64 := 0
  duplicateCopies : UInt64 := 0
  corruptedCopies : UInt64 := 0
  inboundFullDrops : UInt64 := 0
  disconnectedDrops : UInt64 := 0
  scheduledHighWatermark : ℕ := 0
  inboundHighWatermarks : EndpointId → ℕ := fun _ => 0

/-- A send that is refused is counted under its answer. -/
def BusStatistics.countRefused (statistics : BusStatistics) : DatagramSendStatus → BusStatistics
  | .accepted => statistics
  | .wouldBlock => { statistics with wouldBlockSends := statistics.wouldBlockSends + 1 }
  | .disconnected => { statistics with disconnectedSends := statistics.disconnectedSends + 1 }
  | .closed => { statistics with closedSends := statistics.closedSends + 1 }
  | .invalid => { statistics with invalidSends := statistics.invalidSends + 1 }

/-- The counters of an accepted send. -/
def BusStatistics.countAccepted (statistics : BusStatistics) (directive : FaultDirective) :
    BusStatistics :=
  let accepted := { statistics with acceptedSends := statistics.acceptedSends + 1 }
  if directive.drop then { accepted with faultDrops := accepted.faultDrops + 1 }
  else
    let duplicated :=
      if directive.copies = 2 then { accepted with duplicateCopies := accepted.duplicateCopies + 1 }
      else accepted
    if directive.corruptByteIndex.isSome then
      { duplicated with
        corruptedCopies := duplicated.corruptedCopies + UInt64.ofNat directive.copies }
    else duplicated

structure SimulatedRadioBus where
  config : BusConfig
  currentTick : ℕ := 0
  nextEventOrdinal : ℕ := 0
  connected : EndpointId → Bool := fun _ => true
  closed : EndpointId → Bool := fun _ => false
  inbound : EndpointId → List Bytes := fun _ => []
  faultDirectives : EndpointId → List FaultDirective := fun _ => []
  scheduledEvents : List ScheduledEvent := []
  statistics : BusStatistics := {}

namespace SimulatedRadioBus

def kMaximumQueueDepth : ℕ := 4096

def validConfig (config : BusConfig) : Bool :=
  let validDepth (depth : ℕ) : Bool := depth > 0 && depth ≤ kMaximumQueueDepth
  config.mtu ≥ kMinimumDatagramMtu && config.mtu ≤ kMaximumDatagramBytes &&
    validDepth config.maxScheduledEvents && validDepth config.maxInboundDatagrams &&
    validDepth config.maxFaultDirectives

/-- The constructor. -/
def new (config : BusConfig) : SimulatedRadioBus :=
  { config := config, connected := fun _ => validConfig config }

variable (bus : SimulatedRadioBus) (endpoint : EndpointId)

def valid : Bool := validConfig bus.config

def maximumDatagramSize : ℕ := if bus.valid then bus.config.mtu else 0

def endpointConnected : Bool :=
  bus.valid && (bus.connected endpoint && bus.connected endpoint.other &&
    !bus.closed endpoint && !bus.closed endpoint.other)

def endpointClosed : Bool := !bus.valid || bus.closed endpoint

def discardLinkData : SimulatedRadioBus :=
  let discarded : ℕ := bus.scheduledEvents.length + (bus.inbound .first).length +
    (bus.inbound .second).length
  { bus with
    scheduledEvents := []
    inbound := fun _ => []
    statistics := { bus.statistics with
      disconnectedDrops := bus.statistics.disconnectedDrops + UInt64.ofNat discarded } }

/-! ### Scheduled events -/

/-- An event that is due is put into the queue, if there is a link and room. -/
def deliver (event : ScheduledEvent) : SimulatedRadioBus :=
  if !bus.endpointConnected event.source || !bus.endpointConnected event.destination then
    { bus with statistics := { bus.statistics with
        disconnectedDrops := bus.statistics.disconnectedDrops + 1 } }
  else if (bus.inbound event.destination).length ≥ bus.config.maxInboundDatagrams then
    { bus with statistics := { bus.statistics with
        inboundFullDrops := bus.statistics.inboundFullDrops + 1 } }
  else
    let inbound := bus.inbound event.destination ++ [event.datagram]
    { bus with
      inbound := fun endpoint => if endpoint = event.destination then inbound else
        bus.inbound endpoint
      statistics := { bus.statistics with
        deliveredDatagrams := bus.statistics.deliveredDatagrams + 1
        inboundHighWatermarks := fun endpoint =>
          if endpoint = event.destination then
            max (bus.statistics.inboundHighWatermarks endpoint) inbound.length
          else bus.statistics.inboundHighWatermarks endpoint } }

/-- The loop of `deliver_due_events`. -/
def deliverDue : SimulatedRadioBus → List ScheduledEvent → SimulatedRadioBus
  | bus, [] => { bus with scheduledEvents := [] }
  | bus, event :: events =>
    if event.deliveryTick ≤ bus.currentTick then deliverDue (bus.deliver event) events
    else { bus with scheduledEvents := event :: events }

def deliverDueEvents : SimulatedRadioBus := bus.deliverDue bus.scheduledEvents

/-- `std::upper_bound` and `insert`: after all events that are not later. -/
def scheduleEvent (event : ScheduledEvent) : SimulatedRadioBus :=
  let notLater (existing : ScheduledEvent) : Bool :=
    !(if event.deliveryTick ≠ existing.deliveryTick then event.deliveryTick < existing.deliveryTick
      else event.ordinal < existing.ordinal)
  let scheduledEvents :=
    bus.scheduledEvents.takeWhile notLater ++ event :: bus.scheduledEvents.dropWhile notLater
  { bus with
    scheduledEvents := scheduledEvents
    statistics := { bus.statistics with
      scheduledHighWatermark :=
        max bus.statistics.scheduledHighWatermark scheduledEvents.length } }

/-! ### Calls -/

def addDirective (source : EndpointId) (directive : FaultDirective) : SimulatedRadioBus :=
  { bus with faultDirectives := fun endpoint =>
    if endpoint = source then bus.faultDirectives endpoint ++ [directive]
    else bus.faultDirectives endpoint }

def enqueueFault (source : EndpointId) (directive : FaultDirective) : SimulatedRadioBus × Bool :=
  if !bus.valid || bus.closed source ||
      (bus.faultDirectives source).length ≥ bus.config.maxFaultDirectives then (bus, false)
  else if !directive.drop && (directive.duplicate && bus.config.maxScheduledEvents < 2 ||
      directive.corruptByteIndex.any (fun index => index ≥ bus.config.mtu ||
        directive.corruptXorMask = 0) ||
      directive.delayTicks > kMaximumRadioTick - bus.currentTick) then (bus, false)
  else (bus.addDirective source directive, true)

def setConnected (connected : Bool) : SimulatedRadioBus × Bool :=
  if !bus.valid || bus.closed endpoint then (bus, false)
  else if bus.connected endpoint = connected then (bus, true)
  else
    let bus := { bus with connected := fun other =>
      if other = endpoint then connected else bus.connected other }
    (if !connected then bus.discardLinkData else bus, true)

def advanceTo (tick : ℕ) : SimulatedRadioBus × Bool :=
  if !bus.valid || tick < bus.currentTick then (bus, false)
  else ({ bus with currentTick := tick }.deliverDueEvents, true)

def closeEndpoint : SimulatedRadioBus :=
  if !bus.valid || bus.closed endpoint then bus
  else
    let bus := { bus with
      closed := fun other => if other = endpoint then true else bus.closed other
      connected := fun other => if other = endpoint then false else bus.connected other
      faultDirectives := fun other => if other = endpoint then [] else bus.faultDirectives other }
    bus.discardLinkData

/-- The directive of an accepted send is used up. -/
def eraseDirective (source : EndpointId) : SimulatedRadioBus :=
  { bus with faultDirectives := fun endpoint =>
    if endpoint = source then (bus.faultDirectives endpoint).tail else
      bus.faultDirectives endpoint }

/-- The loop of `send_from`. -/
def scheduleCopies (source : EndpointId) (datagram : Bytes) (deliveryTick : ℕ) :
    SimulatedRadioBus → ℕ → SimulatedRadioBus
  | bus, 0 => bus
  | bus, copies + 1 =>
    scheduleCopies source datagram deliveryTick
      ({ bus with nextEventOrdinal := bus.nextEventOrdinal + 1 }.scheduleEvent
        ⟨deliveryTick, bus.nextEventOrdinal, source, source.other, datagram⟩) copies

def refuse (status : DatagramSendStatus) : SimulatedRadioBus × DatagramSendStatus :=
  ({ bus with statistics := bus.statistics.countRefused status }, status)

/-- What the directive at the head of the queue makes of a send that nothing speaks against. -/
def accept (source : EndpointId) (data : Bytes) : SimulatedRadioBus :=
  let directive := (bus.faultDirectives source).headD {}
  let accepted := { bus.eraseDirective source with
    statistics := bus.statistics.countAccepted directive }
  if directive.drop then accepted
  else
    (scheduleCopies source (directive.corrupt data)
      (bus.currentTick + directive.delayTicks) accepted
      directive.copies).deliverDueEvents

/-- A null pointer is answered as an empty datagram is. -/
def sendFrom (source : EndpointId) (data : Bytes) : SimulatedRadioBus × DatagramSendStatus :=
  if !bus.valid || data.length = 0 || data.length > bus.config.mtu ||
      data.length > kMaximumDatagramBytes then bus.refuse .invalid
  else if bus.closed source then bus.refuse .closed
  else if !bus.endpointConnected source then bus.refuse .disconnected
  else
    let directive := (bus.faultDirectives source).headD {}
    if !directive.drop && (directive.corruptByteIndex.any (fun index => index ≥ data.length ||
        directive.corruptXorMask = 0) ||
        directive.delayTicks > kMaximumRadioTick - bus.currentTick) then bus.refuse .invalid
    else if directive.copies > bus.config.maxScheduledEvents - bus.scheduledEvents.length then
      bus.refuse .wouldBlock
    else if directive.copies > kMaximumRadioTick - bus.nextEventOrdinal then bus.refuse .invalid
    else (bus.accept source data, .accepted)

/-- A null pointer is answered as no capacity is. -/
def receiveFor (capacity : ℕ) : DatagramReceiveResult × SimulatedRadioBus :=
  if !bus.valid || capacity = 0 then (⟨.invalid, []⟩, bus)
  else if bus.closed endpoint then (⟨.closed, []⟩, bus)
  else if !bus.endpointConnected endpoint then (⟨.disconnected, []⟩, bus)
  else match bus.inbound endpoint with
    | [] => (⟨.wouldBlock, []⟩, bus)
    | datagram :: inbound =>
      if capacity < datagram.length then (⟨.invalid, []⟩, bus)
      else (⟨.received, datagram⟩, { bus with
        inbound := fun other => if other = endpoint then inbound else bus.inbound other
        statistics := { bus.statistics with
          receivedDatagrams := bus.statistics.receivedDatagrams + 1 } })

end SimulatedRadioBus

/-- What can happen at the bus besides the endpoint's own `try_receive`. -/
inductive BusCall where
  | sendFrom (source : EndpointId) (data : Bytes)
  | receivePeer (capacity : ℕ)
  | enqueueFault (source : EndpointId) (directive : FaultDirective)
  | setConnected (endpoint : EndpointId) (connected : Bool)
  | advanceTo (tick : ℕ)
  | closeEndpoint (endpoint : EndpointId)

namespace SimulatedRadioBus

def other (endpoint : EndpointId) (call : BusCall) (bus : SimulatedRadioBus) : SimulatedRadioBus :=
  match call with
  | .sendFrom source data => (bus.sendFrom source data).1
  | .receivePeer capacity => (bus.receiveFor endpoint.other capacity).2
  | .enqueueFault source directive => (bus.enqueueFault source directive).1
  | .setConnected endpoint connected => (bus.setConnected endpoint connected).1
  | .advanceTo tick => (bus.advanceTo tick).1
  | .closeEndpoint endpoint => bus.closeEndpoint endpoint

/-- An endpoint as a datagram port. -/
def port (endpoint : EndpointId) : DatagramPort SimulatedRadioBus BusCall where
  maximumDatagramSize := maximumDatagramSize
  connected bus := bus.endpointConnected endpoint
  closed bus := bus.endpointClosed endpoint
  tryReceive capacity bus := bus.receiveFor endpoint capacity
  other := other endpoint
  next bus := (bus.inbound endpoint).head?

/-! ### What a call can do -/

section Cases

variable {bus : SimulatedRadioBus} {endpoint : EndpointId}

/-- What a send that is accepted needs. -/
structure Accepts (bus : SimulatedRadioBus) (source : EndpointId) (data : Bytes) : Prop where
  valid : bus.valid
  connected : bus.endpointConnected source
  size : 0 < data.length ∧ data.length ≤ bus.config.mtu
  corrupts : ((bus.faultDirectives source).headD {}).drop = false →
    ∀ index, ((bus.faultDirectives source).headD {}).corruptByteIndex = some index →
      index < data.length ∧ ((bus.faultDirectives source).headD {}).corruptXorMask ≠ 0
  delay : ((bus.faultDirectives source).headD {}).drop = false →
    ((bus.faultDirectives source).headD {}).delayTicks ≤ kMaximumRadioTick - bus.currentTick
  room : ((bus.faultDirectives source).headD {}).copies ≤
    bus.config.maxScheduledEvents - bus.scheduledEvents.length
  ordinals : ((bus.faultDirectives source).headD {}).copies ≤
    kMaximumRadioTick - bus.nextEventOrdinal

/-- A send is refused, and then counted under its answer, or nothing speaks against it. -/
theorem sendFrom_cases (source : EndpointId) (data : Bytes) :
    (∃ status, status ≠ .accepted ∧ bus.sendFrom source data = bus.refuse status) ∨
      bus.Accepts source data ∧ bus.sendFrom source data = (bus.accept source data, .accepted) := by
  unfold sendFrom
  split
  · exact .inl ⟨.invalid, by decide, rfl⟩
  rename_i hsize
  split
  · exact .inl ⟨.closed, by decide, rfl⟩
  split
  · exact .inl ⟨.disconnected, by decide, rfl⟩
  rename_i hconnected
  dsimp only
  split
  · exact .inl ⟨.invalid, by decide, rfl⟩
  rename_i hdirective
  split
  · exact .inl ⟨.wouldBlock, by decide, rfl⟩
  rename_i hroom
  split
  · exact .inl ⟨.invalid, by decide, rfl⟩
  rename_i hordinals
  simp only [Bool.or_eq_true, Bool.not_eq_true', decide_eq_true_eq, not_or,
    Bool.not_eq_false] at hsize
  simp only [Bool.not_eq_true', Bool.not_eq_false] at hconnected
  simp only [Bool.and_eq_true, Bool.not_eq_true', Bool.or_eq_true, Option.any_eq_true,
    decide_eq_true_eq, not_and, not_or, not_exists] at hdirective
  refine .inr ⟨⟨hsize.1.1.1, hconnected, by omega, fun hdrop index hindex => ?_,
    fun hdrop => by have := (hdirective hdrop).2; omega, by omega, by omega⟩, rfl⟩
  have hvalid := (hdirective hdrop).1 index hindex
  exact ⟨by omega, hvalid.2⟩

/-- Nothing is received and nothing changes, or the first datagram is taken from the queue. -/
theorem receiveFor_cases (capacity : ℕ) :
    (bus.receiveFor endpoint capacity).1.status ≠ .received ∧
        (bus.receiveFor endpoint capacity).2 = bus ∨
      ∃ datagram inbound, bus.inbound endpoint = datagram :: inbound ∧ datagram.length ≤ capacity ∧
        bus.endpointConnected endpoint ∧ bus.receiveFor endpoint capacity = (⟨.received, datagram⟩,
          { bus with
            inbound := fun other => if other = endpoint then inbound else bus.inbound other
            statistics := { bus.statistics with
              receivedDatagrams := bus.statistics.receivedDatagrams + 1 } }) := by
  unfold receiveFor
  split
  · exact .inl ⟨nofun, rfl⟩
  split
  · exact .inl ⟨nofun, rfl⟩
  split
  · exact .inl ⟨nofun, rfl⟩
  rename_i hconnected
  split
  · exact .inl ⟨nofun, rfl⟩
  rename_i datagram inbound hinbound
  by_cases hsmall : capacity < datagram.length
  · rw [if_pos hsmall]
    exact .inl ⟨nofun, rfl⟩
  · rw [if_neg hsmall]
    exact .inr ⟨datagram, inbound, hinbound, by omega, by simpa using hconnected, rfl⟩

theorem enqueueFault_cases (source : EndpointId) (directive : FaultDirective) :
    bus.enqueueFault source directive = (bus, false) ∨
      (bus.faultDirectives source).length < bus.config.maxFaultDirectives ∧
        bus.enqueueFault source directive = (bus.addDirective source directive, true) := by
  unfold enqueueFault
  split
  · exact .inl rfl
  rename_i hroom
  split
  · exact .inl rfl
  · simp only [Bool.or_eq_true, Bool.not_eq_true', decide_eq_true_eq, not_or] at hroom
    exact .inr ⟨by omega, rfl⟩

/-- The link stays as it is, comes up, or goes down and takes its data with it. -/
theorem setConnected_cases (connected : Bool) : (bus.setConnected endpoint connected).1 = bus ∨
    ∃ links, (bus.setConnected endpoint connected).1 = { bus with connected := links } ∨
      (bus.setConnected endpoint connected).1 =
        { bus with connected := links }.discardLinkData := by
  unfold setConnected
  split
  · exact .inl rfl
  split
  · exact .inl rfl
  · cases connected with
    | true => exact .inr ⟨_, .inl rfl⟩
    | false => exact .inr ⟨_, .inr rfl⟩

theorem advanceTo_cases (tick : ℕ) : bus.advanceTo tick = (bus, false) ∨
    bus.valid ∧ bus.currentTick ≤ tick ∧
      bus.advanceTo tick = ({ bus with currentTick := tick }.deliverDueEvents, true) := by
  unfold advanceTo
  split
  · exact .inl rfl
  · rename_i hearlier
    simp only [Bool.or_eq_true, Bool.not_eq_true', decide_eq_true_eq, not_or,
      Bool.not_eq_false] at hearlier
    exact .inr ⟨hearlier.1, by omega, rfl⟩

theorem advanceTo_of_valid {tick : ℕ} (hvalid : bus.valid) (h : bus.currentTick ≤ tick) :
    bus.advanceTo tick = ({ bus with currentTick := tick }.deliverDueEvents, true) := by
  rw [advanceTo, if_neg]
  simp only [hvalid, Bool.not_true, Bool.false_or, decide_eq_true_eq]
  omega

theorem closeEndpoint_cases : bus.closeEndpoint endpoint = bus ∨
    ∃ links ends, bus.closeEndpoint endpoint = { bus with
      connected := links
      closed := ends
      faultDirectives := fun other =>
        if other = endpoint then [] else bus.faultDirectives other }.discardLinkData := by
  unfold closeEndpoint
  split
  · exact .inl rfl
  · exact .inr ⟨_, _, rfl⟩

end Cases

/-! ### The queue of an endpoint -/

/-- Datagrams are only added to the queue of the endpoint. -/
structure Grows (endpoint : EndpointId) (bus bus' : SimulatedRadioBus) : Prop where
  config : bus'.config = bus.config
  inbound : ∃ added, bus'.inbound endpoint = bus.inbound endpoint ++ added

variable {bus bus' bus'' : SimulatedRadioBus} {endpoint : EndpointId}

theorem Grows.of_eq (hconfig : bus'.config = bus.config)
    (hinbound : bus'.inbound endpoint = bus.inbound endpoint) : Grows endpoint bus bus' :=
  ⟨hconfig, [], by rw [hinbound, List.append_nil]⟩

theorem Grows.refl : Grows endpoint bus bus := .of_eq rfl rfl

theorem Grows.trans (h : Grows endpoint bus bus') (h' : Grows endpoint bus' bus'') :
    Grows endpoint bus bus'' := by
  obtain ⟨added, hadded⟩ := h.inbound
  obtain ⟨later, hlater⟩ := h'.inbound
  exact ⟨h'.config.trans h.config, added ++ later, by rw [hlater, hadded, List.append_assoc]⟩

theorem Grows.deliver (event : ScheduledEvent) : Grows endpoint bus (bus.deliver event) := by
  unfold SimulatedRadioBus.deliver
  split
  · exact .of_eq rfl rfl
  split
  · exact .of_eq rfl rfl
  · refine ⟨rfl, ?_⟩
    by_cases hdestination : endpoint = event.destination
    · exact ⟨[event.datagram], by simp [hdestination]⟩
    · exact ⟨[], by simp [hdestination]⟩

theorem Grows.deliverDue (events : List ScheduledEvent) :
    Grows endpoint bus (bus.deliverDue events) := by
  induction events generalizing bus with
  | nil => exact .of_eq rfl rfl
  | cons event events ih =>
    rw [SimulatedRadioBus.deliverDue]
    split
    · exact (Grows.deliver event).trans ih
    · exact .of_eq rfl rfl

/-- Scheduling the copies does not touch the queues. -/
theorem Grows.scheduleCopies (source : EndpointId) (datagram : Bytes) (deliveryTick copies : ℕ) :
    Grows endpoint bus (scheduleCopies source datagram deliveryTick bus copies) := by
  induction copies generalizing bus with
  | zero => exact .refl
  | succ copies ih =>
    refine Grows.trans (.of_eq ?_ ?_) ih
    · rfl
    · rfl

theorem Grows.accept (source : EndpointId) (data : Bytes) :
    Grows endpoint bus (bus.accept source data) := by
  unfold SimulatedRadioBus.accept
  dsimp only
  split
  · exact .of_eq rfl rfl
  · refine Grows.trans ?_ (Grows.deliverDue _)
    refine Grows.trans ?_ (Grows.scheduleCopies ..)
    exact .of_eq rfl rfl

theorem Grows.sendFrom (source : EndpointId) (data : Bytes) :
    Grows endpoint bus (bus.sendFrom source data).1 := by
  obtain ⟨status, -, hrefused⟩ | ⟨-, haccepted⟩ := @sendFrom_cases bus source data
  · rw [hrefused]
    exact .of_eq rfl rfl
  · rw [haccepted]
    exact Grows.accept source data

/-- A link that is up is so at both ends. -/
theorem of_endpointConnected (h : bus.endpointConnected endpoint) :
    bus.valid ∧ ∀ target, bus.connected target ∧ bus.closed target = false := by
  simp only [endpointConnected, Bool.and_eq_true, Bool.not_eq_true'] at h
  obtain ⟨hvalid, ⟨⟨hconnected, hconnected'⟩, hclosed⟩, hclosed'⟩ := h
  refine ⟨hvalid, fun target => ?_⟩
  rcases endpoint with _ | _ <;> rcases target with _ | _ <;> exact ⟨by assumption, by assumption⟩

theorem other_ne (endpoint : EndpointId) : endpoint ≠ endpoint.other := by
  cases endpoint <;> decide

/-- While the link stays up, nothing is lost from the queue of an endpoint. -/
theorem other_grows (call : BusCall) (hup : bus.endpointConnected endpoint)
    (hup' : (other endpoint call bus).endpointConnected endpoint) :
    Grows endpoint bus (other endpoint call bus) := by
  cases call with
  | sendFrom source data => exact Grows.sendFrom source data
  | receivePeer capacity =>
    show Grows endpoint bus (bus.receiveFor endpoint.other capacity).2
    obtain ⟨-, hsame⟩ | ⟨_, _, _, _, _, hreceived⟩ := @receiveFor_cases bus endpoint.other capacity
    · rw [hsame]
      exact .refl
    · rw [hreceived]
      exact .of_eq rfl (if_neg (other_ne endpoint))
  | enqueueFault source directive =>
    unfold other SimulatedRadioBus.enqueueFault
    dsimp only
    split
    · exact .refl
    split
    · exact .refl
    · exact .of_eq rfl rfl
  | setConnected target connected =>
    have hbefore := ((of_endpointConnected hup).2 target).1
    have hafter := ((of_endpointConnected hup').2 target).1
    unfold other SimulatedRadioBus.setConnected at hafter ⊢
    dsimp only at hafter ⊢
    split at hafter
    · rename_i hinvalid
      rw [if_pos hinvalid]
      exact .refl
    split at hafter
    · rename_i hinvalid hsame
      rw [if_neg hinvalid, if_pos hsame]
      exact .refl
    · -- The link would go down, or was so before.
      rename_i hchanges
      rcases connected with _ | _
      · simp [discardLinkData] at hafter
      · exact absurd hbefore hchanges
  | advanceTo tick =>
    unfold other SimulatedRadioBus.advanceTo
    dsimp only
    split
    · exact .refl
    · refine Grows.trans ?_ (Grows.deliverDue bus.scheduledEvents)
      exact .of_eq rfl rfl
  | closeEndpoint target =>
    have hafter := ((of_endpointConnected hup').2 target).2
    unfold other SimulatedRadioBus.closeEndpoint at hafter ⊢
    dsimp only at hafter ⊢
    split at hafter
    · rename_i hclosed
      rw [if_pos hclosed]
      exact .refl
    · simp [discardLinkData] at hafter

/-- A datagram waits at an endpoint if it is the first in its queue. -/
def Holds (endpoint : EndpointId) (datagram : Bytes) (bus : SimulatedRadioBus) : Prop :=
  (bus.inbound endpoint).head? = some datagram

theorem receiveFor_of_up (hup : bus.endpointConnected endpoint) {datagram : Bytes} {capacity : ℕ}
    (hholds : Holds endpoint datagram bus) : bus.receiveFor endpoint capacity =
      if capacity = 0 ∨ capacity < datagram.length then (⟨.invalid, []⟩, bus)
      else (⟨.received, datagram⟩, { bus with
        inbound := fun other => if other = endpoint then (bus.inbound endpoint).tail else
          bus.inbound other
        statistics := { bus.statistics with
          receivedDatagrams := bus.statistics.receivedDatagrams + 1 } }) := by
  obtain ⟨hvalid, hall⟩ := of_endpointConnected hup
  obtain ⟨rest, hinbound⟩ := List.head?_eq_some_iff.mp hholds
  unfold receiveFor
  simp only [hvalid, (hall endpoint).2, hup, hinbound, Bool.not_true, Bool.false_or,
    decide_eq_true_eq, Bool.false_eq_true, if_false, List.tail_cons]
  by_cases hzero : capacity = 0
  · rw [if_pos hzero, if_pos (.inl hzero)]
  by_cases hsmall : capacity < datagram.length
  · rw [if_neg hzero, if_pos hsmall, if_pos (.inr hsmall)]
  · rw [if_neg hzero, if_neg hsmall, if_neg (by omega)]

theorem of_received {capacity : ℕ} (h : (bus.receiveFor endpoint capacity).1.status = .received) :
    (bus.receiveFor endpoint capacity).1.datagram.length ≤ capacity ∧
      (bus.inbound endpoint).head? = some (bus.receiveFor endpoint capacity).1.datagram := by
  obtain ⟨hother, -⟩ | ⟨datagram, inbound, hinbound, hfits, -, hreceived⟩ :=
    @receiveFor_cases bus endpoint capacity
  · exact absurd h hother
  · rw [hreceived, hinbound]
    exact ⟨hfits, rfl⟩

theorem port_keeps (endpoint : EndpointId) :
    (port endpoint).Keeps (fun _ _ => True) (Holds endpoint) where
  refuses {state datagram destinationCapacity} _ hup _ hnext _ hsmall := by
    have hreceive : (port endpoint).tryReceive destinationCapacity state =
        (⟨.invalid, []⟩, state) := by
      show state.receiveFor endpoint destinationCapacity = _
      rw [receiveFor_of_up hup.1 hnext, if_pos (.inr hsmall)]
    rw [hreceive]
    exact ⟨rfl, hnext, rfl⟩
  next hholds _ := hholds
  delivers {state datagram destinationCapacity} hholds hup _ hpos _ hlarge := by
    show (state.receiveFor endpoint destinationCapacity).1 = _
    rw [receiveFor_of_up hup.1 hholds, if_neg (by omega)]
  whole hreceived := of_received hreceived
  holds {state datagram call} hholds hup hup' := by
    obtain ⟨hconfig, added, hinbound⟩ := other_grows call hup.1 hup'.1
    constructor
    · show ((other endpoint call state).inbound endpoint).head? = some datagram
      rw [hinbound, List.head?_append, hholds]
      rfl
    · show maximumDatagramSize (other endpoint call state) = maximumDatagramSize state
      rw [maximumDatagramSize, maximumDatagramSize, valid, valid, hconfig]

end SimulatedRadioBus

end Lora
