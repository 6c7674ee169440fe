/-
The books of the simulated bus.

Every copy that the bus makes is scheduled, waits at an endpoint, has been received, or
is counted as dropped.  The counters are kept by hand in six functions and have 64 bits;
the ordinals, which the bus never lets overflow, count the same copies, so they bound what
the counters can reach.

* `BusStep`, `after` — the calls on the bus, and a run of them;
* `Accounted`, `Accounted.deliverDue` — the copies by what became of them;
* `Ledger`, `Ledger.after` — the books after any run;
* `bus_conserves_datagrams` — what they say about the counters.
-/
import LoraMessenger.SimulatedRadioBus

namespace Lora

/-- The calls on the bus and on its two endpoints. -/
inductive BusStep where
  | enqueueFault (source : EndpointId) (directive : FaultDirective)
  | setConnected (endpoint : EndpointId) (connected : Bool)
  | advanceTo (tick : ℕ)
  | send (source : EndpointId) (data : Bytes)
  | receive (endpoint : EndpointId) (capacity : ℕ)
  | close (endpoint : EndpointId)

theorem FaultDirective.copies_of_drop {directive : FaultDirective} (h : directive.drop) :
    directive.copies = 0 :=
  if_pos h

namespace SimulatedRadioBus

def apply (bus : SimulatedRadioBus) : BusStep → SimulatedRadioBus
  | .enqueueFault source directive => (bus.enqueueFault source directive).1
  | .setConnected endpoint connected => (bus.setConnected endpoint connected).1
  | .advanceTo tick => (bus.advanceTo tick).1
  | .send source data => (bus.sendFrom source data).1
  | .receive endpoint capacity => (bus.receiveFor endpoint capacity).2
  | .close endpoint => bus.closeEndpoint endpoint

def after (bus : SimulatedRadioBus) (steps : List BusStep) : SimulatedRadioBus :=
    steps.foldl apply bus

variable {bus bus' : SimulatedRadioBus}

/-! ### Copies -/

/-- The copies that are no longer scheduled, by what became of them. -/
def arrived (bus : SimulatedRadioBus) : ℕ :=
  (bus.inbound .first).length + (bus.inbound .second).length +
    bus.statistics.receivedDatagrams.toNat + bus.statistics.inboundFullDrops.toNat +
    bus.statistics.disconnectedDrops.toNat

/-- The copies under way and arrived are `total` in number, and there are ordinals for all of them.
-/
structure Accounted (total : ℕ) (bus : SimulatedRadioBus) : Prop where
  balance : bus.scheduledEvents.length + bus.arrived = total
  ordinals : total ≤ kMaximumRadioTick

theorem toNat_add_ofNat {counter : UInt64} {amount : ℕ}
    (h : counter.toNat + amount ≤ kMaximumRadioTick) :
    (counter + UInt64.ofNat amount).toNat = counter.toNat + amount := by
  have hlt : counter.toNat + amount < 2 ^ 64 := by
    have hmax : kMaximumRadioTick = 2 ^ 64 - 1 := rfl
    omega
  rw [UInt64.toNat_add, UInt64.toNat_ofNat', Nat.add_mod_mod, Nat.mod_eq_of_lt hlt]

theorem toNat_add_one {counter : UInt64} (h : counter.toNat + 1 ≤ kMaximumRadioTick) :
    (counter + 1).toNat = counter.toNat + 1 :=
  toNat_add_ofNat h

/-- An event that is due goes to one of the queues or to one of the counters. -/
theorem deliver_arrived (event : ScheduledEvent) (h : bus.arrived + 1 ≤ kMaximumRadioTick) :
    (bus.deliver event).arrived = bus.arrived + 1 := by
  unfold arrived at h ⊢
  unfold deliver
  split
  · dsimp only
    rw [toNat_add_one (by omega)]
    omega
  split
  · dsimp only
    rw [toNat_add_one (by omega)]
    omega
  · cases event.destination with
    | first | second =>
      simp only [reduceCtorEq, if_true, if_false, List.length_append, List.length_singleton]
      omega

theorem Accounted.deliverDue {total : ℕ} (events : List ScheduledEvent)
    (h : events.length + bus.arrived = total) (htotal : total ≤ kMaximumRadioTick) :
    Accounted total (bus.deliverDue events) := by
  induction events generalizing bus with
  | nil => exact ⟨h, htotal⟩
  | cons event events ih =>
    rw [SimulatedRadioBus.deliverDue]
    rw [List.length_cons] at h
    split
    · refine ih ?_
      rw [deliver_arrived event (by omega)]
      omega
    · exact ⟨h, htotal⟩

/-- A link that goes down turns all that is under way into drops. -/
theorem Accounted.discardLinkData {total : ℕ} (h : Accounted total bus) :
    Accounted total bus.discardLinkData := by
  obtain ⟨hbalance, htotal⟩ := h
  unfold arrived at hbalance
  refine ⟨?_, htotal⟩
  unfold arrived
  show 0 + (0 + 0 + bus.statistics.receivedDatagrams.toNat + bus.statistics.inboundFullDrops.toNat +
    (bus.statistics.disconnectedDrops + UInt64.ofNat _).toNat) = total
  rw [toNat_add_ofNat (by omega)]
  omega

/-! ### What a delivery leaves alone -/

/-- Only the queues of the endpoints, the schedule and the counters of the deliveries change. -/
structure Passes (bus bus' : SimulatedRadioBus) : Prop where
  config : bus'.config = bus.config
  currentTick : bus'.currentTick = bus.currentTick
  nextEventOrdinal : bus'.nextEventOrdinal = bus.nextEventOrdinal
  connected : bus'.connected = bus.connected
  closed : bus'.closed = bus.closed
  faultDirectives : bus'.faultDirectives = bus.faultDirectives
  acceptedSends : bus'.statistics.acceptedSends = bus.statistics.acceptedSends
  duplicateCopies : bus'.statistics.duplicateCopies = bus.statistics.duplicateCopies
  faultDrops : bus'.statistics.faultDrops = bus.statistics.faultDrops
  receivedDatagrams : bus'.statistics.receivedDatagrams = bus.statistics.receivedDatagrams

theorem Passes.trans {bus'' : SimulatedRadioBus} (h : Passes bus bus') (h' : Passes bus' bus'') :
    Passes bus bus'' where
  config := h'.config.trans h.config
  currentTick := h'.currentTick.trans h.currentTick
  nextEventOrdinal := h'.nextEventOrdinal.trans h.nextEventOrdinal
  connected := h'.connected.trans h.connected
  closed := h'.closed.trans h.closed
  faultDirectives := h'.faultDirectives.trans h.faultDirectives
  acceptedSends := h'.acceptedSends.trans h.acceptedSends
  duplicateCopies := h'.duplicateCopies.trans h.duplicateCopies
  faultDrops := h'.faultDrops.trans h.faultDrops
  receivedDatagrams := h'.receivedDatagrams.trans h.receivedDatagrams

theorem Passes.deliver (event : ScheduledEvent) : Passes bus (bus.deliver event) := by
  unfold SimulatedRadioBus.deliver
  split
  · exact ⟨rfl, rfl, rfl, rfl, rfl, rfl, rfl, rfl, rfl, rfl⟩
  split
  · exact ⟨rfl, rfl, rfl, rfl, rfl, rfl, rfl, rfl, rfl, rfl⟩
  · exact ⟨rfl, rfl, rfl, rfl, rfl, rfl, rfl, rfl, rfl, rfl⟩

theorem Passes.deliverDue (events : List ScheduledEvent) : Passes bus (bus.deliverDue events) := by
  induction events generalizing bus with
  | nil => exact ⟨rfl, rfl, rfl, rfl, rfl, rfl, rfl, rfl, rfl, rfl⟩
  | cons event events ih =>
    rw [SimulatedRadioBus.deliverDue]
    split
    · exact (Passes.deliver event).trans ih
    · exact ⟨rfl, rfl, rfl, rfl, rfl, rfl, rfl, rfl, rfl, rfl⟩

/-! ### Scheduling -/

/-- The copies that the loop of `send_from` makes. -/
def copiesFrom (source : EndpointId) (datagram : Bytes) (deliveryTick : ℕ) :
    ℕ → ℕ → List ScheduledEvent
  | _, 0 => []
  | ordinal, copies + 1 =>
    ⟨deliveryTick, ordinal, source, source.other, datagram⟩ ::
      copiesFrom source datagram deliveryTick (ordinal + 1) copies

theorem length_copiesFrom (source : EndpointId) (datagram : Bytes)
    (deliveryTick ordinal copies : ℕ) :
    (copiesFrom source datagram deliveryTick ordinal copies).length = copies := by
  induction copies generalizing ordinal with
  | zero => rfl
  | succ copies ih => rw [copiesFrom, List.length_cons, ih]

theorem scheduleEvent_perm (event : ScheduledEvent) :
    (bus.scheduleEvent event).scheduledEvents.Perm (event :: bus.scheduledEvents) := by
  unfold scheduleEvent
  dsimp only
  refine List.perm_middle.trans ?_
  rw [List.takeWhile_append_dropWhile]

/-- Scheduling the copies adds them to the schedule and uses up their ordinals. -/
theorem scheduleCopies_eq (source : EndpointId) (datagram : Bytes) (deliveryTick copies : ℕ) :
    ∃ events watermark, scheduleCopies source datagram deliveryTick bus copies = { bus with
        nextEventOrdinal := bus.nextEventOrdinal + copies
        scheduledEvents := events
        statistics := { bus.statistics with scheduledHighWatermark := watermark } } ∧
      events.Perm (copiesFrom source datagram deliveryTick bus.nextEventOrdinal copies ++
        bus.scheduledEvents) := by
  induction copies generalizing bus with
  | zero => exact ⟨bus.scheduledEvents, bus.statistics.scheduledHighWatermark, rfl, .refl _⟩
  | succ copies ih =>
    obtain ⟨events, watermark, heq, hperm⟩ := @ih ({ bus with
      nextEventOrdinal := bus.nextEventOrdinal + 1 }.scheduleEvent
        ⟨deliveryTick, bus.nextEventOrdinal, source, source.other, datagram⟩)
    refine ⟨events, watermark, ?_, hperm.trans ?_⟩
    · rw [scheduleCopies, heq]
      simp only [scheduleEvent, Nat.add_assoc, Nat.add_comm 1]
    · refine (List.Perm.append_left _ (scheduleEvent_perm _)).trans ?_
      rw [copiesFrom, List.cons_append]
      exact List.perm_middle

/-! ### The books -/

/-- The counters of the sends, which may overflow, by what they count. -/
structure Counted (calls accepted duplicates drops : ℕ) (bus : SimulatedRadioBus) : Prop where
  acceptedSends : bus.statistics.acceptedSends = UInt64.ofNat accepted
  duplicateCopies : bus.statistics.duplicateCopies = UInt64.ofNat duplicates
  faultDrops : bus.statistics.faultDrops = UInt64.ofNat drops
  copies : accepted + duplicates = drops + bus.nextEventOrdinal
  calls : accepted ≤ calls
  drops : drops ≤ accepted

structure Ledger (calls : ℕ) (bus : SimulatedRadioBus) : Prop where
  accounted : Accounted bus.nextEventOrdinal bus
  scheduled : bus.scheduledEvents.length ≤ bus.config.maxScheduledEvents
  inbound : ∀ endpoint, (bus.inbound endpoint).length ≤ bus.config.maxInboundDatagrams
  faults : ∀ endpoint, (bus.faultDirectives endpoint).length ≤ bus.config.maxFaultDirectives
  counted : ∃ accepted duplicates drops, Counted calls accepted duplicates drops bus

theorem Ledger.new (config : BusConfig) : Ledger 0 (new config) where
  accounted := ⟨rfl, Nat.zero_le _⟩
  scheduled := Nat.zero_le _
  inbound _ := Nat.zero_le _
  faults _ := Nat.zero_le _
  counted := ⟨0, 0, 0, rfl, rfl, rfl, rfl, Nat.le_refl _, Nat.le_refl _⟩

variable {calls : ℕ}

theorem Counted.of_passes {accepted duplicates drops : ℕ}
    (h : Counted calls accepted duplicates drops bus)
    (hpasses : Passes bus bus') : Counted calls accepted duplicates drops bus' where
  acceptedSends := hpasses.acceptedSends.trans h.acceptedSends
  duplicateCopies := hpasses.duplicateCopies.trans h.duplicateCopies
  faultDrops := hpasses.faultDrops.trans h.faultDrops
  copies := by rw [hpasses.nextEventOrdinal, h.copies]
  calls := h.calls
  drops := h.drops

theorem Ledger.succ (h : Ledger calls bus) : Ledger (calls + 1) bus := by
  obtain ⟨accepted, duplicates, drops, hcounted⟩ := h.counted
  exact { h with counted := ⟨accepted, duplicates, drops,
    { hcounted with calls := Nat.le_succ_of_le hcounted.calls }⟩ }

/-- The counters that the books are about. -/
structure SameBooks (statistics statistics' : BusStatistics) : Prop where
  acceptedSends : statistics'.acceptedSends = statistics.acceptedSends
  duplicateCopies : statistics'.duplicateCopies = statistics.duplicateCopies
  faultDrops : statistics'.faultDrops = statistics.faultDrops
  receivedDatagrams : statistics'.receivedDatagrams = statistics.receivedDatagrams
  inboundFullDrops : statistics'.inboundFullDrops = statistics.inboundFullDrops
  disconnectedDrops : statistics'.disconnectedDrops = statistics.disconnectedDrops

theorem SameBooks.refl (statistics : BusStatistics) : SameBooks statistics statistics :=
  ⟨rfl, rfl, rfl, rfl, rfl, rfl⟩

theorem SameBooks.countRefused (statistics : BusStatistics) (status : DatagramSendStatus) :
    SameBooks statistics (statistics.countRefused status) := by
  cases status with
  | accepted | wouldBlock | disconnected | closed | invalid => exact ⟨rfl, rfl, rfl, rfl, rfl, rfl⟩

/-- The books do not depend on the ticks and the links, and allow for fewer directives. -/
theorem Ledger.of_eq (h : Ledger calls bus) (hconfig : bus'.config = bus.config)
    (hordinal : bus'.nextEventOrdinal = bus.nextEventOrdinal)
    (hinbound : bus'.inbound = bus.inbound)
    (hscheduled : bus'.scheduledEvents = bus.scheduledEvents)
    (hbooks : SameBooks bus.statistics bus'.statistics)
    (hfaults : ∀ endpoint, (bus'.faultDirectives endpoint).length ≤ bus.config.maxFaultDirectives) :
    Ledger calls bus' := by
  obtain ⟨accepted, duplicates, drops, hcounted⟩ := h.counted
  exact {
    accounted := by
      refine ⟨?_, by rw [hordinal]; exact h.accounted.ordinals⟩
      rw [hscheduled, hordinal, arrived, hinbound, hbooks.receivedDatagrams,
        hbooks.inboundFullDrops, hbooks.disconnectedDrops]
      exact h.accounted.balance
    scheduled := by
      rw [hscheduled, hconfig]
      exact h.scheduled
    inbound := by
      rw [hinbound, hconfig]
      exact h.inbound
    faults := by
      rw [hconfig]
      exact hfaults
    counted := ⟨accepted, duplicates, drops, {
      acceptedSends := hbooks.acceptedSends.trans hcounted.acceptedSends
      duplicateCopies := hbooks.duplicateCopies.trans hcounted.duplicateCopies
      faultDrops := hbooks.faultDrops.trans hcounted.faultDrops
      copies := by rw [hordinal, hcounted.copies]
      calls := hcounted.calls
      drops := hcounted.drops }⟩ }

/-- No queue of an endpoint is filled beyond its bound. -/
theorem deliver_inbound_le (event : ScheduledEvent)
    (h : ∀ endpoint, (bus.inbound endpoint).length ≤ bus.config.maxInboundDatagrams)
    (endpoint : EndpointId) :
    ((bus.deliver event).inbound endpoint).length ≤
      (bus.deliver event).config.maxInboundDatagrams := by
  unfold deliver
  split
  · exact h endpoint
  split
  · exact h endpoint
  rename_i hroom
  by_cases hdestination : endpoint = event.destination
  · simp only [if_pos hdestination, List.length_append, List.length_singleton]
    omega
  · simp only [if_neg hdestination]
    exact h endpoint

theorem deliverDue_inbound_le (events : List ScheduledEvent)
    (h : ∀ endpoint, (bus.inbound endpoint).length ≤ bus.config.maxInboundDatagrams)
    (endpoint : EndpointId) :
    ((bus.deliverDue events).inbound endpoint).length ≤
      (bus.deliverDue events).config.maxInboundDatagrams := by
  induction events generalizing bus with
  | nil => exact h endpoint
  | cons event events ih =>
    rw [SimulatedRadioBus.deliverDue]
    split
    · exact ih (deliver_inbound_le event h)
    · exact h endpoint

theorem length_deliverDue_le (events : List ScheduledEvent) :
    (bus.deliverDue events).scheduledEvents.length ≤ events.length := by
  induction events generalizing bus with
  | nil => exact Nat.le_refl _
  | cons event events ih =>
    rw [SimulatedRadioBus.deliverDue]
    split
    · exact ih.trans (Nat.le_succ _)
    · exact Nat.le_refl _

theorem Ledger.deliverDueEvents (h : Ledger calls bus) : Ledger calls bus.deliverDueEvents := by
  have hpasses := @Passes.deliverDue bus bus.scheduledEvents
  obtain ⟨accepted, duplicates, drops, hcounted⟩ := h.counted
  exact {
    accounted := by
      rw [SimulatedRadioBus.deliverDueEvents, hpasses.nextEventOrdinal]
      exact .deliverDue _ h.accounted.balance h.accounted.ordinals
    scheduled := by
      rw [SimulatedRadioBus.deliverDueEvents, hpasses.config]
      exact (length_deliverDue_le _).trans h.scheduled
    inbound := deliverDue_inbound_le _ h.inbound
    faults := by
      rw [SimulatedRadioBus.deliverDueEvents, hpasses.config, hpasses.faultDirectives]
      exact h.faults
    counted := ⟨accepted, duplicates, drops, hcounted.of_passes hpasses⟩ }

theorem Ledger.discardLinkData (h : Ledger calls bus) : Ledger calls bus.discardLinkData := by
  obtain ⟨accepted, duplicates, drops, hcounted⟩ := h.counted
  exact {
    accounted := h.accounted.discardLinkData
    scheduled := Nat.zero_le _
    inbound _ := Nat.zero_le _
    faults := h.faults
    counted := ⟨accepted, duplicates, drops, { hcounted with }⟩ }

/-! ### The calls -/

/-- An accepted send is counted, and so is its second copy or its drop. -/
theorem countAccepted_eq (statistics : BusStatistics) (directive : FaultDirective) :
    (statistics.countAccepted directive).acceptedSends = statistics.acceptedSends + UInt64.ofNat 1 ∧
    (statistics.countAccepted directive).duplicateCopies =
      statistics.duplicateCopies + UInt64.ofNat (directive.copies - 1) ∧
    (statistics.countAccepted directive).faultDrops =
      statistics.faultDrops + UInt64.ofNat (if directive.drop then 1 else 0) ∧
    (statistics.countAccepted directive).receivedDatagrams = statistics.receivedDatagrams ∧
    (statistics.countAccepted directive).inboundFullDrops = statistics.inboundFullDrops ∧
    (statistics.countAccepted directive).disconnectedDrops = statistics.disconnectedDrops := by
  have hzero : ∀ counter : UInt64, counter = counter + UInt64.ofNat 0 :=
    fun counter => (UInt64.add_zero _).symm
  unfold BusStatistics.countAccepted
  by_cases hdrop : directive.drop = true
  · simp only [if_pos hdrop, FaultDirective.copies]
    exact ⟨rfl, hzero _, rfl, trivial, trivial, trivial⟩
  by_cases hduplicate : directive.duplicate = true
  · simp only [if_neg hdrop, FaultDirective.copies, if_pos hduplicate, if_true]
    split
    · exact ⟨rfl, rfl, hzero _, rfl, rfl, rfl⟩
    · exact ⟨rfl, rfl, hzero _, rfl, rfl, rfl⟩
  · simp only [if_neg hdrop, FaultDirective.copies, if_neg hduplicate, Nat.reduceEqDiff, if_false]
    split
    · exact ⟨rfl, hzero _, hzero _, rfl, rfl, rfl⟩
    · exact ⟨rfl, hzero _, hzero _, rfl, rfl, rfl⟩

theorem Ledger.accept (h : Ledger calls bus) {source : EndpointId} {data : Bytes}
    (haccepts : bus.Accepts source data) : Ledger (calls + 1) (bus.accept source data) := by
  obtain ⟨accepted, duplicates, drops, hcounted⟩ := h.counted
  obtain ⟨hbalance, hordinals⟩ := h.accounted
  have hroom := haccepts.room
  have hnext := haccepts.ordinals
  have hscheduled := h.scheduled
  generalize hdirective : (bus.faultDirectives source).headD {} = directive at hroom hnext
  obtain ⟨haccepted, hduplicates, hdrops, hreceived, hfull, hdisconnected⟩ :=
    countAccepted_eq bus.statistics directive
  -- a drop makes no copy, a duplicate two
  have hcopies : 1 + (directive.copies - 1) =
      (if directive.drop then 1 else 0) + directive.copies := by
    unfold FaultDirective.copies
    split
    · rfl
    split <;> rfl
  -- the copies are scheduled, if there are any
  have hschedule : ∀ datagram deliveryTick, Ledger (calls + 1)
    (scheduleCopies source datagram deliveryTick
      { bus.eraseDirective source with statistics := bus.statistics.countAccepted directive }
      directive.copies) := by
    intro datagram deliveryTick
    obtain ⟨events, watermark, heq, hperm⟩ := @scheduleCopies_eq { bus.eraseDirective source with
      statistics := bus.statistics.countAccepted directive } source datagram deliveryTick
        directive.copies
    have hlength := hperm.length_eq
    rw [List.length_append, length_copiesFrom] at hlength
    rw [heq]
    exact {
      accounted := by
        refine ⟨?_, by show bus.nextEventOrdinal + _ ≤ _; omega⟩
        unfold arrived at hbalance ⊢
        show events.length + ((bus.inbound .first).length + (bus.inbound .second).length +
          (bus.statistics.countAccepted directive).receivedDatagrams.toNat +
          (bus.statistics.countAccepted directive).inboundFullDrops.toNat +
          (bus.statistics.countAccepted directive).disconnectedDrops.toNat) =
          bus.nextEventOrdinal + directive.copies
        rw [hlength, hreceived, hfull, hdisconnected]
        show directive.copies + bus.scheduledEvents.length + _ = _
        omega
      scheduled := by
        show events.length ≤ bus.config.maxScheduledEvents
        rw [hlength]
        show directive.copies + bus.scheduledEvents.length ≤ _
        omega
      inbound := h.inbound
      faults := by
        intro endpoint
        have hfaults := h.faults endpoint
        show (if endpoint = source then _ else _ : List FaultDirective).length ≤ _
        split
        · rw [List.length_tail]
          exact (Nat.sub_le _ _).trans hfaults
        · exact hfaults
      counted := by
        refine ⟨accepted + 1, duplicates + (directive.copies - 1),
          drops + if directive.drop then 1 else 0, ?_⟩
        exact {
          acceptedSends := haccepted.trans (by rw [hcounted.acceptedSends, ← UInt64.ofNat_add])
          duplicateCopies := hduplicates.trans
            (by rw [hcounted.duplicateCopies, ← UInt64.ofNat_add])
          faultDrops := hdrops.trans (by rw [hcounted.faultDrops, ← UInt64.ofNat_add])
          copies := by
            have hbefore := hcounted.copies
            show _ = _ + (bus.nextEventOrdinal + directive.copies)
            omega
          calls := Nat.succ_le_succ hcounted.calls
          drops := by
            have hbefore := hcounted.drops
            split <;> omega } }
  unfold SimulatedRadioBus.accept
  dsimp only
  rw [hdirective]
  split
  · rename_i hdrop
    have h := hschedule [] 0
    rwa [FaultDirective.copies_of_drop hdrop] at h
  · exact (hschedule _ _).deliverDueEvents

theorem Ledger.enqueueFault (h : Ledger calls bus) (source : EndpointId)
    (directive : FaultDirective) :
    Ledger calls (bus.enqueueFault source directive).1 := by
  obtain hrefused | ⟨hroom, hadded⟩ := @enqueueFault_cases bus source directive
  · rw [hrefused]
    exact h
  · rw [hadded]
    refine h.of_eq rfl rfl rfl rfl (.refl _) fun endpoint => ?_
    show (if endpoint = source then _ else _ : List FaultDirective).length ≤ _
    split
    · rename_i hsource
      rw [List.length_append, List.length_singleton, hsource]
      exact hroom
    · exact h.faults endpoint

theorem Ledger.setConnected (h : Ledger calls bus) (endpoint : EndpointId) (connected : Bool) :
    Ledger calls (bus.setConnected endpoint connected).1 := by
  obtain hsame | ⟨links, hchange⟩ := @setConnected_cases bus endpoint connected
  · rw [hsame]
    exact h
  have hlinks : Ledger calls { bus with connected := links } :=
    h.of_eq rfl rfl rfl rfl (.refl _) h.faults
  obtain hup | hdown := hchange
  · rw [hup]
    exact hlinks
  · rw [hdown]
    exact hlinks.discardLinkData

theorem Ledger.advanceTo (h : Ledger calls bus) (tick : ℕ) :
    Ledger calls (bus.advanceTo tick).1 := by
  obtain hrefused | ⟨-, -, hadvanced⟩ := @advanceTo_cases bus tick
  · rw [hrefused]
    exact h
  · rw [hadvanced]
    have htick : Ledger calls { bus with currentTick := tick } :=
      h.of_eq rfl rfl rfl rfl (.refl _) h.faults
    exact htick.deliverDueEvents

theorem Ledger.sendFrom (h : Ledger calls bus) (source : EndpointId) (data : Bytes) :
    Ledger (calls + 1) (bus.sendFrom source data).1 := by
  obtain ⟨status, -, hrefused⟩ | ⟨haccepts, haccepted⟩ := @sendFrom_cases bus source data
  · rw [hrefused]
    exact h.succ.of_eq rfl rfl rfl rfl (.countRefused _ _) h.faults
  · rw [haccepted]
    exact h.accept haccepts

theorem Ledger.receiveFor (h : Ledger calls bus) (endpoint : EndpointId) (capacity : ℕ) :
    Ledger calls (bus.receiveFor endpoint capacity).2 := by
  obtain ⟨-, hsame⟩ | ⟨datagram, inbound, hinbound, -, -, hreceived⟩ :=
    @receiveFor_cases bus endpoint capacity
  · rw [hsame]
    exact h
  rw [hreceived]
  obtain ⟨accepted, duplicates, drops, hcounted⟩ := h.counted
  obtain ⟨hbalance, hordinals⟩ := h.accounted
  exact {
    accounted := by
      refine ⟨?_, hordinals⟩
      -- one less in the queue of the endpoint, one more received
      unfold arrived at hbalance ⊢
      cases endpoint with
      | first | second =>
        rw [hinbound, List.length_cons] at hbalance
        dsimp only
        rw [toNat_add_one (by omega)]
        simp only [reduceCtorEq, if_true, if_false]
        omega
    scheduled := h.scheduled
    inbound := by
      intro other
      have hbound := h.inbound other
      by_cases hother : other = endpoint
      · rw [hother, hinbound, List.length_cons] at hbound
        simp only [if_pos hother]
        omega
      · simp only [if_neg hother]
        exact hbound
    faults := h.faults
    counted := ⟨accepted, duplicates, drops, { hcounted with }⟩ }

theorem Ledger.closeEndpoint (h : Ledger calls bus) (endpoint : EndpointId) :
    Ledger calls (bus.closeEndpoint endpoint) := by
  obtain hsame | ⟨links, ends, hclosed⟩ := @closeEndpoint_cases bus endpoint
  · rw [hsame]
    exact h
  · rw [hclosed]
    refine Ledger.discardLinkData (h.of_eq rfl rfl rfl rfl (.refl _) fun other => ?_)
    dsimp only
    split
    · exact Nat.zero_le _
    · exact h.faults other

/-- One call. -/
theorem Ledger.apply (h : Ledger calls bus) (step : BusStep) :
    Ledger (calls + 1) (bus.apply step) := by
  cases step with
  | enqueueFault source directive => exact (h.enqueueFault source directive).succ
  | setConnected endpoint connected => exact (h.setConnected endpoint connected).succ
  | advanceTo tick => exact (h.advanceTo tick).succ
  | send source data => exact h.sendFrom source data
  | receive endpoint capacity => exact (h.receiveFor endpoint capacity).succ
  | close endpoint => exact (h.closeEndpoint endpoint).succ

theorem Ledger.after (h : Ledger calls bus) (steps : List BusStep) :
    Ledger (calls + steps.length) (bus.after steps) := by
  induction steps generalizing bus calls with
  | nil => exact h
  | cons step steps ih =>
    have hrest := ih (h.apply step)
    rwa [List.length_cons, Nat.add_comm steps.length, ← Nat.add_assoc]

theorem apply_config (step : BusStep) : (bus.apply step).config = bus.config := by
  cases step with
  | enqueueFault source directive =>
    show (bus.enqueueFault source directive).1.config = _
    obtain hrefused | ⟨-, hadded⟩ := @enqueueFault_cases bus source directive
    · rw [hrefused]
    · rw [hadded]
      rfl
  | setConnected endpoint connected =>
    show (bus.setConnected endpoint connected).1.config = _
    obtain hsame | ⟨links, hup | hdown⟩ := @setConnected_cases bus endpoint connected
    · rw [hsame]
    · rw [hup]
    · rw [hdown]
      rfl
  | advanceTo tick =>
    show (bus.advanceTo tick).1.config = _
    obtain hrefused | ⟨-, -, hadvanced⟩ := @advanceTo_cases bus tick
    · rw [hrefused]
    · rw [hadvanced]
      exact (Passes.deliverDue _).config
  | send source data => exact (Grows.sendFrom source data : Grows source bus _).config
  | receive endpoint capacity =>
    show (bus.receiveFor endpoint capacity).2.config = _
    obtain ⟨-, hsame⟩ | ⟨_, _, _, _, _, hreceived⟩ := @receiveFor_cases bus endpoint capacity
    · rw [hsame]
    · rw [hreceived]
  | close endpoint =>
    show (bus.closeEndpoint endpoint).config = _
    obtain hsame | ⟨links, ends, hclosed⟩ := @closeEndpoint_cases bus endpoint
    · rw [hsame]
    · rw [hclosed]
      rfl

theorem after_config (steps : List BusStep) : (bus.after steps).config = bus.config := by
  induction steps generalizing bus with
  | nil => rfl
  | cons step steps ih => exact ih.trans (apply_config step)

/-- The counters of the sends give the ordinals, in their own arithmetic and in numbers. -/
theorem Counted.ordinals {accepted duplicates drops : ℕ}
    (h : Counted calls accepted duplicates drops bus)
    (hordinals : bus.nextEventOrdinal ≤ kMaximumRadioTick) :
    (bus.statistics.acceptedSends + bus.statistics.duplicateCopies -
      bus.statistics.faultDrops).toNat =
        bus.nextEventOrdinal ∧
      (calls < 2 ^ 64 → bus.statistics.acceptedSends.toNat + bus.statistics.duplicateCopies.toNat =
        bus.statistics.faultDrops.toNat + bus.nextEventOrdinal) := by
  have hmax : kMaximumRadioTick = 2 ^ 64 - 1 := rfl
  have hcopies := h.copies
  have hcalls := h.calls
  have hdrops := h.drops
  rw [h.acceptedSends, h.duplicateCopies, h.faultDrops]
  constructor
  · rw [← UInt64.ofNat_add, hcopies, UInt64.ofNat_add, UInt64.add_comm, UInt64.add_sub_cancel,
      UInt64.toNat_ofNat', Nat.mod_eq_of_lt (by omega)]
  · intro hfew
    rw [UInt64.toNat_ofNat', UInt64.toNat_ofNat', UInt64.toNat_ofNat', Nat.mod_eq_of_lt (by omega),
      Nat.mod_eq_of_lt (by omega), Nat.mod_eq_of_lt (by omega), hcopies]

/-- After any run the copies that were made are those under way, those that wait, those that were
received and those that were dropped on the way.  The counters have 64 bits: the equation is one
of their arithmetic, and one of numbers as long as there were fewer than `2 ^ 64` calls.  No queue
is longer than configured, and a send that is refused only counts that. -/
theorem bus_conserves_datagrams (config : BusConfig) (steps : List BusStep) :
    let bus := (new config).after steps
    let statistics := bus.statistics
    let settled := bus.scheduledEvents.length + (bus.inbound .first).length +
      (bus.inbound .second).length + statistics.receivedDatagrams.toNat +
      statistics.inboundFullDrops.toNat + statistics.disconnectedDrops.toNat
    (statistics.acceptedSends + statistics.duplicateCopies -
      statistics.faultDrops).toNat = settled ∧
    (steps.length < 2 ^ 64 → statistics.acceptedSends.toNat + statistics.duplicateCopies.toNat =
      statistics.faultDrops.toNat + settled) ∧
    bus.scheduledEvents.length ≤ config.maxScheduledEvents ∧
    (∀ endpoint, (bus.inbound endpoint).length ≤ config.maxInboundDatagrams) ∧
    (∀ endpoint, (bus.faultDirectives endpoint).length ≤ config.maxFaultDirectives) ∧
    ∀ source data, (bus.sendFrom source data).2 ≠ .accepted → (bus.sendFrom source data).1 =
      { bus with statistics := bus.statistics.countRefused (bus.sendFrom source data).2 } := by
  dsimp only
  have hledger := (Ledger.new config).after steps
  have hconfig := @after_config (new config) steps
  generalize (new config).after steps = bus at hledger hconfig
  obtain ⟨accepted, duplicates, drops, hcounted⟩ := hledger.counted
  obtain ⟨hwords, hnumbers⟩ := hcounted.ordinals hledger.accounted.ordinals
  -- every event number is in flight, in a queue, received or dropped
  have hsettled : bus.scheduledEvents.length + (bus.inbound .first).length +
      (bus.inbound .second).length + bus.statistics.receivedDatagrams.toNat +
      bus.statistics.inboundFullDrops.toNat + bus.statistics.disconnectedDrops.toNat =
        bus.nextEventOrdinal := by
    rw [← hledger.accounted.balance, arrived]
    omega
  rw [hsettled]
  refine ⟨hwords, fun hfew => hnumbers (by omega), ?_, ?_, ?_, ?_⟩
  · exact hledger.scheduled.trans_eq (by rw [hconfig]; rfl)
  · exact fun endpoint => (hledger.inbound endpoint).trans_eq (by rw [hconfig]; rfl)
  · exact fun endpoint => (hledger.faults endpoint).trans_eq (by rw [hconfig]; rfl)
  · intro source data hrefused
    obtain ⟨status, -, hsend⟩ | ⟨-, hsend⟩ := @sendFrom_cases bus source data
    · rw [hsend]
      rfl
    · exact absurd (by rw [hsend]) hrefused

end SimulatedRadioBus

end Lora
