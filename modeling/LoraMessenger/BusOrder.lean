/-
The order of delivery on the simulated bus.

A copy has a tick at which it is due and an ordinal.  The schedule is sorted by these,
and what is due is taken from its front, so the copies reach an endpoint in this order,
each at most once.  The queue of an endpoint holds bytes only: `BusTrace` says which copy
each of them is.

* `BusRun` — a run with the sends that were accepted and what the endpoints received;
* `Traced` — what became of each copy, and in which order;
* `advanceTo_advanceTo`, `replays_ofSteps` — the ticks in between do not matter;
* `bus_delivers_in_order` — all of it after any steps.
-/
import LoraMessenger.BusLedger
import Mathlib.Algebra.Order.Group.Multiset
import Mathlib.Tactic.Abel

namespace Lora

/-- The order in which copies are delivered. -/
def ScheduledEvent.Earlier (left right : ScheduledEvent) : Prop :=
  left.deliveryTick < right.deliveryTick ∨
    left.deliveryTick = right.deliveryTick ∧ left.ordinal < right.ordinal

/-- An accepted send: what was sent when, and under which directive. -/
structure BusSend where
  source : EndpointId
  data : Bytes
  directive : FaultDirective
  tick : ℕ
  ordinal : ℕ

def BusSend.copies (send : BusSend) : List ScheduledEvent :=
  SimulatedRadioBus.copiesFrom send.source (send.directive.corrupt send.data)
    (send.tick + send.directive.delayTicks) send.ordinal send.directive.copies

/-- What a run did besides advancing the tick: the directives that were taken, and the other
calls with the tick at which they were made. -/
inductive BusEntry where
  | directive (source : EndpointId) (directive : FaultDirective)
  | call (step : BusStep) (tick : ℕ)

structure BusRun where
  bus : SimulatedRadioBus
  sends : List BusSend := []
  receipts : EndpointId → List Bytes := fun _ => []
  performed : List BusEntry := []

namespace BusRun

def copies (run : BusRun) : List ScheduledEvent := run.sends.flatMap BusSend.copies

/-- The send that a call makes, if it is accepted. -/
def sent (bus : SimulatedRadioBus) : BusStep → List BusSend
  | .send source data =>
    if (bus.sendFrom source data).2 = .accepted then
      [⟨source, data, (bus.faultDirectives source).headD {}, bus.currentTick, bus.nextEventOrdinal⟩]
    else []
  | _ => []

/-- What an endpoint gets from a call. -/
def got (bus : SimulatedRadioBus) (endpoint : EndpointId) : BusStep → List Bytes
  | .receive destination capacity =>
    let result := (bus.receiveFor destination capacity).1
    if destination = endpoint ∧ result.status = .received then [result.datagram] else []
  | _ => []

def entry (bus : SimulatedRadioBus) : BusStep → List BusEntry
  | .advanceTo _ => []
  | .enqueueFault source directive =>
    if (bus.enqueueFault source directive).2 then [.directive source directive] else []
  | step => [.call step bus.currentTick]

def step (run : BusRun) (step : BusStep) : BusRun where
  bus := run.bus.apply step
  sends := run.sends ++ sent run.bus step
  receipts endpoint := run.receipts endpoint ++ got run.bus endpoint step
  performed := run.performed ++ entry run.bus step

def ofSteps (config : BusConfig) (steps : List BusStep) : BusRun :=
  steps.foldl step { bus := .new config }

end BusRun

/-- Which copies the datagrams in the queues are, which ones were received, and which were lost. -/
structure BusTrace where
  waiting : EndpointId → List ScheduledEvent := fun _ => []
  received : EndpointId → List ScheduledEvent := fun _ => []
  lost : List ScheduledEvent := []

/-- The copies that came to an endpoint, in this order. -/
def BusTrace.arrived (trace : BusTrace) (endpoint : EndpointId) : List ScheduledEvent :=
  trace.received endpoint ++ trace.waiting endpoint

namespace SimulatedRadioBus

open ScheduledEvent

/-- What became of the copies.  The schedule is a parameter, since it is taken apart while events
are delivered. -/
structure Traced (copies : List ScheduledEvent) (receipts : EndpointId → List Bytes)
    (trace : BusTrace) (events : List ScheduledEvent) (bus : SimulatedRadioBus) : Prop where
  ordinals : copies.map ordinal = List.range bus.nextEventOrdinal
  balance : (copies : Multiset ScheduledEvent) =
    events + trace.arrived .first + trace.arrived .second + trace.lost
  waiting : ∀ endpoint, (trace.waiting endpoint).map datagram = bus.inbound endpoint
  received : ∀ endpoint, (trace.received endpoint).map datagram = receipts endpoint
  sorted : events.Pairwise Earlier
  order : ∀ endpoint, (trace.arrived endpoint).Pairwise Earlier
  destination : ∀ endpoint, ∀ event ∈ trace.arrived endpoint, event.destination = endpoint
  past : ∀ endpoint, ∀ event ∈ trace.arrived endpoint, event.deliveryTick ≤ bus.currentTick
  before : ∀ endpoint, ∀ event ∈ trace.arrived endpoint, ∀ later ∈ events, event.Earlier later

/-- None of the scheduled events is due. -/
def Settled (bus : SimulatedRadioBus) : Prop :=
  ∀ event ∈ bus.scheduledEvents, bus.currentTick < event.deliveryTick

variable {bus bus' : SimulatedRadioBus} {copies events : List ScheduledEvent}
  {receipts : EndpointId → List Bytes} {trace : BusTrace}

theorem Traced.of_eq (h : Traced copies receipts trace events bus)
    (hordinal : bus'.nextEventOrdinal = bus.nextEventOrdinal)
    (hinbound : bus'.inbound = bus.inbound)
    (htick : bus.currentTick ≤ bus'.currentTick) : Traced copies receipts trace events bus' :=
  { h with
    ordinals := by rw [hordinal, h.ordinals]
    waiting := by
      rw [hinbound]
      exact h.waiting
    past := fun endpoint event hevent => (h.past endpoint event hevent).trans htick }

/-! ### Delivery -/

/-- An event that is due is the next at its endpoint, or lost. -/
theorem Traced.deliver {event : ScheduledEvent}
    (h : Traced copies receipts trace (event :: events) bus)
    (hdue : event.deliveryTick ≤ bus.currentTick) :
    ∃ trace', Traced copies receipts trace' events (bus.deliver event) := by
  obtain ⟨hfirst, hsorted⟩ := List.pairwise_cons.mp h.sorted
  have hlost : ∀ bus' : SimulatedRadioBus, bus'.nextEventOrdinal = bus.nextEventOrdinal →
      bus'.inbound = bus.inbound → bus'.currentTick = bus.currentTick →
      Traced copies receipts { trace with lost := event :: trace.lost } events bus' := by
    intro bus' hordinal hinbound htick
    exact {
      ordinals := by rw [hordinal, h.ordinals]
      balance := by
        rw [h.balance, ← Multiset.cons_coe, ← Multiset.cons_coe, ← Multiset.singleton_add,
          ← Multiset.singleton_add event (trace.lost : Multiset ScheduledEvent)]
        show _ = (events : Multiset ScheduledEvent) + trace.arrived .first +
          trace.arrived .second + _
        abel
      waiting := by
        rw [hinbound]
        exact h.waiting
      received := h.received
      sorted := hsorted
      order := h.order
      destination := h.destination
      past := by
        rw [htick]
        exact h.past
      before := fun endpoint earlier hearlier later hlater =>
        h.before endpoint earlier hearlier later (List.mem_cons_of_mem _ hlater) }
  unfold SimulatedRadioBus.deliver
  split
  · exact ⟨_, hlost _ rfl rfl rfl⟩
  split
  · exact ⟨_, hlost _ rfl rfl rfl⟩
  -- there is a link and there is room
  let trace' : BusTrace := { trace with
    waiting := fun endpoint =>
      if endpoint = event.destination then trace.waiting endpoint ++ [event]
      else trace.waiting endpoint }
  have harrived : ∀ endpoint, trace'.arrived endpoint =
      trace.arrived endpoint ++ if endpoint = event.destination then [event] else [] := by
    intro endpoint
    show trace.received endpoint ++ (if endpoint = event.destination then _ else _) = _
    split
    · rw [BusTrace.arrived, List.append_assoc]
    · rw [BusTrace.arrived, List.append_nil]
  have hmem : ∀ {endpoint new}, new ∈ trace'.arrived endpoint →
      new ∈ trace.arrived endpoint ∨ new = event ∧ endpoint = event.destination := by
    intro endpoint new hnew
    rw [harrived, List.mem_append] at hnew
    refine hnew.imp_right fun hnew => ?_
    split at hnew
    · exact ⟨List.mem_singleton.mp hnew, ‹_›⟩
    · cases hnew
  refine ⟨trace', {
    ordinals := h.ordinals
    balance := ?_
    waiting := ?_
    received := h.received
    sorted := hsorted
    order := ?_
    destination := ?_
    past := ?_
    before := ?_ }⟩
  · rw [h.balance, harrived, harrived, ← Multiset.cons_coe, ← Multiset.singleton_add,
      ← Multiset.coe_add, ← Multiset.coe_add]
    cases event.destination with
    | first | second =>
      simp only [if_true, reduceCtorEq, if_false, Multiset.coe_nil, Multiset.coe_singleton]
      abel
  · intro endpoint
    show (if endpoint = event.destination then _ else _ : List ScheduledEvent).map datagram =
      if endpoint = event.destination then _ else _
    split
    · rename_i hdestination
      rw [List.map_append, h.waiting, hdestination]
      rfl
    · exact h.waiting endpoint
  · intro endpoint
    rw [harrived]
    refine List.pairwise_append.mpr ⟨h.order endpoint, ?_, ?_⟩
    · split
      · exact List.pairwise_singleton _ _
      · exact .nil
    · intro earlier hearlier new hnew
      split at hnew
      · rw [List.mem_singleton.mp hnew]
        exact h.before endpoint earlier hearlier event List.mem_cons_self
      · cases hnew
  · intro endpoint new hnew
    obtain hold | ⟨rfl, rfl⟩ := hmem hnew
    · exact h.destination endpoint new hold
    · rfl
  · intro endpoint new hnew
    obtain hold | ⟨rfl, -⟩ := hmem hnew
    · exact h.past endpoint new hold
    · exact hdue
  · intro endpoint new hnew later hlater
    obtain hold | ⟨rfl, -⟩ := hmem hnew
    · exact h.before endpoint new hold later (List.mem_cons_of_mem _ hlater)
    · exact hfirst later hlater

/-- What is due is delivered, and nothing that is left is due. -/
theorem Traced.deliverDue (h : Traced copies receipts trace events bus) :
    ∃ trace', Traced copies receipts trace' (bus.deliverDue events).scheduledEvents
      (bus.deliverDue events) ∧ Settled (bus.deliverDue events) := by
  induction events generalizing bus trace with
  | nil =>
    exact ⟨trace, h.of_eq rfl rfl (Nat.le_refl _), fun _ hevent => absurd hevent List.not_mem_nil⟩
  | cons event events ih =>
    rw [SimulatedRadioBus.deliverDue]
    split
    · rename_i hdue
      obtain ⟨trace', htrace⟩ := h.deliver hdue
      exact ih htrace
    · rename_i hdue
      refine ⟨trace, h.of_eq rfl rfl (Nat.le_refl _), fun later hlater => ?_⟩
      -- the others are not due before the first
      show bus.currentTick < later.deliveryTick
      rcases List.mem_cons.mp hlater with rfl | hlater
      · omega
      · rcases (List.pairwise_cons.mp h.sorted).1 later hlater with hlt | ⟨heq, -⟩
        · omega
        · omega

/-! ### Scheduling -/

theorem Earlier.trans {first second third : ScheduledEvent} (h : first.Earlier second)
    (h' : second.Earlier third) : first.Earlier third := by
  unfold ScheduledEvent.Earlier at *
  omega

/-- Putting an element before the first one that has to come later keeps a list sorted. -/
theorem pairwise_insert {α : Type} {r : α → α → Prop} (htrans : ∀ a b c, r a b → r b c → r a c)
    {notLater : α → Bool} {new : α} {list : List α} (h : list.Pairwise r)
    (hbefore : ∀ x ∈ list, notLater x = true → r x new)
    (hbehind : ∀ x ∈ list, notLater x = false → r new x) :
    (list.takeWhile notLater ++ new :: list.dropWhile notLater).Pairwise r := by
  induction list with
  | nil => exact List.pairwise_singleton _ _
  | cons x list ih =>
    obtain ⟨hx, hlist⟩ := List.pairwise_cons.mp h
    cases hlater : notLater x with
    | true =>
      rw [List.takeWhile_cons_of_pos hlater, List.dropWhile_cons_of_pos hlater, List.cons_append]
      refine List.pairwise_cons.mpr ⟨fun y hy => ?_, ?_⟩
      · have hperm : (list.takeWhile notLater ++ new :: list.dropWhile notLater).Perm
            (new :: list) :=
          List.perm_middle.trans (by rw [List.takeWhile_append_dropWhile])
        rcases List.mem_cons.mp (hperm.mem_iff.mp hy) with rfl | hy
        · exact hbefore x List.mem_cons_self hlater
        · exact hx y hy
      · exact ih hlist (fun y hy => hbefore y (List.mem_cons_of_mem _ hy))
          (fun y hy => hbehind y (List.mem_cons_of_mem _ hy))
    | false =>
      have hnot : ¬notLater x = true := by
        rw [hlater]
        exact Bool.false_ne_true
      have hnew := hbehind x List.mem_cons_self hlater
      rw [List.takeWhile_cons_of_neg hnot, List.dropWhile_cons_of_neg hnot, List.nil_append]
      refine List.pairwise_cons.mpr ⟨fun y hy => ?_, h⟩
      rcases List.mem_cons.mp hy with rfl | hy
      · exact hnew
      · exact htrans _ _ _ hnew (hx y hy)

/-- An event with a new ordinal is put where it belongs. -/
theorem scheduleEvent_sorted {event : ScheduledEvent} (h : bus.scheduledEvents.Pairwise Earlier)
    (hnew : ∀ existing ∈ bus.scheduledEvents, existing.ordinal < event.ordinal) :
    (bus.scheduleEvent event).scheduledEvents.Pairwise Earlier := by
  unfold scheduleEvent
  refine pairwise_insert (r := Earlier) (fun _ _ _ => Earlier.trans) h
    (fun existing hexisting hlater => ?_)
    (fun existing hexisting hlater => ?_)
  · have hordinal := hnew existing hexisting
    rw [Bool.not_eq_true', ← Bool.not_eq_true] at hlater
    unfold ScheduledEvent.Earlier
    split at hlater
    · simp only [decide_eq_true_eq] at hlater
      omega
    · omega
  · rw [Bool.not_eq_false'] at hlater
    unfold ScheduledEvent.Earlier
    split at hlater
    · exact .inl (of_decide_eq_true hlater)
    · have hordinal := of_decide_eq_true hlater
      omega

theorem Traced.mem_copies (h : Traced copies receipts trace events bus) {event : ScheduledEvent}
    (hevent : event ∈ events ∨ ∃ endpoint, event ∈ trace.arrived endpoint) : event ∈ copies := by
  rw [← Multiset.mem_coe, h.balance]
  simp only [Multiset.mem_add, Multiset.mem_coe]
  obtain hevent | ⟨_ | _, hevent⟩ := hevent
  · exact .inl (.inl (.inl hevent))
  · exact .inl (.inl (.inr hevent))
  · exact .inl (.inr hevent)

theorem Traced.ordinal_lt (h : Traced copies receipts trace events bus) {event : ScheduledEvent}
    (hevent : event ∈ copies) : event.ordinal < bus.nextEventOrdinal := by
  have hmem := List.mem_map_of_mem (f := ordinal) hevent
  rw [h.ordinals] at hmem
  exact List.mem_range.mp hmem

/-- A new copy is due after all that have arrived. -/
theorem Traced.scheduleEvent (h : Traced copies receipts trace bus.scheduledEvents bus)
    {event : ScheduledEvent} (hordinal : event.ordinal = bus.nextEventOrdinal)
    (hdue : bus.currentTick ≤ event.deliveryTick) :
    Traced (copies ++ [event]) receipts trace
      ({ bus with nextEventOrdinal := bus.nextEventOrdinal + 1 }.scheduleEvent
        event).scheduledEvents
      ({ bus with nextEventOrdinal := bus.nextEventOrdinal + 1 }.scheduleEvent event) := by
  have hperm := @scheduleEvent_perm { bus with nextEventOrdinal := bus.nextEventOrdinal + 1 } event
  exact { h with
    ordinals := by
      rw [List.map_append, h.ordinals, List.map_singleton, hordinal, ← List.range_succ]
      rfl
    balance := by
      rw [Multiset.coe_eq_coe.mpr hperm, ← Multiset.coe_add, h.balance, Multiset.coe_singleton,
        ← Multiset.cons_coe, ← Multiset.singleton_add]
      show _ = {event} + (bus.scheduledEvents : Multiset ScheduledEvent) + _ + _ + _
      abel
    sorted := by
      refine scheduleEvent_sorted h.sorted fun existing hexisting => ?_
      rw [hordinal]
      exact h.ordinal_lt (h.mem_copies (.inl hexisting))
    before := by
      intro endpoint earlier hearlier later hlater
      rcases List.mem_cons.mp (hperm.mem_iff.mp hlater) with rfl | hlater
      · have htick := h.past endpoint earlier hearlier
        have hlt := h.ordinal_lt (h.mem_copies (.inr ⟨endpoint, hearlier⟩))
        unfold ScheduledEvent.Earlier
        omega
      · exact h.before endpoint earlier hearlier later hlater }

theorem Traced.scheduleCopies (h : Traced copies receipts trace bus.scheduledEvents bus)
    (source : EndpointId) (datagram : Bytes) {deliveryTick : ℕ} (count : ℕ)
    (hdue : bus.currentTick ≤ deliveryTick) :
    Traced (copies ++ copiesFrom source datagram deliveryTick bus.nextEventOrdinal count)
      receipts trace
      (scheduleCopies source datagram deliveryTick bus count).scheduledEvents
      (scheduleCopies source datagram deliveryTick bus count) := by
  induction count generalizing bus copies with
  | zero =>
    rw [copiesFrom, List.append_nil]
    exact h
  | succ count ih =>
    have hfirst := @Traced.scheduleEvent bus copies receipts trace h
      ⟨deliveryTick, bus.nextEventOrdinal, source, source.other, datagram⟩ rfl hdue
    rw [copiesFrom, List.append_cons]
    exact ih hfirst hdue

/-! ### The calls -/

/-- All that is under way or waits is lost. -/
theorem Traced.discardLinkData (h : Traced copies receipts trace bus.scheduledEvents bus) :
    ∃ trace', Traced copies receipts trace' bus.discardLinkData.scheduledEvents
      bus.discardLinkData := by
  let trace' : BusTrace := {
    received := trace.received
    lost := bus.scheduledEvents ++ trace.waiting .first ++ trace.waiting .second ++ trace.lost }
  have hsublist : ∀ endpoint, (trace'.arrived endpoint).Sublist (trace.arrived endpoint) := by
    intro endpoint
    show (trace.received endpoint ++ []).Sublist _
    rw [List.append_nil]
    exact List.sublist_append_left _ _
  refine ⟨trace', {
    ordinals := h.ordinals
    balance := ?_
    waiting := fun _ => rfl
    received := h.received
    sorted := .nil
    order := fun endpoint => (h.order endpoint).sublist (hsublist endpoint)
    destination := fun endpoint event hevent =>
      h.destination endpoint event ((hsublist endpoint).subset hevent)
    past := fun endpoint event hevent => h.past endpoint event ((hsublist endpoint).subset hevent)
    before := fun _ _ _ _ hlater => absurd hlater List.not_mem_nil }⟩
  show _ = (([] : List ScheduledEvent) : Multiset ScheduledEvent) +
    ((trace.received .first ++ [] : List ScheduledEvent) : Multiset ScheduledEvent) +
    ((trace.received .second ++ [] : List ScheduledEvent) : Multiset ScheduledEvent) +
    ((bus.scheduledEvents ++ trace.waiting .first ++ trace.waiting .second ++ trace.lost :
      List ScheduledEvent) : Multiset ScheduledEvent)
  rw [h.balance, BusTrace.arrived, BusTrace.arrived]
  simp only [← Multiset.coe_add, Multiset.coe_nil, List.append_nil]
  abel

/-- The first copy in the queue becomes the last one received. -/
theorem Traced.receive (h : Traced copies receipts trace events bus) {endpoint : EndpointId}
    {first : Bytes} {inbound : List Bytes} (hinbound : bus.inbound endpoint = first :: inbound)
    (hordinal : bus'.nextEventOrdinal = bus.nextEventOrdinal)
    (htick : bus'.currentTick = bus.currentTick)
    (hinbound' : ∀ other, bus'.inbound other =
      if other = endpoint then inbound else bus.inbound other) :
    ∃ trace', Traced copies (fun other => receipts other ++ if endpoint = other then
      [first] else [])
      trace' events bus' := by
  obtain ⟨copy, waiting, hwaiting, hcopy, hrest⟩ :=
    List.map_eq_cons_iff.mp ((h.waiting endpoint).trans hinbound)
  let trace' : BusTrace := { trace with
    waiting := fun other => if other = endpoint then waiting else trace.waiting other
    received := fun other => trace.received other ++ if endpoint = other then [copy] else [] }
  have harrived : trace'.arrived = trace.arrived := by
    funext other
    show (trace.received other ++ if endpoint = other then [copy] else []) ++
      (if other = endpoint then waiting else trace.waiting other) = _
    by_cases hother : endpoint = other
    · rw [if_pos hother, if_pos hother.symm, BusTrace.arrived, ← hother, hwaiting,
        List.append_assoc]
      rfl
    · rw [if_neg hother, if_neg (Ne.symm hother), List.append_nil, BusTrace.arrived]
  refine ⟨trace', {
    ordinals := by rw [hordinal, h.ordinals]
    balance := by rw [harrived]; exact h.balance
    waiting := fun other => ?_
    received := fun other => ?_
    sorted := h.sorted
    order := by rw [harrived]; exact h.order
    destination := by rw [harrived]; exact h.destination
    past := by rw [harrived, htick]; exact h.past
    before := by rw [harrived]; exact h.before }⟩
  · rw [hinbound']
    show (if other = endpoint then waiting else trace.waiting other).map datagram = _
    split
    · exact hrest
    · exact h.waiting other
  · show (trace.received other ++ if endpoint = other then [copy] else []).map datagram = _
    rw [List.map_append, h.received]
    split
    · rw [List.map_singleton, hcopy]
    · rfl

theorem Traced.accept (h : Traced copies receipts trace bus.scheduledEvents bus)
    (hsettled : Settled bus)
    (source : EndpointId) (data : Bytes) :
    let send : BusSend :=
      ⟨source, data, (bus.faultDirectives source).headD {}, bus.currentTick, bus.nextEventOrdinal⟩
    (∃ trace', Traced (copies ++ send.copies) receipts trace'
      (bus.accept source data).scheduledEvents
      (bus.accept source data)) ∧ Settled (bus.accept source data) := by
  intro send
  unfold SimulatedRadioBus.accept
  dsimp only
  have herased : Traced copies receipts trace bus.scheduledEvents { bus.eraseDirective source with
      statistics := bus.statistics.countAccepted send.directive } := h.of_eq rfl rfl (Nat.le_refl _)
  split
  · rename_i hdrop
    have hnone : send.copies = [] := by
      rw [BusSend.copies, show send.directive.copies =
        0 from FaultDirective.copies_of_drop hdrop, copiesFrom]
    rw [hnone, List.append_nil]
    exact ⟨⟨trace, herased⟩, hsettled⟩
  · have hscheduled := @Traced.scheduleCopies { bus.eraseDirective source with
      statistics := bus.statistics.countAccepted send.directive } copies receipts trace
        herased source
      (send.directive.corrupt data) (bus.currentTick + send.directive.delayTicks)
        send.directive.copies
      (Nat.le_add_right _ _)
    obtain ⟨trace', htraced, hdue⟩ := hscheduled.deliverDue
    exact ⟨⟨trace', htraced⟩, hdue⟩

/-- What holds between two calls. -/
structure Ordered (copies : List ScheduledEvent) (receipts : EndpointId → List Bytes)
    (bus : SimulatedRadioBus) : Prop where
  traced : ∃ trace, Traced copies receipts trace bus.scheduledEvents bus
  settled : Settled bus
  received : bus.statistics.receivedDatagrams =
    UInt64.ofNat ((receipts .first).length + (receipts .second).length)

theorem Ordered.of_eq (h : Ordered copies receipts bus)
    (hordinal : bus'.nextEventOrdinal = bus.nextEventOrdinal)
    (hinbound : bus'.inbound = bus.inbound)
    (htick : bus'.currentTick = bus.currentTick)
    (hscheduled : bus'.scheduledEvents = bus.scheduledEvents)
    (hreceived : bus'.statistics.receivedDatagrams = bus.statistics.receivedDatagrams) :
    Ordered copies receipts bus' := by
  obtain ⟨trace, htraced⟩ := h.traced
  refine ⟨⟨trace, ?_⟩, ?_, hreceived.trans h.received⟩
  · rw [hscheduled]
    exact htraced.of_eq hordinal hinbound htick.ge
  · rw [Settled, hscheduled, htick]
    exact h.settled

theorem Ordered.discardLinkData (h : Ordered copies receipts bus) :
    Ordered copies receipts bus.discardLinkData := by
  obtain ⟨trace, htraced⟩ := h.traced
  exact ⟨htraced.discardLinkData, fun event hevent => absurd hevent List.not_mem_nil, h.received⟩

theorem Ordered.setConnected (h : Ordered copies receipts bus) (endpoint : EndpointId)
    (connected : Bool) :
    Ordered copies receipts (bus.setConnected endpoint connected).1 := by
  obtain hsame | ⟨links, hchange⟩ := @setConnected_cases bus endpoint connected
  · rw [hsame]
    exact h
  have hlinks : Ordered copies receipts { bus with connected := links } :=
    h.of_eq rfl rfl rfl rfl rfl
  obtain hup | hdown := hchange
  · rw [hup]
    exact hlinks
  · rw [hdown]
    exact hlinks.discardLinkData

theorem Ordered.closeEndpoint (h : Ordered copies receipts bus) (endpoint : EndpointId) :
    Ordered copies receipts (bus.closeEndpoint endpoint) := by
  obtain hsame | ⟨links, ends, hclosed⟩ := @closeEndpoint_cases bus endpoint
  · rw [hsame]
    exact h
  · rw [hclosed]
    exact Ordered.discardLinkData (h.of_eq rfl rfl rfl rfl rfl)

theorem Ordered.enqueueFault (h : Ordered copies receipts bus) (source : EndpointId)
    (directive : FaultDirective) :
    Ordered copies receipts (bus.enqueueFault source directive).1 := by
  obtain hrefused | ⟨-, hadded⟩ := @enqueueFault_cases bus source directive
  · rw [hrefused]
    exact h
  · rw [hadded]
    exact h.of_eq rfl rfl rfl rfl rfl

theorem Ordered.advanceTo (h : Ordered copies receipts bus) (tick : ℕ) :
    Ordered copies receipts (bus.advanceTo tick).1 := by
  obtain hrefused | ⟨-, hlater, hadvanced⟩ := @advanceTo_cases bus tick
  · rw [hrefused]
    exact h
  · rw [hadvanced]
    obtain ⟨trace, htraced⟩ := h.traced
    have htick : Traced copies receipts trace bus.scheduledEvents
        { bus with currentTick := tick } :=
      htraced.of_eq rfl rfl hlater
    obtain ⟨trace', htraced', hsettled⟩ := htick.deliverDue
    exact ⟨⟨trace', htraced'⟩, hsettled, (Passes.deliverDue _).receivedDatagrams.trans h.received⟩

theorem accept_receivedDatagrams (source : EndpointId) (data : Bytes) :
    (bus.accept source data).statistics.receivedDatagrams = bus.statistics.receivedDatagrams := by
  obtain ⟨-, -, -, hreceived, -, -⟩ :=
    countAccepted_eq bus.statistics ((bus.faultDirectives source).headD {})
  unfold SimulatedRadioBus.accept
  dsimp only
  split
  · exact hreceived
  · obtain ⟨events, watermark, heq, -⟩ := @scheduleCopies_eq { bus.eraseDirective source with
      statistics := bus.statistics.countAccepted ((bus.faultDirectives source).headD {}) } source
      (((bus.faultDirectives source).headD {}).corrupt data)
      (bus.currentTick + ((bus.faultDirectives source).headD {}).delayTicks)
      ((bus.faultDirectives source).headD {}).copies
    rw [deliverDueEvents, (Passes.deliverDue _).receivedDatagrams, heq]
    exact hreceived

theorem Ordered.sendFrom (h : Ordered copies receipts bus) (source : EndpointId) (data : Bytes) :
    Ordered (copies ++ (BusRun.sent bus (.send source data)).flatMap BusSend.copies) receipts
      (bus.sendFrom source data).1 := by
  obtain ⟨status, hstatus, hrefused⟩ | ⟨-, haccepted⟩ := @sendFrom_cases bus source data
  · have hnone : BusRun.sent bus (.send source data) = [] := by
      rw [BusRun.sent, hrefused]
      exact if_neg hstatus
    rw [hnone, hrefused, List.flatMap_nil, List.append_nil]
    exact h.of_eq rfl rfl rfl rfl (SameBooks.countRefused _ _).receivedDatagrams
  · have hsent : BusRun.sent bus (.send source data) =
      [⟨source, data, (bus.faultDirectives source).headD {},
        bus.currentTick, bus.nextEventOrdinal⟩] := by
      rw [BusRun.sent, haccepted]
      exact if_pos rfl
    obtain ⟨trace, htraced⟩ := h.traced
    obtain ⟨htraced', hsettled⟩ := htraced.accept h.settled source data
    rw [hsent, haccepted, List.flatMap_singleton]
    exact ⟨htraced', hsettled, (accept_receivedDatagrams source data).trans h.received⟩

theorem Ordered.receiveFor (h : Ordered copies receipts bus) (endpoint : EndpointId)
    (capacity : ℕ) :
    Ordered copies (fun other => receipts other ++ BusRun.got bus other
      (.receive endpoint capacity))
      (bus.receiveFor endpoint capacity).2 := by
  obtain ⟨hother, hsame⟩ | ⟨datagram, inbound, hinbound, -, -, hreceived⟩ :=
    @receiveFor_cases bus endpoint capacity
  · have hnone : ∀ other, BusRun.got bus other (.receive endpoint capacity) = [] :=
      fun other => if_neg fun h => hother h.2
    simp only [hnone, List.append_nil, hsame]
    exact h
  · have hgot : ∀ other, BusRun.got bus other (.receive endpoint capacity) =
        if endpoint = other then [datagram] else [] := by
      intro other
      rw [BusRun.got, hreceived]
      simp only [and_true]
    obtain ⟨trace, htraced⟩ := h.traced
    simp only [hgot, hreceived]
    refine ⟨htraced.receive hinbound rfl rfl fun _ => rfl, h.settled, ?_⟩
    show bus.statistics.receivedDatagrams + UInt64.ofNat 1 = _
    rw [h.received, ← UInt64.ofNat_add]
    cases endpoint with
    | first =>
      simp only [if_true, reduceCtorEq, if_false, List.append_nil, List.length_append,
        List.length_singleton]
      rw [Nat.add_right_comm]
    | second =>
      simp only [if_true, reduceCtorEq, if_false, List.append_nil, List.length_append,
        List.length_singleton]
      rw [Nat.add_assoc]

theorem Ordered.new (config : BusConfig) : Ordered [] (fun _ => []) (new config) where
  traced := ⟨{}, {
    ordinals := rfl
    balance := rfl
    waiting := fun _ => rfl
    received := fun _ => rfl
    sorted := .nil
    order := fun _ => .nil
    destination := fun _ _ hevent => absurd hevent List.not_mem_nil
    past := fun _ _ hevent => absurd hevent List.not_mem_nil
    before := fun _ _ hevent => absurd hevent List.not_mem_nil }⟩
  settled := fun _ hevent => absurd hevent List.not_mem_nil
  received := rfl

end SimulatedRadioBus

namespace BusRun

open SimulatedRadioBus

/-- One call. -/
theorem ordered_step {run : BusRun} (h : Ordered run.copies run.receipts run.bus) (step : BusStep) :
    Ordered (run.step step).copies (run.step step).receipts (run.step step).bus := by
  have hcopies : (run.step step).copies =
      run.copies ++ (sent run.bus step).flatMap BusSend.copies := by
    rw [copies, BusRun.step, List.flatMap_append]
    rfl
  rw [hcopies]
  show Ordered _ (fun endpoint => run.receipts endpoint ++ got run.bus endpoint step)
    (run.bus.apply step)
  cases step with
  | send source data =>
    simp only [got, List.append_nil]
    exact h.sendFrom source data
  | receive endpoint capacity =>
    simp only [sent, List.flatMap_nil, List.append_nil]
    exact h.receiveFor endpoint capacity
  | enqueueFault source directive =>
    simp only [sent, got, List.flatMap_nil, List.append_nil]
    exact h.enqueueFault source directive
  | setConnected endpoint connected =>
    simp only [sent, got, List.flatMap_nil, List.append_nil]
    exact h.setConnected endpoint connected
  | advanceTo tick =>
    simp only [sent, got, List.flatMap_nil, List.append_nil]
    exact h.advanceTo tick
  | close endpoint =>
    simp only [sent, got, List.flatMap_nil, List.append_nil]
    exact h.closeEndpoint endpoint

theorem ordered_ofSteps (config : BusConfig) (steps : List BusStep) :
    Ordered (ofSteps config steps).copies (ofSteps config steps).receipts
      (ofSteps config steps).bus := by
  have hrun : ∀ run : BusRun, Ordered run.copies run.receipts run.bus →
      Ordered (steps.foldl step run).copies (steps.foldl step run).receipts
        (steps.foldl step run).bus := by
    induction steps with
    | nil => exact fun _ h => h
    | cons step steps ih => exact fun run h => ih _ (ordered_step h step)
  exact hrun _ (Ordered.new config)

theorem ofSteps_bus (config : BusConfig) (steps : List BusStep) :
    (ofSteps config steps).bus = (new config).after steps := by
  have hrun : ∀ run : BusRun, (steps.foldl step run).bus = run.bus.after steps := by
    induction steps with
    | nil => exact fun _ => rfl
    | cons step steps ih => exact fun run => ih (run.step step)
  exact hrun _

end BusRun

namespace SimulatedRadioBus

variable {bus : SimulatedRadioBus}

/-! ### Ticks in between -/

/-- A delivery does not read the tick. -/
theorem deliver_currentTick (event : ScheduledEvent) (tick : ℕ) :
    { bus with currentTick := tick }.deliver event =
    { bus.deliver event with currentTick := tick } := by
  unfold deliver endpointConnected valid
  dsimp only
  split
  · rfl
  split
  · rfl
  · rfl

theorem deliver_scheduledEvents (event : ScheduledEvent) (events : List ScheduledEvent) :
    { bus with scheduledEvents := events }.deliver event =
      { bus.deliver event with scheduledEvents := events } := by
  unfold deliver endpointConnected valid
  dsimp only
  split
  · rfl
  split
  · rfl
  · rfl

theorem deliver_addDirective (event : ScheduledEvent) (source : EndpointId)
    (directive : FaultDirective) :
    (bus.addDirective source directive).deliver event =
      (bus.deliver event).addDirective source directive := by
  unfold deliver addDirective endpointConnected valid
  dsimp only
  split
  · rfl
  split
  · rfl
  · rfl

/-- The schedule of the bus is only written at the end of the loop. -/
theorem deliverDue_scheduledEvents (events stale : List ScheduledEvent) :
    { bus with scheduledEvents := stale }.deliverDue events = bus.deliverDue events := by
  induction events generalizing bus with
  | nil => rfl
  | cons event events ih =>
    rw [deliverDue, deliverDue, deliver_scheduledEvents, ih]

theorem deliverDue_addDirective (source : EndpointId) (directive : FaultDirective)
    (events : List ScheduledEvent) :
    (bus.addDirective source directive).deliverDue events =
      (bus.deliverDue events).addDirective source directive := by
  induction events generalizing bus with
  | nil => rfl
  | cons event events ih =>
    rw [deliverDue, deliverDue, deliver_addDirective, ih]
    show (if event.deliveryTick ≤ bus.currentTick then _ else _) = _
    by_cases hdue : event.deliveryTick ≤ bus.currentTick
    · rw [if_pos hdue, if_pos hdue]
    · rw [if_neg hdue, if_neg hdue]
      rfl

/-- What is due at the first tick is delivered first, whether or not the bus stops there. -/
theorem deliverDue_deliverDue {tick tick' : ℕ} (h : tick ≤ tick') (events : List ScheduledEvent) :
    { { bus with currentTick := tick }.deliverDue events with
      currentTick := tick' }.deliverDueEvents =
      { bus with currentTick := tick' }.deliverDue events := by
  induction events generalizing bus with
  | nil => rfl
  | cons event events ih =>
    rw [deliverDue]
    by_cases hdue : event.deliveryTick ≤ tick
    · rw [if_pos hdue, @deliver_currentTick bus event tick, ih, deliverDue, if_pos (hdue.trans h),
        @deliver_currentTick bus event tick']
    · rw [if_neg hdue]
      exact @deliverDue_scheduledEvents { bus with currentTick := tick' } (event :: events)
        (event :: events)

theorem advanceTo_advanceTo {tick tick' : ℕ} (h : tick ≤ tick') :
    ((bus.advanceTo tick).1.advanceTo tick').1 = (bus.advanceTo tick').1 := by
  obtain hrefused | ⟨hvalid, hlater, hadvanced⟩ := @advanceTo_cases bus tick
  · rw [hrefused]
  rw [hadvanced, advanceTo_of_valid hvalid (hlater.trans h)]
  have hpasses := @Passes.deliverDue { bus with currentTick := tick } bus.scheduledEvents
  rw [advanceTo_of_valid (by rw [valid, deliverDueEvents, hpasses.config]; exact hvalid)
    (by rw [deliverDueEvents, hpasses.currentTick]; exact h)]
  exact deliverDue_deliverDue h bus.scheduledEvents

theorem advanceTo_addDirective (source : EndpointId) (directive : FaultDirective) (tick : ℕ) :
    ((bus.addDirective source directive).advanceTo tick).1 =
      (bus.advanceTo tick).1.addDirective source directive := by
  show (if !bus.valid || tick < bus.currentTick then _ else _ : SimulatedRadioBus × Bool).1 = _
  unfold advanceTo
  split
  · rfl
  · exact @deliverDue_addDirective { bus with currentTick := tick } source directive
      bus.scheduledEvents

/-- A bus on which nothing is due may be advanced to where it is. -/
theorem advanceTo_self (h : Settled bus) : (bus.advanceTo bus.currentTick).1 = bus := by
  obtain hrefused | ⟨-, -, hadvanced⟩ := @advanceTo_cases bus bus.currentTick
  · rw [hrefused]
  rw [hadvanced, deliverDueEvents]
  show bus.deliverDue bus.scheduledEvents = bus
  rcases hevents : bus.scheduledEvents with _ | ⟨event, events⟩
  · rw [deliverDue, ← hevents]
  · have hfirst := h event (by rw [hevents]; exact List.mem_cons_self)
    rw [deliverDue, if_neg (by omega), ← hevents]

end SimulatedRadioBus

namespace BusRun

open SimulatedRadioBus ScheduledEvent

/-- A run made from what another one did: the tick is advanced where a call is made, and nowhere
else. -/
def replayEntry (run : BusRun) : BusEntry → BusRun
  | .directive source directive => { run with bus := run.bus.addDirective source directive }
  | .call step tick => { run with bus := (run.bus.advanceTo tick).1 }.step step

def replay (config : BusConfig) (entries : List BusEntry) : BusRun :=
  entries.foldl replayEntry { bus := .new config }

/-- The run is where its replay is once the tick is the same, and has received the same. -/
structure Replays (config : BusConfig) (run : BusRun) : Prop where
  bus : run.bus = ((replay config run.performed).bus.advanceTo run.bus.currentTick).1
  receipts : run.receipts = (replay config run.performed).receipts

theorem Replays.step {config : BusConfig} {run : BusRun} (h : Replays config run)
    (hordered : Ordered run.copies run.receipts run.bus) (step : BusStep) :
    Replays config (run.step step) := by
  have hsettled := (ordered_step hordered step).settled
  -- a call is made at the same bus by both
  have hcall : entry run.bus step = [.call step run.bus.currentTick] →
      Replays config (run.step step) := by
    intro hentry
    have hreplay : replay config (run.step step).performed =
        { replay config run.performed with
          bus := ((replay config run.performed).bus.advanceTo
            run.bus.currentTick).1 }.step step := by
      show replay config (run.performed ++ entry run.bus step) = _
      rw [hentry, replay, List.foldl_append]
      rfl
    rw [← h.bus] at hreplay
    constructor
    · rw [hreplay]
      exact (advanceTo_self hsettled).symm
    · rw [hreplay]
      show (fun endpoint => run.receipts endpoint ++ _) = fun endpoint =>
        (replay config run.performed).receipts endpoint ++ _
      rw [h.receipts]
  -- nothing is received by the calls that are not written down
  have hnothing : (∀ endpoint, got run.bus endpoint step = []) →
      (run.step step).receipts = run.receipts := by
    intro hgot
    funext endpoint
    show run.receipts endpoint ++ got run.bus endpoint step = _
    rw [hgot, List.append_nil]
  cases step with
  | send | receive | setConnected | close => exact hcall rfl
  | advanceTo tick =>
    have hsame : (run.step (.advanceTo tick)).performed = run.performed := List.append_nil _
    refine ⟨?_, by rw [hsame, hnothing fun _ => rfl]; exact h.receipts⟩
    rw [hsame]
    show (run.bus.advanceTo tick).1 =
      ((replay config run.performed).bus.advanceTo (run.bus.advanceTo tick).1.currentTick).1
    obtain hrefused | ⟨-, hlater, hadvanced⟩ := @advanceTo_cases run.bus tick
    · rw [hrefused]
      exact h.bus
    · have htick : (run.bus.advanceTo tick).1.currentTick = tick := by
        rw [hadvanced]
        exact (Passes.deliverDue _).currentTick
      have htwice := @advanceTo_advanceTo (replay config run.performed).bus _ _ hlater
      rw [← h.bus] at htwice
      rw [htick, htwice]
  | enqueueFault source directive =>
    obtain hrefused | ⟨-, hadded⟩ := @enqueueFault_cases run.bus source directive
    · have hsame : (run.step (.enqueueFault source directive)).performed = run.performed := by
        show run.performed ++ entry run.bus _ = _
        rw [entry, hrefused]
        exact List.append_nil _
      have hbus : (run.step (.enqueueFault source directive)).bus = run.bus := by
        show (run.bus.enqueueFault source directive).1 = _
        rw [hrefused]
      refine ⟨?_, by rw [hsame, hnothing fun _ => rfl]; exact h.receipts⟩
      rw [hsame, hbus]
      exact h.bus
    · have hreplay : replay config (run.step (.enqueueFault source directive)).performed =
          { replay config run.performed with
            bus := (replay config run.performed).bus.addDirective source directive } := by
        show replay config (run.performed ++ entry run.bus _) = _
        rw [entry, hadded, replay, List.foldl_append]
        rfl
      have hbus : (run.step (.enqueueFault source directive)).bus =
          run.bus.addDirective source directive := by
        show (run.bus.enqueueFault source directive).1 = _
        rw [hadded]
      refine ⟨?_, by rw [hreplay, hnothing fun _ => rfl]; exact h.receipts⟩
      rw [hreplay, hbus]
      show _ = (((replay config run.performed).bus.addDirective source directive).advanceTo
        run.bus.currentTick).1
      rw [advanceTo_addDirective, ← h.bus]

theorem replays_ofSteps (config : BusConfig) (steps : List BusStep) :
    Replays config (ofSteps config steps) := by
  have hrun : ∀ run : BusRun, Ordered run.copies run.receipts run.bus → Replays config run →
      Replays config (steps.foldl step run) := by
    induction steps with
    | nil => exact fun _ _ h => h
    | cons step steps ih =>
      exact fun run hordered h => ih _ (ordered_step hordered step) (h.step hordered step)
  have hnew := Ordered.new config
  exact hrun _ hnew ⟨(advanceTo_self hnew.settled).symm, rfl⟩

/-! ### Content -/

theorem mem_copiesFrom {source : EndpointId} {bytes : Bytes} {tick first count : ℕ}
    {event : ScheduledEvent}
    (h : event ∈ copiesFrom source bytes tick first count) :
    event.deliveryTick = tick ∧ event.source = source ∧ event.destination = source.other ∧
      event.datagram = bytes := by
  induction count generalizing first with
  | zero => cases h
  | succ count ih =>
    rcases List.mem_cons.mp h with rfl | h
    · exact ⟨rfl, rfl, rfl, rfl⟩
    · exact ih h

/-- The datagram that arrives is the one that was sent but for the byte of the directive. -/
theorem getElem?_corrupt (directive : FaultDirective) (data : Bytes) (index : ℕ) :
    (directive.corrupt data)[index]? = if directive.corruptByteIndex = some index
      then data[index]?.map (· ^^^ directive.corruptXorMask) else data[index]? := by
  unfold FaultDirective.corrupt
  cases hcorrupt : directive.corruptByteIndex with
  | none => simp
  | some place =>
    dsimp only
    rw [List.getElem?_set]
    by_cases hplace : place = index
    · rw [if_pos hplace, if_pos (congrArg some hplace), hplace]
      by_cases hindex : index < data.length
      · rw [if_pos hindex, List.getElem?_eq_getElem hindex, List.getD_eq_getElem _ _ hindex]
        rfl
      · rw [if_neg hindex, List.getElem?_eq_none (by omega)]
        rfl
    · rw [if_neg hplace, if_neg fun h => hplace (Option.some.inj h)]

section Counts

variable {bus : SimulatedRadioBus} {copies : List ScheduledEvent}
    {receipts : EndpointId → List Bytes}
  {trace : BusTrace}

theorem nodup_scheduled (h : Traced copies receipts trace bus.scheduledEvents bus) :
    (bus.scheduledEvents.map ordinal).Nodup := by
  have hle : (bus.scheduledEvents : Multiset ScheduledEvent) ≤ copies := by
    rw [h.balance, add_assoc, add_assoc]
    exact Multiset.le_add_right _ _
  have hnodup : (copies.map ordinal).Nodup := by
    rw [h.ordinals]
    exact List.nodup_range
  rw [← Multiset.coe_nodup, ← Multiset.map_coe] at hnodup ⊢
  exact Multiset.nodup_of_le (Multiset.map_le_map hle) hnodup

/-- The copies that are lost are those that the counters of the drops say. -/
theorem length_lost (h : Traced copies receipts trace bus.scheduledEvents bus)
    (hreceived : bus.statistics.receivedDatagrams =
      UInt64.ofNat ((receipts .first).length + (receipts .second).length))
    (haccounted : Accounted bus.nextEventOrdinal bus) : trace.lost.length =
      bus.statistics.inboundFullDrops.toNat + bus.statistics.disconnectedDrops.toNat := by
  have hcopies : copies.length = bus.nextEventOrdinal := by
    rw [← List.length_map, h.ordinals, List.length_range]
  have harrived : ∀ endpoint, (trace.arrived endpoint).length =
      (receipts endpoint).length + (bus.inbound endpoint).length := by
    intro endpoint
    rw [BusTrace.arrived, List.length_append, ← h.received, ← h.waiting, List.length_map,
      List.length_map]
  have hbalance := congrArg Multiset.card h.balance
  simp only [Multiset.card_add, Multiset.coe_card, harrived, hcopies] at hbalance
  have hledger := haccounted.balance
  have hordinals := haccounted.ordinals
  have hmax : kMaximumRadioTick = 2 ^ 64 - 1 := rfl
  rw [arrived, hreceived, UInt64.toNat_ofNat', Nat.mod_eq_of_lt (by omega)] at hledger
  omega

end Counts

/-- The schedule is sorted and nothing on it is due.  Of the copies that were made, each is
scheduled, has arrived at an endpoint, or is one of those counted as dropped, and not more than
one of these; those that arrive do so in the order of their ticks and ordinals, and are
received in this order and with the bytes that were sent, but for the one that a directive
changes.  Two runs that make the same calls at the same ticks receive the same, whichever
ticks the bus is advanced to in between. -/
theorem bus_delivers_in_order (config : BusConfig) (steps : List BusStep) :
    let run := ofSteps config steps
    (run.bus.scheduledEvents.Pairwise Earlier ∧ (run.bus.scheduledEvents.map ordinal).Nodup ∧
      ∀ event ∈ run.bus.scheduledEvents, run.bus.currentTick < event.deliveryTick) ∧
    (run.copies.map ordinal).Nodup ∧
    (∃ trace : BusTrace,
      (run.copies : Multiset ScheduledEvent) = run.bus.scheduledEvents + trace.arrived .first +
        trace.arrived .second + trace.lost ∧
      trace.lost.length = run.bus.statistics.inboundFullDrops.toNat +
        run.bus.statistics.disconnectedDrops.toNat ∧
      ∀ endpoint, (trace.received endpoint).map datagram = run.receipts endpoint ∧
        (trace.waiting endpoint).map datagram = run.bus.inbound endpoint ∧
        (trace.arrived endpoint).Pairwise Earlier ∧
        ∀ event ∈ trace.arrived endpoint, event.destination = endpoint) ∧
    (∀ send ∈ run.sends, ∀ copy ∈ send.copies,
      copy.deliveryTick = send.tick + send.directive.delayTicks ∧
      copy.destination = send.source.other ∧ ∀ index : ℕ, copy.datagram[index]? =
        if send.directive.corruptByteIndex = some index
        then send.data[index]?.map (· ^^^ send.directive.corruptXorMask) else send.data[index]?) ∧
    ∀ steps', (ofSteps config steps').performed = run.performed →
      (ofSteps config steps').receipts = run.receipts ∧
      ((ofSteps config steps').bus.currentTick = run.bus.currentTick →
        (ofSteps config steps').bus = run.bus) := by
  intro run
  obtain ⟨⟨trace, htraced⟩, hsettled, hreceived⟩ := ordered_ofSteps config steps
  have hdistinct : (run.copies.map ordinal).Nodup := by
    rw [htraced.ordinals]
    exact List.nodup_range
  refine ⟨⟨htraced.sorted, ?_, hsettled⟩, hdistinct, ⟨trace, htraced.balance, ?_, fun endpoint =>
    ⟨htraced.received endpoint, htraced.waiting endpoint, htraced.order endpoint,
      htraced.destination endpoint⟩⟩, ?_, ?_⟩
  · exact nodup_scheduled htraced
  · have hledger := (Ledger.new config).after steps
    rw [← ofSteps_bus] at hledger
    exact length_lost htraced hreceived hledger.accounted
  · intro send _ copy hcopy
    obtain ⟨htick, -, hdestination, hdatagram⟩ := mem_copiesFrom hcopy
    refine ⟨htick, hdestination, fun index => ?_⟩
    rw [hdatagram]
    exact getElem?_corrupt send.directive send.data index
  · intro steps' hperformed
    have hleft := replays_ofSteps config steps'
    have hright := replays_ofSteps config steps
    refine ⟨by rw [hleft.receipts, hperformed, ← hright.receipts], fun htick => ?_⟩
    rw [hleft.bus, hperformed, htick, ← hright.bus]

end BusRun

end Lora
