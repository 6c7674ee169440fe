/-
Runs of timeline operations.

The four operations that change a timeline are collected in one type, and a
run performs any list of them.  A timeline carries the invariant of its
representation, so every state a run reaches has it; what is left to say is
how the states follow each other.

* `Inserts` — what an insertion takes out and puts in, `inserts_of_insert`;
* `Follows` — no entry outside the queue ever changes, `follows_run`;
* `assignedOrders` — the orders given out in a run, `assignedOrders_pairwise`.
-/
import LoraMessenger.Timeline

namespace Lora

inductive TimelineOperation where
  | insertLocal (post : PostPayload) (initialState : LocalDeliveryState)
  | insertReceived (post : PostPayload)
  | markBroadcast (messageId : MessageId)
  | markFailed (messageId : MessageId)

/-- What an operation returns. -/
inductive TimelineAnswer where
  | insertion (error : TimelineInsertError) (evictedMessageId : Option MessageId)
      (receivedOrder : Option ℕ)
  | transition (error : TransitionError)
deriving DecidableEq

namespace TimelineAnswer

def ok : TimelineAnswer → Bool
  | .insertion error _ _ => error = .none
  | .transition error => error = .none

/-- The order an insertion gave out. -/
def assignedOrder : TimelineAnswer → Option ℕ
  | .insertion _ _ receivedOrder => receivedOrder
  | .transition _ => none

end TimelineAnswer

namespace Timeline

/-- `Timeline(capacity, last_assigned_order)`, which throws for a capacity out of range. -/
def create (capacity lastAssignedOrder : ℕ) : Option Timeline :=
  if h : capacity = 0 ∨ capacity > kMaxTimelineEntries then none
  else some
    { capacity, lastAssignedOrder
      entries := []
      capacity_pos := by omega
      capacity_le := by omega
      length_le := Nat.zero_le _
      stamped := Stamped.nil
      queued_le := Nat.zero_le _ }

theorem create_eq_some {capacity lastAssignedOrder : ℕ} {timeline : Timeline}
    (h : create capacity lastAssignedOrder = some timeline) :
    timeline.capacity = capacity ∧ timeline.lastAssignedOrder = lastAssignedOrder ∧
      timeline.entries = [] := by
  unfold create at h
  split at h
  · cases h
  · cases h
    exact ⟨rfl, rfl, rfl⟩

/-! ### One operation -/

def answerInsertion (timeline : Timeline) :
    Except TimelineInsertError Inserted → TimelineAnswer × Timeline
  | .error error => (.insertion error none none, timeline)
  | .ok inserted =>
    (.insertion .none inserted.evictedMessageId (some inserted.receivedOrder), inserted.timeline)

def answerTransition (timeline : Timeline) :
    Except TransitionError Timeline → TimelineAnswer × Timeline
  | .error error => (.transition error, timeline)
  | .ok changed => (.transition .none, changed)

/-- The answer of an operation and the timeline after it. -/
def apply (timeline : Timeline) : TimelineOperation → TimelineAnswer × Timeline
  | .insertLocal post initialState =>
    timeline.answerInsertion (timeline.insertLocal post initialState)
  | .insertReceived post => timeline.answerInsertion (timeline.insertReceived post)
  | .markBroadcast messageId => timeline.answerTransition (timeline.markBroadcast messageId)
  | .markFailed messageId => timeline.answerTransition (timeline.markFailed messageId)

/-- An insertion puts the post last under the next order.  It takes an entry
out only from a full timeline, and this entry is the oldest one that is neither
queued nor protected. -/
inductive Inserts (timeline : Timeline) (post : PostPayload) (origin : EntryOrigin)
    (protectedMessageId : Option MessageId) (inserted : Inserted) : Prop where
  | free (hroom : timeline.entries.length < timeline.capacity)
      (hevicted : inserted.evictedMessageId = none)
      (hentries : inserted.timeline.entries =
        timeline.entries ++ [⟨post, inserted.receivedOrder, origin⟩]) :
      Inserts timeline post origin protectedMessageId inserted
  | evicting (older newer : List TimelineEntry) (oldest : TimelineEntry)
      (hfull : timeline.entries.length = timeline.capacity)
      (hsplit : timeline.entries = older ++ oldest :: newer)
      (holder : ∀ entry ∈ older, entry.isQueued ∨ protectedMessageId = some entry.messageId)
      (hqueued : ¬oldest.isQueued) (hprotected : protectedMessageId ≠ some oldest.messageId)
      (hevicted : inserted.evictedMessageId = some oldest.messageId)
      (hentries : inserted.timeline.entries =
        older ++ newer ++ [⟨post, inserted.receivedOrder, origin⟩]) :
      Inserts timeline post origin protectedMessageId inserted

variable {timeline : Timeline} {post : PostPayload} {origin : EntryOrigin}
  {protectedMessageId : Option MessageId} {inserted : Inserted}

theorem mayGo_iff {entry : TimelineEntry} : mayGo protectedMessageId entry ↔
    ¬entry.isQueued ∧ protectedMessageId ≠ some entry.messageId := by
  simp [mayGo, and_comm]

theorem inserts_of_insert
    (h : timeline.insert post origin protectedMessageId = .ok inserted) :
    timeline.Inserts post origin protectedMessageId inserted := by
  obtain ⟨hnew, hqueue, havailable, rfl⟩ := insert_eq_ok.mp h
  have hle := timeline.length_le
  by_cases hfull : timeline.entries.length = timeline.capacity
  · -- There is no free place, so the search for an entry that may go has succeeded.
    have hsome : (timeline.evictionIndex protectedMessageId).isSome := by
      have hshorter := length_evict_lt havailable
      rw [evict, if_pos hfull] at hshorter
      rcases hindex : timeline.evictionIndex protectedMessageId with _ | index
      · simp only [hindex] at hshorter
        omega
      · rfl
    obtain ⟨index, hindex⟩ := Option.isSome_iff_exists.mp hsome
    obtain ⟨hlt, hgoes, hbefore⟩ := List.findIdx?_eq_some_iff_getElem.mp hindex
    obtain ⟨hqueued, hprotected⟩ := mayGo_iff.mp hgoes
    refine .evicting (timeline.entries.take index) (timeline.entries.drop (index + 1))
      timeline.entries[index] hfull ?_ ?_ hqueued hprotected ?_ ?_
    · rw [List.getElem_cons_drop, List.take_append_drop]
    · intro entry hentry
      obtain ⟨i, hi, rfl⟩ := List.mem_take_iff_getElem.mp hentry
      have hstays := hbefore i (by omega)
      rw [mayGo_iff, not_and_or, not_not, ne_eq, not_not] at hstays
      exact hstays
    · simp only [evicted, if_pos hfull, hindex, Option.bind_some, List.getElem?_eq_getElem hlt,
        Option.map_some]
    · simp only [push, evict, if_pos hfull, hindex, List.eraseIdx_eq_take_drop_succ]
  · refine .free (by omega) ?_ ?_
    · simp only [evicted, if_neg hfull]
    · simp only [push, evict, if_neg hfull]

/-- The orders after an operation go on where they stopped before it. -/
theorem insert_orders (h : timeline.insert post origin protectedMessageId = .ok inserted) :
    inserted.timeline.capacity = timeline.capacity ∧
      inserted.receivedOrder = timeline.lastAssignedOrder + 1 ∧
      inserted.timeline.lastAssignedOrder = timeline.lastAssignedOrder + 1 ∧
      timeline.lastAssignedOrder ≠ kMaximumOrder := by
  obtain ⟨hnew, hqueue, havailable, rfl⟩ := insert_eq_ok.mp h
  refine ⟨rfl, rfl, rfl, ?_⟩
  intro hlast
  rw [insertionAvailability, if_pos hlast] at havailable
  cases havailable

/-- An operation inserts an entry, changes the state of a queued entry or changes nothing. -/
inductive Performs (timeline : Timeline) : TimelineAnswer × Timeline → Prop where
  | inserts {post : PostPayload} {origin : EntryOrigin} {protectedMessageId : Option MessageId}
      {inserted : Inserted} (h : timeline.insert post origin protectedMessageId = .ok inserted) :
      Performs timeline (.insertion .none inserted.evictedMessageId (some inserted.receivedOrder),
        inserted.timeline)
  | changes {entry : TimelineEntry} {target : LocalDeliveryState}
      (hentry : entry ∈ timeline.entries) (hqueued : entry.isQueued) (htarget : target ≠ .queued) :
      Performs timeline (.transition .none, timeline.withState entry.messageId target htarget)
  | idle {answer : TimelineAnswer} (hanswer : answer.assignedOrder = none) :
      Performs timeline (answer, timeline)

theorem answerInsertion_performs (timeline : Timeline) (post : PostPayload) (origin : EntryOrigin)
    (protectedMessageId : Option MessageId) :
    timeline.Performs (timeline.answerInsertion
      (timeline.insert post origin protectedMessageId)) := by
  rcases h : timeline.insert post origin protectedMessageId with error | inserted
  · exact .idle rfl
  · exact .inserts h

theorem answerTransition_performs (timeline : Timeline) (messageId : MessageId)
    (target : LocalDeliveryState) :
    timeline.Performs (timeline.answerTransition (timeline.transition messageId target)) := by
  rcases h : timeline.transition messageId target with error | changed
  · exact .idle rfl
  · obtain ⟨entry, hentry, rfl, ⟨-, rfl⟩ | ⟨horigin, htarget, rfl⟩⟩ := transition_eq_ok h
    · -- The state is already the target: the call succeeds and changes nothing.
      exact .idle rfl
    · exact .changes hentry (by simp [TimelineEntry.isQueued, horigin]) htarget

theorem apply_performs (timeline : Timeline) (operation : TimelineOperation) :
    timeline.Performs (timeline.apply operation) := by
  cases operation with
  | insertLocal post initialState => exact answerInsertion_performs timeline post _ _
  | insertReceived post => exact answerInsertion_performs timeline post _ _
  | markBroadcast messageId => exact answerTransition_performs timeline messageId _
  | markFailed messageId => exact answerTransition_performs timeline messageId _

/-- An operation that fails leaves the timeline as it is. -/
theorem apply_failed {operation : TimelineOperation}
    (h : (timeline.apply operation).1.ok = false) : (timeline.apply operation).2 = timeline := by
  have hinsertion (result : Except TimelineInsertError Inserted)
      (hfailed : (timeline.answerInsertion result).1.ok = false) :
      (timeline.answerInsertion result).2 = timeline := by
    rcases result with error | inserted
    · rfl
    · simp [answerInsertion, TimelineAnswer.ok] at hfailed
  have htransition (result : Except TransitionError Timeline)
      (hfailed : (timeline.answerTransition result).1.ok = false) :
      (timeline.answerTransition result).2 = timeline := by
    rcases result with error | changed
    · rfl
    · simp [answerTransition, TimelineAnswer.ok] at hfailed
  cases operation with
  | insertLocal post initialState => exact hinsertion _ h
  | insertReceived post => exact hinsertion _ h
  | markBroadcast messageId => exact htransition _ h
  | markFailed messageId => exact htransition _ h

/-! ### One timeline after another -/

/-- What a later timeline owes to an earlier one: an entry under an order that
was already given out is an entry of the earlier timeline, in which at most the
state of a queued post has changed. -/
structure Follows (earlier later : Timeline) : Prop where
  capacity : later.capacity = earlier.capacity
  orders : earlier.lastAssignedOrder ≤ later.lastAssignedOrder
  exhausted : earlier.lastAssignedOrder ≤ kMaximumOrder → later.lastAssignedOrder ≤ kMaximumOrder
  entries : ∀ kept ∈ later.entries, earlier.lastAssignedOrder < kept.receivedOrder ∨
    ∃ entry ∈ earlier.entries, kept.receivedOrder = entry.receivedOrder ∧
      kept.post = entry.post ∧ (¬entry.isQueued → kept = entry)

namespace Follows

variable {earlier middle later : Timeline}

theorem refl (timeline : Timeline) : Follows timeline timeline :=
  ⟨rfl, le_refl _, id, fun kept hkept => .inr ⟨kept, hkept, rfl, rfl, fun _ => rfl⟩⟩

theorem trans (hfirst : Follows earlier middle) (hsecond : Follows middle later) :
    Follows earlier later where
  capacity := hsecond.capacity.trans hfirst.capacity
  orders := le_trans hfirst.orders hsecond.orders
  exhausted h := hsecond.exhausted (hfirst.exhausted h)
  entries kept hkept := by
    obtain hnew | ⟨between, hbetween, horder, hpost, hsame⟩ := hsecond.entries kept hkept
    · exact .inl (lt_of_le_of_lt hfirst.orders hnew)
    obtain hnew | ⟨entry, hentry, horder', hpost', hsame'⟩ := hfirst.entries between hbetween
    · exact .inl (horder ▸ hnew)
    · refine .inr ⟨entry, hentry, horder.trans horder', hpost.trans hpost', ?_⟩
      intro hqueued
      obtain rfl := hsame' hqueued
      exact hsame hqueued

/-- An entry outside the queue does not change. -/
theorem eq_of_order (h : Follows earlier later) {entry kept : TimelineEntry}
    (hentry : entry ∈ earlier.entries) (hqueued : ¬entry.isQueued) (hkept : kept ∈ later.entries)
    (horder : kept.receivedOrder = entry.receivedOrder) : kept = entry := by
  obtain hnew | ⟨other, hother, horder', -, hsame⟩ := h.entries kept hkept
  · have := earlier.stamped.bounded entry hentry
    omega
  · obtain rfl := earlier.stamped.eq_of_stamp hother hentry (horder'.symm.trans horder)
    exact hsame hqueued

end Follows

theorem follows_insert (h : timeline.insert post origin protectedMessageId = .ok inserted) :
    Follows timeline inserted.timeline := by
  obtain ⟨hcapacity, -, hlast, hfree⟩ := insert_orders h
  obtain ⟨hnew, hqueue, havailable, rfl⟩ := insert_eq_ok.mp h
  refine ⟨hcapacity, by omega, by omega, ?_⟩
  intro kept hkept
  rcases List.mem_append.mp hkept with hold | hadded
  · exact .inr ⟨kept, evict_sublist.subset hold, rfl, rfl, fun _ => rfl⟩
  · obtain rfl := List.mem_singleton.mp hadded
    exact .inl (Nat.lt_succ_self _)

theorem follows_withState {entry : TimelineEntry} {target : LocalDeliveryState}
    (hentry : entry ∈ timeline.entries) (hqueued : entry.isQueued) (htarget : target ≠ .queued) :
    Follows timeline (timeline.withState entry.messageId target htarget) := by
  refine ⟨rfl, le_refl _, id, ?_⟩
  intro kept hkept
  obtain ⟨before, hbefore, rfl⟩ := List.mem_map.mp hkept
  refine .inr ⟨before, hbefore, ?_⟩
  by_cases hid : before.messageId = entry.messageId
  · -- The id leads to one entry only, and this one is queued.
    obtain rfl : before = entry :=
      List.inj_on_of_nodup_map timeline.stamped.distinct hbefore hentry hid
    rw [if_pos rfl]
    exact ⟨rfl, rfl, fun hnot => absurd hqueued hnot⟩
  · rw [if_neg hid]
    exact ⟨rfl, rfl, fun _ => rfl⟩

theorem follows_apply (timeline : Timeline) (operation : TimelineOperation) :
    Follows timeline (timeline.apply operation).2 := by
  generalize hresult : timeline.apply operation = result
  have hperforms := hresult ▸ apply_performs timeline operation
  cases hperforms with
  | inserts h => exact follows_insert h
  | changes hentry hqueued htarget => exact follows_withState hentry hqueued htarget
  | idle _ => exact .refl timeline

/-! ### Runs -/

def run (timeline : Timeline) (operations : List TimelineOperation) : Timeline :=
  operations.foldl (fun current operation => (current.apply operation).2) timeline

/-- The orders given out in a run, the first one first. -/
def assignedOrders (timeline : Timeline) : List TimelineOperation → List ℕ
  | [] => []
  | operation :: operations =>
    (timeline.apply operation).1.assignedOrder.toList ++
      (timeline.apply operation).2.assignedOrders operations

theorem follows_run (timeline : Timeline) (operations : List TimelineOperation) :
    Follows timeline (timeline.run operations) := by
  induction operations generalizing timeline with
  | nil => exact .refl timeline
  | cons operation operations ih =>
    exact (follows_apply timeline operation).trans (ih (timeline.apply operation).2)

theorem assignedOrder_apply {operation : TimelineOperation} {order : ℕ}
    (h : (timeline.apply operation).1.assignedOrder = some order) :
    order = timeline.lastAssignedOrder + 1 ∧
      order = (timeline.apply operation).2.lastAssignedOrder := by
  generalize hresult : timeline.apply operation = result at h ⊢
  have hperforms := hresult ▸ apply_performs timeline operation
  cases hperforms with
  | inserts hinsert =>
    obtain ⟨-, horder, hlast, -⟩ := insert_orders hinsert
    obtain rfl : _ = order := Option.some.inj h
    exact ⟨horder, horder.trans hlast.symm⟩
  | changes _ _ _ => cases h
  | idle hanswer =>
    rw [hanswer] at h
    cases h

/-- No order is given out twice, and none that was given out before the run. -/
theorem assignedOrders_pairwise (timeline : Timeline) (operations : List TimelineOperation) :
    (timeline.assignedOrders operations).Pairwise (· < ·) ∧
      ∀ order ∈ timeline.assignedOrders operations, timeline.lastAssignedOrder < order ∧
        order ≤ (timeline.run operations).lastAssignedOrder := by
  induction operations generalizing timeline with
  | nil => exact ⟨.nil, by simp [assignedOrders]⟩
  | cons operation operations ih =>
    obtain ⟨hpairwise, hbounds⟩ := ih (timeline.apply operation).2
    have hstep := (follows_apply timeline operation).orders
    have hrest := (follows_run (timeline.apply operation).2 operations).orders
    rw [assignedOrders]
    rcases hassigned : (timeline.apply operation).1.assignedOrder with _ | order
    · refine ⟨hpairwise, ?_⟩
      intro other hother
      obtain ⟨hlt, hle⟩ := hbounds other hother
      exact ⟨lt_of_le_of_lt hstep hlt, hle⟩
    · obtain ⟨hnext, hlast⟩ := assignedOrder_apply hassigned
      refine ⟨List.pairwise_cons.mpr ⟨?_, hpairwise⟩, ?_⟩
      · intro other hother
        exact hlast ▸ (hbounds other hother).1
      · intro other hother
        rcases List.mem_cons.mp hother with rfl | hother
        · exact ⟨by omega, le_trans hlast.le hrest⟩
        · obtain ⟨hlt, hle⟩ := hbounds other hother
          exact ⟨lt_of_le_of_lt hstep hlt, hle⟩

/-- Whatever the operations of a run are, the timeline they lead to is one that
`restore` accepts and rebuilds, its orders go on from those of the start, and
each further operation takes out at most the oldest entry it may. -/
theorem timeline_representation {capacity lastAssignedOrder : ℕ} {entries : List TimelineEntry}
    {start : Timeline} (hlast : lastAssignedOrder ≤ kMaximumOrder)
    (hstart : create capacity lastAssignedOrder = some start ∨
      restore capacity lastAssignedOrder entries = .ok start)
    (operations : List TimelineOperation) :
    ((start.run operations).entries.length ≤ capacity ∧
      (start.run operations).entries.Pairwise (·.receivedOrder < ·.receivedOrder) ∧
      (∀ entry ∈ (start.run operations).entries,
        entry.receivedOrder ≤ (start.run operations).lastAssignedOrder) ∧
      ((start.run operations).entries.map TimelineEntry.messageId).Nodup ∧
      (start.run operations).entries.countP TimelineEntry.isQueued ≤ min 16 (capacity - 1) ∧
      restore capacity (start.run operations).lastAssignedOrder (start.run operations).entries =
        .ok (start.run operations)) ∧
    (lastAssignedOrder ≤ (start.run operations).lastAssignedOrder ∧
      (start.run operations).lastAssignedOrder ≤ kMaximumOrder ∧
      (start.assignedOrders operations).Pairwise (· < ·) ∧
      ∀ order ∈ start.assignedOrders operations, lastAssignedOrder < order) ∧
    (∀ operation, (start.run operations).lastAssignedOrder ≤
        ((start.run operations).apply operation).2.lastAssignedOrder ∧
      (((start.run operations).apply operation).1.ok = false →
        ((start.run operations).apply operation).2 = start.run operations)) ∧
    ((∀ post initialState inserted,
        (start.run operations).insertLocal post initialState = .ok inserted →
        (start.run operations).Inserts post (.localDelivery initialState) post.replyTo inserted) ∧
      ∀ post inserted, (start.run operations).insertReceived post = .ok inserted →
        (start.run operations).Inserts post .receivedOrigin none inserted) ∧
    ∀ entry ∈ (start.run operations).entries, ¬entry.isQueued → ∀ further,
      ∀ kept ∈ ((start.run operations).run further).entries,
        kept.receivedOrder = entry.receivedOrder → kept = entry := by
  have hbegin : start.capacity = capacity ∧ start.lastAssignedOrder = lastAssignedOrder := by
    rcases hstart with hcreate | hrestore
    · exact ⟨(create_eq_some hcreate).1, (create_eq_some hcreate).2.1⟩
    · exact ⟨(restore_eq_ok.mp hrestore).1, (restore_eq_ok.mp hrestore).2.1⟩
  have hfollows := follows_run start operations
  have hcapacity : (start.run operations).capacity = capacity :=
    hfollows.capacity.trans hbegin.1
  obtain ⟨hassigned, hnew⟩ := assignedOrders_pairwise start operations
  refine ⟨⟨?_, ?_, ?_, ?_, ?_, ?_⟩, ⟨?_, ?_, hassigned, ?_⟩, ?_, ⟨?_, ?_⟩, ?_⟩
  · exact hcapacity ▸ (start.run operations).length_le
  · exact (start.run operations).stamped.increasing
  · exact (start.run operations).stamped.bounded
  · exact (start.run operations).stamped.distinct
  · exact hcapacity ▸ (start.run operations).queued_le
  · exact restore_eq_ok.mpr ⟨hcapacity, rfl, rfl⟩
  · exact hbegin.2 ▸ hfollows.orders
  · exact hfollows.exhausted (hbegin.2 ▸ hlast)
  · exact fun order horder => hbegin.2 ▸ (hnew order horder).1
  · exact fun operation => ⟨(follows_apply _ operation).orders, apply_failed⟩
  · exact fun post initialState inserted h => inserts_of_insert h
  · exact fun post inserted h => inserts_of_insert h
  · intro entry hentry hqueued further kept hkept horder
    exact (follows_run _ further).eq_of_order hentry hqueued hkept horder

def sampleTimeline : Timeline where
  capacity := 2
  lastAssignedOrder := 7
  entries := [⟨samplePost, 5, .receivedOrigin⟩]
  capacity_pos := by decide
  capacity_le := by decide
  length_le := by decide
  stamped := ⟨by decide, by decide, by decide, by decide⟩
  queued_le := by decide

/-- A post from here takes the last place, a received one that of the oldest entry, and
the first of them is marked. -/
def sampleOperations : List TimelineOperation :=
  [.insertLocal (numberedPost 2) .queued, .insertReceived (numberedPost 3),
    .markBroadcast (numberedPost 2).messageId]

theorem timeline_representation_sampleEntry :
    restore 2 7 [⟨samplePost, 5, .receivedOrigin⟩] = .ok sampleTimeline ∧
      (sampleTimeline.run sampleOperations).entries =
        [⟨numberedPost 2, 8, .localDelivery .broadcast⟩, ⟨numberedPost 3, 9, .receivedOrigin⟩] ∧
      restore 2 (sampleTimeline.run sampleOperations).lastAssignedOrder
        (sampleTimeline.run sampleOperations).entries =
          .ok (sampleTimeline.run sampleOperations) := by
  have hstart : restore 2 7 [⟨samplePost, 5, .receivedOrigin⟩] = .ok sampleTimeline :=
    restore_eq_ok.mpr ⟨rfl, rfl, rfl⟩
  obtain ⟨⟨-, -, -, -, -, hrestores⟩, -⟩ :=
    timeline_representation (by decide) (.inr hstart) sampleOperations
  exact ⟨hstart, by decide +kernel, hrestores⟩

end Timeline

end Lora
