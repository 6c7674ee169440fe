/-
The timeline.

Entries are numbered in the order of their arrival and kept in that order.  A
local post that is still queued is never evicted; any other entry is, oldest
first, once the timeline is full.

* `Timeline` carries what `restore` checks, `restore_eq_ok` says so;
* `insert_eq_ok`, `insertReceived_eq` — what an insertion does, and that a
  received post under a new id always finds a place;
* `transition_eq_ok` — a transition changes the state of one entry.
-/
import LoraMessenger.Dedupe

namespace Lora

inductive LocalDeliveryState where
  | queued
  | broadcast
  | failed
  | unknown
deriving DecidableEq

inductive EntryOrigin where
  | receivedOrigin
  | localDelivery (state : LocalDeliveryState)
deriving DecidableEq

structure TimelineEntry where
  post : PostPayload
  receivedOrder : ℕ
  origin : EntryOrigin
deriving DecidableEq

inductive TimelineInsertError where
  | none
  | duplicate
  | conflict
  | queueFull
  | full
  | orderExhausted
deriving DecidableEq

inductive TransitionError where
  | none
  | notFound
  | notLocal
  | invalidState
deriving DecidableEq

inductive TimelineRestoreError where
  | invalidCapacity
  | tooManyEntries
  | invalidOrder
  | duplicateMessageId
  | tooManyQueuedEntries
deriving DecidableEq

namespace TimelineEntry

def messageId (entry : TimelineEntry) : MessageId := entry.post.messageId

def isQueued (entry : TimelineEntry) : Bool := entry.origin = .localDelivery .queued

end TimelineEntry

structure Timeline where
  capacity : ℕ
  lastAssignedOrder : ℕ
  entries : List TimelineEntry
  capacity_pos : 0 < capacity
  capacity_le : capacity ≤ kMaxTimelineEntries
  length_le : entries.length ≤ capacity
  stamped : Stamped TimelineEntry.messageId TimelineEntry.receivedOrder lastAssignedOrder entries
  queued_le : entries.countP TimelineEntry.isQueued ≤ min kMaxQueuedLocalPosts (capacity - 1)

namespace Timeline

@[ext] theorem ext_data {left right : Timeline} (hcapacity : left.capacity = right.capacity)
    (hlast : left.lastAssignedOrder = right.lastAssignedOrder)
    (hentries : left.entries = right.entries) : left = right := by
  cases left
  cases right
  simp_all

/-- `Timeline{}`. -/
def empty : Timeline where
  capacity := kMaxTimelineEntries
  lastAssignedOrder := 0
  entries := []
  capacity_pos := by decide
  capacity_le := le_refl _
  length_le := Nat.zero_le _
  stamped := Stamped.nil
  queued_le := Nat.zero_le _

/-! ### Restoring -/

/-- The loop of `restore`, which counts the queued entries as it goes. -/
def checkEntries (lastAssignedOrder : ℕ) (before : List TimelineEntry)
    (previousOrder queuedCount : ℕ) : List TimelineEntry → Except TimelineRestoreError ℕ
  | [] => .ok queuedCount
  | entry :: rest =>
    if entry.receivedOrder = 0 ∨ entry.receivedOrder > lastAssignedOrder ∨
        (before ≠ [] ∧ entry.receivedOrder ≤ previousOrder) then .error .invalidOrder
    else if before.any (fun existing => existing.messageId = entry.messageId) then
      .error .duplicateMessageId
    else checkEntries lastAssignedOrder (before ++ [entry]) entry.receivedOrder
      (queuedCount + if entry.isQueued then 1 else 0) rest

theorem checkEntries_eq_ok {lastAssignedOrder previousOrder queuedCount total : ℕ}
    {before entries : List TimelineEntry} (hprevious : before = [] → previousOrder = 0) :
    checkEntries lastAssignedOrder before previousOrder queuedCount entries = .ok total ↔
      total = queuedCount + entries.countP TimelineEntry.isQueued ∧
      (entries.map TimelineEntry.messageId).Nodup ∧
      (∀ entry ∈ entries, ∀ existing ∈ before, existing.messageId ≠ entry.messageId) ∧
      entries.Pairwise (·.receivedOrder < ·.receivedOrder) ∧
      ∀ entry ∈ entries, previousOrder < entry.receivedOrder ∧
        entry.receivedOrder ≤ lastAssignedOrder := by
  induction entries generalizing before previousOrder queuedCount with
  | nil => simp [checkEntries, eq_comm]
  | cons entry rest ih =>
    rw [checkEntries, Guard.ite_error_eq_ok, Guard.ite_error_eq_ok, ih (by simp)]
    have horder : (¬(entry.receivedOrder = 0 ∨ entry.receivedOrder > lastAssignedOrder ∨
        (before ≠ [] ∧ entry.receivedOrder ≤ previousOrder))) ↔
        previousOrder < entry.receivedOrder ∧ entry.receivedOrder ≤ lastAssignedOrder := by
      by_cases hbefore : before = []
      · have := hprevious hbefore
        simp only [hbefore, ne_eq, not_true_eq_false, false_and, or_false]
        omega
      · simp only [ne_eq, hbefore, not_false_eq_true, true_and]
        omega
    rw [horder]
    simp only [List.any_eq_true, decide_eq_true_eq, not_exists, not_and, List.countP_cons,
      List.map_cons, List.nodup_cons, List.pairwise_cons, List.mem_cons, forall_eq_or_imp,
      List.mem_map, List.mem_append, List.not_mem_nil, or_false]
    constructor
    · rintro ⟨hbounds, hfresh, htotal, hnodup, hids, hpairwise, hrest⟩
      refine ⟨by omega, ⟨?_, hnodup⟩, ⟨hfresh, fun other hother existing hexisting =>
        hids other hother existing (.inl hexisting)⟩, ⟨fun other hother => (hrest other hother).1,
        hpairwise⟩, hbounds, fun other hother => ⟨lt_trans hbounds.1 (hrest other hother).1,
        (hrest other hother).2⟩⟩
      exact fun other hother heq => hids other hother entry (.inr rfl) heq.symm
    · rintro ⟨htotal, ⟨hnew, hnodup⟩, ⟨hfresh, hids⟩, ⟨hlater, hpairwise⟩, hbounds, hrest⟩
      refine ⟨hbounds, hfresh, by omega, hnodup, ?_, hpairwise, fun other hother =>
        ⟨hlater other hother, (hrest other hother).2⟩⟩
      rintro other hother existing (hexisting | rfl)
      · exact hids other hother existing hexisting
      · exact fun heq => hnew other hother heq.symm

def restoreCheck (capacity lastAssignedOrder : ℕ) (entries : List TimelineEntry) :
    Except TimelineRestoreError Unit :=
  if capacity = 0 ∨ capacity > kMaxTimelineEntries then .error .invalidCapacity
  else if entries.length > capacity then .error .tooManyEntries
  else match checkEntries lastAssignedOrder [] 0 0 entries with
    | .error error => .error error
    | .ok queuedCount =>
      if queuedCount > min kMaxQueuedLocalPosts (capacity - 1) then .error .tooManyQueuedEntries
      else .ok ()

theorem restoreCheck_eq_ok {capacity lastAssignedOrder : ℕ} {entries : List TimelineEntry} :
    restoreCheck capacity lastAssignedOrder entries = .ok () ↔
      0 < capacity ∧ capacity ≤ kMaxTimelineEntries ∧ entries.length ≤ capacity ∧
      Stamped TimelineEntry.messageId TimelineEntry.receivedOrder lastAssignedOrder entries ∧
      entries.countP TimelineEntry.isQueued ≤ min kMaxQueuedLocalPosts (capacity - 1) := by
  rw [restoreCheck, Guard.ite_error_eq_ok, Guard.ite_error_eq_ok]
  have hcheck {total : ℕ} : checkEntries lastAssignedOrder [] 0 0 entries = .ok total ↔ _ :=
    checkEntries_eq_ok (fun _ => rfl)
  constructor
  · rintro ⟨hcapacity, hlength, h⟩
    rcases hrun : checkEntries lastAssignedOrder [] 0 0 entries with error | total
    · simp [hrun] at h
    · simp only [hrun, Guard.ite_error_eq_ok, and_true] at h
      obtain ⟨rfl, hnodup, -, hpairwise, hbounds⟩ := hcheck.mp hrun
      exact ⟨by omega, by omega, by omega, ⟨hnodup, hpairwise, fun entry hentry =>
        (hbounds entry hentry).1, fun entry hentry => (hbounds entry hentry).2⟩, by omega⟩
  · rintro ⟨hpos, hle, hlength, hstamped, hqueued⟩
    refine ⟨by omega, by omega, ?_⟩
    rw [hcheck.mpr ⟨rfl, hstamped.distinct, by simp, hstamped.increasing, fun entry hentry =>
      ⟨hstamped.positive entry hentry, hstamped.bounded entry hentry⟩⟩]
    simp only [Guard.ite_error_eq_ok, and_true]
    omega

def restore (capacity lastAssignedOrder : ℕ) (entries : List TimelineEntry) :
    Except TimelineRestoreError Timeline :=
  match h : restoreCheck capacity lastAssignedOrder entries with
  | .error error => .error error
  | .ok () =>
    have valid := restoreCheck_eq_ok.mp h
    .ok { capacity, lastAssignedOrder, entries
          capacity_pos := valid.1
          capacity_le := valid.2.1
          length_le := valid.2.2.1
          stamped := valid.2.2.2.1
          queued_le := valid.2.2.2.2 }

/-- The checks of `restore` are what a timeline carries. -/
theorem restore_eq_ok {capacity lastAssignedOrder : ℕ} {entries : List TimelineEntry}
    {timeline : Timeline} : restore capacity lastAssignedOrder entries = .ok timeline ↔
      timeline.capacity = capacity ∧ timeline.lastAssignedOrder = lastAssignedOrder ∧
      timeline.entries = entries := by
  unfold restore
  constructor
  · intro h
    split at h
    · cases h
    · cases h
      exact ⟨rfl, rfl, rfl⟩
  · rintro ⟨rfl, rfl, rfl⟩
    have hok : restoreCheck timeline.capacity timeline.lastAssignedOrder
        timeline.entries = .ok () :=
      restoreCheck_eq_ok.mpr ⟨timeline.capacity_pos, timeline.capacity_le, timeline.length_le,
        timeline.stamped, timeline.queued_le⟩
    split
    · rename_i herror
      rw [hok] at herror
      cases herror
    · rfl

/-! ### Inserting -/

def queuedCapacity (timeline : Timeline) : ℕ := min kMaxQueuedLocalPosts (timeline.capacity - 1)

def queuedCount (timeline : Timeline) : ℕ := timeline.entries.countP TimelineEntry.isQueued

def find (timeline : Timeline) (messageId : MessageId) : Option TimelineEntry :=
  timeline.entries.find? (fun entry => entry.messageId = messageId)

/-- Whether the loop of `eviction_index` stops at an entry. -/
def mayGo (protectedMessageId : Option MessageId) (entry : TimelineEntry) : Bool :=
  !(protectedMessageId = some entry.messageId) && !entry.isQueued

def evictionIndex (timeline : Timeline) (protectedMessageId : Option MessageId) : Option ℕ :=
  timeline.entries.findIdx? (mayGo protectedMessageId)

def insertionAvailability (timeline : Timeline) (protectedMessageId : Option MessageId) :
    TimelineInsertError :=
  if timeline.lastAssignedOrder = kMaximumOrder then .orderExhausted
  else if timeline.entries.length < timeline.capacity ∨
      (timeline.evictionIndex protectedMessageId).isSome then .none
  else .full

/-- The id of the entry that has to go, if one has. -/
def evicted (timeline : Timeline) (protectedMessageId : Option MessageId) : Option MessageId :=
  if timeline.entries.length = timeline.capacity then
    (timeline.evictionIndex protectedMessageId).bind fun index =>
      timeline.entries[index]?.map TimelineEntry.messageId
  else none

/-- The entries once there is room for one more. -/
def evict (timeline : Timeline) (protectedMessageId : Option MessageId) : List TimelineEntry :=
  if timeline.entries.length = timeline.capacity then
    match timeline.evictionIndex protectedMessageId with
    | none => timeline.entries
    | some index => timeline.entries.eraseIdx index
  else timeline.entries

variable {timeline : Timeline} {messageId : MessageId} {protectedMessageId : Option MessageId}

theorem find_eq_none : timeline.find messageId = none ↔
    messageId ∉ timeline.entries.map TimelineEntry.messageId := by
  simp [find]

theorem find_of_mem {entry : TimelineEntry} (hentry : entry ∈ timeline.entries) :
    timeline.find entry.messageId = some entry :=
  timeline.stamped.find?_eq hentry

theorem mem_of_find {entry : TimelineEntry} (h : timeline.find messageId = some entry) :
    entry ∈ timeline.entries ∧ entry.messageId = messageId :=
  ⟨List.mem_of_find?_eq_some h, by simpa using List.find?_some h⟩

theorem evict_eq : timeline.evict protectedMessageId =
    Stamped.makeRoom timeline.capacity (mayGo protectedMessageId) timeline.entries := by
  have hle := timeline.length_le
  rw [evict, Stamped.makeRoom, List.eraseP_eq_eraseIdx, evictionIndex]
  by_cases hfull : timeline.entries.length = timeline.capacity
  · rw [if_pos hfull, if_pos (by omega)]
    rcases timeline.entries.findIdx? (mayGo protectedMessageId) with _ | index <;> rfl
  · rw [if_neg hfull, if_neg (by omega)]

theorem evict_sublist : (timeline.evict protectedMessageId).Sublist timeline.entries := by
  rw [evict_eq]
  exact Stamped.makeRoom_sublist

theorem length_evict_lt (h : timeline.insertionAvailability protectedMessageId = .none) :
    (timeline.evict protectedMessageId).length < timeline.capacity := by
  rw [evict_eq]
  refine Stamped.length_makeRoom_lt timeline.length_le timeline.capacity_pos ?_
  have hroom : timeline.entries.length < timeline.capacity ∨
      (timeline.evictionIndex protectedMessageId).isSome := by
    by_contra hnone
    simp only [insertionAvailability, if_neg hnone] at h
    split at h <;> cases h
  simpa [evictionIndex] using hroom

/-- `push_back` of a new entry, once there is room for it. -/
def push (timeline : Timeline) (post : PostPayload) (origin : EntryOrigin)
    (protectedMessageId : Option MessageId) (hnew : timeline.find post.messageId = none)
    (hqueue : ¬(origin = .localDelivery .queued ∧ timeline.queuedCount ≥ timeline.queuedCapacity))
    (havailable : timeline.insertionAvailability protectedMessageId = .none) : Timeline where
  capacity := timeline.capacity
  lastAssignedOrder := timeline.lastAssignedOrder + 1
  entries := timeline.evict protectedMessageId ++ [⟨post, timeline.lastAssignedOrder + 1, origin⟩]
  capacity_pos := timeline.capacity_pos
  capacity_le := timeline.capacity_le
  length_le := by
    have := length_evict_lt havailable
    rw [List.length_append, List.length_singleton]
    omega
  stamped := by
    refine (timeline.stamped.sublist evict_sublist).concat ?_ rfl
    exact fun hmem => find_eq_none.mp hnew ((evict_sublist.map _).subset hmem)
  queued_le := by
    have hkept : (timeline.evict protectedMessageId).countP TimelineEntry.isQueued ≤
        timeline.entries.countP TimelineEntry.isQueued := evict_sublist.countP_le
    have hle := timeline.queued_le
    simp only [queuedCount, queuedCapacity] at hqueue
    rw [List.countP_append, List.countP_singleton, TimelineEntry.isQueued]
    by_cases horigin : origin = .localDelivery .queued
    · simp only [horigin, true_and, decide_true, if_true] at hqueue ⊢
      omega
    · simp only [horigin, decide_false, Bool.false_eq_true, if_false]
      omega

structure Inserted where
  timeline : Timeline
  evictedMessageId : Option MessageId
  receivedOrder : ℕ

/-- On an error the timeline is left as it is. -/
def insert (timeline : Timeline) (post : PostPayload) (origin : EntryOrigin)
    (protectedMessageId : Option MessageId) : Except TimelineInsertError Inserted :=
  match hfind : timeline.find post.messageId with
  | some existing => .error (if existing.post = post then .duplicate else .conflict)
  | none =>
    if hqueue : origin = .localDelivery .queued ∧
        timeline.queuedCount ≥ timeline.queuedCapacity then .error .queueFull
    else if havailable : timeline.insertionAvailability protectedMessageId = .none then
      .ok { timeline := timeline.push post origin protectedMessageId hfind hqueue havailable
            evictedMessageId := timeline.evicted protectedMessageId
            receivedOrder := timeline.lastAssignedOrder + 1 }
    else .error (timeline.insertionAvailability protectedMessageId)

def insertReceived (timeline : Timeline) (post : PostPayload) :
    Except TimelineInsertError Inserted :=
  timeline.insert post .receivedOrigin none

/-- The parent of a reply is protected from eviction. -/
def insertLocal (timeline : Timeline) (post : PostPayload)
    (initialState : LocalDeliveryState := .queued) : Except TimelineInsertError Inserted :=
  timeline.insert post (.localDelivery initialState) post.replyTo

variable {post : PostPayload} {origin : EntryOrigin} {inserted : Inserted}

theorem insert_eq_ok : timeline.insert post origin protectedMessageId = .ok inserted ↔
    ∃ hnew hqueue havailable, inserted =
      ⟨timeline.push post origin protectedMessageId hnew hqueue havailable,
        timeline.evicted protectedMessageId, timeline.lastAssignedOrder + 1⟩ := by
  unfold insert
  constructor
  · intro h
    split at h
    · cases h
    · rename_i hnew
      split at h
      · cases h
      · rename_i hqueue
        split at h
        · rename_i havailable
          cases h
          exact ⟨hnew, hqueue, havailable, rfl⟩
        · cases h
  · rintro ⟨hnew, hqueue, havailable, rfl⟩
    split
    · simp_all
    · rw [dif_neg hqueue, dif_pos havailable]

/-- There are too few queued entries to fill a timeline, so a received post
never finds it full. -/
theorem insertionAvailability_none (hlast : timeline.lastAssignedOrder ≠ kMaximumOrder) :
    timeline.insertionAvailability none = .none := by
  rw [insertionAvailability, if_neg hlast, if_pos]
  by_contra hfull
  rw [not_or] at hfull
  have hqueued : ∀ entry ∈ timeline.entries, entry.isQueued := by
    intro entry hentry
    by_contra hnot
    refine hfull.2 ?_
    simp only [evictionIndex, List.findIdx?_isSome, List.any_eq_true]
    exact ⟨entry, hentry, by simp [mayGo, hnot]⟩
  have hcount := List.countP_eq_length.mpr hqueued
  have := timeline.queued_le
  have := timeline.capacity_pos
  omega

theorem insertReceived_eq (hlast : timeline.lastAssignedOrder ≠ kMaximumOrder)
    (hnew : timeline.find post.messageId = none) :
    ∃ inserted, timeline.insertReceived post = .ok inserted := by
  refine ⟨_, insert_eq_ok.mpr ⟨hnew, by simp, insertionAvailability_none hlast, rfl⟩⟩

theorem insertReceived_exhausted (hlast : timeline.lastAssignedOrder = kMaximumOrder)
    (hnew : timeline.find post.messageId = none) :
    timeline.insertReceived post = .error .orderExhausted := by
  have hexhausted : timeline.insertionAvailability none = .orderExhausted := by
    rw [insertionAvailability, if_pos hlast]
  unfold insertReceived insert
  split
  · simp_all
  · rw [dif_neg (by simp), dif_neg (by simp [hexhausted]), hexhausted]

/-! ### Transitions -/

/-- Changes the state of the entry under an id; no other entry has this id. -/
def setState (entries : List TimelineEntry) (messageId : MessageId) (target : LocalDeliveryState) :
    List TimelineEntry :=
  entries.map fun entry =>
    if entry.messageId = messageId then { entry with origin := .localDelivery target } else entry

theorem stamped_setState {lastAssignedOrder : ℕ} {entries : List TimelineEntry}
    (h : Stamped TimelineEntry.messageId TimelineEntry.receivedOrder lastAssignedOrder entries)
    (messageId : MessageId) (target : LocalDeliveryState) :
    Stamped TimelineEntry.messageId TimelineEntry.receivedOrder lastAssignedOrder
      (setState entries messageId target) := by
  refine h.map ?_ ?_
  · intro entry
    split <;> rfl
  · intro entry
    split <;> rfl

theorem countP_setState_le {entries : List TimelineEntry} (messageId : MessageId)
    {target : LocalDeliveryState} (htarget : target ≠ .queued) :
    (setState entries messageId target).countP TimelineEntry.isQueued ≤
      entries.countP TimelineEntry.isQueued := by
  rw [setState, List.countP_map]
  refine List.countP_mono_left ?_
  intro entry _ hqueued
  by_cases hid : entry.messageId = messageId
  · simp [hid, TimelineEntry.isQueued, htarget] at hqueued
  · simpa [hid] using hqueued

def withState (timeline : Timeline) (messageId : MessageId) (target : LocalDeliveryState)
    (htarget : target ≠ .queued) : Timeline where
  capacity := timeline.capacity
  lastAssignedOrder := timeline.lastAssignedOrder
  entries := setState timeline.entries messageId target
  capacity_pos := timeline.capacity_pos
  capacity_le := timeline.capacity_le
  length_le := by
    rw [setState, List.length_map]
    exact timeline.length_le
  stamped := stamped_setState timeline.stamped messageId target
  queued_le := le_trans (countP_setState_le messageId htarget) timeline.queued_le

/-- A repeated transition is no error and changes nothing. -/
def transition (timeline : Timeline) (messageId : MessageId) (target : LocalDeliveryState) :
    Except TransitionError Timeline :=
  match timeline.find messageId with
  | none => .error .notFound
  | some entry =>
    match entry.origin with
    | .receivedOrigin => .error .notLocal
    | .localDelivery state =>
      if hsame : state = target then .ok timeline
      else if hqueued : state ≠ .queued then .error .invalidState
      else .ok (timeline.withState messageId target
        (fun htarget => hsame ((not_not.mp hqueued).trans htarget.symm)))

def markBroadcast (timeline : Timeline) (messageId : MessageId) : Except TransitionError Timeline :=
  timeline.transition messageId .broadcast

def markFailed (timeline : Timeline) (messageId : MessageId) : Except TransitionError Timeline :=
  timeline.transition messageId .failed

theorem transition_eq_ok {target : LocalDeliveryState} {changed : Timeline}
    (h : timeline.transition messageId target = .ok changed) :
    ∃ entry ∈ timeline.entries, entry.messageId = messageId ∧
      ((entry.origin = .localDelivery target ∧ changed = timeline) ∨
        (entry.origin = .localDelivery .queued ∧ ∃ htarget,
          changed = timeline.withState messageId target htarget)) := by
  unfold transition at h
  rcases hfind : timeline.find messageId with _ | entry
  · simp [hfind] at h
  obtain ⟨hmem, hid⟩ := mem_of_find hfind
  refine ⟨entry, hmem, hid, ?_⟩
  rcases horigin : entry.origin with _ | state
  · simp [hfind, horigin] at h
  · simp only [hfind, horigin] at h
    by_cases hsame : state = target
    · rw [dif_pos hsame] at h
      cases h
      exact .inl ⟨by rw [hsame], rfl⟩
    · rw [dif_neg hsame] at h
      by_cases hqueued : state = .queued
      · rw [dif_neg (by simpa using hqueued)] at h
        cases h
        exact .inr ⟨by rw [hqueued], _, rfl⟩
      · rw [dif_pos hqueued] at h
        cases h

/-- A queued post takes any other state. -/
theorem transition_queued {target : LocalDeliveryState} {entry : TimelineEntry}
    (hentry : entry ∈ timeline.entries) (hqueued : entry.isQueued) (htarget : target ≠ .queued) :
    timeline.transition entry.messageId target =
      .ok (timeline.withState entry.messageId target htarget) := by
  have horigin : entry.origin = .localDelivery .queued := by
    simpa [TimelineEntry.isQueued] using hqueued
  rw [transition, find_of_mem hentry]
  simp [horigin, Ne.symm htarget]

end Timeline

end Lora
