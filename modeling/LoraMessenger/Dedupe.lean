/-
The ledger of seen messages.

The ledger keeps the whole encoding of every message it remembers, so that a
later copy can be told from a forgery under the same id.  It holds a bounded
number of records; the oldest record that nobody protects makes room for a new
one.

* `MessageDedupeWindow` carries what `restore` checks, `restore_eq_ok` says so;
* `remember_eq` — what remembering a new post does to the records;
* `classify_push`, `classify_push_self` — what is remembered is a duplicate,
  and stays one while it is protected.
-/
import LoraMessenger.PostCodec
import LoraMessenger.Stamped
import Mathlib.Data.List.Perm.Subperm

namespace Lora

def kDefaultSeenMessageCapacity : ℕ := 2048

/-- The largest 64-bit order. -/
def kMaximumOrder : ℕ := 2 ^ 64 - 1

structure SeenMessageRecord where
  messageId : MessageId
  seenOrder : ℕ
  encodedPost : Bytes
deriving DecidableEq

inductive DedupeClassification where
  | new
  | duplicate
  | conflict
  | invalid
deriving DecidableEq

inductive DedupeError where
  | none
  | invalidCapacity
  | tooManyRecords
  | invalidRecord
  | duplicateMessageId
  | invalidOrder
  | orderExhausted
  | protectedCapacity
deriving DecidableEq

def isCanonicalRecord (record : SeenMessageRecord) : Bool :=
  if record.seenOrder = 0 then false
  else match decodePost record.encodedPost with
    | .error _ => false
    | .ok decoded =>
      if decoded.messageId ≠ record.messageId then false
      else match encodePost decoded with
        | .error _ => false
        | .ok encoded => encoded = record.encodedPost

theorem isCanonicalRecord_iff {record : SeenMessageRecord} :
    isCanonicalRecord record ↔ 0 < record.seenOrder ∧ ∃ post : PostPayload,
      record.messageId = post.messageId ∧ record.encodedPost = postBytes post := by
  unfold isCanonicalRecord
  by_cases horder : record.seenOrder = 0
  · simp [horder]
  rw [if_neg horder]
  constructor
  · intro h
    rcases hdecode : decodePost record.encodedPost with error | post
    · simp [hdecode] at h
    · by_cases hid : post.messageId = record.messageId
      · exact ⟨by omega, post, hid.symm, (postBytes_of_decodePost hdecode).symm⟩
      · simp [hdecode, hid] at h
  · rintro ⟨-, post, hid, hbytes⟩
    simp [hbytes, hid, decodePost_postBytes, encodePost_eq]

structure MessageDedupeWindow where
  capacity : ℕ
  lastSeenOrder : ℕ
  records : List SeenMessageRecord
  capacity_pos : 0 < capacity
  length_le : records.length ≤ capacity
  canonical : ∀ record ∈ records, isCanonicalRecord record
  stamped : Stamped SeenMessageRecord.messageId SeenMessageRecord.seenOrder lastSeenOrder records
  last_eq : (records.getLast?.map SeenMessageRecord.seenOrder).getD 0 = lastSeenOrder

namespace MessageDedupeWindow

@[ext] theorem ext_data {left right : MessageDedupeWindow}
    (hcapacity : left.capacity = right.capacity)
    (hlast : left.lastSeenOrder = right.lastSeenOrder) (hrecords : left.records = right.records) :
    left = right := by
  cases left
  cases right
  simp_all

/-- A ledger that has seen nothing. -/
def empty : MessageDedupeWindow where
  capacity := kDefaultSeenMessageCapacity
  lastSeenOrder := 0
  records := []
  capacity_pos := by decide
  length_le := Nat.zero_le _
  canonical := by simp
  stamped := Stamped.nil
  last_eq := rfl

theorem records_eq_nil {window : MessageDedupeWindow} (h : window.lastSeenOrder = 0) :
    window.records = [] := by
  have hlength := window.stamped.length_le
  rw [h] at hlength
  exact List.eq_nil_of_length_eq_zero (Nat.le_zero.mp hlength)

/-! ### Restoring -/

/-- The loop of `restore`; the sets hold the ids and orders met so far. -/
def checkRecords (lastSeenOrder : ℕ) (messageIds : List MessageId) (seenOrders : List ℕ)
    (previousOrder : ℕ) : List SeenMessageRecord → DedupeError
  | [] => .none
  | record :: rest =>
    if ¬isCanonicalRecord record then .invalidRecord
    else if record.messageId ∈ messageIds then .duplicateMessageId
    else if record.seenOrder ∈ seenOrders ∨ record.seenOrder ≤ previousOrder ∨
        record.seenOrder > lastSeenOrder then .invalidOrder
    else checkRecords lastSeenOrder (record.messageId :: messageIds)
      (record.seenOrder :: seenOrders) record.seenOrder rest

def restoreError (capacity lastSeenOrder : ℕ) (records : List SeenMessageRecord) : DedupeError :=
  if capacity = 0 then .invalidCapacity
  else if records.length > capacity then .tooManyRecords
  else match checkRecords lastSeenOrder [] [] 0 records with
    | .none =>
      match records.getLast? with
      | none => if lastSeenOrder ≠ 0 then .invalidOrder else .none
      | some record => if record.seenOrder ≠ lastSeenOrder then .invalidOrder else .none
    | error => error

theorem checkRecords_eq_none {lastSeenOrder previousOrder : ℕ} {messageIds : List MessageId}
    {seenOrders : List ℕ} {records : List SeenMessageRecord}
    (horders : ∀ order ∈ seenOrders, order ≤ previousOrder) :
    checkRecords lastSeenOrder messageIds seenOrders previousOrder records = .none ↔
      (∀ record ∈ records, isCanonicalRecord record) ∧
      (records.map SeenMessageRecord.messageId).Nodup ∧
      (∀ record ∈ records, record.messageId ∉ messageIds) ∧
      records.Pairwise (·.seenOrder < ·.seenOrder) ∧
      ∀ record ∈ records, previousOrder < record.seenOrder ∧ record.seenOrder ≤ lastSeenOrder := by
  -- The set of orders is redundant: orders only ever grow.
  induction records generalizing messageIds seenOrders previousOrder with
  | nil => simp [checkRecords]
  | cons record rest ih =>
    rw [checkRecords]
    by_cases hcanonical : isCanonicalRecord record
    swap
    · simp [hcanonical]
    rw [if_neg (by simpa using hcanonical)]
    by_cases hid : record.messageId ∈ messageIds
    · simp [hid]
    rw [if_neg hid]
    by_cases horder : previousOrder < record.seenOrder ∧ record.seenOrder ≤ lastSeenOrder
    swap
    · rw [if_pos (by omega)]
      simp only [reduceCtorEq, false_iff]
      rintro ⟨-, -, -, -, h⟩
      exact horder (h record (by simp))
    have hfresh : record.seenOrder ∉ seenOrders := fun h => by
      have := horders _ h
      omega
    rw [if_neg (by simp only [not_or]; exact ⟨hfresh, by omega, by omega⟩), ih]
    swap
    · intro order hmem
      rcases List.mem_cons.mp hmem with rfl | hmem
      · exact le_refl _
      · have := horders order hmem
        omega
    simp only [List.map_cons, List.nodup_cons, List.pairwise_cons, List.mem_cons,
      forall_eq_or_imp, List.mem_map, not_or, not_exists, not_and]
    constructor
    · rintro ⟨hall, hnodup, hids, hpairwise, hbounds⟩
      refine ⟨⟨hcanonical, hall⟩, ⟨fun other hother heq => (hids other hother).1 heq, hnodup⟩,
        ⟨hid, fun other hother => (hids other hother).2⟩,
        ⟨fun other hother => (hbounds other hother).1, hpairwise⟩, horder, ?_⟩
      intro other hother
      exact ⟨lt_trans horder.1 (hbounds other hother).1, (hbounds other hother).2⟩
    · rintro ⟨⟨-, hall⟩, ⟨hnew, hnodup⟩, ⟨-, hids⟩, ⟨hlater, hpairwise⟩, -, hbounds⟩
      exact ⟨hall, hnodup, fun other hother => ⟨hnew other hother, hids other hother⟩, hpairwise,
        fun other hother => ⟨hlater other hother, (hbounds other hother).2⟩⟩

theorem restoreError_eq_none {capacity lastSeenOrder : ℕ} {records : List SeenMessageRecord} :
    restoreError capacity lastSeenOrder records = .none ↔
      0 < capacity ∧ records.length ≤ capacity ∧ (∀ record ∈ records, isCanonicalRecord record) ∧
      Stamped SeenMessageRecord.messageId SeenMessageRecord.seenOrder lastSeenOrder records ∧
      (records.getLast?.map SeenMessageRecord.seenOrder).getD 0 = lastSeenOrder := by
  have hcheck : checkRecords lastSeenOrder [] [] 0 records = .none ↔ _ :=
    checkRecords_eq_none (by simp)
  unfold restoreError
  by_cases hcapacity : capacity = 0
  · simp [hcapacity]
  rw [if_neg hcapacity]
  by_cases hlength : records.length > capacity
  · rw [if_pos hlength]
    simp only [reduceCtorEq, false_iff]
    omega
  rw [if_neg hlength]
  have hlast : (match records.getLast? with
      | none => if lastSeenOrder ≠ 0 then DedupeError.invalidOrder else .none
      | some record => if record.seenOrder ≠ lastSeenOrder then .invalidOrder else .none) = .none ↔
      (records.getLast?.map SeenMessageRecord.seenOrder).getD 0 = lastSeenOrder := by
    rcases records.getLast? with _ | record
    · by_cases hzero : lastSeenOrder = 0 <;> simp [hzero, eq_comm]
    · by_cases heq : record.seenOrder = lastSeenOrder <;> simp [heq]
  constructor
  · intro h
    have hnone : checkRecords lastSeenOrder [] [] 0 records = .none := by
      rcases hrun : checkRecords lastSeenOrder [] [] 0 records <;> simp [hrun] at h ⊢
    rw [hnone] at h
    obtain ⟨hcanonical, hnodup, -, hpairwise, hbounds⟩ := hcheck.mp hnone
    exact ⟨by omega, by omega, hcanonical, ⟨hnodup, hpairwise, fun record hrecord =>
      (hbounds record hrecord).1, fun record hrecord => (hbounds record hrecord).2⟩, hlast.mp h⟩
  · rintro ⟨-, -, hcanonical, hstamped, heq⟩
    rw [hcheck.mpr ⟨hcanonical, hstamped.distinct, by simp, hstamped.increasing,
      fun record hrecord => ⟨hstamped.positive record hrecord, hstamped.bounded record hrecord⟩⟩]
    exact hlast.mpr heq

def restore (capacity lastSeenOrder : ℕ) (records : List SeenMessageRecord) :
    Except DedupeError MessageDedupeWindow :=
  if h : restoreError capacity lastSeenOrder records = .none then
    have valid := restoreError_eq_none.mp h
    .ok { capacity, lastSeenOrder, records
          capacity_pos := valid.1
          length_le := valid.2.1
          canonical := valid.2.2.1
          stamped := valid.2.2.2.1
          last_eq := valid.2.2.2.2 }
  else .error (restoreError capacity lastSeenOrder records)

/-- The checks of `restore` are what a ledger carries. -/
theorem restore_eq_ok {capacity lastSeenOrder : ℕ} {records : List SeenMessageRecord}
    {window : MessageDedupeWindow} : restore capacity lastSeenOrder records = .ok window ↔
      window.capacity = capacity ∧ window.lastSeenOrder = lastSeenOrder ∧
      window.records = records := by
  rw [restore, Guard.dite_ok_eq_ok]
  constructor
  · rintro ⟨_, rfl⟩
    exact ⟨rfl, rfl, rfl⟩
  · rintro ⟨rfl, rfl, rfl⟩
    exact ⟨restoreError_eq_none.mpr ⟨window.capacity_pos, window.length_le, window.canonical,
      window.stamped, window.last_eq⟩, rfl⟩

/-! ### Classifying -/

def classify (window : MessageDedupeWindow) (messageId : MessageId) (canonicalPost : Bytes) :
    DedupeClassification :=
  match window.records.find? (fun record => record.messageId = messageId) with
  | none => .new
  | some found => if found.encodedPost = canonicalPost then .duplicate else .conflict

variable {window : MessageDedupeWindow} {messageId : MessageId} {canonicalPost : Bytes}

theorem classify_eq_new : window.classify messageId canonicalPost = .new ↔
    messageId ∉ window.records.map SeenMessageRecord.messageId := by
  unfold classify
  rcases hfind : window.records.find? (fun record => record.messageId = messageId) with _ | found
  · have hnone := List.find?_eq_none.mp hfind
    simp only [hfind, true_iff]
    simpa using hnone
  · have hmem := List.mem_of_find?_eq_some hfind
    have hid : found.messageId = messageId := by simpa using List.find?_some hfind
    have hseen : messageId ∈ window.records.map SeenMessageRecord.messageId :=
      hid ▸ List.mem_map_of_mem hmem
    simp only [hfind, hseen, not_true_eq_false, iff_false]
    split <;> simp

theorem classify_ne_invalid : window.classify messageId canonicalPost ≠ .invalid := by
  unfold classify
  split
  · simp
  · split <;> simp

/-- What is remembered is a duplicate of itself and conflicts with all else. -/
theorem classify_of_mem {record : SeenMessageRecord} (hrecord : record ∈ window.records) :
    window.classify record.messageId canonicalPost =
      if record.encodedPost = canonicalPost then .duplicate else .conflict := by
  rw [classify, window.stamped.find?_eq hrecord]

theorem classify_eq_duplicate : window.classify messageId canonicalPost = .duplicate ↔
    ∃ record ∈ window.records, record.messageId = messageId ∧
      record.encodedPost = canonicalPost := by
  constructor
  · intro h
    have hseen : messageId ∈ window.records.map SeenMessageRecord.messageId := by
      by_contra hnew
      rw [classify_eq_new.mpr hnew] at h
      cases h
    obtain ⟨record, hrecord, rfl⟩ := List.mem_map.mp hseen
    rw [classify_of_mem hrecord] at h
    refine ⟨record, hrecord, rfl, ?_⟩
    by_contra hne
    rw [if_neg hne] at h
    cases h
  · rintro ⟨record, hrecord, rfl, hbytes⟩
    rw [classify_of_mem hrecord, if_pos hbytes]

/-! ### Remembering -/

def isProtected (messageId : MessageId) (protectedMessageIds : List MessageId) : Bool :=
  messageId ∈ protectedMessageIds

/-- The records once there is room for one more. -/
def evict (window : MessageDedupeWindow) (protectedMessageIds : List MessageId) :
    List SeenMessageRecord :=
  Stamped.makeRoom window.capacity (fun record => !isProtected record.messageId protectedMessageIds)
    window.records

def hasRoom (window : MessageDedupeWindow) (protectedMessageIds : List MessageId) : Bool :=
  window.records.length < window.capacity ||
    window.records.any (fun record => !isProtected record.messageId protectedMessageIds)

theorem length_evict_lt {protectedMessageIds : List MessageId}
    (h : window.hasRoom protectedMessageIds) :
    (window.evict protectedMessageIds).length < window.capacity := by
  refine Stamped.length_makeRoom_lt window.length_le window.capacity_pos ?_
  simpa [hasRoom] using h

/-- `push_back` of the record of a new post, once there is room for it. -/
def push (window : MessageDedupeWindow) (post : PostPayload) (protectedMessageIds : List MessageId)
    (hnew : post.messageId ∉ window.records.map SeenMessageRecord.messageId)
    (hroom : window.hasRoom protectedMessageIds) : MessageDedupeWindow where
  capacity := window.capacity
  lastSeenOrder := window.lastSeenOrder + 1
  records := window.evict protectedMessageIds ++
    [⟨post.messageId, window.lastSeenOrder + 1, postBytes post⟩]
  capacity_pos := window.capacity_pos
  length_le := by
    have := length_evict_lt hroom
    rw [List.length_append, List.length_singleton]
    omega
  canonical := by
    intro record hrecord
    rcases List.mem_append.mp hrecord with hold | hadded
    · exact window.canonical record (Stamped.makeRoom_sublist.subset hold)
    · obtain rfl := List.mem_singleton.mp hadded
      exact isCanonicalRecord_iff.mpr ⟨Nat.succ_pos _, post, rfl, rfl⟩
  stamped := by
    refine (window.stamped.sublist Stamped.makeRoom_sublist).concat ?_ rfl
    exact fun hmem => hnew ((Stamped.makeRoom_sublist.map _).subset hmem)
  last_eq := by simp

/-- On an error the ledger is left as it is. -/
def remember (window : MessageDedupeWindow) (post : PostPayload) (canonicalPost : Bytes)
    (protectedMessageIds : List MessageId) : Except DedupeError MessageDedupeWindow :=
  match decodePost canonicalPost with
  | .error _ => .error .invalidRecord
  | .ok decoded =>
  if decoded ≠ post then .error .invalidRecord else
  match encodePost post with
  | .error _ => .error .invalidRecord
  | .ok encoded =>
  if encoded ≠ canonicalPost then .error .invalidRecord else
  match hclass : window.classify post.messageId canonicalPost with
  | .duplicate => .ok window
  | .conflict => .error .duplicateMessageId
  | .invalid => .error .invalidRecord
  | .new =>
    if window.lastSeenOrder = kMaximumOrder then .error .orderExhausted
    else if hroom : window.hasRoom protectedMessageIds then
      .ok (window.push post protectedMessageIds (classify_eq_new.mp hclass) hroom)
    else .error .protectedCapacity

variable {post : PostPayload} {protectedMessageIds : List MessageId}

/-- A post under a new id is remembered unless the orders are used up or every
record is protected. -/
theorem remember_eq (hnew : window.classify post.messageId (postBytes post) = .new) :
    window.remember post (postBytes post) protectedMessageIds =
      if window.lastSeenOrder = kMaximumOrder then .error .orderExhausted
      else if hroom : window.hasRoom protectedMessageIds then
        .ok (window.push post protectedMessageIds (classify_eq_new.mp hnew) hroom)
      else .error .protectedCapacity := by
  unfold remember
  simp only [decodePost_postBytes, encodePost_eq, ne_eq, not_true_eq_false, if_false]
  split <;> simp_all

/-- Fewer protected ids than records leave one that may go. -/
theorem hasRoom_of_length (h : protectedMessageIds.length < window.capacity) :
    window.hasRoom protectedMessageIds := by
  by_contra hfull
  simp only [hasRoom, isProtected, Bool.or_eq_true, decide_eq_true_eq, List.any_eq_true, not_or,
    not_exists, not_and, Bool.not_eq_true', Bool.not_eq_false, not_lt] at hfull
  obtain ⟨hlength, hall⟩ := hfull
  have hsub : window.records.map SeenMessageRecord.messageId ⊆ protectedMessageIds := by
    intro id hid
    obtain ⟨record, hrecord, rfl⟩ := List.mem_map.mp hid
    simpa using hall record hrecord
  have hcount := (List.subperm_of_subset window.stamped.distinct hsub).length_le
  rw [List.length_map] at hcount
  omega

section Push

variable (hnew : post.messageId ∉ window.records.map SeenMessageRecord.messageId)
  (hroom : window.hasRoom protectedMessageIds)

theorem mem_push {record : SeenMessageRecord} (hrecord : record ∈ window.records)
    (hprotected : record.messageId ∈ protectedMessageIds) :
    record ∈ (window.push post protectedMessageIds hnew hroom).records :=
  List.mem_append_left _ (Stamped.mem_makeRoom hrecord (by simpa [isProtected] using hprotected))

/-- Protected duplicates stay duplicates. -/
theorem classify_push (hprotected : messageId ∈ protectedMessageIds)
    (h : window.classify messageId canonicalPost = .duplicate) :
    (window.push post protectedMessageIds hnew hroom).classify messageId canonicalPost =
      .duplicate := by
  obtain ⟨record, hrecord, rfl, hbytes⟩ := classify_eq_duplicate.mp h
  exact classify_eq_duplicate.mpr ⟨record, mem_push hnew hroom hrecord hprotected, rfl, hbytes⟩

theorem classify_push_self :
    (window.push post protectedMessageIds hnew hroom).classify post.messageId (postBytes post) =
      .duplicate :=
  classify_eq_duplicate.mpr ⟨_, List.mem_append_right _ (List.mem_singleton_self _), rfl, rfl⟩

end Push

end MessageDedupeWindow

end Lora
