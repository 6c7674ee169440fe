/-
Any number of messages remembered.

`SeenLedger` has the fields of the ledger and nothing else; `remember` changes
them one after the other, as the source does, and could leave them in any state.
It refines `MessageDedupeWindow.remember`, so that what a ledger carries there is
an invariant of every run here.

* `Remembers` — what a call can do, `remembers` says that it does nothing else;
* `ledger_remember` — the refinement, `exists_ledger_run` for a whole run;
* `kept_or_dropped` — a record stays until it is the oldest one that may go;
* `dedupe_ledger_sound` — all of it after any number of calls.
-/
import LoraMessenger.Dedupe

namespace Lora

structure SeenLedger where
  capacity : ℕ
  lastSeenOrder : ℕ
  records : List SeenMessageRecord

/-- The data of a ledger. -/
def MessageDedupeWindow.ledger (window : MessageDedupeWindow) : SeenLedger :=
  ⟨window.capacity, window.lastSeenOrder, window.records⟩

namespace SeenLedger

/-- The constructor throws if there is no room for anything. -/
def create (capacity : ℕ) : Option SeenLedger :=
  if capacity = 0 then none else some ⟨capacity, 0, []⟩

def classify (ledger : SeenLedger) (messageId : MessageId) (canonicalPost : Bytes) :
    DedupeClassification :=
  match ledger.records.find? (fun record => record.messageId = messageId) with
  | none => .new
  | some found => if found.encodedPost = canonicalPost then .duplicate else .conflict

/-- The arguments of a call of `remember`. -/
structure Call where
  post : PostPayload
  canonicalPost : Bytes
  protectedMessageIds : List MessageId

/-- Whether the call lets a record go. -/
def Call.mayGo (call : Call) (record : SeenMessageRecord) : Bool :=
  !MessageDedupeWindow.isProtected record.messageId call.protectedMessageIds

/-- The order is counted up before the record is added. -/
def add (ledger : SeenLedger) (call : Call) : SeenLedger :=
  let ledger := { ledger with lastSeenOrder := ledger.lastSeenOrder + 1 }
  { ledger with records := ledger.records ++
      [⟨call.post.messageId, ledger.lastSeenOrder, call.canonicalPost⟩] }

/-- The case of a new id. -/
def rememberNew (ledger : SeenLedger) (call : Call) : DedupeError × SeenLedger :=
  if ledger.lastSeenOrder = kMaximumOrder then (.orderExhausted, ledger)
  else if ledger.records.length ≥ ledger.capacity then
    match ledger.records.findIdx? call.mayGo with
    | none => (.protectedCapacity, ledger)
    | some evicted => (.none, add { ledger with records := ledger.records.eraseIdx evicted } call)
  else (.none, ledger.add call)

def remember (ledger : SeenLedger) (call : Call) : DedupeError × SeenLedger :=
  match decodePost call.canonicalPost with
  | .error _ => (.invalidRecord, ledger)
  | .ok decoded =>
  if decoded ≠ call.post then (.invalidRecord, ledger) else
  match encodePost call.post with
  | .error _ => (.invalidRecord, ledger)
  | .ok encoded =>
  if encoded ≠ call.canonicalPost then (.invalidRecord, ledger) else
  match ledger.classify call.post.messageId call.canonicalPost with
  | .duplicate => (.none, ledger)
  | .conflict => (.duplicateMessageId, ledger)
  | .invalid => (.invalidRecord, ledger)
  | .new => ledger.rememberNew call

/-- Calls one after the other. -/
def run (ledger : SeenLedger) (calls : List Call) : SeenLedger :=
  calls.foldl (fun ledger call => (ledger.remember call).2) ledger

variable {ledger : SeenLedger} {call : Call}

@[simp] theorem run_cons (calls : List Call) :
    ledger.run (call :: calls) = (ledger.remember call).2.run calls := rfl

theorem run_append (calls later : List Call) :
    ledger.run (calls ++ later) = (ledger.run calls).run later :=
  List.foldl_append ..

/-! ### One call -/

/-- The record goes: the ledger is full, and all the older ones are protected. -/
structure Evicts (ledger : SeenLedger) (call : Call) (record : SeenMessageRecord)
    (older newer : List SeenMessageRecord) : Prop where
  full : ledger.records.length = ledger.capacity
  records : ledger.records = older ++ record :: newer
  mayGo : record.messageId ∉ call.protectedMessageIds
  oldest : ∀ other ∈ older, other.messageId ∈ call.protectedMessageIds

/-- What a call of `remember` can do. -/
inductive Remembers (ledger : SeenLedger) (call : Call) : DedupeError → SeenLedger → Prop
  | fails {error : DedupeError} (herror : error ≠ .none) : Remembers ledger call error ledger
  | known (hseen : ledger.classify call.post.messageId call.canonicalPost = .duplicate) :
    Remembers ledger call .none ledger
  | adds (hbytes : call.canonicalPost = postBytes call.post)
    (hnew : ledger.classify call.post.messageId call.canonicalPost = .new)
    (hroom : ledger.records.length < ledger.capacity) :
    Remembers ledger call .none (ledger.add call)
  | evicts {record : SeenMessageRecord} {older newer : List SeenMessageRecord}
    (hbytes : call.canonicalPost = postBytes call.post)
    (hnew : ledger.classify call.post.messageId call.canonicalPost = .new)
    (hevicts : Evicts ledger call record older newer) :
    Remembers ledger call .none (add { ledger with records := older ++ newer } call)

theorem mayGo_iff {record : SeenMessageRecord} :
    call.mayGo record ↔ record.messageId ∉ call.protectedMessageIds := by
  simp [Call.mayGo, MessageDedupeWindow.isProtected]

theorem remembers_new (hlength : ledger.records.length ≤ ledger.capacity)
    (hbytes : call.canonicalPost = postBytes call.post)
    (hnew : ledger.classify call.post.messageId call.canonicalPost = .new) :
    Remembers ledger call (ledger.rememberNew call).1 (ledger.rememberNew call).2 := by
  unfold rememberNew
  split
  · exact .fails (by simp)
  split
  · rename_i hfull
    -- Erasing where the first such record stands is erasing the first such record.
    have herase : ledger.records.eraseP call.mayGo = _ := List.eraseP_eq_eraseIdx
    rcases hfound : ledger.records.findIdx? call.mayGo with _ | evicted
    · exact .fails (by simp)
    · rw [hfound] at herase
      obtain ⟨record, hrecord, hgoes⟩ : ∃ record ∈ ledger.records, call.mayGo record := by
        by_contra hnone
        have hall : ∀ record ∈ ledger.records, call.mayGo record = false := by
          simpa using hnone
        rw [List.findIdx?_eq_none_iff.mpr hall] at hfound
        cases hfound
      obtain ⟨oldest, older, newer, hkeep, holdest, hrecords, hrest⟩ :=
        List.exists_of_eraseP hrecord hgoes
      rw [hrest] at herase
      simp only [← herase]
      refine .evicts hbytes hnew ⟨Nat.le_antisymm hlength hfull, hrecords, mayGo_iff.mp holdest, ?_⟩
      exact fun other hother => by simpa [mayGo_iff] using hkeep other hother
  · rename_i hroom
    exact .adds hbytes hnew (Nat.lt_of_not_le hroom)

/-- A call does one of these. -/
theorem remembers (hlength : ledger.records.length ≤ ledger.capacity) :
    Remembers ledger call (ledger.remember call).1 (ledger.remember call).2 := by
  unfold remember
  split
  · exact .fails (by simp)
  split
  · exact .fails (by simp)
  split
  · exact .fails (by simp)
  rename_i encoded hencode
  split
  · exact .fails (by simp)
  rename_i hcanonical
  have hbytes : call.canonicalPost = postBytes call.post := by
    rw [encodePost_eq] at hencode
    cases hencode
    exact (not_not.mp hcanonical).symm
  split
  · exact .known ‹_›
  · exact .fails (by simp)
  · exact .fails (by simp)
  · exact remembers_new hlength hbytes ‹_›

/-! ### The invariant -/

/-- The outcome of a call of `MessageDedupeWindow.remember`. -/
def outcome (window : MessageDedupeWindow) :
    Except DedupeError MessageDedupeWindow → DedupeError × SeenLedger
  | .ok after => (.none, after.ledger)
  | .error error => (error, window.ledger)

section Refinement

variable {window : MessageDedupeWindow}

@[simp] theorem ledger_capacity : window.ledger.capacity = window.capacity := rfl

@[simp] theorem ledger_lastSeenOrder : window.ledger.lastSeenOrder = window.lastSeenOrder := rfl

@[simp] theorem ledger_records : window.ledger.records = window.records := rfl

@[simp] theorem ledger_classify (messageId : MessageId) (canonicalPost : Bytes) :
    window.ledger.classify messageId canonicalPost = window.classify messageId canonicalPost := rfl

theorem rememberNew_ledger (hbytes : call.canonicalPost = postBytes call.post)
    (hnew : window.classify call.post.messageId (postBytes call.post) = .new) :
    window.ledger.rememberNew call =
      outcome window (window.remember call.post (postBytes call.post)
        call.protectedMessageIds) := by
  rw [MessageDedupeWindow.remember_eq hnew, rememberNew]
  simp only [ledger_capacity, ledger_lastSeenOrder, ledger_records, ge_iff_le]
  by_cases hexhausted : window.lastSeenOrder = kMaximumOrder
  · rw [if_pos hexhausted, if_pos hexhausted]
    rfl
  rw [if_neg hexhausted, if_neg hexhausted]
  by_cases hfull : window.capacity ≤ window.records.length
  swap
  · have hevict : window.evict call.protectedMessageIds = window.records := if_neg hfull
    have hroom : window.hasRoom call.protectedMessageIds := by
      simp [MessageDedupeWindow.hasRoom, Nat.lt_of_not_le hfull]
    rw [if_neg hfull, dif_pos hroom]
    simp only [outcome, MessageDedupeWindow.push, MessageDedupeWindow.ledger, add, hevict, hbytes]
  have hevict : window.evict call.protectedMessageIds = window.records.eraseP call.mayGo :=
    if_pos hfull
  have hroom : window.hasRoom call.protectedMessageIds ↔
      ∃ record ∈ window.records, call.mayGo record := by
    simp [MessageDedupeWindow.hasRoom, Call.mayGo, Nat.not_lt.mpr hfull]
  rw [if_pos hfull]
  rw [List.eraseP_eq_eraseIdx] at hevict
  rcases hfound : window.records.findIdx? call.mayGo with _ | evicted
  · have hall := List.findIdx?_eq_none_iff.mp hfound
    have hnone : ¬window.hasRoom call.protectedMessageIds := by
      rw [hroom]
      rintro ⟨record, hrecord, hgoes⟩
      rw [hall record hrecord] at hgoes
      cases hgoes
    rw [dif_neg hnone]
    rfl
  · have hsome : window.hasRoom call.protectedMessageIds := by
      rw [hroom]
      by_contra hnone
      have hall : ∀ record ∈ window.records, call.mayGo record = false := by
        simpa using hnone
      rw [List.findIdx?_eq_none_iff.mpr hall] at hfound
      cases hfound
    rw [hfound] at hevict
    rw [dif_pos hsome]
    simp only [outcome, MessageDedupeWindow.push, MessageDedupeWindow.ledger, add, hevict, hbytes]

/-- The ledger is changed as `MessageDedupeWindow.remember` says, and not at all if
that fails. -/
theorem ledger_remember (window : MessageDedupeWindow) (call : Call) :
    window.ledger.remember call =
      outcome window (window.remember call.post call.canonicalPost call.protectedMessageIds) := by
  by_cases hnew : call.canonicalPost = postBytes call.post ∧
      window.classify call.post.messageId call.canonicalPost = .new
  · obtain ⟨hbytes, hnew⟩ := hnew
    have hpost : decodePost call.canonicalPost = .ok call.post := by
      rw [hbytes, decodePost_postBytes]
    rw [remember, hpost, encodePost_eq, hbytes]
    rw [hbytes] at hnew
    simp [rememberNew_ledger hbytes hnew, hnew]
  -- The two functions have the same branches, and the one for a new id is not taken.
  unfold remember MessageDedupeWindow.remember
  rcases hdecode : decodePost call.canonicalPost with error | decoded
  · rfl
  dsimp only
  by_cases hpost : decoded ≠ call.post
  · rw [if_pos hpost, if_pos hpost]
    rfl
  rw [if_neg hpost, if_neg hpost, encodePost_eq]
  dsimp only
  by_cases hbytes : postBytes call.post ≠ call.canonicalPost
  · rw [if_pos hbytes, if_pos hbytes]
    rfl
  rw [if_neg hbytes, if_neg hbytes, ledger_classify]
  rw [not_not] at hbytes
  split <;> split <;> simp_all [outcome]

/-- What a run of the ledgers that carry their invariant leaves. -/
theorem exists_ledger_run (window : MessageDedupeWindow) (calls : List Call) :
    ∃ after : MessageDedupeWindow, window.ledger.run calls = after.ledger := by
  induction calls generalizing window with
  | nil => exact ⟨window, rfl⟩
  | cons call calls ih =>
    rw [run_cons, ledger_remember]
    rcases window.remember call.post call.canonicalPost call.protectedMessageIds with error | after
    · exact ih window
    · exact ih after

end Refinement

/-! ### Any number of calls -/

/-- A ledger as it is made, or as it is restored. -/
inductive Starts : SeenLedger → Prop
  | created {capacity : ℕ} {ledger : SeenLedger} (h : create capacity = some ledger) : Starts ledger
  | restored {capacity lastSeenOrder : ℕ} {records : List SeenMessageRecord}
    {window : MessageDedupeWindow}
    (h : MessageDedupeWindow.restore capacity lastSeenOrder records = .ok window) :
    Starts window.ledger

theorem Starts.exists_eq (h : Starts ledger) : ∃ window : MessageDedupeWindow, ledger =
    window.ledger := by
  cases h with
  | created h =>
    rw [create, Option.ite_none_left_eq_some] at h
    obtain ⟨hcapacity, h⟩ := h
    cases h
    exact ⟨⟨_, 0, [], Nat.pos_of_ne_zero hcapacity, Nat.zero_le _, by simp, Stamped.nil, rfl⟩, rfl⟩
  | restored h => exact ⟨_, rfl⟩

/-- What is promised of a ledger. -/
structure Sound (ledger : SeenLedger) : Prop where
  increasing : ledger.records.Pairwise (·.seenOrder < ·.seenOrder)
  last : (ledger.records = [] ∧ ledger.lastSeenOrder = 0) ∨
    ∃ record, ledger.records.getLast? = some record ∧ record.seenOrder = ledger.lastSeenOrder
  distinct : (ledger.records.map SeenMessageRecord.messageId).Nodup
  canonical : ∀ record ∈ ledger.records, ∃ post : PostPayload,
    post.messageId = record.messageId ∧ encodePost post = .ok record.encodedPost
  length_le : ledger.records.length ≤ ledger.capacity
  restores : ∃ window,
    MessageDedupeWindow.restore ledger.capacity ledger.lastSeenOrder ledger.records = .ok window ∧
      window.ledger = ledger

theorem sound_ledger (window : MessageDedupeWindow) : Sound window.ledger where
  increasing := window.stamped.increasing
  last := by
    have hlast := window.last_eq
    rcases hrecords : window.records.getLast? with _ | record
    · have hnil := List.getLast?_eq_none_iff.mp hrecords
      rw [hnil] at hlast
      exact .inl ⟨hnil, hlast.symm⟩
    · rw [hrecords] at hlast
      exact .inr ⟨record, hrecords, hlast⟩
  distinct := window.stamped.distinct
  canonical record hrecord := by
    obtain ⟨-, post, hid, hbytes⟩ := isCanonicalRecord_iff.mp (window.canonical record hrecord)
    exact ⟨post, hid.symm, hbytes ▸ encodePost_eq post⟩
  length_le := window.length_le
  restores := ⟨window, MessageDedupeWindow.restore_eq_ok.mpr ⟨rfl, rfl, rfl⟩, rfl⟩

/-- The call drops the record. -/
def Drops (ledger : SeenLedger) (call : Call) (record : SeenMessageRecord) : Prop :=
  ∃ older newer, Evicts ledger call record older newer ∧
    ledger.remember call = (.none, add { ledger with records := older ++ newer } call)

theorem kept_or_dropped (hlength : ledger.records.length ≤ ledger.capacity)
    {record : SeenMessageRecord} (hrecord : record ∈ ledger.records) :
    record ∈ (ledger.remember call).2.records ∨ Drops ledger call record := by
  have hcall : Remembers ledger call _ _ := remembers hlength
  generalize hafter : ledger.remember call = after at hcall
  obtain ⟨error, after⟩ := after
  cases hcall with
  | fails => exact .inl hrecord
  | known => exact .inl hrecord
  | adds => exact .inl (List.mem_append_left _ hrecord)
  | evicts hbytes hnew hevicts =>
    rename_i evicted older newer
    have hmem := hrecord
    rw [hevicts.records, List.mem_append, List.mem_cons] at hmem
    rcases hmem with hmem | rfl | hmem
    · exact .inl (List.mem_append_left _ (List.mem_append_left _ hmem))
    · exact .inr ⟨older, newer, hevicts, hafter⟩
    · exact .inl (List.mem_append_left _ (List.mem_append_right _ hmem))

/-- A record stays until a call drops it. -/
theorem kept_or_dropped_run (window : MessageDedupeWindow) (calls : List Call)
    {record : SeenMessageRecord} (hrecord : record ∈ window.records) :
    record ∈ (window.ledger.run calls).records ∨ ∃ before call after,
      calls = before ++ call :: after ∧ Drops (window.ledger.run before) call record := by
  induction calls generalizing window with
  | nil => exact .inl hrecord
  | cons call calls ih =>
    have hstep : record ∈ (window.ledger.remember call).2.records ∨
        Drops window.ledger call record :=
      kept_or_dropped window.length_le hrecord
    rcases hstep with hkept | hdrops
    · obtain ⟨after, hafter⟩ := exists_ledger_run window [call]
      have hafter : (window.ledger.remember call).2 = after.ledger := hafter
      rw [hafter] at hkept
      rw [run_cons, hafter]
      refine (ih after hkept).imp id ?_
      rintro ⟨before, next, later, rfl, hdrops⟩
      exact ⟨call :: before, next, later, rfl, by rwa [run_cons, hafter]⟩
    · exact .inr ⟨[], call, calls, rfl, hdrops⟩

/-- What a call has remembered is in the ledger. -/
theorem exists_remembered (window : MessageDedupeWindow)
    (hok : (window.ledger.remember call).1 = .none) :
    ∃ record ∈ (window.ledger.remember call).2.records,
      record.messageId = call.post.messageId ∧ record.encodedPost = call.canonicalPost := by
  have hcall : Remembers window.ledger call _ _ := remembers window.length_le
  generalize window.ledger.remember call = after at hcall hok
  obtain ⟨error, after⟩ := after
  cases hcall with
  | fails herror => exact absurd hok herror
  | known hseen => exact MessageDedupeWindow.classify_eq_duplicate.mp hseen
  | adds => exact ⟨_, List.mem_append_right _ (List.mem_singleton_self _), rfl, rfl⟩
  | evicts => exact ⟨_, List.mem_append_right _ (List.mem_singleton_self _), rfl, rfl⟩

theorem canonicalPost_of_ok (hok : (ledger.remember call).1 = .none) :
    call.canonicalPost = postBytes call.post := by
  by_contra hbytes
  unfold remember at hok
  rw [encodePost_eq] at hok
  split at hok
  · cases hok
  split at hok
  · cases hok
  dsimp only at hok
  rw [if_pos (Ne.symm hbytes)] at hok
  cases hok

/-- The ledger tells the post from all others. -/
structure Recognises (ledger : SeenLedger) (post : PostPayload) : Prop where
  duplicate : ledger.classify post.messageId (postBytes post) = .duplicate
  conflict : ∀ other : PostPayload, other.messageId = post.messageId → other ≠ post →
    ledger.classify other.messageId (postBytes other) = .conflict

theorem recognises_of_mem {window : MessageDedupeWindow} {post : PostPayload}
    {record : SeenMessageRecord} (hrecord : record ∈ window.records)
    (hid : record.messageId = post.messageId) (hbytes : record.encodedPost = postBytes post) :
    Recognises window.ledger post where
  duplicate := MessageDedupeWindow.classify_eq_duplicate.mpr ⟨record, hrecord, hid, hbytes⟩
  conflict other hother hne := by
    rw [ledger_classify, hother, ← hid, MessageDedupeWindow.classify_of_mem hrecord, if_neg]
    -- Two posts have the same bytes only if they are the same.
    intro hsame
    refine hne ?_
    have hdecode := decodePost_postBytes other
    rw [← hsame, hbytes, decodePost_postBytes] at hdecode
    cases hdecode
    rfl

/-- After any number of calls the ledger is sound, the next call does what `Remembers`
says, and whatever was remembered is recognised until a call drops its record. -/
theorem dedupe_ledger_sound {start : SeenLedger} (hstart : Starts start) (calls : List Call) :
    Sound (start.run calls) ∧
    (∀ call, Remembers (start.run calls) call ((start.run calls).remember call).1
      ((start.run calls).remember call).2) ∧
    ∀ earlier call later, calls = earlier ++ call :: later →
      ((start.run earlier).remember call).1 = .none →
      Recognises (start.run calls) call.post ∨
        ∃ record before next after, later = before ++ next :: after ∧
          record.messageId = call.post.messageId ∧ record.encodedPost = postBytes call.post ∧
          Drops (start.run (earlier ++ call :: before)) next record := by
  obtain ⟨window, rfl⟩ := hstart.exists_eq
  obtain ⟨left, hleft⟩ := exists_ledger_run window calls
  refine ⟨hleft ▸ sound_ledger left, fun call => remembers (hleft ▸ left.length_le), ?_⟩
  rintro earlier call later rfl hok
  obtain ⟨found, hfound⟩ := exists_ledger_run window earlier
  obtain ⟨kept, hkept⟩ := exists_ledger_run window (earlier ++ [call])
  have hcall : kept.ledger = (found.ledger.remember call).2 := by
    rw [← hkept, run_append, hfound]
    rfl
  rw [hfound] at hok
  obtain ⟨record, hrecord, hid, hbytes⟩ := exists_remembered found hok
  rw [canonicalPost_of_ok hok] at hbytes
  rw [← hcall] at hrecord
  have hrest (calls : List Call) : window.ledger.run (earlier ++ call :: calls) =
      kept.ledger.run calls := by
    rw [List.append_cons, run_append, hkept]
  rcases kept_or_dropped_run kept later hrecord with hstays | ⟨before, next, after, rfl, hdrops⟩
  · rw [← hrest, hleft] at hstays
    exact .inl (hleft ▸ recognises_of_mem hstays hid hbytes)
  · exact .inr ⟨record, before, next, after, rfl, hid, hbytes, by rwa [hrest]⟩

def sampleCall : Call := ⟨samplePost, postBytes samplePost, []⟩

/-- The third post takes the place of the second one, since the first is protected. -/
def sampleCalls : List Call :=
  [sampleCall, ⟨numberedPost 2, postBytes (numberedPost 2), []⟩,
    ⟨numberedPost 3, postBytes (numberedPost 3), [samplePost.messageId]⟩]

theorem dedupe_ledger_sound_sampleCalls : create 2 = some ⟨2, 0, []⟩ ∧
    Sound (run ⟨2, 0, []⟩ sampleCalls) ∧ Recognises (run ⟨2, 0, []⟩ sampleCalls) samplePost ∧
    (run ⟨2, 0, []⟩ sampleCalls).records.map SeenMessageRecord.messageId =
      [samplePost.messageId, (numberedPost 3).messageId] := by
  have hcreate : create 2 = some ⟨2, 0, []⟩ := rfl
  obtain ⟨hsound, -, hseen⟩ := dedupe_ledger_sound (.created hcreate) sampleCalls
  refine ⟨hcreate, hsound, (hseen [] sampleCall _ rfl (by decide +kernel)).resolve_right ?_,
    by decide +kernel⟩
  rintro ⟨record, before, next, after, hcalls, hid, -, _, _, hevicts, -⟩
  have hid : record.messageId = samplePost.messageId := hid
  rcases before with _ | ⟨second, _ | ⟨third, before⟩⟩
  · -- There is room for the second post.
    have hfull := hevicts.full
    revert hfull
    decide +kernel
  · cases hcalls
    exact hevicts.mayGo (by simp [hid])
  · simp at hcalls

end SeenLedger

end Lora
