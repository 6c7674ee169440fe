/-
Reassembly of posts from frames that arrive in any order.

A frame names its post by the first eight bytes of the message id and by the
sender's sequence number; this pair is the reassembly key.  The reassembler
keeps one slot for each key that is under way and a list of keys in
quarantine, whose frames contradicted each other.

* `Wf` — the invariant of the table: no key has two slots;
* `accept_target`, `accept_refused` — everything a call of `accept` can do, in terms of the slot
  that the frame is meant for;
* `active_accept_of_ne` — the other keys do not notice;
* `accept_wf` — the invariant is kept.
-/
import LoraMessenger.Fragmenter
import LoraMessenger.SlotTable

namespace Lora

def kMaximumReassemblies : ℕ := 8
def kMaximumQuarantinedKeys : ℕ := 32
def kReassemblyTimeoutTicks : ℕ := 60000

/-- Ticks are unsigned 64-bit numbers. -/
def kMaximumTick : ℕ := 2 ^ 64 - 1

def saturatingDeadline (start duration : ℕ) : ℕ :=
  if start > kMaximumTick - duration then kMaximumTick else start + duration

def deadlineReached (now deadline : ℕ) : Bool := now ≥ deadline

/-- What frames of one post share. -/
abbrev ReassemblyKey := MessageTag × UInt64

def DataFrame.key (frame : DataFrame) : ReassemblyKey := (frame.tag, frame.senderSequence)

/-- The reassembly key of a post. -/
def PostPayload.key (post : PostPayload) : ReassemblyKey :=
  (messageTag post.messageId, post.senderSequence)

inductive ReassemblyStatus where
  | fragmentAccepted
  | duplicateFragment
  | complete
  | capacityExceeded
  | conflict
  | quarantined
  | invalidPost
deriving DecidableEq

structure CompletedPost where
  post : PostPayload
  canonicalPost : Bytes
  canonicalFrames : List Bytes

structure ReassemblyResult where
  status : ReassemblyStatus
  completed : Option CompletedPost

/-- A post under way.  An unused slot has the default value of every field. -/
structure Slot where
  used : Bool := false
  tag : MessageTag := ⟨List.replicate 8 0, MessageTag.length_zeros⟩
  senderSequence : UInt64 := 0
  totalLength : UInt16 := 0
  fragmentCount : UInt8 := 0
  receivedBitmap : ℕ := 0
  deadline : ℕ := 0
  bytes : Bytes := List.replicate kMaximumEncodedPostBytes 0
  fragmentLengths : List ℕ := List.replicate kMaximumFragments 0

/-- A slot that is not in use. -/
def Slot.blank : Slot := {}

def Slot.key (slot : Slot) : ReassemblyKey := (slot.tag, slot.senderSequence)

structure QuarantinedKey where
  key : ReassemblyKey
  deadline : ℕ

structure Reassembler where
  mtu : ℕ
  slots : List Slot
  quarantined : List QuarantinedKey := []
  highWaterCount : ℕ := 0

namespace Reassembler

/-- The constructor. -/
def new (mtu : ℕ) : Reassembler :=
  { mtu := mtu, slots := List.replicate kMaximumReassemblies .blank }

variable (r : Reassembler)

/-- A field of the source that is computed from the MTU once and for all. -/
def fragmentCapacity : ℕ := if r.mtu ≥ kFrameHeaderBytes then r.mtu - kFrameHeaderBytes else 0

def activeCount : ℕ := r.slots.countP Slot.used

def quarantine (key : ReassemblyKey) (deadline : ℕ) : Reassembler :=
  if r.quarantined.any (·.key = key) then r
  else
    let retained := if r.quarantined.length ≥ kMaximumQuarantinedKeys then r.quarantined.tail
      else r.quarantined
    { r with quarantined := retained ++ [⟨key, deadline⟩] }

/-- Drop the keys whose quarantine is over. -/
def expireQuarantine (now : ℕ) : Reassembler :=
  { r with quarantined := r.quarantined.filter fun entry => !deadlineReached now entry.deadline }

def isQuarantined (key : ReassemblyKey) (now : ℕ) : Reassembler × Bool :=
  let r := r.expireQuarantine now
  (r, r.quarantined.any (·.key = key))

def expireSlots (now : ℕ) : Reassembler :=
  { r with slots := SlotTable.sweep .blank (fun slot =>
      slot.used && deadlineReached now slot.deadline) r.slots }

/-- Forget what has timed out; the second component counts the posts given up. -/
def expire (now : ℕ) : Reassembler × ℕ :=
  ((r.expireSlots now).expireQuarantine now,
    r.slots.countP fun slot => slot.used && deadlineReached now slot.deadline)

def clear : Reassembler :=
  { r with slots := r.slots.map fun _ => .blank, quarantined := [] }

/-- The checks of `accept` on a frame that do not depend on what came before. -/
def accepts (frame : DataFrame) : Prop :=
  ¬(¬isSupportedMtu r.mtu ∨ frame.senderSequence = 0 ∨ frame.fragmentCount = 0 ∨
      frame.fragmentCount.toNat > kMaximumFragments ∨
      frame.fragmentIndex ≥ frame.fragmentCount ∨
      frame.totalLength.toNat < kMinimumEncodedPostBytes ∨
      frame.totalLength.toNat > kMaximumEncodedPostBytes ∨ r.fragmentCapacity = 0) ∧
    (let expectedCount := (frame.totalLength.toNat + r.fragmentCapacity - 1) / r.fragmentCapacity
     let expectedPayload :=
       if frame.fragmentIndex.toNat + 1 < frame.fragmentCount.toNat then r.fragmentCapacity
       else frame.totalLength.toNat - r.fragmentCapacity * (frame.fragmentCount.toNat - 1)
     ¬(expectedCount ≠ frame.fragmentCount.toNat ∨ frame.payload.length ≠ expectedPayload))

instance (frame : DataFrame) : Decidable (r.accepts frame) := inferInstanceAs (Decidable (_ ∧ _))

def findSlot (key : ReassemblyKey) : Option ℕ :=
  r.slots.findIdx? fun slot => slot.used && decide (slot.key = key)

def freeSlot : Option ℕ := r.slots.findIdx? fun slot => !slot.used

def slotAt (index : ℕ) : Slot := r.slots.getD index .blank

def setSlot (index : ℕ) (slot : Slot) : Reassembler := { r with slots := r.slots.set index slot }

/-- Take a free slot for the post of a frame. -/
def openSlot (index : ℕ) (frame : DataFrame) (receivedTick : ℕ) : Reassembler :=
  let r := r.setSlot index
    { r.slotAt index with
      used := true
      tag := frame.tag
      senderSequence := frame.senderSequence
      totalLength := frame.totalLength
      fragmentCount := frame.fragmentCount
      deadline := saturatingDeadline receivedTick kReassemblyTimeoutTicks }
  { r with highWaterCount := max r.highWaterCount r.activeCount }

/-- Reset a slot and put its key into quarantine for the rest of its time. -/
def discard (index : ℕ) : Reassembler :=
  let slot := r.slotAt index
  (r.setSlot index .blank).quarantine slot.key slot.deadline

end Reassembler

/-! ### One slot -/

/-- Copy the payload of a frame into its place and mark it as received. -/
def Slot.write (slot : Slot) (fragmentCapacity : ℕ) (frame : DataFrame) : Slot :=
  { slot with
    bytes := Chunks.splice slot.bytes (frame.fragmentIndex.toNat * fragmentCapacity) frame.payload
    fragmentLengths := slot.fragmentLengths.set frame.fragmentIndex.toNat frame.payload.length
    receivedBitmap := slot.receivedBitmap ||| 1 <<< frame.fragmentIndex.toNat }

def completeMask (fragmentCount : UInt8) : ℕ :=
  if fragmentCount.toNat = kMaximumFragments then 0xffff else (1 <<< fragmentCount.toNat) - 1

/-- The frame that would carry fragment `index` of a full slot. -/
def Slot.canonicalFrame (slot : Slot) (fragmentCapacity index : ℕ) : DataFrame :=
  { tag := slot.tag
    senderSequence := slot.senderSequence
    fragmentIndex := UInt8.ofNat index
    fragmentCount := slot.fragmentCount
    totalLength := slot.totalLength
    payload := Chunks.slice slot.bytes (index * fragmentCapacity)
      (slot.fragmentLengths.getD index 0) }

/-- What a frame does to the slot of its key. -/
inductive SlotOutcome where
  | duplicate
  | conflict
  | accepted (slot : Slot)
  | invalid
  | complete (completed : CompletedPost)

/-- The end of `accept`: all fragments of the slot are there. -/
def Slot.finish (slot : Slot) (mtu fragmentCapacity : ℕ) : SlotOutcome :=
  let canonical := slot.bytes.take slot.totalLength.toNat
  match decodePost canonical with
  | .error _ => .invalid
  | .ok post =>
    if messageTag post.messageId ≠ slot.tag ∨ post.senderSequence ≠ slot.senderSequence then
      .invalid
    else
      match (List.range slot.fragmentCount.toNat).mapM fun index =>
          encodeFrame (slot.canonicalFrame fragmentCapacity index) mtu with
      | .error _ => .invalid
      | .ok frames => .complete ⟨post, canonical, frames⟩

/-- The part of `accept` after the slot of the frame has been found. -/
def Slot.receive (slot : Slot) (mtu fragmentCapacity : ℕ) (frame : DataFrame) : SlotOutcome :=
  let offset := frame.fragmentIndex.toNat * fragmentCapacity
  if slot.receivedBitmap &&& 1 <<< frame.fragmentIndex.toNat ≠ 0 then
    if slot.fragmentLengths.getD frame.fragmentIndex.toNat 0 = frame.payload.length ∧
        Chunks.slice slot.bytes offset frame.payload.length = frame.payload then
      .duplicate
    else .conflict
  else
    let slot := slot.write fragmentCapacity frame
    if slot.receivedBitmap ≠ completeMask frame.fragmentCount then .accepted slot
    else slot.finish mtu fragmentCapacity

def SlotOutcome.result : SlotOutcome → ReassemblyResult
  | .duplicate => ⟨.duplicateFragment, none⟩
  | .conflict => ⟨.conflict, none⟩
  | .accepted _ => ⟨.fragmentAccepted, none⟩
  | .invalid => ⟨.invalidPost, none⟩
  | .complete completed => ⟨.complete, some completed⟩

namespace Reassembler

variable (r : Reassembler)

/-- Carry the outcome for a slot over to the table and the quarantine. -/
def settle (index : ℕ) : SlotOutcome → Reassembler
  | .duplicate => r
  | .conflict => r.discard index
  | .accepted slot => r.setSlot index slot
  | .invalid => r.discard index
  | .complete _ => r.setSlot index .blank

def accept (frame : DataFrame) (receivedTick : ℕ) : Reassembler × ReassemblyResult :=
  let r := (r.expire receivedTick).1
  if ¬r.accepts frame then (r, ⟨.invalidPost, none⟩)
  else
    let (r, quarantined) := r.isQuarantined frame.key receivedTick
    if quarantined then (r, ⟨.quarantined, none⟩)
    else
      match r.findSlot frame.key with
      | none =>
        match r.freeSlot with
        | none => (r, ⟨.capacityExceeded, none⟩)
        | some index =>
          let r := r.openSlot index frame receivedTick
          let outcome := (r.slotAt index).receive r.mtu r.fragmentCapacity frame
          (r.settle index outcome, outcome.result)
      | some index =>
        let slot := r.slotAt index
        let outcome :=
          if slot.totalLength ≠ frame.totalLength ∨ slot.fragmentCount ≠ frame.fragmentCount then
            .conflict
          else slot.receive r.mtu r.fragmentCapacity frame
        (r.settle index outcome, outcome.result)

end Reassembler

/-! ### The table as a map from keys to slots -/

def Slot.occupant (slot : Slot) : Option ReassemblyKey := if slot.used then some slot.key else none

theorem Slot.occupant_eq_some {slot : Slot} {key : ReassemblyKey} :
    slot.occupant = some key ↔ slot.used = true ∧ slot.key = key := by
  rw [Slot.occupant]
  cases slot.used <;> simp

@[simp] theorem Slot.occupant_blank : Slot.blank.occupant = none := rfl

/-- The slot that a frame opens. -/
def Slot.fresh (frame : DataFrame) (receivedTick : ℕ) : Slot :=
  { used := true
    tag := frame.tag
    senderSequence := frame.senderSequence
    totalLength := frame.totalLength
    fragmentCount := frame.fragmentCount
    deadline := saturatingDeadline receivedTick kReassemblyTimeoutTicks }

/-- What a slot becomes. -/
def SlotOutcome.next (slot : Slot) : SlotOutcome → Option Slot
  | .duplicate => some slot
  | .conflict => none
  | .accepted slot => some slot
  | .invalid => none
  | .complete _ => none

/-- The answer of a slot to any frame of its key. -/
def Slot.answer (slot : Slot) (mtu fragmentCapacity : ℕ) (frame : DataFrame) : SlotOutcome :=
  if slot.totalLength ≠ frame.totalLength ∨ slot.fragmentCount ≠ frame.fragmentCount then .conflict
  else slot.receive mtu fragmentCapacity frame

theorem Slot.answer_fresh (frame : DataFrame) (receivedTick mtu fragmentCapacity : ℕ) :
    (Slot.fresh frame receivedTick).answer mtu fragmentCapacity frame =
      (Slot.fresh frame receivedTick).receive mtu fragmentCapacity frame := by
  rw [Slot.answer, if_neg]
  simp [Slot.fresh]

theorem Slot.finish_next (slot : Slot) (mtu fragmentCapacity : ℕ) (other : Slot) :
    (slot.finish mtu fragmentCapacity).next other = none := by
  rw [Slot.finish]
  split
  · rfl
  · split
    · rfl
    · split
      · rfl
      · rfl

/-- A slot never changes its key, its layout or its deadline. -/
theorem Slot.answer_next {slot next : Slot} {mtu fragmentCapacity : ℕ} {frame : DataFrame}
    (h : (slot.answer mtu fragmentCapacity frame).next slot = some next) :
    next.used = slot.used ∧ next.key = slot.key ∧ next.deadline = slot.deadline := by
  rw [Slot.answer] at h
  split at h
  · exact absurd h (by simp [SlotOutcome.next])
  simp only [Slot.receive] at h
  split at h
  · split at h
    · simp only [SlotOutcome.next, Option.some.injEq] at h
      subst h
      exact ⟨rfl, rfl, rfl⟩
    · exact absurd h (by simp [SlotOutcome.next])
  · split at h
    · simp only [SlotOutcome.next, Option.some.injEq] at h
      subst h
      exact ⟨rfl, rfl, rfl⟩
    · rw [Slot.finish_next] at h
      exact absurd h (by simp)

namespace Reassembler

/-- The slot of a key that is under way. -/
def active (r : Reassembler) (key : ReassemblyKey) : Option Slot :=
  SlotTable.lookup Slot.occupant key r.slots

def inQuarantine (r : Reassembler) (key : ReassemblyKey) : Prop :=
  ∃ entry ∈ r.quarantined, entry.key = key

def hasFreeSlot (r : Reassembler) : Prop := ∃ slot ∈ r.slots, slot.used = false

/-- No key has two slots, and slots that are not in use are blank. -/
structure Wf (r : Reassembler) : Prop where
  distinct : SlotTable.Distinct Slot.occupant r.slots
  idle : ∀ slot ∈ r.slots, slot.used = false → slot = .blank

variable {r : Reassembler}

theorem active_eq_some {key : ReassemblyKey} {slot : Slot} (h : r.active key = some slot) :
    slot.used = true ∧ slot.key = key :=
  Slot.occupant_eq_some.mp (SlotTable.occupant_of_lookup h).2

theorem new_wf (mtu : ℕ) : (Reassembler.new mtu).Wf := by
  refine ⟨?_, ?_⟩
  · rw [SlotTable.Distinct, new, List.pairwise_replicate]
    exact Or.inr (by simp)
  · intro slot hslot _
    exact List.eq_of_mem_replicate hslot

/-! ### Expiry -/

theorem expire_wf (h : r.Wf) (now : ℕ) : (r.expire now).1.Wf := by
  refine ⟨h.distinct.sweep Slot.occupant_blank, ?_⟩
  intro slot hslot hunused
  rcases SlotTable.mem_sweep hslot with rfl | ⟨hmem, -⟩
  · rfl
  · exact h.idle slot hmem hunused

theorem active_expire (h : r.Wf) (now : ℕ) (key : ReassemblyKey) :
    (r.expire now).1.active key =
      (r.active key).filter fun slot => !deadlineReached now slot.deadline := by
  have hsweep := SlotTable.lookup_sweep key
    (fun slot => slot.used && deadlineReached now slot.deadline) h.distinct Slot.occupant_blank
  rw [show (r.expire now).1.active key = _ from hsweep]
  rcases hactive : r.active key with _ | slot
  · rw [show SlotTable.lookup Slot.occupant key r.slots = none from hactive]
    rfl
  · rw [show SlotTable.lookup Slot.occupant key r.slots = some slot from hactive]
    simp [Option.filter, (active_eq_some hactive).1]

theorem clear_wf : r.clear.Wf := by
  refine ⟨?_, ?_⟩
  · rw [SlotTable.Distinct, clear, List.map_const', List.pairwise_replicate]
    exact Or.inr (by simp)
  · intro slot hslot _
    obtain ⟨-, -, rfl⟩ := List.mem_map.mp hslot
    rfl

theorem active_clear (key : ReassemblyKey) : r.clear.active key = none := by
  rw [active, SlotTable.lookup_eq_none]
  intro slot hslot
  obtain ⟨-, -, rfl⟩ := List.mem_map.mp hslot
  simp

theorem expireQuarantine_expire (now : ℕ) :
    (r.expire now).1.expireQuarantine now = (r.expire now).1 := by
  simp only [expire, expireQuarantine, List.filter_filter, Bool.and_self]

theorem inQuarantine_expire {now : ℕ} {key : ReassemblyKey}
    (h : (r.expire now).1.inQuarantine key) : r.inQuarantine key := by
  obtain ⟨entry, hentry, hkey⟩ := h
  exact ⟨entry, (List.mem_filter.mp hentry).1, hkey⟩

/-! ### Writing to the table -/

theorem setSlot_wf {index : ℕ} {old new : Slot} (h : r.Wf) (hold : r.slots[index]? = some old)
    (hkey : new.used = true → old.occupant = some new.key ∨ r.active new.key = none)
    (hidle : new.used = false → new = .blank) : (r.setSlot index new).Wf := by
  refine ⟨h.distinct.set ?_, ?_⟩
  · intro position other key hother hne hnew hotherKey
    obtain ⟨hused, rfl⟩ := Slot.occupant_eq_some.mp hnew
    have hmem : other ∈ r.slots := List.mem_of_getElem? hother
    rcases hkey hused with holdKey | hnone
    · -- the only slot with the key is the one that is overwritten
      have hboth := List.pairwise_iff_getElem.mp h.distinct
      obtain ⟨hposition, rfl⟩ := List.getElem?_eq_some_iff.mp hother
      obtain ⟨hindex, rfl⟩ := List.getElem?_eq_some_iff.mp hold
      rcases Nat.lt_or_gt_of_ne hne with hlt | hlt
      · exact hboth position index hposition hindex hlt _ hotherKey holdKey
      · exact hboth index position hindex hposition hlt _ holdKey hotherKey
    · exact SlotTable.lookup_eq_none.mp hnone other hmem hotherKey
  · intro slot hslot hunused
    rcases List.mem_or_eq_of_mem_set hslot with hmem | rfl
    · exact h.idle slot hmem hunused
    · exact hidle hunused

/-- Writing a slot in use for a key sets the map at the key. -/
theorem active_setSlot {index : ℕ} {old new : Slot} (hwf : (r.setSlot index new).Wf)
    (hold : r.slots[index]? = some old) (hused : new.used = true)
    (hkey : old.used = true → old.key = new.key) (key : ReassemblyKey) :
    (r.setSlot index new).active key = if key = new.key then some new else r.active key := by
  obtain ⟨hindex, -⟩ := List.getElem?_eq_some_iff.mp hold
  split
  · rename_i hk
    subst hk
    exact SlotTable.lookup_set_self hwf.distinct hindex (Slot.occupant_eq_some.mpr ⟨hused, rfl⟩)
  · rename_i hk
    refine SlotTable.lookup_set_of_ne hold ?_ ?_
    · rw [ne_eq, Slot.occupant_eq_some]
      rintro ⟨hold', rfl⟩
      exact hk (hkey hold')
    · rw [ne_eq, Slot.occupant_eq_some]
      rintro ⟨-, rfl⟩
      exact hk rfl

/-- Resetting the slot of a key removes the key from the map. -/
theorem active_reset {index : ℕ} {old : Slot} (h : r.Wf) (hold : r.slots[index]? = some old)
    (hused : old.used = true) (key : ReassemblyKey) :
    (r.setSlot index .blank).active key = if key = old.key then none else r.active key := by
  split
  · rename_i hk
    subst hk
    exact SlotTable.lookup_set_free h.distinct hold (Slot.occupant_eq_some.mpr ⟨hused, rfl⟩)
      Slot.occupant_blank
  · rename_i hk
    refine SlotTable.lookup_set_of_ne hold ?_ ?_
    · rw [ne_eq, Slot.occupant_eq_some]
      rintro ⟨-, rfl⟩
      exact hk rfl
    · simp

theorem inQuarantine_quarantine {key other : ReassemblyKey} {deadline : ℕ}
    (h : (r.quarantine key deadline).inQuarantine other) : r.inQuarantine other ∨ other = key := by
  rw [quarantine] at h
  split at h
  · exact Or.inl h
  obtain ⟨entry, hentry, hkey⟩ := h
  rcases List.mem_append.mp hentry with hretained | hnew
  · refine Or.inl ⟨entry, ?_, hkey⟩
    split at hretained
    · exact List.mem_of_mem_tail hretained
    · exact hretained
  · obtain rfl := List.mem_singleton.mp hnew
    exact Or.inr hkey.symm

@[simp] theorem slots_quarantine (key : ReassemblyKey) (deadline : ℕ) :
    (r.quarantine key deadline).slots = r.slots := by
  rw [quarantine]
  split
  · rfl
  · rfl

@[simp] theorem mtu_quarantine (key : ReassemblyKey) (deadline : ℕ) :
    (r.quarantine key deadline).mtu = r.mtu := by
  rw [quarantine]
  split
  · rfl
  · rfl

theorem slotAt_eq {index : ℕ} {slot : Slot} (h : r.slots[index]? = some slot) :
    r.slotAt index = slot := by
  rw [slotAt, List.getD_eq_getElem?_getD, h, Option.getD_some]

/-- How a state looks after a call that worked on the slot of one key. -/
structure Updated (before : Reassembler) (key : ReassemblyKey) (slot : Option Slot)
    (after : Reassembler) : Prop where
  wf : after.Wf
  mtu : after.mtu = before.mtu
  active : ∀ other, after.active other = if other = key then slot else before.active other
  quarantine : ∀ other, after.inQuarantine other → before.inQuarantine other ∨ other = key
  kept : slot.isSome = true → after.inQuarantine key → before.inQuarantine key

theorem discard_updated {index : ℕ} {slot : Slot} (h : r.Wf) (hslot : r.slots[index]? = some slot)
    (hused : slot.used = true) : Updated r slot.key none (r.discard index) := by
  have hwf : (r.setSlot index .blank).Wf :=
    setSlot_wf h hslot (fun hblank => absurd hblank (by simp [Slot.blank])) fun _ => rfl
  rw [discard, slotAt_eq hslot]
  refine ⟨⟨?_, ?_⟩, mtu_quarantine _ _, ?_, ?_, fun hnone => absurd hnone (by simp)⟩
  · rw [slots_quarantine]
    exact hwf.distinct
  · rw [slots_quarantine]
    exact hwf.idle
  · intro other
    rw [Reassembler.active, slots_quarantine]
    exact active_reset h hslot hused other
  · intro other hother
    rcases inQuarantine_quarantine hother with hbefore | hkey
    · exact Or.inl hbefore
    · exact Or.inr hkey

/-- **What settling an outcome does to the map.** -/
theorem settle_updated {index : ℕ} {slot : Slot} {outcome : SlotOutcome} (h : r.Wf)
    (hslot : r.slots[index]? = some slot) (hused : slot.used = true)
    (hnext : ∀ next, outcome.next slot = some next → next.used = slot.used ∧ next.key = slot.key) :
    Updated r slot.key (outcome.next slot) (r.settle index outcome) := by
  cases outcome with
  | duplicate =>
    refine ⟨h, rfl, ?_, fun other hother => Or.inl hother, fun _ hother => hother⟩
    intro other
    split
    · rename_i hkey
      subst hkey
      exact (SlotTable.lookup_eq_some h.distinct).mpr
        ⟨List.mem_of_getElem? hslot, Slot.occupant_eq_some.mpr ⟨hused, rfl⟩⟩
    · rfl
  | conflict => exact discard_updated h hslot hused
  | invalid => exact discard_updated h hslot hused
  | accepted next =>
    obtain ⟨hnextUsed, hnextKey⟩ := hnext next rfl
    have hwf : (r.setSlot index next).Wf := by
      refine setSlot_wf h hslot ?_ ?_
      · intro _
        rw [hnextKey]
        exact Or.inl (Slot.occupant_eq_some.mpr ⟨hused, rfl⟩)
      · intro hunused
        rw [hnextUsed, hused] at hunused
        exact absurd hunused (by simp)
    refine ⟨hwf, rfl, ?_, fun other hother => Or.inl hother, fun _ hother => hother⟩
    intro other
    rw [← hnextKey]
    exact active_setSlot hwf hslot (hnextUsed.trans hused) (fun _ => hnextKey.symm) other
  | complete completed =>
    have hwf : (r.setSlot index .blank).Wf :=
      setSlot_wf h hslot (fun hblank => absurd hblank (by simp [Slot.blank])) fun _ => rfl
    exact ⟨hwf, rfl, active_reset h hslot hused, fun other hother => Or.inl hother,
      fun _ hother => hother⟩

/-! ### What a call of `accept` does -/

theorem findSlot_eq_some {key : ReassemblyKey} {index : ℕ} (h : r.findSlot key = some index) :
    ∃ slot, r.slots[index]? = some slot ∧ slot.used = true ∧ slot.key = key := by
  obtain ⟨hindex, hslot, -⟩ := List.findIdx?_eq_some_iff_getElem.mp h
  refine ⟨r.slots[index], List.getElem?_eq_getElem hindex, ?_⟩
  simpa using hslot

theorem findSlot_eq_none {key : ReassemblyKey} : r.findSlot key = none ↔ r.active key = none := by
  rw [findSlot, List.findIdx?_eq_none_iff, active, SlotTable.lookup_eq_none]
  simp only [ne_eq, Slot.occupant_eq_some, Bool.and_eq_false_imp, decide_eq_false_iff_not, not_and]

theorem freeSlot_eq_some {index : ℕ} (h : r.Wf) (hfree : r.freeSlot = some index) :
    r.slots[index]? = some .blank := by
  obtain ⟨hindex, hslot, -⟩ := List.findIdx?_eq_some_iff_getElem.mp hfree
  rw [List.getElem?_eq_getElem hindex, h.idle _ (List.getElem_mem hindex) (by simpa using hslot)]

theorem freeSlot_eq_none : r.freeSlot = none ↔ ¬r.hasFreeSlot := by
  rw [freeSlot, List.findIdx?_eq_none_iff, hasFreeSlot]
  simp

/-- The slot `accept` works on: that of the key, else a free one. -/
def target (r : Reassembler) (frame : DataFrame) (receivedTick : ℕ) : Option Slot :=
  match r.active frame.key with
  | some slot => some slot
  | none => r.freeSlot.map fun _ => .fresh frame receivedTick

/-- Opening a slot. -/
theorem openSlot_updated {index : ℕ} {frame : DataFrame} (receivedTick : ℕ) (h : r.Wf)
    (hfree : r.freeSlot = some index) (hnone : r.active frame.key = none) :
    (r.openSlot index frame receivedTick).slots[index]? = some (.fresh frame receivedTick) ∧
      Updated r frame.key (some (.fresh frame receivedTick))
        (r.openSlot index frame receivedTick) := by
  have hblank := freeSlot_eq_some h hfree
  have hslots : (r.openSlot index frame receivedTick).slots =
      (r.setSlot index (.fresh frame receivedTick)).slots := by
    rw [openSlot, slotAt_eq hblank]
    rfl
  have hwf : (r.setSlot index (.fresh frame receivedTick)).Wf :=
    setSlot_wf h hblank (fun _ => Or.inr hnone) fun hunused => absurd hunused (by simp [Slot.fresh])
  obtain ⟨hindex, -⟩ := List.getElem?_eq_some_iff.mp hblank
  refine ⟨?_, ⟨?_, ?_⟩, rfl, ?_, fun other hother => Or.inl hother, fun _ hother => hother⟩
  · rw [hslots, setSlot, List.getElem?_set_self hindex]
  · rw [hslots]
    exact hwf.distinct
  · rw [hslots]
    exact hwf.idle
  · intro other
    rw [active, hslots]
    exact active_setSlot hwf hblank rfl (fun hunused => absurd hunused (by simp [Slot.blank])) other

theorem Updated.trans {before middle after : Reassembler} {key : ReassemblyKey}
    {slot : Slot} {slot' : Option Slot} (h : Updated before key (some slot) middle)
    (h' : Updated middle key slot' after) : Updated before key slot' after := by
  refine ⟨h'.wf, h'.mtu.trans h.mtu, ?_, ?_, fun hsome hin => h.kept rfl (h'.kept hsome hin)⟩
  · intro other
    rw [h'.active, h.active]
    split
    · rfl
    · rfl
  · intro other hother
    rcases h'.quarantine other hother with hmiddle | hkey
    · exact h.quarantine other hmiddle
    · exact Or.inr hkey

theorem fragmentCapacity_congr {r r' : Reassembler} (h : r'.mtu = r.mtu) :
    r'.fragmentCapacity = r.fragmentCapacity := by
  rw [fragmentCapacity, fragmentCapacity, h]

/-- A frame that is let through is put into the slot of its key, which is opened
first if need be, and the answer of the slot is carried over. -/
theorem accept_settle {frame : DataFrame} {receivedTick : ℕ} {slot : Slot} (h : r.Wf)
    (haccepts : (r.expire receivedTick).1.accepts frame)
    (hquarantine : ¬(r.expire receivedTick).1.inQuarantine frame.key)
    (htarget : (r.expire receivedTick).1.target frame receivedTick = some slot) :
    ∃ opened index, opened.slots[index]? = some slot ∧ slot.used = true ∧ slot.key = frame.key ∧
      r.accept frame receivedTick =
        (opened.settle index (slot.answer r.mtu r.fragmentCapacity frame),
          (slot.answer r.mtu r.fragmentCapacity frame).result) ∧
      ((opened = (r.expire receivedTick).1 ∧
          (r.expire receivedTick).1.active frame.key = some slot) ∨
        (opened = (r.expire receivedTick).1.openSlot index frame receivedTick ∧
          slot = .fresh frame receivedTick ∧ (r.expire receivedTick).1.freeSlot = some index ∧
          (r.expire receivedTick).1.active frame.key = none)) := by
  have hwf := expire_wf h receivedTick
  have hmtu : (r.expire receivedTick).1.mtu = r.mtu := rfl
  have hcapacity := fragmentCapacity_congr hmtu
  have hidle := expireQuarantine_expire (r := r) receivedTick
  rw [accept]
  generalize (r.expire receivedTick).1 = r₀ at *
  have hany : r₀.quarantined.any (fun entry => decide (entry.key = frame.key)) = false := by
    rw [List.any_eq_false]
    intro entry hentry hkey
    exact hquarantine ⟨entry, hentry, by simpa using hkey⟩
  simp only [isQuarantined, hidle, hany, not_true_eq_false, if_false, haccepts,
    Bool.false_eq_true]
  rcases hfind : r₀.findSlot frame.key with _ | index
  · -- the key is new
    have hnone := findSlot_eq_none.mp hfind
    rw [target, hnone] at htarget
    rcases hfree : r₀.freeSlot with _ | index
    · rw [hfree] at htarget
      exact absurd htarget (by simp)
    rw [hfree] at htarget
    obtain rfl : Slot.fresh frame receivedTick = slot := by simpa using htarget
    obtain ⟨hslot, hopened⟩ := openSlot_updated receivedTick hwf hfree hnone
    refine ⟨_, index, hslot, rfl, rfl, ?_, .inr ⟨rfl, rfl, rfl, hnone⟩⟩
    simp only [slotAt_eq hslot, hopened.mtu, hmtu, fragmentCapacity_congr hopened.mtu, hcapacity]
    rw [Slot.answer_fresh]
  · -- the key is under way
    obtain ⟨found, hslot, hused, hkey⟩ := findSlot_eq_some hfind
    have hactive : r₀.active frame.key = some found :=
      (SlotTable.lookup_eq_some hwf.distinct).mpr
        ⟨List.mem_of_getElem? hslot, Slot.occupant_eq_some.mpr ⟨hused, hkey⟩⟩
    rw [target, hactive] at htarget
    obtain rfl : found = slot := by simpa using htarget
    refine ⟨r₀, index, hslot, hused, hkey, ?_, .inl ⟨rfl, hactive⟩⟩
    simp only [slotAt_eq hslot, hmtu, hcapacity]
    rfl

/-- **A frame that is let through** changes nothing but the slot of its key. -/
theorem accept_target {frame : DataFrame} {receivedTick : ℕ} {slot : Slot} (h : r.Wf)
    (haccepts : (r.expire receivedTick).1.accepts frame)
    (hquarantine : ¬(r.expire receivedTick).1.inQuarantine frame.key)
    (htarget : (r.expire receivedTick).1.target frame receivedTick = some slot) :
    (r.accept frame receivedTick).2 = (slot.answer r.mtu r.fragmentCapacity frame).result ∧
      Updated (r.expire receivedTick).1 frame.key
        ((slot.answer r.mtu r.fragmentCapacity frame).next slot)
        (r.accept frame receivedTick).1 := by
  have hwf := expire_wf h receivedTick
  obtain ⟨opened, index, hslot, hused, hkey, haccept, hopened⟩ :=
    accept_settle h haccepts hquarantine htarget
  rw [haccept]
  refine ⟨rfl, ?_⟩
  have hsettle (hwf : opened.Wf) : Updated opened frame.key
      ((slot.answer r.mtu r.fragmentCapacity frame).next slot)
      (opened.settle index (slot.answer r.mtu r.fragmentCapacity frame)) := by
    rw [← hkey]
    refine settle_updated hwf hslot hused ?_
    intro next hnext
    obtain ⟨hnextUsed, hnextKey, -⟩ := Slot.answer_next hnext
    exact ⟨hnextUsed, hnextKey⟩
  rcases hopened with ⟨rfl, -⟩ | ⟨rfl, rfl, hfree, hnone⟩
  · exact hsettle hwf
  · obtain ⟨-, hopened⟩ := openSlot_updated receivedTick hwf hfree hnone
    exact hopened.trans (hsettle hopened.wf)

/-- A frame that is not let through, for lack of form, for its key or for lack
of room, changes nothing. -/
theorem accept_refused {frame : DataFrame} {receivedTick : ℕ}
    (h : ¬((r.expire receivedTick).1.accepts frame ∧
      ¬(r.expire receivedTick).1.inQuarantine frame.key ∧
      ((r.expire receivedTick).1.target frame receivedTick).isSome)) :
    (r.accept frame receivedTick).1 = (r.expire receivedTick).1 ∧
      (r.accept frame receivedTick).2.status ≠ .complete := by
  have hidle := expireQuarantine_expire (r := r) receivedTick
  rw [accept]
  generalize (r.expire receivedTick).1 = r₀ at *
  by_cases haccepts : r₀.accepts frame
  swap
  · simp [haccepts]
  simp only [isQuarantined, hidle, haccepts, not_true_eq_false, if_false]
  by_cases hquarantine : r₀.inQuarantine frame.key
  · obtain ⟨entry, hentry, hkey⟩ := hquarantine
    have hany : r₀.quarantined.any (fun entry => decide (entry.key = frame.key)) = true :=
      List.any_eq_true.mpr ⟨entry, hentry, by simpa using hkey⟩
    simp [hany]
  have hany : r₀.quarantined.any (fun entry => decide (entry.key = frame.key)) = false := by
    rw [List.any_eq_false]
    intro entry hentry hkey
    exact hquarantine ⟨entry, hentry, by simpa using hkey⟩
  have htarget : r₀.target frame receivedTick = none := by
    rw [← Option.not_isSome_iff_eq_none]
    exact fun hsome => h ⟨haccepts, hquarantine, hsome⟩
  rw [target] at htarget
  rcases hactive : r₀.active frame.key with _ | slot
  · rw [hactive] at htarget
    have hfree : r₀.freeSlot = none := by simpa using htarget
    simp [hany, findSlot_eq_none.mpr hactive, hfree]
  · rw [hactive] at htarget
    exact absurd htarget (by simp)

/-- Calls on other keys leave a key alone. -/
theorem active_accept_of_ne {frame : DataFrame} {key : ReassemblyKey} (receivedTick : ℕ)
    (h : r.Wf) (hkey : key ≠ frame.key) :
    (r.accept frame receivedTick).1.active key = (r.expire receivedTick).1.active key ∧
      ((r.accept frame receivedTick).1.inQuarantine key →
        (r.expire receivedTick).1.inQuarantine key) := by
  by_cases hlet : (r.expire receivedTick).1.accepts frame ∧
      ¬(r.expire receivedTick).1.inQuarantine frame.key ∧
      ((r.expire receivedTick).1.target frame receivedTick).isSome
  · obtain ⟨haccepts, hquarantine, hsome⟩ := hlet
    obtain ⟨slot, hslot⟩ := Option.isSome_iff_exists.mp hsome
    obtain ⟨-, hupdated⟩ := accept_target h haccepts hquarantine hslot
    refine ⟨by rw [hupdated.active, if_neg hkey], fun hin => ?_⟩
    exact (hupdated.quarantine key hin).resolve_right hkey
  · obtain ⟨hsame, -⟩ := accept_refused hlet
    rw [hsame]
    exact ⟨rfl, id⟩

theorem accept_wf (frame : DataFrame) (receivedTick : ℕ) (h : r.Wf) :
    (r.accept frame receivedTick).1.Wf ∧ (r.accept frame receivedTick).1.mtu = r.mtu := by
  by_cases hlet : (r.expire receivedTick).1.accepts frame ∧
      ¬(r.expire receivedTick).1.inQuarantine frame.key ∧
      ((r.expire receivedTick).1.target frame receivedTick).isSome
  · obtain ⟨haccepts, hquarantine, hsome⟩ := hlet
    obtain ⟨slot, hslot⟩ := Option.isSome_iff_exists.mp hsome
    obtain ⟨-, hupdated⟩ := accept_target h haccepts hquarantine hslot
    exact ⟨hupdated.wf, hupdated.mtu⟩
  · obtain ⟨hsame, -⟩ := accept_refused hlet
    rw [hsame]
    exact ⟨expire_wf h receivedTick, rfl⟩

end Reassembler

end Lora
