/-
The state of the reassembler.

Whatever frames arrive, at most eight posts are under way, each of them under a
key of its own and with some but not all of its fragments, and no key under way
is in quarantine.  The place of a fragment follows from the index and the count
that `accept` has checked, so that the buffer of a slot is never left.

* `accept_quarantined` — what `accept` does to the quarantine;
* `Reassembler.Sound` — the invariant, kept by `call_sound`;
* `Slot.accesses` — the parts of the buffer that `accept` reads and writes;
* `reassembler_state_invariant` — the state after any sequence of calls.
-/
import LoraMessenger.BoundedQueue
import LoraMessenger.Ingress

namespace Lora

/-! ### What `accept` leaves -/

/-- Whether the key of a slot goes into quarantine. -/
def SlotOutcome.discards : SlotOutcome → Bool
  | .conflict => true
  | .invalid => true
  | _ => false

theorem SlotOutcome.next_of_discards {outcome : SlotOutcome} (h : outcome.discards) (slot : Slot) :
    outcome.next slot = none := by
  cases outcome <;> simp_all [SlotOutcome.discards, SlotOutcome.next]

namespace Reassembler

variable {r : Reassembler}

/-- The quarantine with one more key. -/
def quarantineWith (r : Reassembler) (key : ReassemblyKey) (deadline : ℕ) : List QuarantinedKey :=
  BoundedQueue.push kMaximumQuarantinedKeys ⟨key, deadline⟩ r.quarantined

theorem inQuarantine_iff {key : ReassemblyKey} :
    r.inQuarantine key ↔ key ∈ r.quarantined.map QuarantinedKey.key := by
  rw [List.mem_map]
  rfl

theorem quarantined_quarantine {key : ReassemblyKey} (h : ¬r.inQuarantine key) (deadline : ℕ) :
    (r.quarantine key deadline).quarantined = r.quarantineWith key deadline := by
  have hany : ¬r.quarantined.any (fun entry => decide (entry.key = key)) := by
    rw [List.any_eq_true]
    rintro ⟨entry, hentry, hkey⟩
    exact h ⟨entry, hentry, by simpa using hkey⟩
  rw [quarantine, if_neg hany]
  rfl

@[simp] theorem highWaterCount_quarantine (key : ReassemblyKey) (deadline : ℕ) :
    (r.quarantine key deadline).highWaterCount = r.highWaterCount := by
  unfold quarantine
  split <;> rfl

section Settle

variable {index : ℕ} {slot : Slot} {outcome : SlotOutcome}

theorem quarantined_settle (hslot : r.slots[index]? = some slot) (hkey : ¬r.inQuarantine slot.key) :
    (r.settle index outcome).quarantined =
      if outcome.discards then r.quarantineWith slot.key slot.deadline else r.quarantined := by
  have hdiscard : (r.discard index).quarantined = r.quarantineWith slot.key slot.deadline := by
    rw [discard, slotAt_eq hslot]
    exact quarantined_quarantine (r := r.setSlot index .blank) hkey slot.deadline
  cases outcome with
  | conflict => exact hdiscard
  | invalid => exact hdiscard
  | _ => rfl

theorem length_slots_settle : (r.settle index outcome).slots.length = r.slots.length := by
  cases outcome <;> simp [settle, discard, setSlot]

theorem highWaterCount_settle : (r.settle index outcome).highWaterCount = r.highWaterCount := by
  cases outcome <;> simp [settle, discard, setSlot]

/-- Writing to a slot in use takes no further one. -/
theorem activeCount_setSlot_le {new : Slot} (hslot : r.slots[index]? = some slot)
    (hused : slot.used = true) : (r.setSlot index new).activeCount ≤ r.activeCount := by
  obtain ⟨hindex, rfl⟩ := List.getElem?_eq_some_iff.mp hslot
  have hcount := List.countP_set (p := Slot.used) hindex (a := new)
  rw [if_pos hused] at hcount
  have hpos : 0 < r.slots.countP Slot.used :=
    List.countP_pos_iff.mpr ⟨_, List.getElem_mem hindex, hused⟩
  unfold activeCount setSlot
  rw [hcount]
  split <;> omega

theorem activeCount_settle_le (hslot : r.slots[index]? = some slot) (hused : slot.used = true) :
    (r.settle index outcome).activeCount ≤ r.activeCount := by
  have hdiscard : (r.discard index).activeCount ≤ r.activeCount := by
    rw [discard, activeCount, slots_quarantine]
    exact activeCount_setSlot_le hslot hused
  cases outcome with
  | duplicate => exact Nat.le_refl _
  | conflict => exact hdiscard
  | invalid => exact hdiscard
  | accepted slot => exact activeCount_setSlot_le hslot hused
  | complete completed => exact activeCount_setSlot_le hslot hused

end Settle

theorem activeCount_expire_le (now : ℕ) : (r.expire now).1.activeCount ≤ r.activeCount := by
  show List.countP Slot.used (SlotTable.sweep _ _ r.slots) ≤ List.countP Slot.used r.slots
  rw [SlotTable.sweep, List.countP_map]
  refine List.countP_mono_left fun slot _ hused => ?_
  revert hused
  simp only [Function.comp]
  split
  · simp [Slot.blank]
  · exact id

section Accept

variable {frame : DataFrame} {receivedTick : ℕ} {slot : Slot}

/-- The state in which `accept` has just opened a slot, if it opens one. -/
def opened (r : Reassembler) (frame : DataFrame) (receivedTick : ℕ) : Option Reassembler :=
  let r := (r.expire receivedTick).1
  if r.accepts frame ∧ ¬(r.isQuarantined frame.key receivedTick).2 ∧
    r.findSlot frame.key = none then
    r.freeSlot.map fun index => r.openSlot index frame receivedTick
  else none

theorem isQuarantined_expire : ((r.expire receivedTick).1.isQuarantined frame.key receivedTick).2 ↔
    (r.expire receivedTick).1.inQuarantine frame.key := by
  rw [isQuarantined, expireQuarantine_expire, List.any_eq_true]
  simp [inQuarantine]

variable (h : r.Wf) (haccepts : (r.expire receivedTick).1.accepts frame)
  (hquarantine : ¬(r.expire receivedTick).1.inQuarantine frame.key)
  (htarget : (r.expire receivedTick).1.target frame receivedTick = some slot)

include h haccepts hquarantine htarget in
/-- A slot that is discarded leaves its key and its deadline in quarantine. -/
theorem accept_quarantined : (r.accept frame receivedTick).1.quarantined =
    if (slot.answer r.mtu r.fragmentCapacity frame).discards then
      (r.expire receivedTick).1.quarantineWith frame.key slot.deadline
    else (r.expire receivedTick).1.quarantined := by
  obtain ⟨opened, index, hslot, -, hkey, haccept, hopened⟩ :=
    accept_settle h haccepts hquarantine htarget
  have hsame : opened.quarantined = (r.expire receivedTick).1.quarantined := by
    rcases hopened with ⟨rfl, -⟩ | ⟨rfl, -⟩ <;> rfl
  have hnot : ¬opened.inQuarantine slot.key := by
    rw [hkey, inQuarantine, hsame]
    exact hquarantine
  rw [haccept, quarantined_settle hslot hnot, hkey, quarantineWith, quarantineWith, hsame]

end Accept

theorem length_slots_accept (frame : DataFrame) (receivedTick : ℕ) (h : r.Wf) :
    (r.accept frame receivedTick).1.slots.length = r.slots.length := by
  have hexpire : (r.expire receivedTick).1.slots.length = r.slots.length :=
    List.length_map ..
  by_cases hlet : (r.expire receivedTick).1.accepts frame ∧
      ¬(r.expire receivedTick).1.inQuarantine frame.key ∧
      ((r.expire receivedTick).1.target frame receivedTick).isSome
  · obtain ⟨haccepts, hquarantine, hsome⟩ := hlet
    obtain ⟨slot, htarget⟩ := Option.isSome_iff_exists.mp hsome
    obtain ⟨opened, index, -, -, -, haccept, hopened⟩ :=
      accept_settle h haccepts hquarantine htarget
    rw [haccept, length_slots_settle]
    rcases hopened with ⟨rfl, -⟩ | ⟨rfl, -⟩
    · exact hexpire
    · exact (List.length_set ..).trans hexpire
  · rw [(accept_refused hlet).1]
    exact hexpire

end Reassembler

/-! ### One slot -/

/-- A slot in use has some of its fragments, and not all of them. -/
structure Slot.UnderWay (slot : Slot) : Prop where
  begun : slot.receivedBitmap ≠ 0
  missing : slot.receivedBitmap ≠ completeMask slot.fragmentCount

theorem Slot.UnderWay.answer {slot next : Slot} {mtu fragmentCapacity : ℕ} {frame : DataFrame}
    (hslot : slot.receivedBitmap = 0 ∨ slot.UnderWay)
    (h : (slot.answer mtu fragmentCapacity frame).next slot = some next) : next.UnderWay := by
  rw [Slot.answer] at h
  split at h
  · cases h
  rename_i hlayout
  rw [not_or, not_not, not_not] at hlayout
  rw [Slot.receive] at h
  dsimp only at h
  split at h
  · rename_i hbit
    split at h
    · cases h
      -- A fragment that is there already was not the first one.
      refine hslot.resolve_left fun hzero => hbit ?_
      rw [hzero, Nat.zero_and]
    · cases h
  split at h
  · rename_i hmissing
    cases h
    refine ⟨fun hzero => ?_, ?_⟩
    · have hmarked : (slot.write fragmentCapacity frame).receivedBitmap.testBit
          frame.fragmentIndex.toNat = true := by
        simp [Slot.write]
      rw [hzero] at hmarked
      simp at hmarked
    · rw [Slot.write]
      rw [Slot.write] at hmissing
      rw [hlayout.2]
      exact hmissing
  · rw [Slot.finish_next] at h
    cases h

/-- The parts of the buffer that a frame makes its slot read or write, as offsets and
lengths: a fragment that is there is compared if the length fits, a new one is
copied, and a full slot is read as a whole and fragment by fragment. -/
def Slot.accesses (slot : Slot) (fragmentCapacity : ℕ) (frame : DataFrame) : List (ℕ × ℕ) :=
  let fragment := (frame.fragmentIndex.toNat * fragmentCapacity, frame.payload.length)
  if slot.totalLength ≠ frame.totalLength ∨ slot.fragmentCount ≠ frame.fragmentCount then []
  else if slot.receivedBitmap &&& 1 <<< frame.fragmentIndex.toNat ≠ 0 then
    if slot.fragmentLengths.getD frame.fragmentIndex.toNat 0 = frame.payload.length then [fragment]
    else []
  else
    let slot := slot.write fragmentCapacity frame
    if slot.receivedBitmap ≠ completeMask frame.fragmentCount then [fragment]
    else
      fragment :: (0, slot.totalLength.toNat) :: (List.range slot.fragmentCount.toNat).map
        fun index => (index * fragmentCapacity, slot.fragmentLengths.getD index 0)

section Slot

variable {mtu : ℕ} {slot : Slot} {frame : DataFrame} {source : DataFrame → Prop}

theorem Slot.Filled.accesses_le (h : slot.Filled mtu source) (hvalid : FrameValid mtu frame)
    (hsource : source frame) (hkey : frame.key = slot.key) :
    ∀ access ∈ slot.accesses (framePayloadCapacity mtu) frame,
      access.1 + access.2 ≤ kMaximumEncodedPostBytes := by
  obtain ⟨-, hfits, hlt, hle, -, hmax⟩ := hvalid.place
  have hfragment : frame.fragmentIndex.toNat * framePayloadCapacity mtu + frame.payload.length ≤
      kMaximumEncodedPostBytes := Nat.le_trans hfits hmax
  unfold Slot.accesses
  dsimp only
  split
  · simp
  rename_i hlayout
  rw [not_or, not_not, not_not] at hlayout
  split
  · split
    · simpa using hfragment
    · simp
  rename_i hbit
  split
  · simpa using hfragment
  rename_i hmask
  rw [not_not] at hmask
  have hnew : slot.receivedBitmap.testBit frame.fragmentIndex.toNat = false :=
    Bool.eq_false_iff.mpr (mt Chunks.and_mark_ne_zero.mpr hbit)
  have hfilled := h.write hvalid hsource hkey hlayout.2.symm hlayout.1.symm hnew
  intro access haccess
  rcases List.mem_cons.mp haccess with rfl | haccess
  · exact hfragment
  rcases List.mem_cons.mp haccess with rfl | haccess
  · show 0 + slot.totalLength.toNat ≤ _
    rw [hlayout.1]
    omega
  · -- A fragment of a full slot has come with a frame of its own.
    obtain ⟨index, hindex, rfl⟩ := List.mem_map.mp haccess
    have hcount : (slot.write (framePayloadCapacity mtu) frame).fragmentCount =
      frame.fragmentCount := hlayout.2
    rw [List.mem_range, hcount] at hindex
    rw [completeMask_eq] at hmask
    have hmarked : (slot.write (framePayloadCapacity mtu) frame).receivedBitmap.testBit index :=
      (Chunks.bitmap_complete hmask index).mpr hindex
    obtain ⟨part, -, hpart, rfl, hholds⟩ := hfilled.marked index hmarked
    obtain ⟨-, hfits, -, -, -, hmax⟩ := hpart.place
    show part.fragmentIndex.toNat * framePayloadCapacity mtu + _ ≤ _
    rw [hholds.length]
    omega

/-- The length of the fragment at an index, as the layout of the slot has it. -/
def Slot.expectedLength (slot : Slot) (mtu index : ℕ) : ℕ :=
  if index + 1 < slot.fragmentCount.toNat then framePayloadCapacity mtu
  else slot.totalLength.toNat - framePayloadCapacity mtu * (slot.fragmentCount.toNat - 1)

theorem Slot.Filled.length_eq {index : ℕ} (h : slot.Filled mtu source)
    (hindex : slot.receivedBitmap.testBit index) :
    slot.fragmentLengths.getD index 0 = slot.expectedLength mtu index := by
  obtain ⟨part, -, hpart, rfl, hholds⟩ := h.marked index hindex
  obtain ⟨-, -, -, -, hsize⟩ := validateFrameFields_eq_none.mp hpart.2
  rw [hholds.length, hsize, Slot.expectedLength, hholds.count, hholds.total]

/-- Only fragments below the count are marked. -/
theorem Slot.Filled.bitmap_subset (h : slot.Filled mtu source) :
    slot.receivedBitmap &&& completeMask slot.fragmentCount = slot.receivedBitmap := by
  refine Nat.eq_of_testBit_eq fun index => ?_
  rw [Nat.testBit_and, completeMask_eq, Nat.one_shiftLeft, Nat.testBit_two_pow_sub_one]
  rcases hindex : slot.receivedBitmap.testBit index with _ | _
  · rfl
  · obtain ⟨part, -, hpart, rfl, hholds⟩ := h.marked index hindex
    obtain ⟨-, -, hlt, -⟩ := hpart.place
    rw [hholds.count] at hlt
    simpa using hlt

end Slot

/-! ### The invariant -/

namespace Reassembler

structure Sound (r : Reassembler) (mtu : ℕ) : Prop where
  filled : r.FilledFrom mtu fun _ => True
  slots_length : r.slots.length = kMaximumReassemblies
  underWay : ∀ key slot, r.active key = some slot → slot.UnderWay
  quarantined_length : r.quarantined.length ≤ kMaximumQuarantinedKeys
  distinct : (r.quarantined.map QuarantinedKey.key).Nodup
  apart : ∀ entry ∈ r.quarantined, r.active entry.key = none

variable {r : Reassembler} {mtu : ℕ}

theorem new_sound (mtu : ℕ) : (new mtu).Sound mtu where
  filled := .new
  slots_length := List.length_replicate ..
  underWay := by
    intro key slot hactive
    obtain ⟨hmem, -⟩ := SlotTable.occupant_of_lookup hactive
    obtain rfl := List.eq_of_mem_replicate hmem
    exact absurd (active_eq_some hactive).1 (by simp [Slot.blank])
  quarantined_length := Nat.zero_le _
  distinct := List.nodup_nil
  apart := by simp [new]

theorem expire_sound (h : r.Sound mtu) (now : ℕ) : (r.expire now).1.Sound mtu where
  filled := h.filled.expire now
  slots_length := (List.length_map ..).trans h.slots_length
  underWay := by
    intro key slot hactive
    rw [active_expire h.filled.wf, Option.filter_eq_some_iff] at hactive
    exact h.underWay key slot hactive.1
  quarantined_length := Nat.le_trans (List.length_filter_le ..) h.quarantined_length
  distinct := h.distinct.sublist (List.filter_sublist.map _)
  apart := by
    intro entry hentry
    rw [active_expire h.filled.wf, h.apart entry (List.mem_filter.mp hentry).1]
    rfl

theorem clear_sound (h : r.Sound mtu) : r.clear.Sound mtu where
  filled := h.filled.clear
  slots_length := (List.length_map ..).trans h.slots_length
  underWay := by
    intro key slot hactive
    rw [active_clear] at hactive
    cases hactive
  quarantined_length := Nat.zero_le _
  distinct := List.nodup_nil
  apart := by simp [clear]

/-- The slot that `accept` works on is under way, or just opened. -/
theorem Sound.target {frame : DataFrame} {receivedTick : ℕ} {slot : Slot} (h : r.Sound mtu)
    (htarget : r.target frame receivedTick = some slot) :
    slot.receivedBitmap = 0 ∨ slot.UnderWay := by
  unfold Reassembler.target at htarget
  split at htarget
  · rename_i hactive
    cases htarget
    exact .inr (h.underWay _ _ hactive)
  · obtain ⟨-, -, rfl⟩ := Option.map_eq_some_iff.mp htarget
    exact .inl rfl

theorem accept_sound (h : r.Sound mtu) (frame : DataFrame) (receivedTick : ℕ) :
    (r.accept frame receivedTick).1.Sound mtu := by
  have hexpired := expire_sound h receivedTick
  by_cases hlet : (r.expire receivedTick).1.accepts frame ∧
      ¬(r.expire receivedTick).1.inQuarantine frame.key ∧
      ((r.expire receivedTick).1.target frame receivedTick).isSome
  swap
  · rw [(accept_refused hlet).1]
    exact hexpired
  obtain ⟨haccepts, hquarantine, hsome⟩ := hlet
  obtain ⟨slot, htarget⟩ := Option.isSome_iff_exists.mp hsome
  obtain ⟨-, hupdated⟩ := accept_target h.filled.wf haccepts hquarantine htarget
  have hquarantined := accept_quarantined h.filled.wf haccepts hquarantine htarget
  have hother {entry : QuarantinedKey} (hentry : entry ∈ (r.expire receivedTick).1.quarantined) :
      (r.accept frame receivedTick).1.active entry.key = none := by
    have hne : entry.key ≠ frame.key := fun heq => hquarantine ⟨entry, hentry, heq⟩
    rw [hupdated.active, if_neg hne]
    exact hexpired.apart entry hentry
  refine ⟨(h.filled.accept trivial receivedTick).1, ?_, ?_, ?_, ?_, ?_⟩
  · exact (length_slots_accept frame receivedTick h.filled.wf).trans h.slots_length
  · intro key next hactive
    rw [hupdated.active] at hactive
    split at hactive
    · exact .answer (hexpired.target htarget) hactive
    · exact hexpired.underWay key next hactive
  · rw [hquarantined]
    split
    · exact BoundedQueue.length_push_le (by decide) hexpired.quarantined_length
    · exact hexpired.quarantined_length
  · rw [hquarantined]
    split
    · exact BoundedQueue.nodup_push hexpired.distinct (mt inQuarantine_iff.mpr hquarantine)
    · exact hexpired.distinct
  · rw [hquarantined]
    intro entry hentry
    split at hentry
    · rename_i hdiscards
      rcases BoundedQueue.mem_push hentry with hold | rfl
      · exact hother hold
      · rw [hupdated.active, if_pos rfl, SlotOutcome.next_of_discards hdiscards]
    · exact hother hentry

theorem call_sound (h : r.Sound mtu) (c : ReassemblerCall) : (r.call c).Sound mtu := by
  cases c with
  | accept frame receivedTick => exact accept_sound h frame receivedTick
  | expire now => exact expire_sound h now
  | clear => exact clear_sound h

theorem run_sound (mtu : ℕ) (calls : List ReassemblerCall) : (run mtu calls).Sound mtu := by
  induction calls using List.reverseRecOn with
  | nil => exact new_sound mtu
  | append_singleton calls c ih =>
    rw [run, List.foldl_append]
    exact call_sound ih c

/-! ### The high water mark -/

/-- The states a call goes through. -/
def visited (r : Reassembler) : ReassemblerCall → List Reassembler
  | .accept frame receivedTick => (r.expire receivedTick).1 ::
      ((r.opened frame receivedTick).toList ++ [(r.accept frame receivedTick).1])
  | .expire now => [(r.expire now).1]
  | .clear => [r.clear]

/-- The states a sequence of calls goes through, the first one included. -/
def states (r : Reassembler) : List ReassemblerCall → List Reassembler
  | [] => [r]
  | c :: calls => r :: (r.visited c ++ (r.call c).states calls)

theorem accept_opened (h : r.Wf) (frame : DataFrame) (receivedTick : ℕ) :
    (r.opened frame receivedTick = none ∧
      (r.accept frame receivedTick).1.highWaterCount = r.highWaterCount ∧
      (r.accept frame receivedTick).1.activeCount ≤ (r.expire receivedTick).1.activeCount) ∨
    ∃ taken, r.opened frame receivedTick = some taken ∧
      (r.accept frame receivedTick).1.highWaterCount = max r.highWaterCount taken.activeCount ∧
      (r.accept frame receivedTick).1.activeCount ≤ taken.activeCount := by
  have hasked : (r.expire receivedTick).1.accepts frame ∧
      ¬((r.expire receivedTick).1.isQuarantined frame.key receivedTick).2 ↔
      (r.expire receivedTick).1.accepts frame ∧
        ¬(r.expire receivedTick).1.inQuarantine frame.key := by
    rw [isQuarantined_expire]
  by_cases hlet : (r.expire receivedTick).1.accepts frame ∧
      ¬(r.expire receivedTick).1.inQuarantine frame.key ∧
      ((r.expire receivedTick).1.target frame receivedTick).isSome
  · obtain ⟨haccepts, hquarantine, hsome⟩ := hlet
    obtain ⟨slot, htarget⟩ := Option.isSome_iff_exists.mp hsome
    obtain ⟨opened, index, hslot, hused, -, haccept, hopened⟩ :=
      accept_settle h haccepts hquarantine htarget
    obtain ⟨-, hnot⟩ := hasked.mpr ⟨haccepts, hquarantine⟩
    rw [haccept]
    rcases hopened with ⟨rfl, hactive⟩ | ⟨rfl, -, hfree, hactive⟩
    · refine .inl ⟨?_, highWaterCount_settle, activeCount_settle_le hslot hused⟩
      refine if_neg fun hall => ?_
      rw [findSlot_eq_none.mp hall.2.2] at hactive
      cases hactive
    · refine .inr ⟨(r.expire receivedTick).1.openSlot index frame receivedTick, ?_,
        highWaterCount_settle, activeCount_settle_le hslot hused⟩
      unfold Reassembler.opened
      dsimp only
      rw [if_pos ⟨haccepts, hnot, findSlot_eq_none.mpr hactive⟩, hfree]
      rfl
  · rw [(accept_refused hlet).1]
    refine .inl ⟨?_, rfl, Nat.le_refl _⟩
    -- Without a target no slot is opened.
    unfold Reassembler.opened
    dsimp only
    split
    · rename_i hall
      obtain ⟨haccepts, hquarantine⟩ := hasked.mp ⟨hall.1, hall.2.1⟩
      rw [Option.map_eq_none_iff]
      by_contra hfree
      refine hlet ⟨haccepts, hquarantine, ?_⟩
      rw [Reassembler.target, findSlot_eq_none.mp hall.2.2]
      simpa [Option.isSome_iff_ne_none] using hfree
    · rfl

theorem activeCount_clear : r.clear.activeCount = 0 := by
  simp [activeCount, clear, List.countP_eq_zero, Slot.blank]

/-- One call moves the mark up to the largest number of slots it uses. -/
theorem visited_highWaterCount (h : r.Wf) (hmark : r.activeCount ≤ r.highWaterCount)
    (c : ReassemblerCall) :
    (∀ state ∈ r.visited c, state.activeCount ≤ (r.call c).highWaterCount) ∧
      r.highWaterCount ≤ (r.call c).highWaterCount ∧
      (r.call c).activeCount ≤ (r.call c).highWaterCount ∧
      ((r.call c).highWaterCount = r.highWaterCount ∨
        ∃ state ∈ r.visited c, state.activeCount = (r.call c).highWaterCount) := by
  cases c with
  | accept frame receivedTick =>
    have hexpire := activeCount_expire_le (r := r) receivedTick
    simp only [visited, call]
    rcases accept_opened h frame receivedTick with
      ⟨hnone, hmark', hcount⟩ | ⟨taken, hsome, hmark', hcount⟩
    · rw [hnone, hmark']
      simp only [Option.toList_none, List.nil_append, List.mem_cons, List.not_mem_nil, or_false,
        forall_eq_or_imp, forall_eq, true_or, and_true]
      omega
    · rw [hsome, hmark']
      simp only [Option.toList_some, List.cons_append, List.nil_append, List.mem_cons,
        List.not_mem_nil, or_false, forall_eq_or_imp, forall_eq, exists_eq_or_imp, exists_eq_left]
      omega
  | expire now =>
    have hexpire := activeCount_expire_le (r := r) now
    have hsame : (r.expire now).1.highWaterCount = r.highWaterCount := rfl
    simp only [visited, call, List.mem_singleton, forall_eq, hsame, true_or, and_true]
    omega
  | clear =>
    have hsame : r.clear.highWaterCount = r.highWaterCount := rfl
    simp only [visited, call, List.mem_singleton, forall_eq, hsame, activeCount_clear, true_or,
      and_true]
    omega

/-- So does a sequence of calls. -/
theorem states_highWaterCount (h : r.Wf) (hmark : r.activeCount ≤ r.highWaterCount)
    (calls : List ReassemblerCall) :
    (∀ state ∈ r.states calls, state.activeCount ≤ (calls.foldl call r).highWaterCount) ∧
      r.highWaterCount ≤ (calls.foldl call r).highWaterCount ∧
      ((calls.foldl call r).highWaterCount = r.highWaterCount ∨
        ∃ state ∈ r.states calls, state.activeCount = (calls.foldl call r).highWaterCount) := by
  induction calls generalizing r with
  | nil => simpa [states] using hmark
  | cons c calls ih =>
    obtain ⟨hvisited, hgrows, hmark', hreached⟩ := visited_highWaterCount h hmark c
    obtain ⟨hstates, hgrows', hreached'⟩ := ih (call_wf h c).1 hmark'
    rw [List.foldl_cons]
    refine ⟨?_, Nat.le_trans hgrows hgrows', ?_⟩
    · intro state hstate
      rcases List.mem_cons.mp hstate with rfl | hstate
      · omega
      rcases List.mem_append.mp hstate with hstate | hstate
      · exact Nat.le_trans (hvisited state hstate) hgrows'
      · exact hstates state hstate
    · rcases hreached' with hsame | ⟨state, hstate, hcount⟩
      · rw [hsame]
        refine hreached.imp id ?_
        rintro ⟨state, hstate, hcount⟩
        exact ⟨state, List.mem_cons_of_mem _ (List.mem_append_left _ hstate), hcount⟩
      · exact .inr ⟨state, List.mem_cons_of_mem _ (List.mem_append_right _ hstate), hcount⟩

/-! ### Any sequence of calls -/

theorem Wf.keys_nodup (h : r.Wf) : ((r.slots.filter Slot.used).map Slot.key).Nodup := by
  rw [List.nodup_iff_pairwise_ne, List.pairwise_map]
  refine List.Pairwise.imp_of_mem ?_ (h.distinct.filter Slot.used)
  intro left right hleft hright hne heq
  refine hne left.key (Slot.occupant_eq_some.mpr ⟨(List.mem_filter.mp hleft).2, rfl⟩) ?_
  exact Slot.occupant_eq_some.mpr ⟨(List.mem_filter.mp hright).2, heq.symm⟩

/-- The parts of the buffers that a call of `accept` reads and writes. -/
def accesses (r : Reassembler) (frame : DataFrame) (receivedTick : ℕ) : List (ℕ × ℕ) :=
  let r := (r.expire receivedTick).1
  if r.accepts frame ∧ ¬(r.isQuarantined frame.key receivedTick).2 then
    match r.target frame receivedTick with
    | none => []
    | some slot => slot.accesses r.fragmentCapacity frame
  else []

theorem Sound.accesses_le (h : r.Sound mtu) (frame : DataFrame) (receivedTick : ℕ) :
    ∀ access ∈ r.accesses frame receivedTick, access.1 + access.2 ≤ kMaximumEncodedPostBytes := by
  have hexpired := (expire_sound h receivedTick).filled
  unfold accesses
  dsimp only
  split
  swap
  · simp
  rename_i hasked
  split
  · simp
  rename_i slot htarget
  obtain ⟨hkey, hslot⟩ := hexpired.target htarget
  have hvalid : FrameValid mtu frame := by
    rw [← hexpired.mtu_eq]
    exact accepts_iff.mp hasked.1
  have hcapacity : (r.expire receivedTick).1.fragmentCapacity = framePayloadCapacity mtu := by
    rw [fragmentCapacity_eq (by rw [hexpired.mtu_eq]; exact hvalid.1), hexpired.mtu_eq]
  rw [hcapacity]
  exact hslot.accesses_le hvalid trivial hkey.symm

/-- After any calls with any frames at any ticks at most eight slots are used, under
different keys; at most 32 keys are in quarantine, all different and none of them
under way; a slot in use has some but not all of its fragments, each of the length
that its place has; the next frame stays within the buffer of its slot; and the
high water mark is the largest number of slots that were ever used at once. -/
theorem reassembler_state_invariant (mtu : ℕ) (calls : List ReassemblerCall) :
    (run mtu calls).activeCount ≤ 8 ∧
    (((run mtu calls).slots.filter Slot.used).map Slot.key).Nodup ∧
    (run mtu calls).quarantined.length ≤ 32 ∧
    ((run mtu calls).quarantined.map QuarantinedKey.key).Nodup ∧
    (∀ entry ∈ (run mtu calls).quarantined, ∀ slot ∈ (run mtu calls).slots, slot.used →
      slot.key ≠ entry.key) ∧
    (∀ slot ∈ (run mtu calls).slots, slot.used →
      slot.receivedBitmap ≠ 0 ∧
      slot.receivedBitmap &&& completeMask slot.fragmentCount = slot.receivedBitmap ∧
      slot.receivedBitmap ≠ completeMask slot.fragmentCount ∧
      ∀ index, slot.receivedBitmap.testBit index →
        slot.fragmentLengths.getD index 0 = slot.expectedLength mtu index) ∧
    (∀ frame receivedTick, ∀ access ∈ (run mtu calls).accesses frame receivedTick,
      access.1 + access.2 ≤ 316) ∧
    (∀ state ∈ (new mtu).states calls, state.activeCount ≤ (run mtu calls).highWaterCount) ∧
    ∃ state ∈ (new mtu).states calls, state.activeCount = (run mtu calls).highWaterCount := by
  have hsound := run_sound mtu calls
  have hnew : (new mtu).activeCount = 0 := by
    simp [activeCount, new, List.countP_replicate, Slot.blank]
  obtain ⟨hstates, -, hreached⟩ := states_highWaterCount (new_wf mtu) hnew.le calls
  have hactive {slot : Slot} (hslot : slot ∈ (run mtu calls).slots) (hused : slot.used) :
      (run mtu calls).active slot.key = some slot :=
    (SlotTable.lookup_eq_some hsound.filled.wf.distinct).mpr
      ⟨hslot, Slot.occupant_eq_some.mpr ⟨hused, rfl⟩⟩
  refine ⟨?_, ?_, hsound.quarantined_length, hsound.distinct, ?_, ?_, hsound.accesses_le,
    hstates, ?_⟩
  · exact Nat.le_trans List.countP_le_length hsound.slots_length.le
  · exact hsound.filled.wf.keys_nodup
  · intro entry hentry slot hslot hused heq
    have hnone := hsound.apart entry hentry
    rw [← heq, hactive hslot hused] at hnone
    cases hnone
  · intro slot hslot hused
    obtain ⟨hbegun, hmissing⟩ := hsound.underWay _ _ (hactive hslot hused)
    have hfilled := hsound.filled.filled _ _ (hactive hslot hused)
    exact ⟨hbegun, hfilled.bitmap_subset, hmissing, fun index => hfilled.length_eq⟩
  · rcases hreached with hzero | hreached
    · refine ⟨new mtu, ?_, hnew.trans hzero.symm⟩
      cases calls <;> simp [states]
    · exact hreached

end Reassembler

end Lora
