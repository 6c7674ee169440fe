/-
Reassembly of whatever arrives.

Frames may be forged in every field; all that is assumed is that ticks leave
room for the timeout.  Each slot in use is traced back to the call that opened
it, and each of its fragments to a frame that was passed since.

* `AllTraced.accept`, `allTraced` — one call, and every sequence of calls,
  keeps the slots traced;
* `reassembly_sound` — a completed post is spelt by frames that were passed.
-/
import LoraMessenger.SlotContent

namespace Lora

section Sound

variable {mtu : ℕ} {slot : Slot} {frame : DataFrame} {source : DataFrame → Prop}

theorem Slot.answer_accepted {next : Slot} (h : slot.Filled mtu source)
    (hvalid : FrameValid mtu frame) (hsource : source frame) (hkey : frame.key = slot.key)
    (hanswer : slot.answer mtu (framePayloadCapacity mtu) frame = .accepted next) :
    next.Filled mtu source := by
  rw [Slot.answer] at hanswer
  split at hanswer
  · exact absurd hanswer (by simp)
  rename_i hlayout
  simp only [ne_eq, not_or, not_not] at hlayout
  simp only [Slot.receive] at hanswer
  split at hanswer
  · split at hanswer
    · exact absurd hanswer (by simp)
    · exact absurd hanswer (by simp)
  rename_i hbit
  split at hanswer
  · rw [SlotOutcome.accepted.injEq] at hanswer
    subst hanswer
    exact h.write hvalid hsource hkey hlayout.2.symm hlayout.1.symm
      (Bool.eq_false_iff.mpr (mt Chunks.and_mark_ne_zero.mpr hbit))
  · have hnone := Slot.finish_next (slot.write (framePayloadCapacity mtu) frame) mtu
      (framePayloadCapacity mtu) slot
    rw [hanswer] at hnone
    exact absurd hnone (by simp [SlotOutcome.next])

/-- A post that comes out of a slot is spelt by frames the slot was filled
from. -/
theorem Slot.answer_complete {completed : CompletedPost} (h : slot.Filled mtu source)
    (hvalid : FrameValid mtu frame) (hsource : source frame) (hkey : frame.key = slot.key)
    (hanswer : slot.answer mtu (framePayloadCapacity mtu) frame = .complete completed) :
    completed = completedPost completed.post mtu ∧ completed.post.key = frame.key ∧
      ∀ part ∈ postFrames completed.post mtu, source part ∧
        part.fragmentCount = frame.fragmentCount ∧ part.totalLength = frame.totalLength := by
  rw [Slot.answer] at hanswer
  split at hanswer
  · exact absurd hanswer (by simp)
  rename_i hlayout
  simp only [ne_eq, not_or, not_not] at hlayout
  simp only [Slot.receive] at hanswer
  split at hanswer
  · split at hanswer
    · exact absurd hanswer (by simp)
    · exact absurd hanswer (by simp)
  rename_i hbit
  split at hanswer
  · exact absurd hanswer (by simp)
  rename_i hmask
  rw [ne_eq, not_not] at hmask
  obtain ⟨-, -, hlt, -⟩ := hvalid.place
  have hfull : (slot.write (framePayloadCapacity mtu) frame).Full mtu source := by
    refine ⟨h.write hvalid hsource hkey hlayout.2.symm hlayout.1.symm
      (Bool.eq_false_iff.mpr (mt Chunks.and_mark_ne_zero.mpr hbit)), ?_, ?_⟩
    · rw [hmask]
      exact congrArg completeMask hlayout.2.symm
    · rw [show (slot.write (framePayloadCapacity mtu) frame).fragmentCount = frame.fragmentCount
        from hlayout.2]
      omega
  rw [hfull.finish] at hanswer
  split at hanswer
  · exact absurd hanswer (by simp)
  rename_i post hdecode
  split at hanswer
  swap
  · exact absurd hanswer (by simp)
  rename_i hpostKey
  rw [SlotOutcome.complete.injEq] at hanswer
  subst hanswer
  obtain ⟨hcount, hframes⟩ := hfull.canonicalFrame_eq hdecode hpostKey
  refine ⟨?_, hpostKey.trans hkey.symm, ?_⟩
  · rw [completedPost, postBytes_of_decodePost hdecode]
  intro part hpart
  obtain ⟨index, hindex, rfl⟩ := List.mem_map.mp hpart
  rw [List.mem_range, ← hcount] at hindex
  rw [← hframes index hindex]
  exact ⟨(hfull.canonicalFrame hindex).1, hlayout.2, hlayout.1⟩

/-- The call that opened the slot of a key, and the calls since: the key was
idle before and its slot stayed open up to the last of them. -/
structure SlotOrigin (mtu : ℕ) (before : List ReassemblerCall) (first : DataFrame) (start : ℕ)
    (during : List ReassemblerCall) (key : ReassemblyKey) : Prop where
  first_key : first.key = key
  idle : ((Reassembler.run mtu before).expire start).1.active key = none
  stays : ∀ opened rest, during = opened ++ rest → rest ≠ [] →
    ∃ slot, (Reassembler.run mtu (before ++ .accept first start :: opened)).active key = some slot ∧
      slot.deadline = saturatingDeadline start kReassemblyTimeoutTicks

/-- A frame was passed in the opening call or later, before the deadline. -/
def PassedSince (first : DataFrame) (start : ℕ) (during : List ReassemblerCall)
    (part : DataFrame) : Prop :=
  ∃ partTick, .accept part partTick ∈ ReassemblerCall.accept first start :: during ∧
    partTick < saturatingDeadline start kReassemblyTimeoutTicks

/-- Where a slot comes from. -/
def Traced (mtu : ℕ) (calls : List ReassemblerCall) (key : ReassemblyKey) (slot : Slot) : Prop :=
  ∃ before first start during, calls = before ++ .accept first start :: during ∧
    SlotOrigin mtu before first start during key ∧
    slot.deadline = saturatingDeadline start kReassemblyTimeoutTicks ∧
    slot.Filled mtu (PassedSince first start during)

variable {calls before during : List ReassemblerCall} {first : DataFrame} {start : ℕ}
  {key : ReassemblyKey}

theorem SlotOrigin.snoc (h : SlotOrigin mtu before first start during key)
    (hactive : (Reassembler.run mtu (before ++ .accept first start :: during)).active key =
      some slot)
    (hdeadline : slot.deadline = saturatingDeadline start kReassemblyTimeoutTicks)
    (c : ReassemblerCall) : SlotOrigin mtu before first start (during ++ [c]) key := by
  refine ⟨h.first_key, h.idle, ?_⟩
  intro opened rest hsplit hrest
  obtain ⟨rest, last, rfl⟩ := (List.eq_nil_or_concat' rest).resolve_left hrest
  rw [← List.append_assoc] at hsplit
  obtain ⟨hduring, -⟩ := List.append_inj' hsplit rfl
  rcases List.eq_nil_or_concat' rest with rfl | ⟨others, other, rfl⟩
  · rw [List.append_nil] at hduring
    subst hduring
    exact ⟨slot, hactive, hdeadline⟩
  · exact h.stays opened (others ++ [other]) hduring (by simp)

theorem PassedSince.snoc {part : DataFrame} (h : PassedSince first start during part)
    (c : ReassemblerCall) : PassedSince first start (during ++ [c]) part := by
  obtain ⟨partTick, hmem, htick⟩ := h
  refine ⟨partTick, ?_, htick⟩
  rw [← List.cons_append]
  exact List.mem_append_left _ hmem

/-- A slot that is left alone by a call. -/
theorem Traced.snoc (h : Traced mtu calls key slot)
    (hactive : (Reassembler.run mtu calls).active key = some slot) (c : ReassemblerCall) :
    Traced mtu (calls ++ [c]) key slot := by
  obtain ⟨before, first, start, during, rfl, horigin, hdeadline, hfilled⟩ := h
  exact ⟨before, first, start, during ++ [c], by simp, horigin.snoc hactive hdeadline c, hdeadline,
    hfilled.mono fun part hpart => hpart.snoc c⟩

/-- Every slot in use can be traced back to the call that opened it. -/
def AllTraced (mtu : ℕ) (calls : List ReassemblerCall) : Prop :=
  ∀ key slot, (Reassembler.run mtu calls).active key = some slot → Traced mtu calls key slot

/-- The slot a frame is put into, traced back over the call as well. -/
theorem target_traced {tick : ℕ} (h : AllTraced mtu calls) (htick : tick < 2 ^ 64 - 60000)
    (htarget : ((Reassembler.run mtu calls).expire tick).1.target frame tick = some slot) :
    slot.key = frame.key ∧
    ∃ before first start during,
      calls ++ [.accept frame tick] = before ++ .accept first start :: during ∧
      SlotOrigin mtu before first start during frame.key ∧
      slot.deadline = saturatingDeadline start kReassemblyTimeoutTicks ∧
      slot.Filled mtu (PassedSince first start during) ∧ PassedSince first start during frame := by
  obtain ⟨hwf, -⟩ := Reassembler.run_wf mtu calls
  rw [Reassembler.target] at htarget
  rcases hactive : ((Reassembler.run mtu calls).expire tick).1.active frame.key with _ | found
  · -- the frame opens a slot
    rw [hactive] at htarget
    obtain ⟨-, -, rfl⟩ := Option.map_eq_some_iff.mp htarget
    refine ⟨rfl, calls, frame, tick, [], rfl, ⟨rfl, hactive, ?_⟩, rfl, Slot.fresh_filled _ _,
      tick, List.mem_cons_self .., ?_⟩
    · intro opened rest hsplit hrest
      exact absurd (List.append_eq_nil_iff.mp hsplit.symm).2 hrest
    · rw [saturatingDeadline, kReassemblyTimeoutTicks, kMaximumTick, if_neg (by omega)]
      omega
  · -- the frame goes into a slot that is open
    rw [hactive] at htarget
    obtain rfl : found = slot := by simpa using htarget
    rw [Reassembler.active_expire hwf, Option.filter_eq_some_iff] at hactive
    obtain ⟨hbefore, halive⟩ := hactive
    obtain ⟨before, first, start, during, hcalls, horigin, hdeadline, hfilled⟩ :=
      h frame.key found hbefore
    refine ⟨(Reassembler.active_eq_some hbefore).2, before, first, start,
      during ++ [.accept frame tick], by simp [hcalls], horigin.snoc (hcalls ▸ hbefore) hdeadline _,
      hdeadline, hfilled.mono fun part hpart => hpart.snoc _, tick, by simp, ?_⟩
    rw [hdeadline] at halive
    simpa [deadlineReached] using halive

/-- One more call keeps every slot traced. -/
theorem AllTraced.accept {tick : ℕ} (h : AllTraced mtu calls) (htick : tick < 2 ^ 64 - 60000) :
    AllTraced mtu (calls ++ [.accept frame tick]) := by
  obtain ⟨hwf, hmtu⟩ := Reassembler.run_wf mtu calls
  intro key slot hactive
  rw [Reassembler.run, List.foldl_append] at hactive
  change ((Reassembler.run mtu calls).accept frame tick).1.active key = some slot at hactive
  -- a slot that was there before the call
  have hkept : ((Reassembler.run mtu calls).expire tick).1.active key = some slot →
      Traced mtu (calls ++ [.accept frame tick]) key slot := by
    intro hexpired
    rw [Reassembler.active_expire hwf, Option.filter_eq_some_iff] at hexpired
    exact (h key slot hexpired.1).snoc hexpired.1 _
  by_cases hkey : key = frame.key
  swap
  · rw [(Reassembler.active_accept_of_ne tick hwf hkey).1] at hactive
    exact hkept hactive
  subst hkey
  by_cases hlet : ((Reassembler.run mtu calls).expire tick).1.accepts frame ∧
      ¬((Reassembler.run mtu calls).expire tick).1.inQuarantine frame.key ∧
      (((Reassembler.run mtu calls).expire tick).1.target frame tick).isSome
  swap
  · rw [(Reassembler.accept_refused hlet).1] at hactive
    exact hkept hactive
  obtain ⟨haccepts, hquarantine, hsome⟩ := hlet
  obtain ⟨target, htarget⟩ := Option.isSome_iff_exists.mp hsome
  obtain ⟨-, hupdated⟩ := Reassembler.accept_target hwf haccepts hquarantine htarget
  obtain ⟨htargetKey, before, first, start, during, hcalls, horigin, hdeadline, hfilled, hframe⟩ :=
    target_traced h htick htarget
  have hvalid : FrameValid mtu frame := by
    rw [← hmtu]
    exact accepts_iff.mp haccepts
  have hcapacity := Reassembler.fragmentCapacity_run hvalid.1 calls
  rw [hupdated.active, if_pos rfl, hmtu, hcapacity] at hactive
  have hsame := (Slot.answer_next hactive).2.2
  refine ⟨before, first, start, during, hcalls, horigin, hsame.trans hdeadline, ?_⟩
  rcases hanswer : target.answer mtu (framePayloadCapacity mtu) frame with
    _ | _ | next | _ | completed
  all_goals
    rw [hanswer] at hactive
  · obtain rfl : target = slot := by simpa [SlotOutcome.next] using hactive
    exact hfilled
  · exact absurd hactive (by simp [SlotOutcome.next])
  · obtain rfl : next = slot := by simpa [SlotOutcome.next] using hactive
    exact Slot.answer_accepted hfilled hvalid hframe htargetKey.symm hanswer
  · exact absurd hactive (by simp [SlotOutcome.next])
  · exact absurd hactive (by simp [SlotOutcome.next])

/-- The ticks of a sequence of calls leave room for the timeout. -/
def TicksBelow (calls : List ReassemblerCall) : Prop :=
  ∀ frame tick, .accept frame tick ∈ calls → tick < 2 ^ 64 - 60000

theorem allTraced (hticks : TicksBelow calls) : AllTraced mtu calls := by
  induction calls using List.reverseRecOn with
  | nil =>
    intro key slot hactive
    refine absurd hactive ?_
    rw [show (Reassembler.run mtu []).active key = none from ?_]
    · simp
    · rw [Reassembler.active, SlotTable.lookup_eq_none]
      intro slot hslot
      rw [List.eq_of_mem_replicate hslot]
      simp
  | append_singleton calls c ih =>
    have htraced := ih fun frame tick hmem => hticks frame tick (List.mem_append_left _ hmem)
    obtain ⟨hwf, -⟩ := Reassembler.run_wf mtu calls
    cases c with
    | accept frame tick => exact htraced.accept (hticks frame tick (by simp))
    | expire now =>
      intro key slot hactive
      rw [Reassembler.run, List.foldl_append] at hactive
      change ((Reassembler.run mtu calls).expire now).1.active key = some slot at hactive
      rw [Reassembler.active_expire hwf, Option.filter_eq_some_iff] at hactive
      exact (htraced key slot hactive.1).snoc hactive.1 _
    | clear =>
      intro key slot hactive
      rw [Reassembler.run, List.foldl_append] at hactive
      change (Reassembler.run mtu calls).clear.active key = some slot at hactive
      rw [Reassembler.active_clear] at hactive
      exact absurd hactive (by simp)

/-- **Soundness of reassembly.**  Whatever frames were passed in, a completed
post has the canonical frames and the canonical encoding it came with, and
each of these frames was itself passed under the post's key, in the call that
opened the key's slot or a later one and before the slot's deadline.  All of
them agree in key, count and total length, and their payloads in index order
are all the bytes of the post. -/
theorem reassembly_sound (mtu : ℕ) (calls : List ReassemblerCall) (frame : DataFrame) (tick : ℕ)
    (hticks : TicksBelow (calls ++ [.accept frame tick]))
    (hcomplete : ((Reassembler.run mtu calls).accept frame tick).2.status = .complete) :
    ∃ completed, ((Reassembler.run mtu calls).accept frame tick).2.completed = some completed ∧
      fragmentPost completed.post mtu = .ok completed.canonicalFrames ∧
      encodePost completed.post = .ok completed.canonicalPost ∧
      ∃ before first start during,
        calls ++ [.accept frame tick] = before ++ .accept first start :: during ∧
        first.key = frame.key ∧
        ((Reassembler.run mtu before).expire start).1.active frame.key = none ∧
        (∀ opened rest, during = opened ++ rest → rest ≠ [] →
          ∃ slot, (Reassembler.run mtu (before ++ .accept first start :: opened)).active frame.key =
            some slot ∧ slot.deadline = start + 60000) ∧
        ∃ parts : List DataFrame,
          completed.canonicalFrames = parts.map frameBytes ∧
          completed.canonicalPost = parts.flatMap DataFrame.payload ∧
          ∀ part ∈ parts, part.key = frame.key ∧ part.fragmentCount = frame.fragmentCount ∧
            part.totalLength = frame.totalLength ∧
            ∃ partTick, .accept part partTick ∈ ReassemblerCall.accept first start :: during ∧
              partTick < start + 60000 := by
  obtain ⟨hwf, hmtu⟩ := Reassembler.run_wf mtu calls
  have htraced : AllTraced mtu calls :=
    allTraced fun other otherTick hmem => hticks other otherTick (List.mem_append_left _ hmem)
  -- a frame that is turned away completes nothing
  by_cases hlet : ((Reassembler.run mtu calls).expire tick).1.accepts frame ∧
      ¬((Reassembler.run mtu calls).expire tick).1.inQuarantine frame.key ∧
      (((Reassembler.run mtu calls).expire tick).1.target frame tick).isSome
  swap
  · exact absurd hcomplete (Reassembler.accept_refused hlet).2
  obtain ⟨haccepts, hquarantine, hsome⟩ := hlet
  obtain ⟨target, htarget⟩ := Option.isSome_iff_exists.mp hsome
  obtain ⟨hresult, -⟩ := Reassembler.accept_target hwf haccepts hquarantine htarget
  obtain ⟨htargetKey, before, first, start, during, hcalls, horigin, -, hfilled, hframe⟩ :=
    target_traced htraced (hticks frame tick (by simp)) htarget
  have hvalid : FrameValid mtu frame := by
    rw [← hmtu]
    exact accepts_iff.mp haccepts
  have hcapacity := Reassembler.fragmentCapacity_run hvalid.1 calls
  rw [hmtu, hcapacity] at hresult
  rw [hresult] at hcomplete ⊢
  -- no tick of the run saturates the deadline
  have hdeadline : saturatingDeadline start kReassemblyTimeoutTicks = start + 60000 := by
    have hstart := hticks first start (by rw [hcalls]; simp)
    rw [saturatingDeadline, kReassemblyTimeoutTicks, kMaximumTick, if_neg (by omega)]
  -- of the outcomes of a slot only the last one completes a post
  rcases hanswer : target.answer mtu (framePayloadCapacity mtu) frame with
    _ | _ | next | _ | completed
  all_goals
    rw [hanswer] at hcomplete
  · exact absurd hcomplete (by simp [SlotOutcome.result])
  · exact absurd hcomplete (by simp [SlotOutcome.result])
  · exact absurd hcomplete (by simp [SlotOutcome.result])
  · exact absurd hcomplete (by simp [SlotOutcome.result])
  obtain ⟨hcompleted, hkey, hparts⟩ :=
    Slot.answer_complete hfilled hvalid hframe htargetKey.symm hanswer
  refine ⟨completed, rfl, ?_, ?_, before, first, start, during, hcalls, horigin.first_key,
    horigin.idle, ?_, postFrames completed.post mtu, ?_, ?_, ?_⟩
  · rw [fragmentPost_eq hvalid.1, hcompleted]
    rfl
  · rw [encodePost_eq, hcompleted]
    rfl
  · rw [← hdeadline]
    exact horigin.stays
  · rw [hcompleted]
    rfl
  · rw [flatMap_postFrames hvalid.1, hcompleted]
    rfl
  · intro part hpart
    obtain ⟨hsource, hcount, htotal⟩ := hparts part hpart
    rw [← hdeadline]
    refine ⟨?_, hcount, htotal, hsource⟩
    obtain ⟨index, -, rfl⟩ := List.mem_map.mp hpart
    exact hkey

/-- The first of three frames of another post, with any content. -/
def foreignFrame (byte : UInt8) : DataFrame where
  tag := ⟨List.replicate 8 0, MessageTag.length_zeros⟩
  senderSequence := 1
  fragmentIndex := 0
  fragmentCount := 3
  totalLength := 46
  payload := List.replicate 20 byte

/-- Two of three frames out of order, and between them those of another key, which
contradict each other. -/
def interleavedCalls : List ReassemblerCall :=
  [.accept (postFrame samplePost 48 2) 7, .accept (foreignFrame 0) 8,
    .accept (postFrame samplePost 48 0) 9, .accept (foreignFrame 1) 10, .expire 11]

theorem reassembly_sound_samplePost :
    ∃ completed,
      ((Reassembler.run 48 interleavedCalls).accept (postFrame samplePost 48 1) 12).2.completed =
        some completed ∧
      fragmentPost completed.post 48 = .ok completed.canonicalFrames ∧
      ∃ parts : List DataFrame, completed.canonicalFrames = parts.map frameBytes ∧
        ∀ part ∈ parts, part.key = samplePost.key := by
  have hticks : TicksBelow (interleavedCalls ++ [.accept (postFrame samplePost 48 1) 12]) := by
    simp [TicksBelow, interleavedCalls]
    omega
  obtain ⟨completed, hcompleted, hfragment, -, _, _, _, _, -, -, -, -, parts, hframes, -, hparts⟩ :=
    reassembly_sound 48 interleavedCalls (postFrame samplePost 48 1) 12 hticks (by decide +kernel)
  exact ⟨completed, hcompleted, hfragment, parts, hframes, fun part hpart => (hparts part hpart).1⟩

end Sound

end Lora
