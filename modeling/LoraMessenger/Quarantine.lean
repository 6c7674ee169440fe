/-
How long a key stays in quarantine.

A slot whose frames contradict each other, or do not spell a post, is thrown away,
and its key is in quarantine for the rest of the time the slot had.  The keys wait
in a queue of bounded length: a key leaves it at its deadline, or when 32 others
have come after it.  Frames of the key change nothing meanwhile.

* `discardsOn_iff` — when `accept` throws a slot away;
* `Dated` — the deadline of a slot counts from the frame that opened it;
* `held_or_released` — a key after its quarantine has begun;
* `quarantine_firm_and_bounded` — what frames of the key are answered.
-/
import LoraMessenger.ReassemblerState

namespace Lora.Reassembler

variable {r : Reassembler} {frame : DataFrame} {receivedTick : ℕ}

/-! ### Throwing a slot away -/

/-- The frame contradicted the others of its post, or completed what is not a post. -/
def discardsOn (r : Reassembler) (frame : DataFrame) (receivedTick : ℕ) : Prop :=
  (r.accept frame receivedTick).2.status = .conflict ∨
    FrameValid r.mtu frame ∧ (r.accept frame receivedTick).2.status = .invalidPost

theorem accept_status_quarantined (haccepts : (r.expire receivedTick).1.accepts frame)
    (hquarantine : (r.expire receivedTick).1.inQuarantine frame.key) :
    (r.accept frame receivedTick).2.status = .quarantined := by
  have hasked := isQuarantined_expire.mpr hquarantine
  unfold accept
  dsimp only
  rw [if_neg (not_not.mpr haccepts), if_pos hasked]

theorem accept_status_capacityExceeded (haccepts : (r.expire receivedTick).1.accepts frame)
    (hquarantine : ¬(r.expire receivedTick).1.inQuarantine frame.key)
    (htarget : (r.expire receivedTick).1.target frame receivedTick = none) :
    (r.accept frame receivedTick).2 = ⟨.capacityExceeded, none⟩ := by
  have hasked := mt isQuarantined_expire.mp hquarantine
  have hidle : ((r.expire receivedTick).1.isQuarantined frame.key receivedTick).1 =
    (r.expire receivedTick).1 := expireQuarantine_expire receivedTick
  unfold target at htarget
  unfold accept
  dsimp only
  rw [if_neg (not_not.mpr haccepts), if_neg hasked, hidle]
  rcases hactive : (r.expire receivedTick).1.active frame.key with _ | slot
  · rw [hactive, Option.map_eq_none_iff] at htarget
    rw [findSlot_eq_none.mpr hactive, htarget]
  · rw [hactive] at htarget
    cases htarget

theorem discardsOn_iff (h : r.Wf) : r.discardsOn frame receivedTick ↔
    (r.expire receivedTick).1.accepts frame ∧ ¬(r.expire receivedTick).1.inQuarantine frame.key ∧
      ∃ slot, (r.expire receivedTick).1.target frame receivedTick = some slot ∧
        (slot.answer r.mtu r.fragmentCapacity frame).discards := by
  by_cases haccepts : (r.expire receivedTick).1.accepts frame
  swap
  · have hvalid : ¬FrameValid r.mtu frame := mt accepts_iff.mpr haccepts
    have hstatus : (r.accept frame receivedTick).2.status = .invalidPost := by
      unfold accept
      dsimp only
      rw [if_pos haccepts]
    simp [discardsOn, haccepts, hvalid, hstatus]
  have hvalid : FrameValid r.mtu frame := accepts_iff.mp haccepts
  by_cases hquarantine : (r.expire receivedTick).1.inQuarantine frame.key
  · simp [discardsOn, hquarantine, accept_status_quarantined haccepts hquarantine]
  rcases htarget : (r.expire receivedTick).1.target frame receivedTick with _ | slot
  · simp [discardsOn, accept_status_capacityExceeded haccepts hquarantine htarget]
  · obtain ⟨hresult, -⟩ := accept_target h haccepts hquarantine htarget
    simp only [discardsOn, hresult, haccepts, hquarantine, hvalid, true_and, not_false_eq_true,
      Option.some.injEq, exists_eq_left']
    rcases slot.answer r.mtu r.fragmentCapacity frame with _ | _ | _ | _ | _ <;>
      simp [SlotOutcome.result, SlotOutcome.discards]

/-! ### The deadline of a slot -/

section Dated

variable {mtu : ℕ} {calls : List ReassemblerCall} {key : ReassemblyKey} {slot : Slot}

/-- The slot was opened by a call in the sequence, and its deadline counts from there. -/
def Dated (mtu : ℕ) (calls : List ReassemblerCall) (key : ReassemblyKey) (slot : Slot) : Prop :=
  ∃ before first start during, calls = before ++ .accept first start :: during ∧
    SlotOrigin mtu before first start during key ∧
    slot.deadline = saturatingDeadline start kReassemblyTimeoutTicks

theorem Dated.snoc (h : Dated mtu calls key slot) (hactive : (run mtu calls).active key = some slot)
    (c : ReassemblerCall) : Dated mtu (calls ++ [c]) key slot := by
  obtain ⟨before, first, start, during, rfl, horigin, hdeadline⟩ := h
  exact ⟨before, first, start, during ++ [c], by simp, horigin.snoc hactive hdeadline c, hdeadline⟩

/-- The slot a frame is put into. -/
theorem target_dated (h : ∀ key slot, (run mtu calls).active key = some slot →
      Dated mtu calls key slot)
    (htarget : ((run mtu calls).expire receivedTick).1.target frame receivedTick = some slot) :
    Dated mtu (calls ++ [.accept frame receivedTick]) frame.key slot := by
  unfold target at htarget
  split at htarget
  · rename_i hactive
    cases htarget
    rw [active_expire (run_wf mtu calls).1, Option.filter_eq_some_iff] at hactive
    exact (h _ _ hactive.1).snoc hactive.1 _
  · rename_i hidle
    obtain ⟨-, -, rfl⟩ := Option.map_eq_some_iff.mp htarget
    refine ⟨calls, frame, receivedTick, [], rfl, ⟨rfl, hidle, ?_⟩, rfl⟩
    intro opened rest hsplit hrest
    exact absurd (List.append_eq_nil_iff.mp hsplit.symm).2 hrest

theorem allDated (calls : List ReassemblerCall) : ∀ key slot,
    (run mtu calls).active key = some slot → Dated mtu calls key slot := by
  induction calls using List.reverseRecOn with
  | nil =>
    intro key slot hactive
    obtain ⟨hmem, -⟩ := SlotTable.occupant_of_lookup hactive
    obtain rfl := List.eq_of_mem_replicate hmem
    exact absurd (active_eq_some hactive).1 (by simp [Slot.blank])
  | append_singleton calls c ih =>
    obtain ⟨hwf, -⟩ := run_wf mtu calls
    intro key slot hactive
    have hkept {now : ℕ} (hexpired : ((run mtu calls).expire now).1.active key = some slot) :
        Dated mtu (calls ++ [c]) key slot := by
      rw [active_expire hwf, Option.filter_eq_some_iff] at hexpired
      exact (ih key slot hexpired.1).snoc hexpired.1 c
    rw [run, List.foldl_append] at hactive
    cases c with
    | expire now => exact hkept hactive
    | clear =>
      change (run mtu calls).clear.active key = some slot at hactive
      rw [active_clear] at hactive
      cases hactive
    | accept frame tick =>
      change ((run mtu calls).accept frame tick).1.active key = some slot at hactive
      by_cases hlet : ((run mtu calls).expire tick).1.accepts frame ∧
          ¬((run mtu calls).expire tick).1.inQuarantine frame.key ∧
          (((run mtu calls).expire tick).1.target frame tick).isSome
      swap
      · rw [(accept_refused hlet).1] at hactive
        exact hkept hactive
      obtain ⟨haccepts, hquarantine, hsome⟩ := hlet
      obtain ⟨target, htarget⟩ := Option.isSome_iff_exists.mp hsome
      obtain ⟨-, hupdated⟩ := accept_target hwf haccepts hquarantine htarget
      rw [hupdated.active] at hactive
      split at hactive
      · rename_i hkey
        subst hkey
        obtain ⟨before, first, start, during, hcalls, horigin, hdeadline⟩ := target_dated ih htarget
        exact ⟨before, first, start, during, hcalls, horigin,
          (Slot.answer_next hactive).2.2.trans hdeadline⟩
      · exact hkept hactive

end Dated

/-! ### A key in quarantine -/

section Held

variable {mtu : ℕ} {entry : QuarantinedKey} {since : ReassemblyKey → Prop}

/-- The entry waits in the quarantine, and those behind it have come since. -/
def Held (r : Reassembler) (entry : QuarantinedKey) (since : ReassemblyKey → Prop) : Prop :=
  BoundedQueue.Held QuarantinedKey.key r.quarantined entry since

theorem Held.inQuarantine (h : r.Held entry since) : r.inQuarantine entry.key :=
  ⟨entry, h.mem, rfl⟩

theorem Held.expire (h : r.Held entry since) (hnow : receivedTick < entry.deadline) :
    (r.expire receivedTick).1.Held entry since :=
  h.filter (by simpa [deadlineReached] using hnow)

/-- Enough other keys have come since to push one out. -/
def Outnumbered (key : ReassemblyKey) (since : ReassemblyKey → Prop) : Prop :=
  BoundedQueue.Outnumbered kMaximumQuarantinedKeys key since

theorem Held.accept {since' : ReassemblyKey → Prop} (hsound : r.Sound mtu) (h : r.Held entry since)
    (htick : receivedTick < entry.deadline) (hmono : ∀ other, since other → since' other)
    (hnew : r.discardsOn frame receivedTick → since' frame.key) :
    (r.accept frame receivedTick).1.Held entry since' ∨ Outnumbered entry.key since' := by
  have hstays : (r.expire receivedTick).1.Held entry since' := (h.expire htick).mono hmono
  by_cases hlet : (r.expire receivedTick).1.accepts frame ∧
      ¬(r.expire receivedTick).1.inQuarantine frame.key ∧
      ((r.expire receivedTick).1.target frame receivedTick).isSome
  swap
  · rw [(accept_refused hlet).1]
    exact .inl hstays
  obtain ⟨haccepts, hquarantine, hsome⟩ := hlet
  obtain ⟨slot, htarget⟩ := Option.isSome_iff_exists.mp hsome
  have hquarantined := accept_quarantined hsound.filled.wf haccepts hquarantine htarget
  unfold Held
  rw [hquarantined]
  split
  · rename_i hdiscards
    have hframe := hnew ((discardsOn_iff hsound.filled.wf).mpr
      ⟨haccepts, hquarantine, slot, htarget, hdiscards⟩)
    exact BoundedQueue.Held.push hstays (expire_sound hsound receivedTick).distinct
      (mt inQuarantine_iff.mpr hquarantine) hframe
  · exact .inl hstays

/-- The calls put the key into quarantine. -/
def quarantinedDuring (r : Reassembler) (calls : List (DataFrame × ℕ))
    (key : ReassemblyKey) : Prop :=
  ∃ before frame receivedTick after, calls = before ++ (frame, receivedTick) :: after ∧
    frame.key = key ∧ (r.acceptAll before).discardsOn frame receivedTick

theorem acceptAll_concat (calls : List (DataFrame × ℕ)) (call : DataFrame × ℕ) :
    r.acceptAll (calls ++ [call]) = ((r.acceptAll calls).accept call.1 call.2).1 :=
  List.foldl_append ..

theorem acceptAll_sound (h : r.Sound mtu) (calls : List (DataFrame × ℕ)) :
    (r.acceptAll calls).Sound mtu := by
  induction calls using List.reverseRecOn with
  | nil => exact h
  | append_singleton calls call ih =>
    rw [acceptAll_concat]
    exact accept_sound ih call.1 call.2

theorem quarantinedDuring_mono {calls : List (DataFrame × ℕ)} {key : ReassemblyKey}
    (h : r.quarantinedDuring calls key) (call : DataFrame × ℕ) :
    r.quarantinedDuring (calls ++ [call]) key := by
  obtain ⟨before, frame, receivedTick, after, rfl, hrest⟩ := h
  exact ⟨before, frame, receivedTick, after ++ [call], by simp, hrest⟩

/-- Nothing is known of the key. -/
def Unknown (r : Reassembler) (key : ReassemblyKey) : Prop :=
  r.active key = none ∧ ¬r.inQuarantine key

theorem Unknown.expire {key : ReassemblyKey} (hwf : r.Wf) (h : r.Unknown key) (now : ℕ) :
    (r.expire now).1.Unknown key := by
  refine ⟨?_, mt inQuarantine_expire h.2⟩
  rw [active_expire hwf, h.1]
  rfl

theorem Unknown.accept {key : ReassemblyKey} (hwf : r.Wf)
    (h : (r.expire receivedTick).1.Unknown key)
    (hkey : key ≠ frame.key) : (r.accept frame receivedTick).1.Unknown key := by
  obtain ⟨hactive, hquarantine⟩ := active_accept_of_ne receivedTick hwf hkey
  exact ⟨hactive.trans h.1, mt hquarantine h.2⟩

/-- At its deadline a key is forgotten. -/
theorem Held.released (hsound : r.Sound mtu) (h : r.Held entry since)
    (hnow : entry.deadline ≤ receivedTick) : (r.expire receivedTick).1.Unknown entry.key := by
  have hentry : entry ∈ r.quarantined := h.mem
  refine ⟨?_, ?_⟩
  · rw [active_expire hsound.filled.wf, hsound.apart entry hentry]
    rfl
  · rintro ⟨other, hother, hkey⟩
    obtain ⟨hother, hwaits⟩ := List.mem_filter.mp hother
    obtain rfl := List.inj_on_of_nodup_map hsound.distinct hother hentry hkey
    simp [deadlineReached, hnow] at hwaits

/-- After any calls the key is in quarantine still, or its deadline has passed and it
is forgotten, or it was pushed out before. -/
theorem held_or_released (hsound : r.Sound mtu) (hheld : r.Held entry fun _ => False)
    (calls : List (DataFrame × ℕ)) (hticks : (calls.map Prod.snd).Pairwise (· ≤ ·))
    (hlater : ∀ call ∈ calls, entry.deadline ≤ call.2 → call.1.key ≠ entry.key) :
    Outnumbered entry.key (r.quarantinedDuring calls) ∨
    ((r.acceptAll calls).Held entry (r.quarantinedDuring calls) ∧
      ∀ call ∈ calls, call.2 < entry.deadline) ∨
    ((r.acceptAll calls).Unknown entry.key ∧ ∃ call ∈ calls, entry.deadline ≤ call.2) := by
  induction calls using List.reverseRecOn with
  | nil => exact .inr (.inl ⟨hheld.mono fun _ => False.elim, by simp⟩)
  | append_singleton calls call ih =>
    rw [List.map_append, List.pairwise_append] at hticks
    obtain ⟨hbefore, -, hlast⟩ := hticks
    have hcall := hlater call (by simp)
    have hsound' := acceptAll_sound hsound calls
    rw [acceptAll_concat]
    rcases ih hbefore fun other hother => hlater other (by simp [hother]) with
      hmany | ⟨hheld, hearly⟩ | ⟨hunknown, other, hother, hpassed⟩
    · exact .inl (hmany.mono fun key hkey => quarantinedDuring_mono hkey call)
    · by_cases htick : call.2 < entry.deadline
      · have hnew (h : (r.acceptAll calls).discardsOn call.1 call.2) :
            r.quarantinedDuring (calls ++ [call]) call.1.key :=
          ⟨calls, call.1, call.2, [], rfl, rfl, h⟩
        rcases hheld.accept hsound' htick
            (fun key hkey => quarantinedDuring_mono hkey call) hnew with
          hheld | hmany
        · refine .inr (.inl ⟨hheld, fun other hother => ?_⟩)
          rcases List.mem_append.mp hother with hold | hnew
          · exact hearly other hold
          · obtain rfl := List.mem_singleton.mp hnew
            exact htick
        · exact .inl hmany
      · have htick := Nat.le_of_not_lt htick
        refine .inr (.inr ⟨?_, call, by simp, htick⟩)
        exact (hheld.released hsound' htick).accept hsound'.filled.wf (hcall htick).symm
    · have htick : entry.deadline ≤ call.2 :=
        Nat.le_trans hpassed (hlast other.2 (List.mem_map_of_mem hother) call.2 (by simp))
      refine .inr (.inr ⟨?_, call, by simp, htick⟩)
      exact (hunknown.expire hsound'.filled.wf call.2).accept hsound'.filled.wf (hcall htick).symm

end Held

/-! ### What frames of the key are answered -/

/-- The answer to the first frame of a key. -/
def answerNew (r : Reassembler) (frame : DataFrame) (receivedTick : ℕ) : ReassemblyResult :=
  match (r.expire receivedTick).1.freeSlot with
  | none => ⟨.capacityExceeded, none⟩
  | some _ => ((Slot.fresh frame receivedTick).answer r.mtu r.fragmentCapacity frame).result

theorem accept_unknown (h : r.Wf) (hvalid : FrameValid r.mtu frame)
    (hunknown : (r.expire receivedTick).1.Unknown frame.key) :
    (r.accept frame receivedTick).2 = r.answerNew frame receivedTick := by
  have haccepts : (r.expire receivedTick).1.accepts frame := accepts_iff.mpr hvalid
  have htarget : (r.expire receivedTick).1.target frame receivedTick =
      (r.expire receivedTick).1.freeSlot.map fun _ => .fresh frame receivedTick := by
    rw [target, hunknown.1]
  unfold answerNew
  rcases hfree : (r.expire receivedTick).1.freeSlot with _ | index
  · rw [hfree] at htarget
    exact accept_status_capacityExceeded haccepts hunknown.2 htarget
  · rw [hfree] at htarget
    exact (accept_target h haccepts hunknown.2 htarget).1

/-- Once a slot was thrown away, the frames of its key are refused up to the deadline
of the slot, which counts from the frame that opened it, and from then on a frame of
the key is the first one of a new key; only 32 other keys that come into quarantine
meanwhile end it sooner, and nothing makes it last longer. -/
theorem quarantine_firm_and_bounded (mtu : ℕ) (before : List ReassemblerCall) (frame : DataFrame)
    (tick : ℕ) (later : List (DataFrame × ℕ)) (next : DataFrame) (now : ℕ)
    (hdiscards : (run mtu before).discardsOn frame tick)
    (hticks : (tick :: (later.map Prod.snd ++ [now])).Pairwise (· ≤ ·))
    (hvalid : FrameValid mtu next) (hkey : next.key = frame.key) :
    ∃ earlier first start during,
      before ++ [.accept frame tick] = earlier ++ .accept first start :: during ∧
      SlotOrigin mtu earlier first start during frame.key ∧
      (¬Outnumbered frame.key
          (((run mtu before).accept frame tick).1.quarantinedDuring later) →
        (now < saturatingDeadline start kReassemblyTimeoutTicks →
          ((((run mtu before).accept frame tick).1.acceptAll later).accept next now).2.status =
            .quarantined) ∧
        (saturatingDeadline start kReassemblyTimeoutTicks ≤ now →
          (∀ call ∈ later, saturatingDeadline start kReassemblyTimeoutTicks ≤ call.2 →
            call.1.key ≠ frame.key) →
          ((((run mtu before).accept frame tick).1.acceptAll later).expire
            now).1.Unknown frame.key ∧
          ((((run mtu before).accept frame tick).1.acceptAll later).accept next now).2 =
            (((run mtu before).accept frame tick).1.acceptAll later).answerNew next now)) := by
  have hsound := run_sound mtu before
  have hsound₁ := accept_sound hsound frame tick
  have hsound₂ := acceptAll_sound hsound₁ later
  obtain ⟨haccepts, hquarantine, slot, htarget, hthrown⟩ :=
    (discardsOn_iff hsound.filled.wf).mp hdiscards
  obtain ⟨earlier, first, start, during, hcalls, horigin, hdeadline⟩ :=
    target_dated (allDated before) htarget
  refine ⟨earlier, first, start, during, hcalls, horigin, ?_⟩
  rw [← hdeadline]
  have hheld : ((run mtu before).accept frame tick).1.Held ⟨frame.key, slot.deadline⟩
      fun _ => False := by
    have hqueue := accept_quarantined hsound.filled.wf haccepts hquarantine htarget
    rw [if_pos hthrown] at hqueue
    unfold Held
    rw [hqueue]
    exact .last
  obtain ⟨hsorted, -, hlast⟩ := List.pairwise_append.mp (List.pairwise_cons.mp hticks).2
  intro hfew
  -- The key is still in the queue, or it has been released by its deadline.
  have hphases := held_or_released hsound₁ hheld later hsorted
  generalize ((run mtu before).accept frame tick).1.acceptAll later = left at *
  rw [← hsound₂.filled.mtu_eq] at hvalid
  have haccepts : (left.expire now).1.accepts next := accepts_iff.mpr hvalid
  refine ⟨fun hnow => ?_, fun hnow hother => ?_⟩
  · -- No call since has come as late as the deadline.
    have hearly (call : DataFrame × ℕ) (hcall : call ∈ later) : call.2 < slot.deadline :=
      Nat.lt_of_le_of_lt (hlast call.2 (List.mem_map_of_mem hcall) now (by simp)) hnow
    rcases hphases fun call hcall hlate => absurd (hearly call hcall) (Nat.not_lt.mpr hlate) with
      hmany | ⟨hheld, -⟩ | ⟨-, call, hcall, hlate⟩
    · exact absurd hmany hfew
    · refine accept_status_quarantined haccepts ?_
      rw [hkey]
      exact (hheld.expire hnow).inQuarantine
    · exact absurd (hearly call hcall) (Nat.not_lt.mpr hlate)
  · have hunknown : (left.expire now).1.Unknown frame.key := by
      rcases hphases hother with hmany | ⟨hheld, -⟩ | ⟨hunknown, -⟩
      · exact absurd hmany hfew
      · exact hheld.released hsound₂ hnow
      · exact hunknown.expire hsound₂.filled.wf now
    exact ⟨hunknown, accept_unknown hsound₂.filled.wf hvalid (hkey ▸ hunknown)⟩

/-- The last frame of a post with another content. -/
def conflictingFrame : DataFrame :=
  { postFrame samplePost 48 2 with payload := List.replicate 6 0 }

/-- Two of three frames of a post, and one of another post. -/
def contradictedCalls : List ReassemblerCall :=
  [.accept (postFrame samplePost 48 2) 7, .accept (foreignFrame 0) 8,
    .accept (postFrame samplePost 48 0) 9]

/-- The other post is given up meanwhile too. -/
def quarantineCalls : List (DataFrame × ℕ) :=
  [(postFrame samplePost 48 1, 11), (foreignFrame 1, 12), (conflictingFrame, 13)]

theorem not_outnumbered {key : ReassemblyKey} {calls : List (DataFrame × ℕ)}
    (hfew : calls.length < kMaximumQuarantinedKeys) :
    ¬Outnumbered key (r.quarantinedDuring calls) := by
  rintro ⟨keys, hnodup, hlength, hkeys⟩
  have hsubset : keys ⊆ calls.map fun call => call.1.key := by
    intro other hother
    obtain ⟨-, before, frame, tick, after, rfl, hkey, -⟩ := hkeys other hother
    simp [hkey]
  have hle := hnodup.length_le_of_subset hsubset
  rw [List.length_map] at hle
  omega

theorem quarantine_firm_and_bounded_conflictingFrame :
    (run 48 contradictedCalls).discardsOn conflictingFrame 10 ∧
      ((((run 48 contradictedCalls).accept conflictingFrame 10).1.acceptAll
        quarantineCalls).accept (postFrame samplePost 48 1) 14).2.status = .quarantined ∧
      ((((run 48 contradictedCalls).accept conflictingFrame 10).1.acceptAll
        quarantineCalls).expire 60010).1.Unknown conflictingFrame.key := by
  have hvalid : FrameValid 48 (postFrame samplePost 48 1) := ⟨by decide, by decide⟩
  have hdiscards : (run 48 contradictedCalls).discardsOn conflictingFrame 10 :=
    .inl (by decide +kernel)
  -- Whichever of the calls has opened the slot, it came at one of the ticks from 7 to 10.
  have hdeadline {earlier during : List ReassemblerCall} {first : DataFrame} {start : ℕ}
      (h : contradictedCalls ++ [.accept conflictingFrame 10] =
        earlier ++ .accept first start :: during) :
      14 < saturatingDeadline start kReassemblyTimeoutTicks ∧
        saturatingDeadline start kReassemblyTimeoutTicks ≤ 60010 := by
    have hmem : .accept first start ∈ contradictedCalls ++ [.accept conflictingFrame 10] := by
      rw [h]
      simp
    simp only [contradictedCalls, List.cons_append, List.nil_append, List.mem_cons,
      ReassemblerCall.accept.injEq, List.not_mem_nil, or_false] at hmem
    rw [saturatingDeadline, kMaximumTick, kReassemblyTimeoutTicks, if_neg (by omega)]
    omega
  refine ⟨hdiscards, ?_, ?_⟩
  · obtain ⟨_, _, _, _, hcalls, -, hanswers⟩ := quarantine_firm_and_bounded 48 contradictedCalls
      conflictingFrame 10 quarantineCalls (postFrame samplePost 48 1) 14 hdiscards (by decide)
      hvalid rfl
    exact (hanswers (not_outnumbered (by decide))).1 (hdeadline hcalls).1
  · obtain ⟨_, _, start, _, hcalls, -, hanswers⟩ := quarantine_firm_and_bounded 48
      contradictedCalls conflictingFrame 10 quarantineCalls (postFrame samplePost 48 1) 60010
      hdiscards (by decide) hvalid rfl
    have hlate : ∀ call ∈ quarantineCalls, call.2 ≤ 14 := by decide
    refine ((hanswers (not_outnumbered (by decide))).2 (hdeadline hcalls).2 ?_).1
    intro call hcall hafter
    have hbefore := hlate call hcall
    have hstart := (hdeadline hcalls).1
    omega

end Lora.Reassembler
