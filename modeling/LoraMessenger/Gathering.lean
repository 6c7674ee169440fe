/-
A receive queue that is gathering one post.

While a channel carries the frames of one post, and noise, the reassembler is either idle
or under way with the post.  It stays so until the last gap is filled; then it hands the
post over and is idle again.

* `Gathers` — idle, or under way with what has been seen;
* `Gathers.accept` — the next frame is put to the others, or completes the post;
* `InboundGathers.processNext` — the same for the receive queue.
-/
import LoraMessenger.Ingress

namespace Lora

section Reassembler

variable {post : PostPayload} {mtu base tick : ℕ} {seen : List DataFrame} {r : Reassembler}
  {frame : DataFrame}

/-- Nothing is under way for the post, and it may begin. -/
structure Reassembler.Idle (r : Reassembler) (key : ReassemblyKey) : Prop where
  inactive : r.active key = none
  free : ¬r.inQuarantine key
  room : r.hasFreeSlot

/-- Since `base`, the frames of a post are gathered as they come. -/
structure Gathers (post : PostPayload) (mtu base : ℕ) (seen : List DataFrame) (r : Reassembler) :
    Prop where
  wf : r.Wf
  mtu_eq : r.mtu = mtu
  missing : ¬Covered post mtu seen
  progress : (seen = [] ∧ r.Idle post.key) ∨
    ∃ start, base ≤ start ∧ Collecting post mtu start seen r

theorem covered_nil (hmtu : isSupportedMtu mtu) : ¬Covered post mtu [] := by
  intro hcovered
  obtain ⟨hpos, -⟩ := postFragmentCount_bounds post hmtu
  have hmem := hcovered (postFrame post mtu 0) ((isFrameOf_iff hmtu).mpr ⟨0, hpos, rfl⟩)
  cases hmem

/-- Before the end of the time that a post has from any tick since `base` on. -/
def InTime (base tick : ℕ) : Prop :=
  base ≤ tick ∧ tick < min (base + kReassemblyTimeoutTicks) kMaximumTick

theorem InTime.lt (h : InTime base tick) {start : ℕ} (hstart : base ≤ start) :
    tick < min (start + kReassemblyTimeoutTicks) kMaximumTick := by
  have hlt := h.2
  omega

namespace Reassembler

theorem hasFreeSlot_expire (h : r.hasFreeSlot) (now : ℕ) : (r.expire now).1.hasFreeSlot := by
  obtain ⟨slot, hslot, hunused⟩ := h
  refine ⟨slot, ?_, hunused⟩
  refine List.mem_map.mpr ⟨slot, hslot, ?_⟩
  rw [if_neg (by simp [hunused])]

theorem Idle.expire (h : r.Idle post.key) (hwf : r.Wf) (now : ℕ) :
    (r.expire now).1.Idle post.key where
  inactive := by
    rw [active_expire hwf, h.inactive]
    rfl
  free hin := h.free (inQuarantine_expire hin)
  room := hasFreeSlot_expire h.room now

/-- A key whose post has just been completed is idle. -/
theorem accept_complete (h : r.Wf) (hcomplete : (r.accept frame tick).2.status = .complete) :
    (r.accept frame tick).1.Idle frame.key := by
  by_cases hlet : (r.expire tick).1.accepts frame ∧ ¬(r.expire tick).1.inQuarantine frame.key ∧
      ((r.expire tick).1.target frame tick).isSome
  swap
  · exact absurd hcomplete (accept_refused hlet).2
  obtain ⟨haccepts, hquarantine, hsome⟩ := hlet
  obtain ⟨slot, htarget⟩ := Option.isSome_iff_exists.mp hsome
  obtain ⟨hresult, hupdated⟩ := accept_target h haccepts hquarantine htarget
  obtain ⟨opened, index, hslot, -, -, haccept, hopened⟩ :=
    accept_settle h haccepts hquarantine htarget
  rw [hresult] at hcomplete
  rcases hanswer : slot.answer r.mtu r.fragmentCapacity frame with _ | _ | accepted | _ | completed
  all_goals
    rw [hanswer] at hcomplete haccept hupdated
    simp only [SlotOutcome.result, reduceCtorEq] at hcomplete
  obtain ⟨hindex, -⟩ := List.getElem?_eq_some_iff.mp hslot
  have hactive := hupdated.active frame.key
  rw [if_pos rfl] at hactive
  refine ⟨hactive, ?_, ?_⟩
  · -- completing a post puts nothing into quarantine
    rw [haccept]
    intro hin
    rcases hopened with ⟨rfl, -⟩ | ⟨rfl, -⟩
    · exact hquarantine hin
    · exact hquarantine hin
  · rw [haccept]
    exact ⟨.blank, List.mem_of_getElem? (List.getElem?_set_self hindex), rfl⟩

end Reassembler

theorem Gathers.expire (h : Gathers post mtu base seen r) (htime : InTime base tick) :
    Gathers post mtu base seen (r.expire tick).1 := by
  refine ⟨Reassembler.expire_wf h.wf tick, h.mtu_eq, h.missing, ?_⟩
  rcases h.progress with ⟨hseen, hidle⟩ | ⟨start, hstart, hcollecting⟩
  · exact .inl ⟨hseen, hidle.expire h.wf tick⟩
  · exact .inr ⟨start, hstart, hcollecting.expire (htime.lt hstart)⟩

/-- **One more frame of the post.**  It is put to the others, or it completes the post. -/
theorem Gathers.accept (h : Gathers post mtu base seen r) (hmtu : isSupportedMtu mtu)
    (htime : InTime base tick) (hframe : IsFrameOf post mtu frame) :
    ((r.accept frame tick).2.status ≠ .complete ∧
      Gathers post mtu base (seen ++ [frame]) (r.accept frame tick).1) ∨
    ((r.accept frame tick).2 = ⟨.complete, some (completedPost post mtu)⟩ ∧
      Gathers post mtu base [] (r.accept frame tick).1) := by
  have hkey : frame.key = post.key := by
    obtain ⟨index, -, rfl⟩ := (isFrameOf_iff hmtu).mp hframe
    rfl
  obtain ⟨hwf', hmtu'⟩ := Reassembler.accept_wf frame tick h.wf
  -- the slot of the post, which is opened now or was opened at `start`
  obtain ⟨start, slot, hstart, hfree, htarget, hslot, hdeadline⟩ : ∃ start slot, base ≤ start ∧
      ¬(r.expire tick).1.inQuarantine post.key ∧
      (r.expire tick).1.target frame tick = some slot ∧ SlotProgress post mtu seen slot ∧
      slot.deadline = saturatingDeadline start kReassemblyTimeoutTicks := by
    rcases h.progress with ⟨rfl, hidle⟩ | ⟨start, hstart, hcollecting⟩
    · have hexpired := hidle.expire h.wf tick
      refine ⟨tick, .fresh frame tick, htime.1, hexpired.free, ?_, .fresh hmtu hframe tick, rfl⟩
      rw [Reassembler.target, hkey, hexpired.inactive]
      rcases hslot : (r.expire tick).1.freeSlot with _ | index
      · exact absurd hexpired.room (Reassembler.freeSlot_eq_none.mp hslot)
      · rfl
    · have hexpired := hcollecting.expire (htime.lt hstart)
      obtain ⟨slot, hactive, hslot, hdeadline⟩ := hexpired.slot
      refine ⟨start, slot, hstart, hexpired.free, ?_, hslot, hdeadline⟩
      rw [Reassembler.target, hkey, hactive]
  obtain ⟨hpending, hfinal⟩ := collect_frame start hmtu h.wf h.mtu_eq hfree hframe htarget hslot
    hdeadline
  by_cases hlast : Covered post mtu (seen ++ [frame])
  · have hcomplete := hfinal h.missing hlast
    refine .inr ⟨hcomplete, hwf', hmtu'.trans h.mtu_eq, covered_nil hmtu, .inl ⟨rfl, ?_⟩⟩
    rw [← hkey]
    exact Reassembler.accept_complete h.wf (by rw [hcomplete])
  · obtain ⟨hstatus, hcollecting⟩ := hpending hlast
    refine .inl ⟨?_, hwf', hmtu'.trans h.mtu_eq, hlast, .inr ⟨start, hstart, hcollecting⟩⟩
    rcases hstatus with hstatus | hstatus
    · simp [hstatus]
    · simp [hstatus]

end Reassembler

/-! ### The receive queue -/

/-- The datagram is a frame of the post, or no frame. -/
def OnlyOf (post : PostPayload) (mtu : ℕ) (datagram : Bytes) : Prop :=
  ∀ frame, decodeFrame datagram mtu = .ok frame → IsFrameOf post mtu frame

/-- A queue whose reassembler gathers a post, and whose recent datagrams do not hide it. -/
structure InboundGathers (post : PostPayload) (mtu base : ℕ) (seen : List DataFrame)
    (q : InboundFrameQueue) : Prop where
  opened : q.stopped = false
  mtu_eq : q.mtu = mtu
  gathers : Gathers post mtu base seen q.reassembler

/-- No frame of the post counts as committed. -/
def InboundFrameQueue.Unhidden (q : InboundFrameQueue) (post : PostPayload) : Prop :=
  ∀ recent ∈ q.recent, ∀ frame, decodeFrame recent.datagram q.mtu = .ok frame →
    ¬IsFrameOf post q.mtu frame

section Queue

variable {post : PostPayload} {mtu base now : ℕ} {seen : List DataFrame} {q : InboundFrameQueue}

theorem InboundFrameQueue.recent_subset (q : InboundFrameQueue) (datagram : Bytes) (now : ℕ) :
    (q.recentlyCommitted datagram now).1.recent ⊆ q.recent := by
  unfold InboundFrameQueue.recentlyCommitted
  have hexpired : (q.expireRecent now).recent ⊆ q.recent := List.filter_subset_self _
  dsimp only
  split
  · exact hexpired
  · rename_i retained hfound
    intro recent hrecent
    rcases List.mem_append.mp hrecent with hother | hlast
    · exact hexpired (List.mem_of_mem_eraseP hother)
    · rw [List.mem_singleton.mp hlast]
      exact hexpired (List.mem_of_find?_eq_some hfound)

theorem InboundFrameQueue.Unhidden.mono {q' : InboundFrameQueue} (h : q.Unhidden post)
    (hmtu : q'.mtu = q.mtu) (hrecent : q'.recent ⊆ q.recent) : q'.Unhidden post := by
  intro recent hmem frame hdecode
  rw [hmtu] at hdecode ⊢
  exact h recent (hrecent hmem) frame hdecode

/-- What has become of a datagram: it has been seen, or it has completed the post. -/
structure Taken (post : PostPayload) (mtu base : ℕ) (seen : List DataFrame) (q : InboundFrameQueue)
    (datagram : Bytes) (rest : List QueuedFrame)
    (outcome : InboundFrameQueue × IngressProcessResult) : Prop where
  queue : outcome.1.queue = rest
  recent : outcome.1.recent ⊆ q.recent
  cases : (outcome.2.status ≠ .complete ∧ outcome.2.status ≠ .empty ∧
      ∃ seen', InboundGathers post mtu base seen' outcome.1 ∧ seen ⊆ seen' ∧
        (q.Unhidden post → ∀ frame, decodeFrame datagram mtu = .ok frame → frame ∈ seen')) ∨
    (outcome.2 = ⟨.complete, some (completedPost post mtu)⟩ ∧
      InboundGathers post mtu base [] outcome.1)

theorem InboundGathers.same {q' : InboundFrameQueue} (h : InboundGathers post mtu base seen q)
    (hstopped : q'.stopped = q.stopped) (hmtu : q'.mtu = q.mtu)
    (hreassembler : q'.reassembler = q.reassembler) : InboundGathers post mtu base seen q' :=
  ⟨hstopped.trans h.opened, hmtu.trans h.mtu_eq, hreassembler ▸ h.gathers⟩

/-- A frame of the post at the end of `process_next`. -/
theorem InboundGathers.reassemble (h : InboundGathers post mtu base seen q)
    (hmtu : isSupportedMtu mtu) (htime : InTime base now) {frame : DataFrame}
    (hframe : IsFrameOf post mtu frame) :
    (q.reassemble frame now).1.queue = q.queue ∧ (q.reassemble frame now).1.recent = q.recent ∧
    (((q.reassemble frame now).2.status ≠ .complete ∧ (q.reassemble frame now).2.status ≠ .empty ∧
        InboundGathers post mtu base (seen ++ [frame]) (q.reassemble frame now).1) ∨
      ((q.reassemble frame now).2 = ⟨.complete, some (completedPost post mtu)⟩ ∧
        InboundGathers post mtu base [] (q.reassemble frame now).1)) := by
  unfold InboundFrameQueue.reassemble
  rcases h.gathers.accept hmtu htime hframe with ⟨hpending, hgathers⟩ | ⟨hcomplete, hgathers⟩
  · dsimp only
    split
    · exact ⟨rfl, rfl, .inl ⟨by simp, by simp, h.opened, h.mtu_eq, hgathers⟩⟩
    · exact ⟨rfl, rfl, .inl ⟨by simp, by simp, h.opened, h.mtu_eq, hgathers⟩⟩
    · exact ⟨rfl, rfl, .inl ⟨by simp, by simp, h.opened, h.mtu_eq, hgathers⟩⟩
    · exact ⟨rfl, rfl, .inl ⟨by simp, by simp, h.opened, h.mtu_eq, hgathers⟩⟩
    · exact ⟨rfl, rfl, .inl ⟨by simp, by simp, h.opened, h.mtu_eq, hgathers⟩⟩
    · exact ⟨rfl, rfl, .inl ⟨by simp, by simp, h.opened, h.mtu_eq, hgathers⟩⟩
    · rename_i hstatus
      exact absurd hstatus hpending
  · dsimp only
    rw [hcomplete]
    exact ⟨rfl, rfl, .inr ⟨rfl, h.opened, h.mtu_eq, hgathers⟩⟩

/-- The datagram at the front of the queue. -/
theorem InboundGathers.processNext (h : InboundGathers post mtu base seen q)
    (hmtu : isSupportedMtu mtu) (htime : InTime base now) {datagram : Bytes}
    {rest : List QueuedFrame} (hqueue : q.queue = ⟨datagram, now⟩ :: rest)
    (honly : OnlyOf post mtu datagram) :
    Taken post mtu base seen q datagram rest (q.processNext now) := by
  have hexpired := h.gathers.expire htime
  unfold InboundFrameQueue.processNext
  rw [if_neg (by simp [h.opened])]
  simp only [InboundFrameQueue.count, hqueue]
  generalize hq' : InboundFrameQueue.updateMetrics _ = q'
  have hstopped : q'.stopped = q.stopped := by rw [← hq']; rfl
  have hmtu' : q'.mtu = q.mtu := by rw [← hq']; rfl
  have hrest : q'.queue = rest := by rw [← hq']; rfl
  have hrecent : q'.recent = q.recent := by rw [← hq']; rfl
  have hgathers : InboundGathers post mtu base seen q' := by
    refine ⟨hstopped.trans h.opened, hmtu'.trans h.mtu_eq, ?_⟩
    rw [← hq']
    exact hexpired
  clear hq'
  unfold InboundFrameQueue.processFrame
  rw [if_neg (by simp [kReassemblyTimeoutTicks])]
  dsimp only
  have hfound := q'.recent_subset datagram now
  have hkept : InboundGathers post mtu base seen (q'.recentlyCommitted datagram now).1 ∧
      (q'.recentlyCommitted datagram now).1.queue = rest := by
    unfold InboundFrameQueue.recentlyCommitted
    dsimp only
    split
    · exact ⟨hgathers.same rfl rfl rfl, hrest⟩
    · exact ⟨hgathers.same rfl rfl rfl, hrest⟩
  rw [hrecent] at hfound
  split
  · rename_i hduplicate
    refine ⟨hkept.2, hfound, .inl ⟨by simp, by simp, seen, hkept.1.same rfl rfl rfl,
      List.Subset.refl _, ?_⟩⟩
    -- what counts as committed is no frame of the post, so it is no frame at all
    intro hunhidden frame hdecode
    have hmem : ∃ recent ∈ q.recent, recent.datagram = datagram := by
      unfold InboundFrameQueue.recentlyCommitted at hduplicate
      dsimp only at hduplicate
      split at hduplicate
      · cases hduplicate
      · rename_i retained hretained
        refine ⟨retained, ?_, by simpa using List.find?_some hretained⟩
        rw [← hrecent]
        exact (List.mem_filter.mp (List.mem_of_find?_eq_some hretained)).1
    obtain ⟨recent, hmem, rfl⟩ := hmem
    rw [InboundFrameQueue.Unhidden, h.mtu_eq] at hunhidden
    exact absurd (honly frame hdecode) (hunhidden recent hmem frame hdecode)
  rw [hkept.1.mtu_eq]
  rcases hdecode : decodeFrame datagram mtu with error | frame
  · refine ⟨hkept.2, hfound, .inl ⟨by simp, by simp, seen, hkept.1.same rfl rfl rfl,
      List.Subset.refl _, ?_⟩⟩
    intro _ frame hframe
    rw [hdecode] at hframe
    cases hframe
  · obtain ⟨hsame, hsameRecent, hcases⟩ := hkept.1.reassemble hmtu htime (honly frame hdecode)
    refine ⟨hsame.trans hkept.2, hsameRecent ▸ hfound, hcases.imp_left ?_⟩
    rintro ⟨hcomplete, hempty, hseen⟩
    refine ⟨hcomplete, hempty, _, hseen, List.subset_append_left _ _, fun _ other hother => ?_⟩
    rw [hdecode] at hother
    obtain rfl := Except.ok.inj hother
    exact List.mem_append_right _ (List.mem_singleton_self _)

/-- Nothing is left in the queue. -/
theorem InboundGathers.processNext_empty (h : InboundGathers post mtu base seen q)
    (htime : InTime base now) (hqueue : q.queue = []) :
    (q.processNext now).2.status = .empty ∧ (q.processNext now).1.queue = [] ∧
      (q.processNext now).1.recent = q.recent ∧
      InboundGathers post mtu base seen (q.processNext now).1 := by
  have hexpired := h.gathers.expire htime
  unfold InboundFrameQueue.processNext
  rw [if_neg (by simp [h.opened])]
  simp only [InboundFrameQueue.count, hqueue]
  refine ⟨?_, rfl, rfl, h.opened, h.mtu_eq, hexpired⟩
  trivial

end Queue

end Lora
