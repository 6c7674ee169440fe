/-
The receive pipeline.

Datagrams go through the queue and the reassembler to the session, which asks
its ledger and inserts the post.  The steps are taken apart here: a post that
has been completed may be offered to the session at any later time and any
number of times, its frames may be noted as committed or not, and the process
may end at any point.  The radio runtime takes the steps in one of these
orders.

* `eq_of_speltFrom` — a post spelt by frames of sent posts is one of them;
* `Receiver.Sound.step`, `Receiver.run_sound` — what is under way was sent;
* `received_posts_were_sent` — so was what is inserted, and nothing is inserted
  again while its record is kept.
-/
import LoraMessenger.Ingress
import LoraMessenger.Lifetime

namespace Lora

open Crash

/-- A frame of one of the sent posts. -/
def IsSentFrame (sent : List PostPayload) (mtu : ℕ) (frame : DataFrame) : Prop :=
  ∃ post ∈ sent, IsFrameOf post mtu frame

/-- What may arrive: a frame of a sent post, or something that cannot be decoded. -/
def MayArrive (sent : List PostPayload) (mtu : ℕ) (datagram : Bytes) : Prop :=
  (∃ post ∈ sent, ∃ datagrams, fragmentPost post mtu = .ok datagrams ∧ datagram ∈ datagrams) ∨
    ∃ error, decodeFrame datagram mtu = .error error

section Sent

variable {sent : List PostPayload} {mtu : ℕ}

theorem MayArrive.isSentFrame {datagram : Bytes} (h : MayArrive sent mtu datagram)
    {frame : DataFrame} (hdecode : decodeFrame datagram mtu = .ok frame) :
    IsSentFrame sent mtu frame := by
  rcases h with ⟨post, hpost, datagrams, hfragment, hmem⟩ | ⟨error, herror⟩
  · exact ⟨post, hpost, datagrams, hfragment, datagram, hmem, hdecode⟩
  · rw [herror] at hdecode
    cases hdecode

theorem postFrame_key (post : PostPayload) (mtu index : ℕ) :
    (postFrame post mtu index).key = post.key := rfl

/-- Posts with the same frames are the same. -/
theorem eq_of_postFrames {post other : PostPayload} (hmtu : isSupportedMtu mtu)
    (h : postFrames post mtu = postFrames other mtu) : post = other := by
  have hbytes : postBytes post = postBytes other := by
    rw [← flatMap_postFrames hmtu, h, flatMap_postFrames hmtu]
  have hdecode := decodePost_postBytes post
  rw [hbytes, decodePost_postBytes, Except.ok.injEq] at hdecode
  exact hdecode.symm

/-- If all frames of a post are frames of another one, the two are the same. -/
theorem eq_of_forall_isFrameOf {post other : PostPayload} (hmtu : isSupportedMtu mtu)
    (h : ∀ part ∈ postFrames post mtu, IsFrameOf other mtu part) : post = other := by
  refine eq_of_postFrames hmtu ?_
  have hplace : ∀ index < postFragmentCount post mtu, index < postFragmentCount other mtu ∧
      postFrame post mtu index = postFrame other mtu index := by
    intro index hindex
    obtain ⟨place, hplace, heq⟩ := (isFrameOf_iff hmtu).mp
      (h _ (List.mem_map_of_mem (List.mem_range.mpr hindex)))
    have hsame : index = place := by
      rw [← postFrame_index hmtu hindex, heq, postFrame_index hmtu hplace]
    rw [hsame]
    exact ⟨hplace, hsame ▸ heq⟩
  -- Both posts have a first frame, and it carries the number of frames.
  have hcount : postFragmentCount post mtu = postFragmentCount other mtu := by
    obtain ⟨hpos, -⟩ := postFragmentCount_bounds post hmtu
    rw [← postFrame_count 0 hmtu, (hplace 0 hpos).2, postFrame_count 0 hmtu]
  rw [postFrames, postFrames, ← hcount]
  refine List.map_congr_left fun index hindex => ?_
  exact (hplace index (List.mem_range.mp hindex)).2

/-- A post spelt by frames of sent posts with distinct keys is one of them. -/
theorem eq_of_speltFrom (hkeys : ∀ left ∈ sent, ∀ right ∈ sent, left.key = right.key → left = right)
    {completed : CompletedPost} (h : SpeltFrom mtu (IsSentFrame sent mtu) completed) :
    completed.canonicalPost = postBytes completed.post ∧ completed.post ∈ sent := by
  obtain ⟨hmtu, hcanonical, hparts⟩ := h
  refine ⟨by rw [hcanonical]; rfl, ?_⟩
  have hkey : ∀ part ∈ postFrames completed.post mtu, ∀ post, IsFrameOf post mtu part →
      post.key = completed.post.key := by
    intro part hpart post hframe
    obtain ⟨index, -, rfl⟩ := List.mem_map.mp hpart
    obtain ⟨place, -, heq⟩ := (isFrameOf_iff hmtu).mp hframe
    rw [← postFrame_key completed.post mtu index, heq, postFrame_key]
  obtain ⟨hpos, -⟩ := postFragmentCount_bounds completed.post hmtu
  have hfirst : postFrame completed.post mtu 0 ∈ postFrames completed.post mtu :=
    List.mem_map_of_mem (List.mem_range.mpr hpos)
  obtain ⟨post, hpost, hframe⟩ := hparts _ hfirst
  have hall : ∀ part ∈ postFrames completed.post mtu, IsFrameOf post mtu part := by
    intro part hpart
    obtain ⟨other, hother, hotherFrame⟩ := hparts part hpart
    have hsame := hkeys other hother post hpost
      ((hkey part hpart other hotherFrame).trans (hkey _ hfirst post hframe).symm)
    exact hsame ▸ hotherFrame
  rw [eq_of_forall_isFrameOf hmtu hall]
  exact hpost

end Sent

/-! ### The pipeline -/

inductive ReceiverEvent where
  /-- Anything else that happens to the session or its process. -/
  | session (event : WorldEvent)
      (hother : ∀ bytes faults, event ≠ .call (.acceptReceivedPost bytes) faults)
  | enqueue (datagram : Bytes) (receivedTick : ℕ)
  | processNext (now : ℕ)
  | acceptCompleted (index : ℕ) (faults : List Fault)
  | markCommitted (index committedTick : ℕ)
  | stop

/-- The session and its queue, the posts completed by the running process, and
a record of the posts that were inserted. -/
structure Receiver where
  world : World
  inbound : InboundFrameQueue
  completed : List CompletedPost := []
  inserted : List PostPayload := []

/-- The posts that are new in the timeline. -/
def newPosts (before after : Session) : List PostPayload :=
  (after.messenger.timeline.entries.filter fun entry =>
    entry ∉ before.messenger.timeline.entries).map TimelineEntry.post

namespace Receiver

def new (mtu : ℕ) (disk : Disk) : Receiver where
  world := { disk := disk }
  inbound := .new mtu

variable (r : Receiver)

/-- A new process has an empty queue. -/
def session (event : WorldEvent) : Receiver :=
  match event with
  | .call .. => { r with world := r.world.step event }
  | .scan => { r with world := r.world.step event }
  | _ => { r with world := r.world.step event, inbound := .new r.inbound.mtu, completed := [] }

def processNext (now : ℕ) : Receiver :=
  let (inbound, processed) := r.inbound.processNext now
  { r with inbound := inbound, completed := r.completed ++ processed.completed.toList }

def acceptCompleted (index : ℕ) (faults : List Fault) : Receiver :=
  match r.completed[index]?, r.world.process with
  | some completed, some before =>
    let world := r.world.call (.acceptReceivedPost completed.canonicalPost) faults
    { r with
      world := world
      inserted := r.inserted ++ (world.process.map (newPosts before)).getD [] }
  | _, _ => r

def markCommitted (index committedTick : ℕ) : Receiver :=
  match r.completed[index]? with
  | some completed =>
    { r with inbound := r.inbound.markCommitted completed.canonicalFrames committedTick }
  | none => r

def step : ReceiverEvent → Receiver
  | .session event _ => r.session event
  | .enqueue datagram receivedTick =>
    { r with inbound := (r.inbound.enqueue datagram receivedTick).1 }
  | .processNext now => r.processNext now
  | .acceptCompleted index faults => r.acceptCompleted index faults
  | .markCommitted index committedTick => r.markCommitted index committedTick
  | .stop => { r with inbound := r.inbound.stop }

def run (mtu : ℕ) (disk : Disk) (events : List ReceiverEvent) : Receiver :=
  events.foldl step (new mtu disk)

theorem run_concat (mtu : ℕ) (disk : Disk) (events : List ReceiverEvent) (event : ReceiverEvent) :
    run mtu disk (events ++ [event]) = (run mtu disk events).step event := by
  simp [run, List.foldl_append]

end Receiver

/-- The ledger on the disk has a record of the post. -/
def Retains (disk : Disk) (post : PostPayload) : Prop :=
  ∃ stored, disk.history = .stored stored ∧
    post.messageId ∈ stored.snapshot.seenMessages.map SeenMessageRecord.messageId

/-- An insertion shows as one new post. -/
theorem Inserts.newPosts {v v' : Committed} {post : PostPayload}
    (h : Inserts v v' post (v.timeline.insertReceived post)) {before after : Session}
    (hbefore : before.messenger.timeline = v.timeline)
    (hafter : after.messenger.timeline = v'.timeline) : newPosts before after = [post] := by
  obtain ⟨inserted, hinsert, htimeline⟩ := h.timeline
  obtain ⟨hfind, _, _, rfl⟩ := Timeline.insert_eq_ok.mp hinsert
  have hkept : (v.timeline.evict none).Sublist v.timeline.entries := Timeline.evict_sublist
  let entry : TimelineEntry := ⟨post, v.timeline.lastAssignedOrder + 1, .receivedOrigin⟩
  have hnew : entry ∉ v.timeline.entries := by
    intro hmem
    have hfound := Timeline.find_of_mem hmem
    rw [show entry.messageId = post.messageId from rfl, hfind] at hfound
    cases hfound
  have hold : (v.timeline.evict none).filter (fun entry => entry ∉ v.timeline.entries) = [] := by
    rw [List.filter_eq_nil_iff]
    intro other hother
    simpa using hkept.subset hother
  rw [Lora.newPosts, hbefore, hafter, htimeline]
  simp only [Timeline.push]
  rw [List.filter_append, hold, List.nil_append, List.filter_cons_of_pos (by simpa using hnew)]
  rfl

theorem newPosts_same {before after : Session}
    (h : after.messenger.timeline = before.messenger.timeline) : newPosts before after = [] := by
  rw [newPosts, h, List.map_eq_nil_iff, List.filter_eq_nil_iff]
  intro entry hentry
  simpa using hentry

/-- Offering a post to the session inserts nothing, or just this post, of which
the ledger then had no record. -/
theorem wp_call_newPosts {m : Machine Session Disk} (hagrees : Agrees m.memory m.durable)
    (post : PostPayload) : wp (Session.call (.acceptReceivedPost (postBytes post)))
      (fun _ m' => newPosts m.memory m'.memory = [] ∨
        (newPosts m.memory m'.memory = [post] ∧ ¬Retains m.durable post)) (fun _ => True) m := by
  rw [Session.call, wp_bind]
  by_cases hready : m.memory.status = .ready
  swap
  · unfold Session.acceptReceivedPost
    simp only [wp_bind, wp_memory]
    rw [if_pos (.inl hready)]
    exact .inl (newPosts_same rfl)
  obtain ⟨v, hshows, hdisk⟩ := hagrees hready
  refine wp_acceptReceivedPost hshows hdisk ?_ ?_ ?_ ?_ ?_
  · exact fun _ _ => .inl (newPosts_same rfl)
  · intro other v' rest hbytes hcommit _
    have hsame : other = post := by
      have hdecode := decodePost_postBytes post
      rw [hbytes, decodePost_postBytes, Except.ok.injEq] at hdecode
      exact hdecode
    subst hsame
    cases hcommit with
    | received hinserts =>
    refine .inr ⟨hinserts.newPosts hshows.timeline rfl, ?_⟩
    rintro ⟨stored, hstored, hrecord⟩
    rw [hdisk] at hstored
    obtain rfl := HistoryFile.stored.inj hstored
    exact MessageDedupeWindow.classify_eq_new.mp hinserts.new hrecord
  · exact fun _ _ _ _ _ _ _ => .inl (newPosts_same rfl)
  · exact fun _ _ _ _ _ _ _ _ => .inl (newPosts_same rfl)
  · exact fun _ _ _ _ _ _ _ => trivial

/-! ### What is received was sent -/

namespace Receiver

/-- Everything under way comes from the sent posts. -/
structure Sound (sent : List PostPayload) (mtu : ℕ) (r : Receiver) : Prop where
  agrees : r.world.Agrees
  fed : r.inbound.FedFrom mtu (IsSentFrame sent mtu)
  completed : ∀ completed ∈ r.completed, SpeltFrom mtu (IsSentFrame sent mtu) completed
  inserted : ∀ post ∈ r.inserted, post ∈ sent

variable {sent : List PostPayload} {mtu : ℕ} {r : Receiver}

theorem new_sound (disk : Disk) : (Receiver.new mtu disk).Sound sent mtu :=
  ⟨World.agrees_off disk, .new, by simp [Receiver.new], by simp [Receiver.new]⟩

theorem Sound.session (h : r.Sound sent mtu) (event : WorldEvent) :
    (r.session event).Sound sent mtu := by
  have hagrees := World.step_agrees h.agrees event
  have hfresh : (InboundFrameQueue.new r.inbound.mtu).FedFrom mtu (IsSentFrame sent mtu) :=
    h.fed.mtu_eq ▸ .new
  cases event with
  | start => exact ⟨hagrees, hfresh, by simp [Receiver.session], h.inserted⟩
  | call => exact ⟨hagrees, h.fed, h.completed, h.inserted⟩
  | scan => exact ⟨hagrees, h.fed, h.completed, h.inserted⟩
  | kill => exact ⟨hagrees, hfresh, by simp [Receiver.session], h.inserted⟩

theorem Sound.processNext (h : r.Sound sent mtu) (now : ℕ) :
    (r.processNext now).Sound sent mtu := by
  obtain ⟨hfed, hyields⟩ := h.fed.processNext now
  refine ⟨h.agrees, hfed, ?_, h.inserted⟩
  intro completed hcompleted
  rcases List.mem_append.mp hcompleted with hold | hnew
  · exact h.completed completed hold
  · exact hyields completed (Option.mem_toList.mp hnew)

/-- What comes of offering a completed post to the session. -/
theorem Sound.acceptCompleted_cases
    (hkeys : ∀ left ∈ sent, ∀ right ∈ sent, left.key = right.key → left = right)
    (h : r.Sound sent mtu) (index : ℕ) (faults : List Fault) :
    ∃ world added, r.acceptCompleted index faults =
        { r with world := world, inserted := r.inserted ++ added } ∧ world.Agrees ∧
      (added = [] ∨ ∃ post ∈ sent, added = [post] ∧ ¬Retains r.world.disk post) := by
  obtain ⟨world, inbound, completedPosts, inserted⟩ := r
  rcases hcompleted : completedPosts[index]? with _ | completed
  · exact ⟨world, [], by simp [acceptCompleted, hcompleted], h.agrees, .inl rfl⟩
  rcases hprocess : world.process with _ | session
  · exact ⟨world, [], by simp [acceptCompleted, hcompleted, hprocess], h.agrees, .inl rfl⟩
  obtain ⟨hcanonical, hsent⟩ :=
    eq_of_speltFrom hkeys (h.completed completed (List.mem_of_getElem? hcompleted))
  have hagrees := World.step_agrees h.agrees (.call (.acceptReceivedPost completed.canonicalPost)
    faults)
  rw [World.step] at hagrees
  refine ⟨_, ((world.call (.acceptReceivedPost completed.canonicalPost) faults).process.map
    (newPosts session)).getD [], ?_, hagrees, ?_⟩
  · simp only [acceptCompleted, hcompleted, hprocess]
  have hnew := wp_call_newPosts (m := ⟨session, world.disk, faults⟩)
    (h.agrees session hprocess) completed.post
  rw [← hcanonical] at hnew
  rcases World.call_cases h.agrees hprocess
      (.acceptReceivedPost completed.canonicalPost) faults with
    ⟨reply, m, hrun, -, hcall⟩ | ⟨disk, -, hcall⟩
  · rw [wp, hrun] at hnew
    rw [hcall]
    exact hnew.imp_right fun hinserted => ⟨completed.post, hsent, hinserted⟩
  · rw [hcall]
    exact .inl rfl

theorem Sound.step (hkeys : ∀ left ∈ sent, ∀ right ∈ sent, left.key = right.key → left = right)
    (h : r.Sound sent mtu) (event : ReceiverEvent)
    (harrive : ∀ datagram tick, event = .enqueue datagram tick → MayArrive sent mtu datagram) :
    (r.step event).Sound sent mtu := by
  cases event with
  | session event => exact h.session event
  | enqueue datagram receivedTick =>
    have hdatagram := harrive datagram receivedTick rfl
    exact ⟨h.agrees, h.fed.enqueue receivedTick fun frame => hdatagram.isSentFrame, h.completed,
      h.inserted⟩
  | processNext now => exact h.processNext now
  | acceptCompleted index faults =>
    obtain ⟨world, added, hstep, hagrees, hadded⟩ := h.acceptCompleted_cases hkeys index faults
    rw [Receiver.step, hstep]
    refine ⟨hagrees, h.fed, h.completed, ?_⟩
    intro post hpost
    rcases List.mem_append.mp hpost with hold | hnew
    · exact h.inserted post hold
    · rcases hadded with rfl | ⟨other, hother, rfl, -⟩
      · cases hnew
      · exact List.mem_singleton.mp hnew ▸ hother
  | markCommitted index committedTick =>
    rw [Receiver.step, Receiver.markCommitted]
    split
    · exact ⟨h.agrees, h.fed.markCommitted _ _, h.completed, h.inserted⟩
    · exact h
  | stop => exact ⟨h.agrees, h.fed.stop, h.completed, h.inserted⟩

theorem run_sound (hkeys : ∀ left ∈ sent, ∀ right ∈ sent, left.key = right.key → left = right)
    (disk : Disk) (events : List ReceiverEvent)
    (harrive : ∀ datagram tick, .enqueue datagram tick ∈ events → MayArrive sent mtu datagram) :
    (run mtu disk events).Sound sent mtu := by
  induction events using List.reverseRecOn with
  | nil => exact new_sound disk
  | append_singleton events event ih =>
    rw [run_concat]
    refine (ih fun datagram tick hmem => harrive datagram tick (by simp [hmem])).step hkeys event ?_
    rintro datagram tick rfl
    exact harrive datagram tick (by simp)

/-- Only offering a completed post inserts anything. -/
theorem Sound.count_step (hkeys : ∀ left ∈ sent, ∀ right ∈ sent, left.key = right.key →
    left = right)
    (h : r.Sound sent mtu) (event : ReceiverEvent) {post : PostPayload}
    (hretains : post ∈ r.inserted → Retains r.world.disk post)
    (hcount : r.inserted.count post ≤ 1) :
    (r.step event).inserted.count post ≤ 1 := by
  cases event with
  | session event => cases event <;> exact hcount
  | enqueue => exact hcount
  | processNext => exact hcount
  | markCommitted index committedTick =>
    rw [Receiver.step, Receiver.markCommitted]
    split
    · exact hcount
    · exact hcount
  | stop => exact hcount
  | acceptCompleted index faults =>
    obtain ⟨world, added, hstep, -, hadded⟩ := h.acceptCompleted_cases hkeys index faults
    rw [Receiver.step, hstep]
    rcases hadded with rfl | ⟨other, -, rfl, hforgotten⟩
    · rw [List.append_nil]
      exact hcount
    rw [List.count_append, List.count_singleton]
    by_cases hsame : other = post
    · subst hsame
      rw [List.count_eq_zero.mpr fun hmem => hforgotten (hretains hmem)]
      simp
    · rw [if_neg (by simpa using hsame)]
      exact hcount

end Receiver

/-- Whatever is lost, repeated, reordered or delayed on the way and in whatever
order the steps are taken, only posts that were sent are inserted, each as it
was sent, and none a second time while the ledger keeps its record. -/
theorem received_posts_were_sent (mtu : ℕ) (sent : List PostPayload)
    (hkeys : ∀ left ∈ sent, ∀ right ∈ sent, left.key = right.key → left = right) (disk : Disk)
    (events : List ReceiverEvent)
    (harrive : ∀ datagram tick, .enqueue datagram tick ∈ events → MayArrive sent mtu datagram) :
    (∀ post ∈ (Receiver.run mtu disk events).inserted, post ∈ sent) ∧
    ∀ post, (∀ before event after, events = before ++ event :: after →
        post ∈ (Receiver.run mtu disk before).inserted →
        Retains (Receiver.run mtu disk before).world.disk post) →
      (Receiver.run mtu disk events).inserted.count post ≤ 1 := by
  refine ⟨(Receiver.run_sound hkeys disk events harrive).inserted, ?_⟩
  intro post hretains
  induction events using List.reverseRecOn with
  | nil => simp [Receiver.run, Receiver.new]
  | append_singleton events event ih =>
    have hearlier : ∀ datagram tick, .enqueue datagram tick ∈ events →
        MayArrive sent mtu datagram :=
      fun datagram tick hmem => harrive datagram tick (by simp [hmem])
    rw [Receiver.run_concat]
    refine (Receiver.run_sound hkeys disk events hearlier).count_step hkeys event
      (hretains events event [] rfl) (ih hearlier ?_)
    intro before other after hsplit
    exact hretains before other (after ++ [event]) (by simp [hsplit])

/-- A first launch, all frames of a post, and the post offered twice. -/
def sampleDelivery : List ReceiverEvent :=
  .session (.start .available (some (Vector.replicate 16 1)) []) (by simp) ::
    (postFrames samplePost 255).map (fun frame => .enqueue (frameBytes frame) 10) ++
    [.processNext 10, .acceptCompleted 0 [], .acceptCompleted 0 [], .markCommitted 0 10]

theorem received_posts_were_sent_sampleDelivery :
    (Receiver.run 255 ⟨.missing, .missing⟩ sampleDelivery).inserted = [samplePost] ∧
      ∀ post ∈ (Receiver.run 255 ⟨.missing, .missing⟩ sampleDelivery).inserted,
        post ∈ [samplePost] := by
  refine ⟨by decide +kernel, (received_posts_were_sent 255 [samplePost] (by simp)
    ⟨.missing, .missing⟩ sampleDelivery ?_).1⟩
  intro datagram tick hmem
  have hframe : ∃ frame ∈ postFrames samplePost 255, frameBytes frame = datagram ∧ 10 = tick := by
    simpa [sampleDelivery] using hmem
  obtain ⟨frame, hframe, rfl, -⟩ := hframe
  exact .inl ⟨samplePost, by simp, _, fragmentPost_eq (by decide), List.mem_map_of_mem hframe⟩

end Lora
