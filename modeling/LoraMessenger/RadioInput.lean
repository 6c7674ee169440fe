/-
What comes in by radio cannot take a session out of service.

The timeline, the ledger and the store check overlapping conditions, each with
its own capacity.  While no access of the disk fails, none of these checks
refuses what the one before it has let through: the ledger is never ahead of
the timeline, so its orders are not used up first, and it has more room than
there are entries to protect.

* `inboundAnswer` — what a session says to a post, by the ledger alone;
* `rememberable` — a post that the ledger does not know can be recorded;
* `radio_input_never_forces_recovery` — the session answers so, and stays in
  service.
-/
import LoraMessenger.Lifetime

namespace Lora

open Crash

/-- The answer of a session in service to a received post. -/
def inboundAnswer (session : Session) (bytes : Bytes) : InboundPostStatus :=
  if session.closed then .notReady
  else match decodePost bytes with
    | .error _ => .invalid
    | .ok post =>
      match session.dedupe.classify post.messageId bytes with
      | .duplicate => .duplicate
      | .conflict => .conflict
      | .invalid => .invalid
      | .new =>
        if session.messenger.timeline.lastAssignedOrder = kMaximumOrder then .orderExhausted
        else .accepted

/-- A post that the ledger does not know can be recorded. -/
theorem rememberable {v : Committed} (hbehind : v.disk.LedgerBehind) {post : PostPayload}
    {ids : List MessageId} (hnew : v.ledger.classify post.messageId (postBytes post) = .new)
    (hlast : v.timeline.lastAssignedOrder ≠ kMaximumOrder)
    (hids : ids.length ≤ kMaxTimelineEntries) : ¬Unrememberable v post ids := by
  have hseen : v.ledger.lastSeenOrder ≠ kMaximumOrder := by
    have hbehind : v.ledger.lastSeenOrder ≤ v.timeline.lastAssignedOrder ∧
        v.timeline.lastAssignedOrder ≤ kMaximumOrder := hbehind _ rfl
    omega
  have hroom : v.ledger.hasRoom ids := by
    refine MessageDedupeWindow.hasRoom_of_length ?_
    rw [v.ledger_capacity]
    exact lt_of_le_of_lt hids (by decide)
  rintro (hconflict | ⟨-, error, herror⟩)
  · rw [hnew] at hconflict
    cases hconflict
  · rw [MessageDedupeWindow.remember_eq hnew, if_neg hseen, dif_pos hroom] at herror
    cases herror

section InService

variable {m : Machine Session Disk} {v : Committed} (hshows : Shows m.memory v)
  (hdisk : m.durable = v.disk) (hready : m.memory.status = .ready) (hbehind : v.disk.LedgerBehind)

include hshows

theorem mayPersist_of_open (hready : m.memory.status = .ready) (hclosed : m.memory.closed = false) :
    m.memory.mayPersist := by
  rcases hshows.stores with h | h
  · rw [hclosed] at h
    cases h
  · exact ⟨hready, hclosed, h.1⟩

/-- Where the ledger decides. -/
theorem inboundAnswer_eq (hclosed : m.memory.closed = false) (post : PostPayload) :
    inboundAnswer m.memory (postBytes post) =
      match v.ledger.classify post.messageId (postBytes post) with
      | .duplicate => .duplicate
      | .conflict => .conflict
      | .invalid => .invalid
      | .new => if v.timeline.lastAssignedOrder = kMaximumOrder then .orderExhausted else
          .accepted := by
  simp only [inboundAnswer, hclosed, Bool.false_eq_true, if_false, decodePost_postBytes,
    hshows.dedupe, hshows.timeline]

include hdisk hready

/-- A queued post takes any other state. -/
theorem wp_transition_ready (hfaults : m.faults = []) {entry : TimelineEntry}
    (hentry : entry ∈ v.timeline.entries) (hqueued : entry.isQueued) {target : LocalDeliveryState}
    (htarget : target ≠ .queued) :
    wp (Session.transition entry.messageId target) (fun result m' => m'.memory.status = .ready ∧
      result.error = if m.memory.closed then .persistenceUnavailable else .none)
      (fun _ => False) m := by
  refine wp_transition hshows hdisk ?_ ?_ ?_ ?_ ?_
  · intro error herror
    rw [Timeline.transition_queued hentry hqueued htarget] at herror
    cases herror
  · intro hnot
    refine ⟨hready, (if_pos ?_).symm⟩
    by_contra hclosed
    exact hnot (mayPersist_of_open hshows hready (by simpa using hclosed))
  · intro v' rest hmay _ _
    exact ⟨hready, (if_neg (by simp [hmay.2.1])).symm⟩
  · exact fun v' disk rest _ hne _ => absurd hfaults hne
  · exact fun v' disk _ hne _ => absurd hfaults hne

include hbehind

theorem wp_acceptReceivedPost_ready (hfaults : m.faults = []) (bytes : Bytes) :
    wp (Session.acceptReceivedPost bytes) (fun status m' => m'.memory.status = .ready ∧
      status = inboundAnswer m.memory bytes ∧ (status ≠ .accepted → m' = m))
        (fun _ => False) m := by
  by_cases hclosed : m.memory.closed
  · unfold Session.acceptReceivedPost
    simp only [wp_bind, wp_memory]
    rw [if_pos (.inr (.inl hclosed)), wp_pure]
    exact ⟨hready, by rw [inboundAnswer, if_pos hclosed], fun _ => rfl⟩
  have hclosed : m.memory.closed = false := by simpa using hclosed
  refine wp_acceptReceivedPost hshows hdisk ?_ ?_ ?_ ?_ ?_
  · intro status hrefusal
    refine ⟨hready, ?_, fun _ => rfl⟩
    cases hrefusal with
    | notReady h => exact absurd (mayPersist_of_open hshows hready hclosed) h
    | invalid h =>
      rcases hdecode : decodePost bytes with error | post
      · simp [inboundAnswer, hclosed, hdecode]
      · exact absurd (postBytes_of_decodePost hdecode).symm (h post)
    | duplicate hbytes h =>
      subst hbytes
      rw [inboundAnswer_eq hshows hclosed, h]
    | conflict hbytes h =>
      subst hbytes
      rw [inboundAnswer_eq hshows hclosed, h]
    | exhausted hbytes h hlast =>
      subst hbytes
      rw [inboundAnswer_eq hshows hclosed, h]
      exact (if_pos hlast).symm
  · intro post v' rest hbytes hcommit _
    refine ⟨hready, ?_, fun h => absurd rfl h⟩
    subst hbytes
    cases hcommit with
    | received hinserts =>
    obtain ⟨-, -, hlast⟩ := hinserts.orders
    rw [inboundAnswer_eq hshows hclosed, hinserts.new]
    exact (if_neg hlast).symm
  · intro post ids hbytes hnew hlast hbad hids
    exact absurd hbad (rememberable hbehind hnew hlast hids)
  · exact fun post v' disk rest _ _ hne _ => absurd hfaults hne
  · exact fun post v' disk _ _ hne _ => absurd hfaults hne

/-- A post under an id that the ledger does not know is composed, unless it is
refused before anything is saved or the settings cannot be saved any more. -/
theorem wp_compose_ready (hfaults : m.faults = []) (draft : PostDraft)
    (random : Option (Vector UInt8 16)) (now : Option Int64)
    (hunknown : ∀ messageId, MessageId.generate random = .ok messageId →
      messageId ∉ v.ledger.records.map SeenMessageRecord.messageId) :
    wp (Session.compose draft random now) (fun result m' => m'.memory.status = .ready ∧
      (m.memory.messenger.stage (identityFrom v.settings) draft random now = .error result ∨
        result.error = .none ∨ (result.error = .persistenceUnavailable ∧
          (m.memory.closed = true ∨ v.settings.generation = kMaximumGeneration))))
      (fun _ => False) m := by
  have hnew : ∀ post : PostPayload, MessageId.generate random = .ok post.messageId →
      v.ledger.classify post.messageId (postBytes post) = .new :=
    fun post hgenerate => MessageDedupeWindow.classify_eq_new.mpr (hunknown _ hgenerate)
  refine wp_compose hshows hdisk ?_ ?_ ?_ ?_ ?_ ?_ ?_
  · intro result hstage
    refine ⟨hready, .inl ?_⟩
    rw [← hstage, ← hshows.identity, ← hshows.timeline]
  · rintro rest (hnot | hne)
    · refine ⟨hready, .inr (.inr ⟨rfl, ?_⟩)⟩
      by_cases hclosed : m.memory.closed
      · exact .inl hclosed
      · obtain hopen := hshows.stores.resolve_left hclosed
        right
        by_contra hgeneration
        simp [Session.mayAdopt, hready, hopen.2, hgeneration, hclosed] at hnot
    · exact absurd hfaults hne
  · rintro post v₁ rest hgenerate - (hnot | hduplicate)
    · refine ⟨hready, .inr (.inr ⟨rfl, .inl ?_⟩)⟩
      by_contra hclosed
      exact hnot (mayPersist_of_open hshows hready (by simpa using hclosed))
    · rw [hnew post hgenerate] at hduplicate
      cases hduplicate
  · intro post ids v₁ rest hgenerate hcommit hlast hbad hids
    have hbehind₁ : v₁.disk.LedgerBehind := DiskStep.ledgerBehind (.commit hcommit) hbehind
    cases hcommit with
    | sequence _ _ htimeline hledger =>
    rw [← htimeline] at hlast
    have hnew := hnew post hgenerate
    rw [← hledger] at hnew
    exact absurd hbad (rememberable hbehind₁ hnew hlast hids)
  · exact fun post session disk rest _ hne _ => absurd hfaults hne
  · exact fun post evicted v₁ v₂ rest _ _ _ _ => ⟨hready, .inr (.inl rfl)⟩
  · exact fun post disk _ hne _ => absurd hfaults hne

end InService

theorem World.run_ledgerBehind {w : World} (hagrees : w.Agrees) (hdisk : w.disk.LedgerBehind)
    (events : List WorldEvent) : (w.run events).disk.LedgerBehind := by
  induction events using List.reverseRecOn with
  | nil => exact hdisk
  | append_singleton events event ih =>
    rw [run_concat]
    exact (step_reaches (run_agrees hagrees events) event).ledgerBehind ih

/-- Whatever comes in by radio, a session in service stays in service while no
access of the disk fails.  It answers a received post by its ledger; it takes
every outcome of a queued post; and it composes every post under a new id that
is not refused before the first save. -/
theorem radio_input_never_forces_recovery (disk : Disk) (hdisk : disk.LedgerBehind)
    (events : List WorldEvent) (session : Session)
    (hprocess : (World.run { disk := disk } events).process = some session)
    (hready : session.status = .ready) :
    (∀ bytes, ∃ m, Session.acceptReceivedPost bytes
        ⟨session, (World.run { disk := disk } events).disk, []⟩ =
          .done (inboundAnswer session bytes) m ∧ m.memory.status = .ready ∧
        (inboundAnswer session bytes ≠ .accepted →
          m = ⟨session, (World.run { disk := disk } events).disk, []⟩)) ∧
    (∀ entry ∈ session.messenger.timeline.entries, entry.isQueued →
      ∀ command ∈ [Session.markBroadcast entry.messageId, Session.markFailed entry.messageId],
        ∃ result m, command ⟨session, (World.run { disk := disk } events).disk, []⟩ =
            .done result m ∧ m.memory.status = .ready ∧
          result.error = if session.closed then .persistenceUnavailable else .none) ∧
    (∀ draft random now, (∀ messageId, MessageId.generate random = .ok messageId →
        messageId ∉ session.dedupe.records.map SeenMessageRecord.messageId) →
      ∃ identity settings result m, session.messenger.identity = some identity ∧
        session.settings = some settings ∧
        Session.compose draft random now
          ⟨session, (World.run { disk := disk } events).disk, []⟩ = .done result m ∧
        m.memory.status = .ready ∧
        (session.messenger.stage identity draft random now = .error result ∨
          result.error = .none ∨ (result.error = .persistenceUnavailable ∧
            (session.closed = true ∨ settings.generation = kMaximumGeneration)))) ∧
    (session.messenger.timeline.lastAssignedOrder = kMaximumOrder → ∀ draft random now,
      ∃ result, Session.compose draft random now
          ⟨session, (World.run { disk := disk } events).disk, []⟩ =
            .done result ⟨session, (World.run { disk := disk } events).disk, []⟩ ∧
        result.error ∈ [.invalidBody, .tooManyMentions, .duplicateMention, .replyParentUnavailable,
          .queueFull, .sequenceExhausted, .orderExhausted]) := by
  have hagrees := World.run_agrees (World.agrees_off disk) events
  have hbehind := World.run_ledgerBehind (World.agrees_off disk) hdisk events
  generalize World.run { disk := disk } events = w at *
  obtain ⟨v, hshows, hv⟩ := hagrees session hprocess hready
  rw [hv] at hbehind ⊢
  refine ⟨?_, ?_, ?_, ?_⟩
  · intro bytes
    obtain ⟨status, m, hrun, hstatus, rfl, hsame⟩ := wp_false
      (wp_acceptReceivedPost_ready (m := ⟨session, v.disk, []⟩) hshows rfl hready hbehind rfl bytes)
    exact ⟨m, hrun, hstatus, hsame⟩
  · intro entry hentry hqueued command hcommand
    rw [hshows.timeline] at hentry
    have htarget : ∃ target, target ≠ .queued ∧
        command = Session.transition entry.messageId target := by
      simp only [List.mem_cons, List.not_mem_nil, or_false] at hcommand
      rcases hcommand with rfl | rfl
      · exact ⟨.broadcast, by simp, rfl⟩
      · exact ⟨.failed, by simp, rfl⟩
    obtain ⟨target, htarget, rfl⟩ := htarget
    exact wp_false (wp_transition_ready (m := ⟨session, v.disk, []⟩) hshows rfl hready rfl hentry
      hqueued htarget)
  · intro draft random now hunknown
    rw [hshows.dedupe] at hunknown
    obtain ⟨result, m, hrun, hstatus, hcases⟩ := wp_false
      (wp_compose_ready (m := ⟨session, v.disk, []⟩) hshows rfl hready hbehind rfl draft random now
        hunknown)
    exact ⟨_, _, result, m, hshows.identity, hshows.settings, hrun, hstatus, hcases⟩
  · intro hlast draft random now
    obtain ⟨result, hstage, hresult⟩ :=
      stage_exhausted hlast (identityFrom v.settings) draft random now
    refine ⟨result, ?_, hresult⟩
    simp only [Session.compose, bind, Prog.memory, hshows.identity, hstage]
    rfl

theorem radio_input_never_forces_recovery_sampleEvents :
    ∃ session, (World.run { disk := ⟨.missing, .missing⟩ } sampleEvents).process = some session ∧
      session.status = .ready ∧ ∀ bytes, ∃ m, Session.acceptReceivedPost bytes
        ⟨session, (World.run { disk := ⟨.missing, .missing⟩ } sampleEvents).disk, []⟩ =
          .done (inboundAnswer session bytes) m ∧ m.memory.status = .ready := by
  have hready : (World.run { disk := ⟨.missing, .missing⟩ } sampleEvents).process.map
      Session.status = some .ready := by decide +kernel
  obtain ⟨session, hprocess, hstatus⟩ := Option.map_eq_some_iff.mp hready
  have hinput := (radio_input_never_forces_recovery ⟨.missing, .missing⟩
    (by simp [Disk.LedgerBehind]) sampleEvents session hprocess hstatus).1
  refine ⟨session, hprocess, hstatus, fun bytes => ?_⟩
  obtain ⟨m, hrun, hm, -⟩ := hinput bytes
  exact ⟨m, hrun, hm⟩

end Lora
