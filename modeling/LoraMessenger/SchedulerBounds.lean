/-
The tables of a message in the queue.

A message draws its jitter from one table, whatever becomes of its datagrams.
All draws but the first follow an offer to the transport, and no datagram is
offered more than twice in the two passes together, so the table is never left.

* `PendingMessage.Bounded` — the invariant, kept by `Bounded.step`;
* `Tracked.run_bounded` — it holds of all messages in the queue, in any run;
* `scheduler_bounds` — the indices, the offers and the deadlines in any run.
-/
import LoraMessenger.SchedulerTrace

namespace Lora

namespace PendingMessage

variable {message : PendingMessage}

/-- No datagram has been offered more than twice, those ahead in the primary
pass not at all, and each draw of jitter was for an offer. -/
structure Bounded (message : PendingMessage) : Prop where
  jitter : message.jitter.length = 2 * message.frames.length + 2
  counts : message.offerCounts.length = message.frames.length
  index : message.fragmentIndex < message.frames.length
  twice : ∀ count ∈ message.offerCounts, count ≤ 2
  once : message.repeatPass = false → message.offers ≤ 1
  ahead : message.repeatPass = false → ∀ index > message.fragmentIndex,
    message.offerCounts.getD index 0 = 0
  draws : message.jitterIndex ≤ 1 + message.offerCounts.sum

theorem sum_le_two_mul {counts : List ℕ} (h : ∀ count ∈ counts, count ≤ 2) :
    counts.sum ≤ 2 * counts.length := by
  induction counts with
  | nil => exact Nat.le_refl 0
  | cons count counts ih =>
    have hfirst := h count (by simp)
    have hrest := ih fun other hother => h other (by simp [hother])
    rw [List.sum_cons, List.length_cons]
    omega

theorem sum_set_succ {counts : List ℕ} {index : ℕ} (h : index < counts.length) :
    (counts.set index (counts.getD index 0 + 1)).sum = counts.sum + 1 := by
  induction counts generalizing index with
  | nil => simp at h
  | cons count counts ih =>
    cases index with
    | zero =>
      simp
      omega
    | succ index =>
      have hrest := ih (Nat.lt_of_succ_lt_succ h)
      simp only [List.set_cons_succ, List.getD_cons_succ, List.sum_cons] at hrest ⊢
      omega

theorem Bounded.jitterIndex_lt (h : message.Bounded) :
    message.jitterIndex < 2 * message.frames.length + 2 := by
  have hsum := sum_le_two_mul h.twice
  have hdraws := h.draws
  rw [h.counts] at hsum
  omega

/-! ### One call -/

section Step

variable (h : message.Bounded)

include h

theorem Bounded.offers_le_one (hoffers : ¬(message.repeatPass = true ∧ message.offers ≥ 2)) :
    message.offers ≤ 1 := by
  rcases hrepeat : message.repeatPass with _ | _
  · exact h.once hrepeat
  · simp only [hrepeat, true_and] at hoffers
    omega

theorem Bounded.length_countOffer :
    message.countOffer.offerCounts.length = message.frames.length := by
  rw [← h.counts]
  exact List.length_set

theorem Bounded.sum_countOffer : message.countOffer.offerCounts.sum = message.offerCounts.sum + 1 :=
  sum_set_succ (h.counts.symm ▸ h.index)

theorem Bounded.twice_countOffer (hoffers : message.offers ≤ 1) :
    ∀ count ∈ message.countOffer.offerCounts, count ≤ 2 := by
  intro count hcount
  rcases List.mem_or_eq_of_mem_set hcount with hold | rfl
  · exact h.twice count hold
  · omega

/-- The next fragment of a message that is being repeated. -/
theorem Bounded.skipped {next : PendingMessage} {now : ℕ} (hrepeat : message.repeatPass = true)
    (hnext : message.skipped now = some next) : next.Bounded := by
  have hindex := h.index
  rw [PendingMessage.skipped] at hnext
  split at hnext
  · cases hnext
  · obtain rfl := Option.some.inj hnext
    exact { h with
      index := by
        show message.fragmentIndex + 1 < message.frames.length
        omega
      once := fun hprimary => by simp [hrepeat] at hprimary
      ahead := fun hprimary => by simp [hrepeat] at hprimary }

/-- An offer of a message that is being repeated. -/
theorem Bounded.countOffer (hrepeat : message.repeatPass = true) (hoffers : message.offers ≤ 1) :
    message.countOffer.Bounded where
  jitter := h.jitter
  counts := h.length_countOffer
  index := h.index
  twice := h.twice_countOffer hoffers
  once := fun hprimary => by simp [PendingMessage.countOffer, hrepeat] at hprimary
  ahead := fun hprimary => by simp [PendingMessage.countOffer, hrepeat] at hprimary
  draws := by
    rw [h.sum_countOffer]
    exact Nat.le_succ_of_le h.draws

theorem Bounded.draws_countOffer :
    message.jitterIndex + 1 ≤ 1 + message.countOffer.offerCounts.sum := by
  have hdraws := h.draws
  rw [h.sum_countOffer]
  omega

theorem Bounded.step {now : ℕ} {next : PendingMessage} {ending : Option OutboundTerminalState}
    {offers : List Offer} (hstep : MessageStep now message (some next) ending offers) :
    next.Bounded := by
  -- The fragments ahead are still untouched.
  have hahead : message.repeatPass = false → ∀ index > message.fragmentIndex,
      message.countOffer.offerCounts.getD index 0 = 0 := by
    intro hprimary index hindex
    have hnone := h.ahead hprimary index hindex
    rw [List.getD_eq_getElem?_getD] at hnone ⊢
    rwa [PendingMessage.countOffer, List.getElem?_set_ne (by omega)]
  generalize hsome : some next = outcome at hstep
  cases hstep with
  | wait due =>
    obtain rfl := Option.some.inj hsome
    exact { h with }
  | giveUp => cases hsome
  | skip hrepeat => exact h.skipped hrepeat hsome.symm
  | refused => cases hsome
  | retry status due htime hoffers hstatus hretry =>
    obtain rfl := Option.some.inj hsome
    exact {
      jitter := h.jitter
      counts := h.length_countOffer
      index := h.index
      twice := h.twice_countOffer (h.offers_le_one hoffers)
      once := fun _ => Nat.le_of_lt_succ hretry
      ahead := hahead
      draws := h.draws_countOffer }
  | fail => cases hsome
  | pass status htime hoffers hstatus hrepeat =>
    exact (h.countOffer hrepeat (h.offers_le_one hoffers)).skipped hrepeat hsome.symm
  | next due htime hoffers hindex =>
    obtain rfl := Option.some.inj hsome
    exact {
      jitter := h.jitter
      counts := h.length_countOffer
      index := hindex
      twice := h.twice_countOffer (h.offers_le_one hoffers)
      once := fun hprimary => by
        have hnone := hahead hprimary (message.fragmentIndex + 1) (by omega)
        exact Nat.le_trans (Nat.le_of_eq hnone) (Nat.zero_le 1)
      ahead := fun hprimary index hafter => hahead hprimary index (Nat.lt_of_succ_lt hafter)
      draws := h.draws_countOffer }
  | broadcast due htime hrepeat hindex =>
    obtain rfl := Option.some.inj hsome
    exact {
      jitter := h.jitter
      counts := h.length_countOffer
      index := Nat.lt_of_le_of_lt (Nat.zero_le _) h.index
      twice := h.twice_countOffer (h.once hrepeat)
      once := fun hprimary => by cases hprimary
      ahead := fun hprimary => by cases hprimary
      draws := h.draws_countOffer }
  | finish => cases hsome

end Step

theorem new_bounded {post : PostPayload} {mtu now : ℕ} {frames : List Bytes} {jitter : List UInt8}
    (hjitter : jitter.length = 2 * frames.length + 2) (hframes : frames ≠ []) :
    (new post mtu now frames jitter).Bounded where
  jitter := hjitter
  counts := List.length_replicate
  index := List.length_pos_of_ne_nil hframes
  twice := by
    intro count hcount
    rw [List.eq_of_mem_replicate hcount]
    exact Nat.zero_le 2
  once _ := by simp [offers, new]
  ahead _ index _ := by simp [new]
  draws := Nat.le_add_right 1 _

end PendingMessage

/-! ### Runs -/

section Pump

variable {ε : Type} {scheduler : Scheduler} {message : PendingMessage} {rest : List PendingMessage}
  {now : ℕ}

theorem MessageStep.length_offers_le {next : Option PendingMessage}
    {ending : Option OutboundTerminalState} {offers : List Offer}
    (h : MessageStep now message next ending offers) : offers.length ≤ 1 := by
  cases h with
  | wait | giveUp | skip => exact Nat.zero_le 1
  | refused | retry | fail | pass | next | broadcast | finish => exact Nat.le_refl 1

theorem Scheduler.pump_expired (radio : Radio ε) (state : ε)
    (h : scheduler.pending = message :: rest)
    (hdeadline : message.deadline ≤ now) :
    (pump radio now scheduler state).1.1.pending = rest ∧
      (pump radio now scheduler state).2 = state := by
  rw [pump, h]
  simp only [ge_iff_le, hdeadline, if_true]
  exact ⟨pending_giveUp h message, trivial⟩

theorem Scheduler.pump_early (radio : Radio ε) (state : ε) (h : scheduler.pending = message :: rest)
    (hdeadline : now < message.deadline) (hdue : now < message.due) :
    pump radio now scheduler state = ((scheduler, none), state) := by
  rw [pump, h]
  simp only [ge_iff_le, Nat.not_le.mpr hdeadline, if_false, hdue, if_true]

end Pump

namespace Tracked

variable {ε : Type} {t : Tracked}

/-- All messages in the queue keep to their tables. -/
def Bounded (t : Tracked) : Prop := ∀ message ∈ t.scheduler.pending, message.Bounded

theorem enqueue_bounded (radio : Radio ε) (post : PostPayload) (mtu now : ℕ) (state : ε)
    (h : t.Bounded) : (t.enqueue radio post mtu now state).Bounded := by
  unfold Bounded
  simp only [enqueue]
  rcases Scheduler.enqueue_step radio post mtu now t.scheduler state with
    ⟨hok, -, hmtu, frames, jitter, hframes, hjitter, hpending⟩ | ⟨herror, hsame⟩
  swap
  · rw [if_neg herror, hsame]
    exact h
  rw [if_pos hok, hpending]
  intro message hmessage
  rcases List.mem_append.mp hmessage with hold | hnew
  · exact h message hold
  · obtain rfl := List.mem_singleton.mp hnew
    refine PendingMessage.new_bounded hjitter ?_
    rw [fragmentPost_eq hmtu, Except.ok.injEq] at hframes
    obtain ⟨hpos, -⟩ := postFragmentCount_bounds post hmtu
    rw [← List.length_pos_iff, ← hframes, List.length_map, postFrames, List.length_map,
      List.length_range]
    exact hpos

theorem pump_bounded (radio : Radio ε) (now : ℕ) (state : ε) (h : t.Bounded) :
    (t.pump radio now state).Bounded := by
  rcases hpending : t.scheduler.pending with _ | ⟨message, rest⟩
  · rw [pump_nil radio now state hpending]
    exact h
  obtain ⟨next, ending, offers, hstep, -, hnext, -⟩ :=
    Scheduler.pump_step radio now state [] hpending
  intro other hother
  have hmem : other ∈ next.toList ++ rest := hnext ▸ hother
  rcases List.mem_append.mp hmem with hfront | hrest
  · rw [Option.mem_toList.mp hfront] at hstep
    exact (h message (by simp [hpending])).step hstep
  · exact h other (by simp [hpending, hrest])

theorem run_bounded (radio : Radio ε) (calls : List (SchedulerCall ε)) :
    (run radio calls).Bounded := by
  induction calls using List.reverseRecOn with
  | nil =>
    intro message hmessage
    simp [run] at hmessage
  | append_singleton calls c ih =>
    rw [run, List.foldl_append]
    cases c with
    | enqueue post mtu now state => exact enqueue_bounded radio post mtu now state ih
    | pump now state => exact pump_bounded radio now state ih
    | cancelAll =>
      intro message hmessage
      cases hmessage

end Tracked

/-- Over any sequence of calls, with any answers of the transport and the policy
and any jitter: the indices stay within their tables, a pump makes at most one
offer, from the due tick on and before the deadline, and at the deadline the
message at the front is gone. -/
theorem scheduler_bounds {ε : Type} (radio : Radio ε) (calls : List (SchedulerCall ε)) :
    (∀ message ∈ (Tracked.run radio calls).scheduler.pending,
      message.fragmentIndex < message.frames.length ∧
      message.jitter.length = 2 * message.frames.length + 2 ∧
      message.jitterIndex < 2 * message.frames.length + 2) ∧
    ∀ now state,
      (Scheduler.pump radio.recording now (Tracked.run radio calls).scheduler
        (state, [])).2.2.length ≤ 1 ∧
      ∀ message rest, (Tracked.run radio calls).scheduler.pending = message :: rest →
        ((Scheduler.pump radio.recording now (Tracked.run radio calls).scheduler
          (state, [])).2.2 ≠ [] →
          message.due ≤ now ∧ now < message.deadline) ∧
        (message.deadline ≤ now →
          (Scheduler.pump radio.recording now (Tracked.run radio calls).scheduler
            (state, [])).1.1.pending = rest) := by
  have hbounded := Tracked.run_bounded radio calls
  refine ⟨fun message hmessage =>
    ⟨(hbounded message hmessage).index, (hbounded message hmessage).jitter,
    (hbounded message hmessage).jitterIndex_lt⟩, fun now state => ?_⟩
  generalize (Tracked.run radio calls).scheduler = scheduler
  refine ⟨?_, fun message rest hpending => ⟨?_, fun hdeadline => ?_⟩⟩
  · rcases hpending : scheduler.pending with _ | ⟨message, rest⟩
    · rw [Scheduler.pump, hpending]
      exact Nat.zero_le 1
    · obtain ⟨next, ending, offers, hstep, hoffers, -⟩ :=
        Scheduler.pump_step radio now state [] hpending
      rw [hoffers]
      exact hstep.length_offers_le
  · intro hoffers
    by_cases hdeadline : now < message.deadline
    · refine ⟨Nat.le_of_not_lt fun hdue => hoffers ?_, hdeadline⟩
      rw [Scheduler.pump_early _ _ hpending hdeadline hdue]
    · rw [(Scheduler.pump_expired radio.recording (state, []) hpending
        (Nat.le_of_not_lt hdeadline)).2]
        at hoffers
      exact absurd rfl hoffers
  · exact (Scheduler.pump_expired radio.recording (state, []) hpending hdeadline).1

end Lora
