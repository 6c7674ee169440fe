/-
How long a policy defers a transmission.

A deferral names the tick at which to ask again.  The wait is computed from the
tokens of the moment and the refill from an older mark, so that by then the bucket
has gained at least what was missing.  The gap is looked at before the bucket, so
a caller may have to wait twice, first for the gap and then for the bucket.

* `BucketRules.Waits` — what the rules of a policy have to guarantee;
* `Rested`, `run_standing` — when the bucket is looked at, a tick has passed since
  the last transmission;
* `settlesIn_two` — asking again at the tick named, a caller is deferred at most twice.
-/
import LoraMessenger.RadioPolicy

namespace Lora

open TokenBucket (Spending)

namespace BucketRules

variable {rules : BucketRules} {policy : BucketPolicy} {now datagramSize quick : ℕ}

/-- The bucket gains `quick` in a single tick, and it gains what was missing in the
time that `wait` gives, as long as there was no less than `quick` in it. -/
structure Waits (rules : BucketRules) (quick : ℕ) : Prop where
  gap : 0 < rules.minimumGap
  capacity : quick ≤ rules.capacity
  refilled_zero : ∀ tokens, rules.refilled tokens 0 = none
  earns : ∀ tokens elapsed, 0 < elapsed → elapsed ≤ kMaximumRadioTick →
    quick ≤ (rules.refilled tokens elapsed).getD tokens
  waits : ∀ datagramSize tokens, ¬(datagramSize = 0 ∨ datagramSize > kMaximumDatagramBytes) →
    rules.supports (rules.cost datagramSize) → quick ≤ tokens → tokens < rules.cost datagramSize →
    0 < rules.wait (rules.cost datagramSize - tokens) ∧
      ∀ elapsed ≤ kMaximumRadioTick, rules.wait (rules.cost datagramSize - tokens) ≤ elapsed →
        rules.cost datagramSize ≤ (rules.refilled tokens elapsed).getD tokens

/-- A question that the policy does not call invalid. -/
structure Serves (rules : BucketRules) (now datagramSize : ℕ) (policy : BucketPolicy) : Prop where
  valid : policy.valid
  size : ¬(datagramSize = 0 ∨ datagramSize > kMaximumDatagramBytes)
  clock : policy.clockStarted → policy.lastRefillTick ≤ now
  supported : rules.supports (rules.cost datagramSize)

/-- The tick that a caller is told to wait for does not leave the range of ticks. -/
def Unsaturated (rules : BucketRules) (now datagramSize : ℕ) (policy : BucketPolicy) : Prop :=
  (rules.refill now policy).nextTransmitTick ≤ now →
    (rules.refill now policy).tokens < rules.cost datagramSize →
    now + rules.wait (rules.cost datagramSize - (rules.refill now policy).tokens) ≤
      kMaximumRadioTick

/-- The tick and the policy of a caller that asks again whenever it is told to. -/
def asking (rules : BucketRules) (now datagramSize : ℕ) (policy : BucketPolicy) : ℕ →
    ℕ × BucketPolicy
  | 0 => (now, policy)
  | n + 1 =>
    let asked := rules.asking now datagramSize policy n
    let answered := rules.evaluateTransmit asked.1 datagramSize asked.2
    (answered.1.notBeforeTick, answered.2)

/-- The answers to this caller. -/
def answer (rules : BucketRules) (now datagramSize : ℕ) (policy : BucketPolicy) (n : ℕ) :
    RadioTransmitDecision :=
  let asked := rules.asking now datagramSize policy n
  (rules.evaluateTransmit asked.1 datagramSize asked.2).1

/-- The caller is told to wait for a later tick, at most `bound` times, and then allowed. -/
def SettlesIn (rules : BucketRules) (bound now datagramSize : ℕ) (policy : BucketPolicy) : Prop :=
  ∃ n ≤ bound, (rules.answer now datagramSize policy n).status = .allowed ∧
    ∀ m < n, (rules.answer now datagramSize policy m).status = .deferred ∧
      (rules.asking now datagramSize policy m).1 <
        (rules.answer now datagramSize policy m).notBeforeTick

/-- What holds of a question that the policy does not call invalid.  The
calculation of a wait from a deficit is to stay within its word. -/
structure Defers (rules : BucketRules) (fits : (deficit : ℕ) → Prop) (now datagramSize : ℕ)
    (policy : BucketPolicy) : Prop where
  later : rules.Unsaturated now datagramSize policy →
    (rules.evaluateTransmit now datagramSize policy).1.status = .deferred →
    now < (rules.evaluateTransmit now datagramSize policy).1.notBeforeTick
  settles : (∀ n < 2, rules.Unsaturated (rules.asking now datagramSize policy n).1 datagramSize
      (rules.asking now datagramSize policy n).2) →
    rules.SettlesIn 2 now datagramSize policy
  noWrap : (rules.refill now policy).nextTransmitTick ≤ now →
    (rules.refill now policy).tokens < rules.cost datagramSize →
    fits (rules.cost datagramSize - (rules.refill now policy).tokens)

/-! ### One question -/

/-- What the answer to such a question says. -/
theorem evaluateTransmit_of_serves (h : rules.Serves now datagramSize policy) :
    rules.evaluateTransmit now datagramSize policy =
      (if now < (rules.refill now policy).nextTransmitTick then
        ⟨.deferred, (rules.refill now policy).nextTransmitTick⟩
      else if (rules.refill now policy).tokens < rules.cost datagramSize then
        ⟨.deferred,
          saturatingAdd now (rules.wait
            (rules.cost datagramSize - (rules.refill now policy).tokens))⟩
      else ⟨.allowed, now⟩, rules.refill now policy) := by
  have hsize := h.size
  have hclock := h.clock
  rw [evaluateTransmit, if_neg (by simpa [h.valid] using hsize), if_neg (by simpa using hclock)]
  dsimp only
  rw [if_neg (by simp [h.supported])]
  split
  · rfl
  split
  · rfl
  · rfl

theorem serves_of_evaluateTransmit (hclock : policy.clockStarted → policy.lastRefillTick ≤ now)
    (h : (rules.evaluateTransmit now datagramSize policy).1.status ≠ .invalid) :
    rules.Serves now datagramSize policy := by
  unfold evaluateTransmit at h
  split at h
  · simp at h
  rename_i hsize
  simp only [Bool.or_eq_true, Bool.not_eq_true', decide_eq_true_eq, not_or,
    Bool.not_eq_false] at hsize
  rw [if_neg (by simpa using hclock)] at h
  dsimp only at h
  split at h
  · simp at h
  rename_i hsupports
  exact ⟨hsize.1.1, not_or.mpr ⟨hsize.1.2, hsize.2⟩, hclock, by simpa using hsupports⟩

theorem nextTransmitTick_refill : (rules.refill now policy).nextTransmitTick =
    policy.nextTransmitTick := by
  unfold refill
  split
  · rfl
  · split <;> rfl

/-- The same caller may ask again later. -/
theorem Serves.later {later : ℕ} (h : rules.Serves now datagramSize policy) (hlater : now ≤ later) :
    rules.Serves later datagramSize (rules.refill now policy) where
  valid := by rw [refill_valid, h.valid]
  size := h.size
  clock _ := le_trans (lastRefillTick_refill h.clock).2 hlater
  supported := h.supported

/-- Between two transmissions the mark stays behind the gap or the bucket gains. -/
def Rested (quick : ℕ) (policy : BucketPolicy) : Prop :=
  quick ≤ policy.tokens ∨ policy.clockStarted ∧ policy.lastRefillTick < policy.nextTransmitTick

/-- The tokens after a refill, once the clock has started. -/
theorem tokens_refill (rules : BucketRules) (hstarted : policy.clockStarted)
    (hclock : policy.lastRefillTick ≤ now)
    (hnow : now ≤ kMaximumRadioTick) : (rules.refill now policy).tokens =
      (rules.refilled policy.tokens (now - policy.lastRefillTick)).getD policy.tokens := by
  rw [refill, if_neg (by simp [hstarted]), wrappingSub_eq hclock hnow]
  split
  · rename_i hnone
    rw [hnone]
    rfl
  · rename_i tokens hsome
    rw [hsome]
    rfl

/-- When the bucket is looked at, there is at least `quick` in it. -/
theorem Rested.refill (hwaits : rules.Waits quick) (h : Rested quick policy)
    (hclock : policy.clockStarted → policy.lastRefillTick ≤ now) (hnow : now ≤ kMaximumRadioTick) :
    Rested quick (rules.refill now policy) ∧
      (policy.nextTransmitTick ≤ now → quick ≤ (rules.refill now policy).tokens) := by
  by_cases hstarted : policy.clockStarted
  swap
  · have htokens : quick ≤ (rules.refill now policy).tokens := by
      rw [BucketRules.refill, if_pos (by simp [hstarted])]
      exact h.resolve_right fun hlate => hstarted hlate.1
    exact ⟨.inl htokens, fun _ => htokens⟩
  have htokens := tokens_refill rules hstarted (hclock hstarted) hnow
  by_cases hpassed : policy.lastRefillTick < now
  · have hearns : quick ≤ (rules.refill now policy).tokens := by
      rw [htokens]
      exact hwaits.earns _ _ (by omega) (by omega)
    exact ⟨.inl hearns, fun _ => hearns⟩
  · -- No time has passed, and the refill does nothing.
    obtain rfl : policy.lastRefillTick = now := le_antisymm (hclock hstarted) (not_lt.mp hpassed)
    have hsame : rules.refill policy.lastRefillTick policy = policy := by
      rw [BucketRules.refill, if_neg (by simp [hstarted]), wrappingSub_self, hwaits.refilled_zero]
    rw [hsame]
    exact ⟨h, fun hnext => h.resolve_right fun hlate => by omega⟩

/-! ### Asking again -/

section Asking

variable (hwaits : rules.Waits quick) (h : rules.Serves now datagramSize policy)
  (hrested : Rested quick policy) (hnow : now ≤ kMaximumRadioTick)

include hwaits h hrested hnow

/-- After the wait for the bucket the transmission is allowed. -/
theorem allowed_after_wait {later : ℕ} (hnext : policy.nextTransmitTick ≤ now)
    (htokens : (rules.refill now policy).tokens < rules.cost datagramSize)
    (hlater : later = now + rules.wait (rules.cost datagramSize - (rules.refill now policy).tokens))
    (hmaximum : later ≤ kMaximumRadioTick) :
    now < later ∧
      (rules.evaluateTransmit later datagramSize (rules.refill now policy)).1.status =
        .allowed := by
  have hquick := (hrested.refill hwaits h.clock hnow).2 hnext
  obtain ⟨hpos, hgain⟩ := hwaits.waits datagramSize _ h.size h.supported hquick htokens
  obtain ⟨hstarted, hmark⟩ : (rules.refill now policy).clockStarted ∧
      (rules.refill now policy).lastRefillTick ≤ now := lastRefillTick_refill h.clock
  have hserves : rules.Serves later datagramSize (rules.refill now policy) := h.later (by omega)
  have henough : rules.cost datagramSize ≤
      (rules.refill later (rules.refill now policy)).tokens := by
    rw [tokens_refill rules hstarted (by omega) hmaximum]
    exact hgain _ (by omega) (by omega)
  refine ⟨by omega, ?_⟩
  rw [evaluateTransmit_of_serves hserves, nextTransmitTick_refill, nextTransmitTick_refill,
    if_neg (by omega), if_neg (by omega)]

/-- A deferral by the bucket names the tick at which it is full enough. -/
theorem deferred_by_bucket (hnext : policy.nextTransmitTick ≤ now)
    (htokens : (rules.refill now policy).tokens < rules.cost datagramSize)
    (hunsaturated : rules.Unsaturated now datagramSize policy) :
    ∃ later, rules.evaluateTransmit now datagramSize policy =
        (⟨.deferred, later⟩, rules.refill now policy) ∧ now < later ∧
      (rules.evaluateTransmit later datagramSize (rules.refill now policy)).1.status =
        .allowed := by
  have hmaximum := hunsaturated (by rwa [nextTransmitTick_refill]) htokens
  refine ⟨_, ?_, allowed_after_wait hwaits h hrested hnow hnext htokens rfl hmaximum⟩
  rw [evaluateTransmit_of_serves h, nextTransmitTick_refill, if_neg (by omega), if_pos htokens]
  rw [saturatingAdd_eq (by omega), min_eq_right hmaximum]

end Asking

/-- The caller goes on from the first answer. -/
theorem asking_succ {later : ℕ} {status : RadioTransmitStatus} {next : BucketPolicy}
    (h : rules.evaluateTransmit now datagramSize policy = (⟨status, later⟩, next)) (n : ℕ) :
    rules.asking now datagramSize policy (n + 1) = rules.asking later datagramSize next n := by
  induction n with
  | zero =>
    show ((rules.evaluateTransmit now datagramSize policy).1.notBeforeTick,
      (rules.evaluateTransmit now datagramSize policy).2) = (later, next)
    rw [h]
  | succ n ih => rw [asking, ih, asking]

theorem answer_succ {later : ℕ} {status : RadioTransmitStatus} {next : BucketPolicy}
    (h : rules.evaluateTransmit now datagramSize policy = (⟨status, later⟩, next)) (n : ℕ) :
    rules.answer now datagramSize policy (n + 1) = rules.answer later datagramSize next n := by
  rw [answer, asking_succ h, answer]

theorem SettlesIn.succ {bound later : ℕ} {next : BucketPolicy}
    (h : rules.evaluateTransmit now datagramSize policy = (⟨.deferred, later⟩, next))
    (hlater : now < later) (hsettles : rules.SettlesIn bound later datagramSize next) :
    rules.SettlesIn (bound + 1) now datagramSize policy := by
  obtain ⟨n, hn, hallowed, hdeferred⟩ := hsettles
  refine ⟨n + 1, by omega, ?_, ?_⟩
  · rw [answer_succ h]
    exact hallowed
  intro m hm
  cases m with
  | zero =>
    show (rules.evaluateTransmit now datagramSize policy).1.status = _ ∧
      now < (rules.evaluateTransmit now datagramSize policy).1.notBeforeTick
    rw [h]
    exact ⟨rfl, hlater⟩
  | succ m =>
    rw [answer_succ h, asking_succ h]
    exact hdeferred m (by omega)

section Settles

variable (hwaits : rules.Waits quick) (h : rules.Serves now datagramSize policy)
  (hrested : Rested quick policy) (hnow : now ≤ kMaximumRadioTick)

include hwaits h hrested hnow

/-- After the gap only the bucket can defer. -/
theorem settlesIn_one (hnext : policy.nextTransmitTick ≤ now)
    (hunsaturated : rules.Unsaturated now datagramSize policy) :
    rules.SettlesIn 1 now datagramSize policy := by
  by_cases htokens : (rules.refill now policy).tokens < rules.cost datagramSize
  · obtain ⟨later, hevaluate, hlater, hallowed⟩ :=
      deferred_by_bucket hwaits h hrested hnow hnext htokens hunsaturated
    exact SettlesIn.succ hevaluate hlater ⟨0, le_refl 0, hallowed, by simp⟩
  · refine ⟨0, by omega, ?_, by simp⟩
    show (rules.evaluateTransmit now datagramSize policy).1.status = _
    rw [evaluateTransmit_of_serves h, nextTransmitTick_refill, if_neg (by omega), if_neg htokens]

/-- A caller that asks again at the tick it is told is deferred at most twice. -/
theorem settlesIn_two (hnext : policy.nextTransmitTick ≤ kMaximumRadioTick)
    (hunsaturated : ∀ n < 2, rules.Unsaturated (rules.asking now datagramSize policy n).1
      datagramSize
      (rules.asking now datagramSize policy n).2) :
    rules.SettlesIn 2 now datagramSize policy := by
  by_cases hgap : now < policy.nextTransmitTick
  · have hevaluate : rules.evaluateTransmit now datagramSize policy =
        (⟨.deferred, policy.nextTransmitTick⟩, rules.refill now policy) := by
      rw [evaluateTransmit_of_serves h, nextTransmitTick_refill, if_pos hgap]
    refine SettlesIn.succ hevaluate hgap (settlesIn_one hwaits (h.later hgap.le)
      (hrested.refill hwaits h.clock hnow).1 hnext nextTransmitTick_refill.le ?_)
    have hagain := hunsaturated 1 (by omega)
    rwa [asking_succ hevaluate] at hagain
  · obtain ⟨n, hn, hsettled⟩ :=
      settlesIn_one hwaits h hrested hnow (not_lt.mp hgap) (hunsaturated 0 (by omega))
    exact ⟨n, by omega, hsettled⟩

end Settles

/-! ### Runs -/

structure Standing (quick now : ℕ) (policy : BucketPolicy) : Prop where
  clock : policy.clockStarted → policy.lastRefillTick ≤ now
  next : policy.nextTransmitTick ≤ kMaximumRadioTick
  rested : Rested quick policy

theorem Standing.mono {later : ℕ} (h : Standing quick now policy) (hlater : now ≤ later) :
    Standing quick later policy :=
  { h with clock := fun hstarted => le_trans (h.clock hstarted) hlater }

theorem Standing.evaluateTransmit (hwaits : rules.Waits quick) (hnow : now ≤ kMaximumRadioTick)
    (h : Standing quick now policy) (datagramSize : ℕ) :
    Standing quick now (rules.evaluateTransmit now datagramSize policy).2 := by
  generalize hresult : rules.evaluateTransmit now datagramSize policy = result
  have hevaluates := hresult ▸ evaluateTransmit_evaluates rules now datagramSize policy
  cases hevaluates with
  | refused _ => exact h
  | locked _ => exact ⟨h.clock, h.next, h.rested⟩
  | refilled hclock _ =>
    refine ⟨fun _ => (lastRefillTick_refill hclock).2, ?_, (h.rested.refill hwaits hclock hnow).1⟩
    rw [nextTransmitTick_refill]
    exact h.next

theorem Standing.recordTransmit (hwaits : rules.Waits quick) (hnow : now ≤ kMaximumRadioTick)
    (h : Standing quick now policy) {datagramSize : ℕ}
    (hunsaturated : rules.deducts now datagramSize policy →
      now + rules.minimumGap ≤ kMaximumRadioTick) :
    Standing quick now (rules.recordTransmit now datagramSize policy) := by
  rw [recordTransmit_eq]
  split
  · rename_i hdeducts
    -- The mark is not ahead of this tick, and the gap is.
    have hmaximum := hunsaturated hdeducts
    have hgap := hwaits.gap
    have hsum : saturatingAdd now rules.minimumGap = now + rules.minimumGap := by
      rw [saturatingAdd_eq (by omega), min_eq_right hmaximum]
    have hallows := allows_of_deducts hdeducts
    obtain ⟨hstarted, hmark⟩ : (rules.refill now policy).clockStarted ∧
        (rules.refill now policy).lastRefillTick ≤ now := lastRefillTick_refill hallows.clock
    rw [evaluateTransmit_of_allows hallows]
    refine ⟨fun _ => hmark, ?_, .inr ⟨hstarted, ?_⟩⟩
    · show saturatingAdd now rules.minimumGap ≤ kMaximumRadioTick
      omega
    · show (rules.refill now policy).lastRefillTick < saturatingAdd now rules.minimumGap
      omega
  split
  · have hevaluated := h.evaluateTransmit hwaits hnow datagramSize
    exact ⟨hevaluated.clock, hevaluated.next, hevaluated.rested⟩
  · exact h

/-- Calls at ticks that do not go back, with no addition that leaves the range of ticks. -/
structure Ordered (rules : BucketRules) (start : BucketPolicy) (calls : List PolicyCall) (now : ℕ) :
    Prop where
  sorted : calls.Pairwise (·.tick ≤ ·.tick)
  before : ∀ call ∈ calls, call.tick ≤ now
  range : now ≤ kMaximumRadioTick
  unsaturated : ∀ spending ∈ (rules.run start calls).recorded,
    spending.time + rules.minimumGap ≤ kMaximumRadioTick

theorem run_standing {start : BucketPolicy} {calls : List PolicyCall} (hwaits : rules.Waits quick)
    (hfull : start.tokens = rules.capacity) (hnext : start.nextTransmitTick = 0)
    (hclock : start.clockStarted = false) (h : rules.Ordered start calls now) :
    Standing quick now (rules.run start calls).policy := by
  induction calls using List.reverseRecOn generalizing now with
  | nil =>
    refine ⟨fun hstarted => ?_, ?_, .inl ?_⟩
    · exact absurd hstarted (by simp [run, hclock])
    · show start.nextTransmitTick ≤ _
      omega
    · show quick ≤ start.tokens
      rw [hfull]
      exact hwaits.capacity
  | append_singleton calls call ih =>
    obtain ⟨hsorted, hbefore, hrange, hunsaturated⟩ := h
    rw [List.pairwise_append] at hsorted
    have htick : call.tick ≤ now := hbefore call (by simp)
    rw [run, List.foldl_concat] at hunsaturated ⊢
    have hstanding : Standing quick call.tick (rules.run start calls).policy := by
      refine ih ⟨hsorted.1, fun other hother => hsorted.2.2 other hother call (by simp),
        by omega, ?_⟩
      intro spending hspending
      refine hunsaturated spending ?_
      cases call with
      | evaluateTransmit => exact hspending
      | recordTransmit => exact List.mem_append_left _ hspending
    refine Standing.mono ?_ htick
    cases call with
    | evaluateTransmit tick datagramSize =>
      exact hstanding.evaluateTransmit hwaits (le_trans htick hrange) datagramSize
    | recordTransmit tick datagramSize =>
      refine hstanding.recordTransmit hwaits (le_trans htick hrange) fun hdeducts => ?_
      refine hunsaturated ⟨tick, rules.cost datagramSize⟩ (List.mem_append_right _ ?_)
      change rules.deducts tick datagramSize (List.foldl rules.perform _ calls).policy =
        true at hdeducts
      rw [if_pos hdeducts]
      exact List.mem_singleton_self _

theorem Standing.defers {fits : ℕ → Prop} (hwaits : rules.Waits quick)
    (hfits : ∀ tokens, quick ≤ tokens → tokens < rules.cost datagramSize →
      fits (rules.cost datagramSize - tokens))
    (hnow : now ≤ kMaximumRadioTick) (h : Standing quick now policy)
    (hserves : rules.Serves now datagramSize policy) :
    rules.Defers fits now datagramSize policy where
  later hunsaturated hdeferred := by
    by_cases hgap : now < policy.nextTransmitTick
    · rwa [evaluateTransmit_of_serves hserves, nextTransmitTick_refill, if_pos hgap]
    by_cases htokens : (rules.refill now policy).tokens < rules.cost datagramSize
    · obtain ⟨later, hevaluate, hlater, -⟩ := deferred_by_bucket hwaits hserves h.rested hnow
        (not_lt.mp hgap) htokens hunsaturated
      rwa [hevaluate]
    · rw [evaluateTransmit_of_serves hserves, nextTransmitTick_refill, if_neg hgap,
        if_neg htokens] at hdeferred
      cases hdeferred
  settles hunsaturated := settlesIn_two hwaits hserves h.rested hnow h.next hunsaturated
  noWrap hnext htokens := by
    rw [nextTransmitTick_refill] at hnext
    exact hfits _ ((h.rested.refill hwaits hserves.clock hnow).2 hnext) htokens

end BucketRules

/-! ### The two policies -/

/-- The fields of the configuration that a word of 64 bits does not hold. -/
structure Japan920PolicyConfig.Fits (config : Japan920PolicyConfig) : Prop where
  refillDenominator : config.refillDenominator < 2 ^ 32
  preambleSymbols : config.profile.preambleSymbols < 2 ^ 16

theorem Japan920Profile.codedGroups_le (profile : Japan920Profile) {datagramSize : ℕ}
    (hsize : datagramSize ≤ kMaximumDatagramBytes) (hfactor : profile.spreadingFactor ≤ 12) :
    profile.codedGroups datagramSize ≤ 2132 := by
  unfold codedGroups
  refine le_trans (Nat.div_le_self _ _) ?_
  have hmaximum : kMaximumDatagramBytes = 255 := rfl
  omega

/-- The airtime fits in 32 bits. -/
theorem Japan920Profile.estimatedAirtimeMs_lt (profile : Japan920Profile)
    (hpreamble : profile.preambleSymbols < 2 ^ 16) (datagramSize : ℕ) :
    profile.estimatedAirtimeMs datagramSize < 2 ^ 32 := by
  unfold estimatedAirtimeMs
  split
  · decide
  rename_i hvalid
  simp only [Bool.or_eq_true, Bool.not_eq_true', decide_eq_true_eq, not_or, Bool.not_eq_false]
    at hvalid
  obtain ⟨⟨hprofile, -⟩, hsize⟩ := hvalid
  unfold valid at hprofile
  split at hprofile
  · cases hprofile
  rename_i hfields
  simp only [not_or, not_lt, ne_eq, not_not] at hfields
  obtain ⟨hbandwidth, -, hfactor, -, hcoding, -⟩ := hfields
  have hgroups := profile.codedGroups_le (not_lt.mp hsize) hfactor
  have hsymbols : profile.codedGroups datagramSize * profile.codingRateDenominator ≤ 2132 * 8 :=
    Nat.mul_le_mul hgroups hcoding
  have hpow : 2 ^ profile.spreadingFactor ≤ 2 ^ 12 := Nat.pow_le_pow_right (by decide) hfactor
  dsimp only
  rw [hbandwidth]
  have hquarters : 4 * (profile.preambleSymbols +
      (8 + profile.codedGroups datagramSize * profile.codingRateDenominator)) + 17 ≤ 400000 := by
    omega
  have hproduct := Nat.mul_le_mul hquarters hpow
  omega

namespace Japan920RadioPolicy

variable {config : Japan920PolicyConfig} {airtimeMs : ℕ → ℕ}

/-- The product is that of two words of 32 bits. -/
theorem product_lt (hdenominator : config.refillDenominator < 2 ^ 32) {deficit : ℕ}
    (hdeficit : deficit < 2 ^ 32) : deficit * config.refillDenominator < 2 ^ 64 := by
  have hproduct : deficit * config.refillDenominator < 2 ^ 32 * 2 ^ 32 :=
    Nat.mul_lt_mul'' hdeficit hdenominator
  exact hproduct

theorem waits (hvalid : config.valid) (hdenominator : config.refillDenominator < 2 ^ 32)
    (hairtime : ∀ datagramSize, airtimeMs datagramSize < 2 ^ 32) :
    (rules config airtimeMs).Waits 0 := by
  have hrefines := refines airtimeMs hvalid
  simp only [Japan920PolicyConfig.valid, Bool.and_eq_true, decide_eq_true_eq] at hvalid
  obtain ⟨⟨⟨-, hgap⟩, -⟩, hpos⟩ := hvalid
  refine ⟨hgap, Nat.zero_le _, hrefines.refilled_zero, fun _ _ _ _ => Nat.zero_le _, ?_⟩
  intro datagramSize tokens _ hsupported _ htokens
  change tokens < airtimeMs datagramSize at htokens
  have hcapacity : airtimeMs datagramSize ≤ config.bucketCapacityMs := by
    simp only [rules, Bool.not_eq_true', Bool.or_eq_false_iff, decide_eq_false_iff_not, not_lt]
      at hsupported
    exact hsupported.2
  have hlimit := hairtime datagramSize
  have hmaximum := config.bucketCapacityMs_le
  have hwait : (rules config airtimeMs).wait (airtimeMs datagramSize - tokens) =
      (airtimeMs datagramSize - tokens) * config.refillDenominator :=
    Nat.mod_eq_of_lt (product_lt hdenominator (by omega))
  rw [show (rules config airtimeMs).cost datagramSize = airtimeMs datagramSize from rfl, hwait]
  refine ⟨Nat.mul_pos (by omega) hpos, fun elapsed helapsed hlong => ?_⟩
  have hadded : airtimeMs datagramSize - tokens ≤ elapsed / config.refillDenominator :=
    (Nat.le_div_iff_mul_le hpos).mpr hlong
  have hless := Nat.div_le_self elapsed config.refillDenominator
  simp only [rules]
  rw [if_pos (by omega), Option.getD_some, saturatingAdd_eq (by omega)]
  omega

end Japan920RadioPolicy

namespace LanBroadcastPolicy

variable {config : LanBroadcastPolicyConfig}

/-- The refill gains all that the time gives, up to the capacity. -/
theorem le_refilled (tokens : ℕ) {elapsed gain : ℕ} (hpassed : 0 < elapsed)
    (helapsed : elapsed ≤ kMaximumRadioTick)
    (hgain : gain ≤ elapsed * config.refillBytesPerMs) :
    min config.bucketCapacityBytes (tokens + gain) ≤
      ((rules config).refilled tokens elapsed).getD tokens := by
  have hmaximum := config.bucketCapacityBytes_le
  have hsame : kMaximumSize = kMaximumRadioTick := rfl
  simp only [rules, if_neg (show ¬elapsed > kMaximumSize by omega)]
  rw [if_neg (by omega), Option.getD_some]
  by_cases hproduct : elapsed > kMaximumSize / config.refillBytesPerMs
  · rw [if_pos hproduct]
    split
    · omega
    · omega
  · rw [if_neg hproduct]
    split
    · omega
    · omega

/-- With a small bucket gain there is room in the sum, and with a large one there is
no deficit to wait for. -/
theorem deficit_lt {tokens datagramSize : ℕ}
    (hcapacity : kMaximumDatagramBytes ≤ config.bucketCapacityBytes)
    (hsize : datagramSize ≤ kMaximumDatagramBytes)
    (hquick : min config.bucketCapacityBytes config.refillBytesPerMs ≤ tokens)
    (htokens : tokens < datagramSize) :
    datagramSize - tokens + config.refillBytesPerMs ≤ datagramSize := by
  omega

theorem waits (hvalid : config.valid) :
    (rules config).Waits (min config.bucketCapacityBytes config.refillBytesPerMs) := by
  have hrefines := refines hvalid
  simp only [LanBroadcastPolicyConfig.valid, Bool.and_eq_true, decide_eq_true_eq] at hvalid
  obtain ⟨⟨hgap, hcapacity⟩, hpos⟩ := hvalid
  refine ⟨hgap, min_le_left _ _, hrefines.refilled_zero, ?_, ?_⟩
  · intro tokens elapsed hpassed helapsed
    have hgain : config.refillBytesPerMs ≤ elapsed * config.refillBytesPerMs :=
      Nat.le_mul_of_pos_left _ hpassed
    have hrefilled := le_refilled tokens hpassed helapsed hgain
    omega
  · intro datagramSize tokens hsize _ hquick htokens
    change tokens < datagramSize at htokens
    rw [not_or, not_lt] at hsize
    have hmaximum : kMaximumDatagramBytes = 255 := rfl
    have hdeficit := deficit_lt hcapacity hsize.2 hquick htokens
    have hwait : (rules config).wait (datagramSize - tokens) =
        (datagramSize - tokens + config.refillBytesPerMs - 1) / config.refillBytesPerMs := by
      simp only [rules]
      rw [Nat.mod_eq_of_lt (by omega)]
    rw [show (rules config).cost datagramSize = datagramSize from rfl, hwait]
    refine ⟨Nat.div_pos (by omega) hpos, fun elapsed helapsed hlong => ?_⟩
    have hgain : datagramSize - tokens ≤ elapsed * config.refillBytesPerMs := by
      have hceil : datagramSize - tokens + config.refillBytesPerMs - 1 <
          (elapsed + 1) * config.refillBytesPerMs :=
        (Nat.div_lt_iff_lt_mul hpos).mp (Nat.lt_succ_of_le hlong)
      rw [Nat.add_mul, Nat.one_mul] at hceil
      omega
    have hpassed : 0 < elapsed := by
      rcases Nat.eq_zero_or_pos elapsed with rfl | hsome
      · omega
      · exact hsome
    have hrefilled := le_refilled tokens hpassed helapsed hgain
    omega

end LanBroadcastPolicy

/-- For every valid configuration, every state that calls at ticks which do not go back
lead to and every size that the policy does not call invalid: a deferral names a later
tick, a caller that asks again at that tick is deferred at most twice, and the wait is
computed without overflow. -/
theorem deferrals_sound_and_finite :
    (∀ (config : Japan920PolicyConfig) (airtimeMs : ℕ → ℕ) (calls : List BucketRules.PolicyCall)
      (now datagramSize : ℕ), config.valid → config.Fits →
      (∀ datagramSize, airtimeMs datagramSize < 2 ^ 32) →
      (Japan920RadioPolicy.rules config airtimeMs).Ordered
        (Japan920RadioPolicy.create config) calls now →
      ((Japan920RadioPolicy.rules config airtimeMs).evaluateTransmit now datagramSize
        ((Japan920RadioPolicy.rules config airtimeMs).run (Japan920RadioPolicy.create config)
          calls).policy).1.status ≠ .invalid →
      (Japan920RadioPolicy.rules config airtimeMs).Defers
        (fun deficit => deficit * config.refillDenominator < 2 ^ 64) now datagramSize
        ((Japan920RadioPolicy.rules config airtimeMs).run (Japan920RadioPolicy.create config)
          calls).policy) ∧
    (∀ (config : Japan920PolicyConfig) (datagramSize : ℕ), config.Fits →
      config.profile.estimatedAirtimeMs datagramSize < 2 ^ 32) ∧
    ∀ (config : LanBroadcastPolicyConfig) (calls : List BucketRules.PolicyCall)
      (now datagramSize : ℕ),
      config.valid →
      (LanBroadcastPolicy.rules config).Ordered (LanBroadcastPolicy.create config) calls now →
      ((LanBroadcastPolicy.rules config).evaluateTransmit now datagramSize
        ((LanBroadcastPolicy.rules config).run (LanBroadcastPolicy.create config)
          calls).policy).1.status ≠ .invalid →
      (LanBroadcastPolicy.rules config).Defers
        (fun deficit => deficit + config.refillBytesPerMs - 1 < 2 ^ 64) now datagramSize
        ((LanBroadcastPolicy.rules config).run (LanBroadcastPolicy.create config)
          calls).policy := by
  refine ⟨?_, fun config datagramSize hfits =>
    config.profile.estimatedAirtimeMs_lt hfits.preambleSymbols datagramSize, ?_⟩
  · intro config airtimeMs calls now datagramSize hvalid hfits hairtime hordered hstatus
    have hwaits := Japan920RadioPolicy.waits hvalid hfits.refillDenominator hairtime
    have hstanding := BucketRules.run_standing hwaits rfl rfl rfl hordered
    refine hstanding.defers hwaits (fun tokens _ _ => ?_) hordered.range
      (BucketRules.serves_of_evaluateTransmit hstanding.clock hstatus)
    have hlimit := hairtime datagramSize
    refine Japan920RadioPolicy.product_lt hfits.refillDenominator ?_
    show airtimeMs datagramSize - tokens < 2 ^ 32
    omega
  · intro config calls now datagramSize hvalid hordered hstatus
    have hwaits := LanBroadcastPolicy.waits hvalid
    have hstanding := BucketRules.run_standing hwaits rfl rfl rfl hordered
    have hserves := BucketRules.serves_of_evaluateTransmit hstanding.clock hstatus
    refine hstanding.defers hwaits (fun tokens hquick htokens => ?_) hordered.range hserves
    have hsize := hserves.size
    simp only [LanBroadcastPolicyConfig.valid, Bool.and_eq_true, decide_eq_true_eq] at hvalid
    rw [not_or, not_lt] at hsize
    have hdeficit := LanBroadcastPolicy.deficit_lt hvalid.1.2 hsize.2 hquick htokens
    have hmaximum : kMaximumDatagramBytes = 255 := rfl
    show datagramSize - tokens + config.refillBytesPerMs - 1 < 2 ^ 64
    omega

/-- A transmission that leaves too little for the next one. -/
def busyCalls : List BucketRules.PolicyCall :=
  [.recordTransmit 5 255, .recordTransmit 105 255, .recordTransmit 205 255]

theorem deferrals_sound_and_finite_busyCalls :
    (Japan920RadioPolicy.rules {} ({} : Japan920Profile).estimatedAirtimeMs).Defers
        (fun deficit => deficit * 10 < 2 ^ 64) 210 255
        ((Japan920RadioPolicy.rules {} ({} : Japan920Profile).estimatedAirtimeMs).run
          (Japan920RadioPolicy.create {}) busyCalls).policy ∧
      (LanBroadcastPolicy.rules {}).Defers (fun deficit => deficit + 64 - 1 < 2 ^ 64) 210 255
        ((LanBroadcastPolicy.rules {}).run (LanBroadcastPolicy.create {}) busyCalls).policy := by
  constructor
  · have hfits : ({} : Japan920PolicyConfig).Fits := ⟨by decide, by decide⟩
    refine deferrals_sound_and_finite.1 {} _ busyCalls 210 255 (by decide) hfits
      (fun datagramSize => ({} : Japan920Profile).estimatedAirtimeMs_lt (by decide) datagramSize)
      ⟨by decide, by decide, by decide, by decide +kernel⟩ (by decide +kernel)
  · exact deferrals_sound_and_finite.2.2 {} busyCalls 210 255 (by decide)
      ⟨by decide, by decide, by decide, by decide +kernel⟩ (by decide +kernel)

end Lora
