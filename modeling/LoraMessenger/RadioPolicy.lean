/-
The radio policies.

Both policies of the source are token buckets with a minimum gap between two
transmissions.  They ask the same questions in the same order and differ in what
a datagram costs and in how the bucket is refilled, which `BucketRules` gathers;
`evaluateTransmit` and `recordTransmit` are stated once.

* `Japan920RadioPolicy`, `LanBroadcastPolicy` — the rules of the two policies;
* `Refines` — what the bound needs to know about the rules of a policy;
* `perform_tracks`, `run_tracks` — any sequence of calls is a run of a
  `TokenBucket`.
-/
import LoraMessenger.Scheduler
import LoraMessenger.TokenBucket
import Mathlib.Data.Nat.ModEq

namespace Lora

open TokenBucket (Spending spent)

def wrappingSub (left right : ℕ) : ℕ := (left + 2 ^ 64 - right) % 2 ^ 64

/-- The largest `size_t`. -/
def kMaximumSize : ℕ := 2 ^ 64 - 1

structure BucketRules where
  minimumGap : ℕ
  capacity : ℕ
  cost : (datagramSize : ℕ) → ℕ
  supports : (cost : ℕ) → Bool
  /-- The tokens after a refill, or nothing if the refill mark is to stay. -/
  refilled : (tokens elapsed : ℕ) → Option ℕ
  wait : (deficit : ℕ) → ℕ

/-- The fields of a policy that change. -/
structure BucketPolicy where
  tokens : ℕ
  lastRefillTick : ℕ := 0
  nextTransmitTick : ℕ := 0
  clockStarted : Bool := false
  valid : Bool := false
deriving DecidableEq

namespace BucketRules

def refill (rules : BucketRules) (now : ℕ) (policy : BucketPolicy) : BucketPolicy :=
  if !policy.clockStarted then { policy with clockStarted := true, lastRefillTick := now }
  else match rules.refilled policy.tokens (wrappingSub now policy.lastRefillTick) with
    | none => policy
    | some tokens => { policy with tokens, lastRefillTick := now }

/-- The policy is changed even by a question: it refills the bucket, and a clock
that runs backwards invalidates it. -/
def evaluateTransmit (rules : BucketRules) (now datagramSize : ℕ) (policy : BucketPolicy) :
    RadioTransmitDecision × BucketPolicy :=
  if !policy.valid || datagramSize = 0 || datagramSize > kMaximumDatagramBytes then
    (⟨.invalid, 0⟩, policy)
  else if policy.clockStarted && now < policy.lastRefillTick then
    (⟨.locked, 0⟩, { policy with valid := false })
  else
    let refilled := rules.refill now policy
    if !rules.supports (rules.cost datagramSize) then (⟨.invalid, 0⟩, refilled)
    else if now < refilled.nextTransmitTick then (⟨.deferred, refilled.nextTransmitTick⟩, refilled)
    else if refilled.tokens < rules.cost datagramSize then
      (⟨.deferred, saturatingAdd now (rules.wait (rules.cost datagramSize - refilled.tokens))⟩,
        refilled)
    else (⟨.allowed, now⟩, refilled)

def recordTransmit (rules : BucketRules) (at_ datagramSize : ℕ) (policy : BucketPolicy) :
    BucketPolicy :=
  if !policy.valid then policy
  else
    let (decision, evaluated) := rules.evaluateTransmit at_ datagramSize policy
    if decision.status ≠ .allowed then { evaluated with valid := false }
    else
      { evaluated with
        tokens := wrappingSub evaluated.tokens (rules.cost datagramSize)
        nextTransmitTick := saturatingAdd at_ rules.minimumGap }

end BucketRules

/-! ### The two policies -/

structure Japan920Profile where
  frequencyHz : ℕ := 920800000
  bandwidthHz : ℕ := 125000
  spreadingFactor : ℕ := 9
  codingRateDenominator : ℕ := 7
  transmitPowerDbm : ℕ := 13
  preambleSymbols : ℕ := 12
  syncWord : ℕ := 0x12

namespace Japan920Profile

def kCertifiedLowerHz : ℕ := 920500000
def kCapUpperHz : ℕ := 923000000

def valid (profile : Japan920Profile) : Bool :=
  if profile.bandwidthHz ≠ 125000 ∨ profile.spreadingFactor < 7 ∨ profile.spreadingFactor > 12 ∨
      profile.codingRateDenominator < 5 ∨ profile.codingRateDenominator > 8 ∨
      profile.transmitPowerDbm > 13 ∨ profile.preambleSymbols < 8 ∨ profile.syncWord ≠ 0x12 then
    false
  else
    profile.frequencyHz ≥ kCertifiedLowerHz + profile.bandwidthHz / 2 &&
      profile.frequencyHz ≤ kCapUpperHz - profile.bandwidthHz / 2

/-- The coded groups of a payload, `⌈(8·size - 4·sf + 44) / (4·(sf - 2·ldro))⌉`
or nothing if the numerator is negative. -/
def codedGroups (profile : Japan920Profile) (datagramSize : ℕ) : ℕ :=
  -- `symbol_seconds >= 0.016`
  let lowDataRateOptimization := if 2 ^ profile.spreadingFactor * 1000 ≥ 16 * profile.bandwidthHz
    then 1 else 0
  let numerator := 8 * datagramSize + 44 - 4 * profile.spreadingFactor
  let denominator := 4 * (profile.spreadingFactor - 2 * lowDataRateOptimization)
  (numerator + denominator - 1) / denominator

/-- The source computes with doubles; here the same formula is evaluated exactly,
in quarters of a symbol. -/
def estimatedAirtimeMs (profile : Japan920Profile) (datagramSize : ℕ) : ℕ :=
  if !profile.valid || datagramSize = 0 || datagramSize > kMaximumDatagramBytes then 0
  else
    let payloadSymbols := 8 + profile.codedGroups datagramSize * profile.codingRateDenominator
    let quarterSymbols := 4 * (profile.preambleSymbols + payloadSymbols) + 17
    let numerator := quarterSymbols * 2 ^ profile.spreadingFactor * 1000
    let denominator := 4 * profile.bandwidthHz
    (numerator + denominator - 1) / denominator

end Japan920Profile

structure Japan920PolicyConfig where
  profile : Japan920Profile := {}
  minimumGapMs : ℕ := 100
  bucketCapacityMs : ℕ := 6000
  refillDenominator : ℕ := 10
  minimumGapMs_le : minimumGapMs ≤ kMaximumRadioTick := by decide
  bucketCapacityMs_le : bucketCapacityMs ≤ kMaximumRadioTick := by decide

def Japan920PolicyConfig.valid (config : Japan920PolicyConfig) : Bool :=
  config.profile.valid && config.minimumGapMs > 0 && config.bucketCapacityMs > 0 &&
    config.refillDenominator > 0

/-- The configuration of a policy that is given none. -/
def Japan920PolicyConfig.standard : Japan920PolicyConfig := {}

namespace Japan920RadioPolicy

/-- What the policy puts into `evaluateTransmit` and `recordTransmit`, for a given
calculation of the airtime. -/
def rules (config : Japan920PolicyConfig) (airtimeMs : ℕ → ℕ) : BucketRules where
  minimumGap := config.minimumGapMs
  capacity := config.bucketCapacityMs
  cost := airtimeMs
  supports airtime := !(airtime = 0 || airtime > config.bucketCapacityMs)
  refilled tokensMs elapsed :=
    let added := elapsed / config.refillDenominator
    if added > 0 then some (min config.bucketCapacityMs (saturatingAdd tokensMs added)) else none
  wait deficit := deficit * config.refillDenominator % 2 ^ 64

/-- `Japan920RadioPolicy{config}`. -/
def create (config : Japan920PolicyConfig) : BucketPolicy where
  tokens := config.bucketCapacityMs
  valid := config.valid

end Japan920RadioPolicy

structure LanBroadcastPolicyConfig where
  minimumGapMs : ℕ := 10
  bucketCapacityBytes : ℕ := 4 * 1024
  refillBytesPerMs : ℕ := 64
  minimumGapMs_le : minimumGapMs ≤ kMaximumRadioTick := by decide
  bucketCapacityBytes_le : bucketCapacityBytes ≤ kMaximumSize := by decide

def LanBroadcastPolicyConfig.valid (config : LanBroadcastPolicyConfig) : Bool :=
  config.minimumGapMs > 0 && config.bucketCapacityBytes ≥ kMaximumDatagramBytes &&
    config.refillBytesPerMs > 0

namespace LanBroadcastPolicy

def rules (config : LanBroadcastPolicyConfig) : BucketRules where
  minimumGap := config.minimumGapMs
  capacity := config.bucketCapacityBytes
  cost datagramSize := datagramSize
  supports _ := true
  refilled tokensBytes elapsed :=
    if elapsed = 0 then none
    else
      let elapsedSize := if elapsed > kMaximumSize then kMaximumSize else elapsed
      let added := if elapsedSize > kMaximumSize / config.refillBytesPerMs then kMaximumSize
        else elapsedSize * config.refillBytesPerMs
      some (min config.bucketCapacityBytes
        (if added > kMaximumSize - tokensBytes then kMaximumSize else tokensBytes + added))
  wait deficit := (deficit + config.refillBytesPerMs - 1) % 2 ^ 64 / config.refillBytesPerMs

/-- `LanBroadcastPolicy{config}`. -/
def create (config : LanBroadcastPolicyConfig) : BucketPolicy where
  tokens := config.bucketCapacityBytes
  valid := config.valid

end LanBroadcastPolicy

/-! ### Spec lemmas -/

theorem wrappingSub_eq {left right : ℕ} (hle : right ≤ left) (hleft : left ≤ kMaximumRadioTick) :
    wrappingSub left right = left - right := by
  have hmax : kMaximumRadioTick < 2 ^ 64 := by decide
  rw [wrappingSub, show left + 2 ^ 64 - right = left - right + 2 ^ 64 by omega,
    Nat.add_mod_right, Nat.mod_eq_of_lt (by omega)]

theorem wrappingSub_self (value : ℕ) : wrappingSub value value = 0 := by
  rw [wrappingSub, Nat.add_sub_cancel_left, Nat.mod_self]

theorem saturatingAdd_eq {value increment : ℕ} (hincrement : increment ≤ kMaximumRadioTick) :
    saturatingAdd value increment = min kMaximumRadioTick (value + increment) := by
  unfold saturatingAdd
  split <;> omega

namespace BucketRules

variable {rules : BucketRules} {policy : BucketPolicy} {now datagramSize : ℕ}

/-- When a transmission is allowed. -/
structure Allows (rules : BucketRules) (now datagramSize : ℕ) (policy : BucketPolicy) : Prop where
  valid : policy.valid
  size : ¬(datagramSize = 0 ∨ datagramSize > kMaximumDatagramBytes)
  clock : policy.clockStarted → policy.lastRefillTick ≤ now
  supported : rules.supports (rules.cost datagramSize)
  next : (rules.refill now policy).nextTransmitTick ≤ now
  tokens : rules.cost datagramSize ≤ (rules.refill now policy).tokens

theorem evaluateTransmit_of_allows (h : rules.Allows now datagramSize policy) :
    rules.evaluateTransmit now datagramSize policy =
      (⟨.allowed, now⟩, rules.refill now policy) := by
  have hsize := h.size
  have hclock := h.clock
  rw [evaluateTransmit, if_neg (by simpa [h.valid] using hsize), if_neg (by simpa using hclock)]
  dsimp only
  rw [if_neg (by simp [h.supported]), if_neg (not_lt.mpr h.next), if_neg (not_lt.mpr h.tokens)]

/-- A question leaves the policy as it is, invalidates it or refills the bucket. -/
inductive Evaluates (rules : BucketRules) (now datagramSize : ℕ) (policy : BucketPolicy) :
    RadioTransmitDecision × BucketPolicy → Prop where
  | refused {decision : RadioTransmitDecision} (hstatus : decision.status ≠ .allowed) :
      Evaluates rules now datagramSize policy (decision, policy)
  | locked {decision : RadioTransmitDecision} (hstatus : decision.status ≠ .allowed) :
      Evaluates rules now datagramSize policy (decision, { policy with valid := false })
  | refilled {decision : RadioTransmitDecision}
      (hclock : policy.clockStarted → policy.lastRefillTick ≤ now)
      (hallowed : decision.status = .allowed → rules.Allows now datagramSize policy) :
      Evaluates rules now datagramSize policy (decision, rules.refill now policy)

theorem evaluateTransmit_evaluates (rules : BucketRules) (now datagramSize : ℕ)
    (policy : BucketPolicy) :
    rules.Evaluates now datagramSize policy (rules.evaluateTransmit now datagramSize policy) := by
  unfold evaluateTransmit
  split
  · exact .refused (by simp)
  rename_i hsize
  split
  · exact .locked (by simp)
  rename_i hclock
  have hclock' : policy.clockStarted → policy.lastRefillTick ≤ now := by
    intro hstarted
    simpa [hstarted] using hclock
  dsimp only
  split
  · exact .refilled hclock' (by simp)
  rename_i hsupports
  split
  · exact .refilled hclock' (by simp)
  rename_i hnext
  split
  · exact .refilled hclock' (by simp)
  rename_i htokens
  simp only [Bool.or_eq_true, Bool.not_eq_true', decide_eq_true_eq, not_or,
    Bool.not_eq_false] at hsize hsupports
  refine .refilled hclock' fun _ => ⟨hsize.1.1, ?_, hclock', hsupports, not_lt.mp hnext,
    not_lt.mp htokens⟩
  exact not_or.mpr ⟨hsize.1.2, hsize.2⟩

theorem allows_of_evaluateTransmit
    (h : (rules.evaluateTransmit now datagramSize policy).1.status = .allowed) :
    rules.Allows now datagramSize policy := by
  generalize hresult : rules.evaluateTransmit now datagramSize policy = result at h
  have hevaluates := hresult ▸ evaluateTransmit_evaluates rules now datagramSize policy
  cases hevaluates with
  | refused hstatus => exact absurd h hstatus
  | locked hstatus => exact absurd h hstatus
  | refilled _ hallowed => exact hallowed h

/-- Whether `record_transmit` takes tokens out of the bucket. -/
def deducts (rules : BucketRules) (at_ datagramSize : ℕ) (policy : BucketPolicy) : Bool :=
  policy.valid && (rules.evaluateTransmit at_ datagramSize policy).1.status = .allowed

theorem recordTransmit_eq : rules.recordTransmit now datagramSize policy =
    if rules.deducts now datagramSize policy then
      { (rules.evaluateTransmit now datagramSize policy).2 with
        tokens := wrappingSub (rules.evaluateTransmit now datagramSize policy).2.tokens
          (rules.cost datagramSize)
        nextTransmitTick := saturatingAdd now rules.minimumGap }
    else if policy.valid then
      { (rules.evaluateTransmit now datagramSize policy).2 with valid := false }
    else policy := by
  unfold recordTransmit deducts
  by_cases hvalid : policy.valid
  · simp [hvalid]
  · simp [hvalid]

/-- Asking again at the same tick changes nothing: the refill mark has either been
moved to this tick or is so near that there is nothing to add. -/
theorem refill_refill (hzero : ∀ tokens, rules.refilled tokens 0 = none) :
    rules.refill now (rules.refill now policy) = rules.refill now policy := by
  by_cases hstarted : policy.clockStarted
  · rcases hrefilled : rules.refilled policy.tokens (wrappingSub now policy.lastRefillTick) with
      _ | tokens
    · simp [refill, hstarted, hrefilled]
    · simp [refill, hstarted, hrefilled, wrappingSub_self, hzero]
  · simp [refill, hstarted, wrappingSub_self, hzero]

theorem lastRefillTick_refill (hclock : policy.clockStarted → policy.lastRefillTick ≤ now) :
    (rules.refill now policy).clockStarted ∧ (rules.refill now policy).lastRefillTick ≤ now := by
  unfold refill
  by_cases hstarted : policy.clockStarted
  · rcases rules.refilled policy.tokens (wrappingSub now policy.lastRefillTick) with _ | tokens
    · simpa [hstarted] using hclock hstarted
    · simp [hstarted]
  · simp [hstarted]

@[simp] theorem refill_valid : (rules.refill now policy).valid = policy.valid := by
  unfold refill
  split
  · rfl
  · split <;> rfl

/-- A transmission that was allowed may be recorded. -/
theorem recordTransmit_valid (hzero : ∀ tokens, rules.refilled tokens 0 = none)
    (hallowed : (rules.evaluateTransmit now datagramSize policy).1.status = .allowed) :
    (rules.recordTransmit now datagramSize
      (rules.evaluateTransmit now datagramSize policy).2).valid := by
  have hallows := allows_of_evaluateTransmit hallowed
  have hagain : rules.Allows now datagramSize (rules.refill now policy) := by
    refine ⟨?_, hallows.size, ?_, hallows.supported, ?_, ?_⟩
    · rw [refill_valid, hallows.valid]
    · exact fun _ => (lastRefillTick_refill hallows.clock).2
    · rw [refill_refill hzero]
      exact hallows.next
    · rw [refill_refill hzero]
      exact hallows.tokens
  rw [evaluateTransmit_of_allows hallows, recordTransmit_eq, if_pos]
  · simp [evaluateTransmit_of_allows hagain, hallows.valid]
  · simp [deducts, evaluateTransmit_of_allows hagain, hallows.valid]

/-! ### Runs -/

inductive PolicyCall where
  | evaluateTransmit (now datagramSize : ℕ)
  | recordTransmit (at_ datagramSize : ℕ)
deriving DecidableEq

def PolicyCall.tick : PolicyCall → ℕ
  | .evaluateTransmit now _ => now
  | .recordTransmit at_ _ => at_

/-- A policy and the transmissions it has recorded. -/
structure PolicyRun where
  policy : BucketPolicy
  recorded : List Spending := []
deriving DecidableEq

def perform (rules : BucketRules) (run : PolicyRun) : PolicyCall → PolicyRun
  | .evaluateTransmit now datagramSize =>
    { run with policy := (rules.evaluateTransmit now datagramSize run.policy).2 }
  | .recordTransmit at_ datagramSize =>
    { policy := rules.recordTransmit at_ datagramSize run.policy
      recorded := run.recorded ++
        if rules.deducts at_ datagramSize run.policy then [⟨at_, rules.cost datagramSize⟩] else [] }

def run (rules : BucketRules) (start : BucketPolicy) (calls : List PolicyCall) : PolicyRun :=
  calls.foldl rules.perform { policy := start }

/-- The rules of a policy keep to those of a token bucket. -/
structure Refines (rules : BucketRules) (bucket : TokenBucket.Rules) : Prop where
  capacity : bucket.capacity = rules.capacity
  capacity_le : rules.capacity ≤ kMaximumRadioTick
  after : ∀ tick, bucket.after tick = saturatingAdd tick rules.minimumGap
  refilled_zero : ∀ tokens, rules.refilled tokens 0 = none
  refilled_none : ∀ {tokens elapsed}, rules.refilled tokens elapsed = none →
    elapsed ≤ bucket.slack
  refilled_some : ∀ {tokens elapsed refilled}, elapsed ≤ kMaximumRadioTick →
    rules.refilled tokens elapsed = some refilled →
      refilled ≤ rules.capacity ∧ refilled ≤ tokens + bucket.grow elapsed

/-- Before the first call that starts the clock the bucket is full; from then on the
policy is a level of the bucket, and what it has recorded was spent from it. -/
def Tracks (bucket : TokenBucket.Rules) (run : PolicyRun) : Prop :=
  if run.policy.clockStarted then
    TokenBucket.Reaches bucket
      ⟨run.policy.tokens, run.policy.lastRefillTick, run.policy.nextTransmitTick⟩ run.recorded
  else
    run.policy.tokens = bucket.capacity ∧ run.policy.nextTransmitTick = 0 ∧ run.recorded = []

variable {bucket : TokenBucket.Rules} {recorded : List Spending}

theorem tracks_refill (hrefines : rules.Refines bucket) (hnow : now ≤ kMaximumRadioTick)
    (hclock : policy.clockStarted → policy.lastRefillTick ≤ now)
    (h : Tracks bucket ⟨policy, recorded⟩) :
    TokenBucket.Reaches bucket ⟨(rules.refill now policy).tokens,
      (rules.refill now policy).lastRefillTick, (rules.refill now policy).nextTransmitTick⟩
      recorded ∧
    now ≤ (rules.refill now policy).lastRefillTick + bucket.slack := by
  unfold Tracks at h
  by_cases hstarted : policy.clockStarted
  · rw [if_pos hstarted] at h
    have hmark := hclock hstarted
    have helapsed : wrappingSub now policy.lastRefillTick = now - policy.lastRefillTick :=
      wrappingSub_eq hmark hnow
    rcases hrefilled : rules.refilled policy.tokens (now - policy.lastRefillTick) with _ | tokens
    · have hslack := hrefines.refilled_none hrefilled
      simp only [refill, hstarted, Bool.not_true, Bool.false_eq_true, if_false, helapsed, hrefilled]
      exact ⟨h, by omega⟩
    · obtain ⟨hcapacity, htokens⟩ := hrefines.refilled_some (by omega) hrefilled
      simp only [refill, hstarted, Bool.not_true, Bool.false_eq_true, if_false, helapsed, hrefilled]
      exact ⟨h.fill hmark (hrefines.capacity ▸ hcapacity) htokens, by omega⟩
  · rw [if_neg hstarted] at h
    obtain ⟨htokens, hnext, rfl⟩ := h
    have hfull : (⟨policy.tokens, now, policy.nextTransmitTick⟩ : TokenBucket.Level) =
        ⟨bucket.capacity, now, 0⟩ := by
      rw [htokens, hnext]
    simp only [refill, hstarted, Bool.not_false, if_true]
    exact ⟨hfull ▸ .start now, by omega⟩

theorem tracks_evaluateTransmit (hrefines : rules.Refines bucket)
    (hnow : now ≤ kMaximumRadioTick) (h : Tracks bucket ⟨policy, recorded⟩) :
    Tracks bucket ⟨(rules.evaluateTransmit now datagramSize policy).2, recorded⟩ := by
  generalize hresult : rules.evaluateTransmit now datagramSize policy = result
  have hevaluates := hresult ▸ evaluateTransmit_evaluates rules now datagramSize policy
  cases hevaluates with
  | refused _ => exact h
  | locked _ => exact h
  | refilled hclock _ =>
    have hreaches := (tracks_refill hrefines hnow hclock h).1
    unfold Tracks
    rwa [if_pos (lastRefillTick_refill hclock).1]

/-- The subtraction of `record_transmit` does not wrap around. -/
theorem recordTransmit_of_allows (hrefines : rules.Refines bucket)
    (hnow : now ≤ kMaximumRadioTick) (h : Tracks bucket ⟨policy, recorded⟩)
    (hallows : rules.Allows now datagramSize policy) :
    rules.recordTransmit now datagramSize policy =
      { rules.refill now policy with
        tokens := (rules.refill now policy).tokens - rules.cost datagramSize
        nextTransmitTick := saturatingAdd now rules.minimumGap } := by
  obtain ⟨hreaches, -⟩ := tracks_refill hrefines hnow hallows.clock h
  have htokens : (rules.refill now policy).tokens ≤ kMaximumRadioTick :=
    le_trans (hrefines.capacity ▸ hreaches.tokens_le) hrefines.capacity_le
  have hdeducts : rules.deducts now datagramSize policy := by
    simp [deducts, evaluateTransmit_of_allows hallows, hallows.valid]
  rw [recordTransmit_eq, if_pos hdeducts, evaluateTransmit_of_allows hallows]
  dsimp only
  rw [wrappingSub_eq hallows.tokens htokens]

theorem allows_of_deducts (h : rules.deducts now datagramSize policy) :
    rules.Allows now datagramSize policy := by
  rw [deducts, Bool.and_eq_true, decide_eq_true_eq] at h
  exact allows_of_evaluateTransmit h.2

theorem tracks_recordTransmit (hrefines : rules.Refines bucket)
    (hnow : now ≤ kMaximumRadioTick) (h : Tracks bucket ⟨policy, recorded⟩) :
    Tracks bucket ⟨rules.recordTransmit now datagramSize policy, recorded ++
      if rules.deducts now datagramSize policy then [⟨now, rules.cost datagramSize⟩] else []⟩ := by
  by_cases hdeducts : rules.deducts now datagramSize policy
  · have hallows := allows_of_deducts hdeducts
    obtain ⟨hreaches, hslack⟩ := tracks_refill hrefines hnow hallows.clock h
    obtain ⟨hstarted, hmark⟩ : (rules.refill now policy).clockStarted ∧
        (rules.refill now policy).lastRefillTick ≤ now := lastRefillTick_refill hallows.clock
    have hspent := hreaches.spend hmark hslack hallows.next hallows.tokens
    rw [hrefines.after] at hspent
    rw [recordTransmit_of_allows hrefines hnow h hallows, if_pos hdeducts]
    unfold Tracks
    rwa [if_pos hstarted]
  · rw [if_neg hdeducts, List.append_nil, recordTransmit_eq, if_neg hdeducts]
    split
    · exact tracks_evaluateTransmit hrefines hnow h
    · exact h

theorem perform_tracks (hrefines : rules.Refines bucket) {call : PolicyCall}
    (htick : call.tick ≤ kMaximumRadioTick) {run : PolicyRun} (h : Tracks bucket run) :
    Tracks bucket (rules.perform run call) := by
  cases call with
  | evaluateTransmit now datagramSize => exact tracks_evaluateTransmit hrefines htick h
  | recordTransmit at_ datagramSize => exact tracks_recordTransmit hrefines htick h

theorem run_tracks (hrefines : rules.Refines bucket) {start : BucketPolicy}
    (hfull : start.tokens = bucket.capacity) (hnext : start.nextTransmitTick = 0)
    (hclock : start.clockStarted = false) {calls : List PolicyCall}
    (hticks : ∀ call ∈ calls, call.tick ≤ kMaximumRadioTick) :
    Tracks bucket (rules.run start calls) := by
  -- The induction is on the calls from the last one backwards, as the run is a left fold.
  induction calls using List.reverseRecOn with
  | nil =>
    unfold Tracks
    rw [if_neg (by simp [run, hclock])]
    exact ⟨hfull, hnext, rfl⟩
  | append_singleton calls call ih =>
    rw [run, List.foldl_concat]
    refine perform_tracks hrefines (hticks call (by simp)) (ih ?_)
    exact fun other hother => hticks other (List.mem_append_left _ hother)

/-- Either way, what was recorded was spent from the bucket. -/
theorem reaches_of_tracks {run : PolicyRun} (h : Tracks bucket run) :
    ∃ level, level.tokens = run.policy.tokens ∧ TokenBucket.Reaches bucket level run.recorded := by
  unfold Tracks at h
  split at h
  · exact ⟨_, rfl, h⟩
  · obtain ⟨htokens, -, hrecorded⟩ := h
    exact ⟨⟨bucket.capacity, 0, 0⟩, htokens.symm, hrecorded ▸ .start 0⟩

/-- What a policy keeps to over a run of calls, where `bound` limits what is recorded
between two recorded transmissions a given time apart. -/
structure KeepsRate (rules : BucketRules) (start : BucketPolicy) (bound : ℕ → ℕ)
    (calls : List PolicyCall) : Prop where
  window : ∀ first ∈ (rules.run start calls).recorded, ∀ last ∈ (rules.run start calls).recorded,
    first.time ≤ last.time →
      spent first.time last.time (rules.run start calls).recorded ≤ bound (last.time - first.time)
  gap : (rules.run start calls).recorded.IsChain fun earlier later =>
    earlier.time + rules.minimumGap ≤ later.time ∨
      kMaximumRadioTick < earlier.time + rules.minimumGap
  tokens_le : (rules.run start calls).policy.tokens ≤ rules.capacity
  noWrap : ∀ now datagramSize, now ≤ kMaximumRadioTick →
    rules.deducts now datagramSize (rules.run start calls).policy →
      (rules.recordTransmit now datagramSize (rules.run start calls).policy).tokens +
          rules.cost datagramSize =
        (rules.evaluateTransmit now datagramSize (rules.run start calls).policy).2.tokens
  recordable : ∀ now datagramSize,
    (rules.evaluateTransmit now datagramSize (rules.run start calls).policy).1.status = .allowed →
      (rules.recordTransmit now datagramSize
        (rules.evaluateTransmit now datagramSize (rules.run start calls).policy).2).valid

theorem keepsRate (hrefines : rules.Refines bucket) (hgap : rules.minimumGap ≤ kMaximumRadioTick)
    {start : BucketPolicy} (hfull : start.tokens = bucket.capacity)
    (hnext : start.nextTransmitTick = 0) (hclock : start.clockStarted = false)
    {calls : List PolicyCall} (hticks : ∀ call ∈ calls, call.tick ≤ kMaximumRadioTick) :
    rules.KeepsRate start (fun time => bucket.capacity + bucket.grow (time + bucket.slack))
      calls := by
  have htracks := run_tracks hrefines hfull hnext hclock hticks
  obtain ⟨level, htokens, hreaches⟩ := reaches_of_tracks htracks
  refine ⟨?_, ?_, ?_, ?_, ?_⟩
  · exact fun first _ last _ hle => hreaches.spent_le hle
  · refine hreaches.isChain_after.imp ?_
    intro earlier later hafter
    rw [hrefines.after, saturatingAdd_eq hgap] at hafter
    omega
  · exact htokens ▸ hrefines.capacity ▸ hreaches.tokens_le
  · generalize rules.run start calls = run at htracks
    obtain ⟨policy, recorded⟩ := run
    intro now datagramSize hnow hdeducts
    have hallows := allows_of_deducts hdeducts
    rw [recordTransmit_of_allows hrefines hnow htracks hallows, evaluateTransmit_of_allows hallows]
    exact Nat.sub_add_cancel hallows.tokens
  · exact fun now datagramSize hallowed => recordTransmit_valid hrefines.refilled_zero hallowed

end BucketRules

/-! ### The bounds of the two policies -/

/-- One millisecond of airtime for every `refill_denominator` ticks; a remainder is
kept by leaving the refill mark where it is. -/
def Japan920RadioPolicy.bucket (config : Japan920PolicyConfig) : TokenBucket.Rules where
  capacity := config.bucketCapacityMs
  grow time := time / config.refillDenominator
  slack := config.refillDenominator - 1
  after tick := saturatingAdd tick config.minimumGapMs
  grow_add _ _ := Nat.div_add_div_le_add_div

def LanBroadcastPolicy.bucket (config : LanBroadcastPolicyConfig) : TokenBucket.Rules where
  capacity := config.bucketCapacityBytes
  grow time := time * config.refillBytesPerMs
  slack := 0
  after tick := saturatingAdd tick config.minimumGapMs
  grow_add first second := by rw [Nat.add_mul]

theorem Japan920RadioPolicy.refines {config : Japan920PolicyConfig} (airtimeMs : ℕ → ℕ)
    (hvalid : config.valid) : (rules config airtimeMs).Refines (bucket config) := by
  have hdenominator : 0 < config.refillDenominator := by
    simp only [Japan920PolicyConfig.valid, Bool.and_eq_true, decide_eq_true_eq] at hvalid
    exact hvalid.2
  refine ⟨rfl, config.bucketCapacityMs_le, fun _ => rfl, ?_, ?_, ?_⟩
  · intro tokens
    simp only [rules, Nat.zero_div, lt_irrefl, if_false]
  · intro tokens elapsed hnone
    simp only [rules, ite_eq_right_iff, reduceCtorEq, imp_false, not_lt, Nat.le_zero] at hnone
    rw [Nat.div_eq_zero_iff_lt hdenominator] at hnone
    show elapsed ≤ config.refillDenominator - 1
    omega
  · intro tokens elapsed refilled helapsed hsome
    simp only [rules, Option.ite_none_right_eq_some, Option.some.injEq] at hsome
    obtain ⟨-, rfl⟩ := hsome
    have hadded : elapsed / config.refillDenominator ≤ kMaximumRadioTick :=
      le_trans (Nat.div_le_self _ _) helapsed
    rw [saturatingAdd_eq hadded]
    refine ⟨min_le_left _ _, ?_⟩
    exact le_trans (min_le_right _ _) (min_le_right _ _)

theorem LanBroadcastPolicy.refines {config : LanBroadcastPolicyConfig} (hvalid : config.valid) :
    (rules config).Refines (bucket config) := by
  have hrefill : 0 < config.refillBytesPerMs := by
    simp only [LanBroadcastPolicyConfig.valid, Bool.and_eq_true, decide_eq_true_eq] at hvalid
    exact hvalid.2
  refine ⟨rfl, config.bucketCapacityBytes_le, fun _ => rfl, ?_, ?_, ?_⟩
  · intro tokens
    simp [rules]
  · intro tokens elapsed hnone
    simp only [rules, ite_eq_left_iff, reduceCtorEq, imp_false, not_not] at hnone
    exact hnone.le
  · intro tokens elapsed refilled helapsed hsome
    have hmax : kMaximumSize = kMaximumRadioTick := rfl
    have hcapacity := config.bucketCapacityBytes_le
    simp only [rules, Option.ite_none_left_eq_some, Option.some.injEq,
      if_neg (not_lt.mpr (hmax ▸ helapsed))] at hsome
    obtain ⟨-, rfl⟩ := hsome
    refine ⟨min_le_left _ _, ?_⟩
    show min config.bucketCapacityBytes _ ≤ tokens + elapsed * config.refillBytesPerMs
    by_cases hproduct : elapsed > kMaximumSize / config.refillBytesPerMs
    · -- The true product does not fit, so it exceeds the capacity.
      have hlarge : kMaximumSize < elapsed * config.refillBytesPerMs :=
        (Nat.div_lt_iff_lt_mul hrefill).mp hproduct
      omega
    · rw [if_neg hproduct]
      split <;> omega

theorem Japan920RadioPolicy.keepsRate {config : Japan920PolicyConfig} (airtimeMs : ℕ → ℕ)
    (hvalid : config.valid) {calls : List BucketRules.PolicyCall}
    (hticks : ∀ call ∈ calls, call.tick ≤ kMaximumRadioTick) :
    (rules config airtimeMs).KeepsRate (create config) (fun time => config.bucketCapacityMs +
      (time + config.refillDenominator - 1) / config.refillDenominator) calls := by
  have hdenominator : 0 < config.refillDenominator := by
    simp only [Japan920PolicyConfig.valid, Bool.and_eq_true, decide_eq_true_eq] at hvalid
    exact hvalid.2
  have hrate : (rules config airtimeMs).KeepsRate (create config) (fun time =>
      config.bucketCapacityMs +
        (time + (config.refillDenominator - 1)) / config.refillDenominator) calls :=
    BucketRules.keepsRate (refines airtimeMs hvalid) config.minimumGapMs_le rfl rfl rfl hticks
  simpa only [Nat.add_sub_assoc (Nat.succ_le_of_lt hdenominator)] using hrate

/-- Both policies bound what they let through in every window of time, keep the
minimum gap, never take out more tokens than there are and never refuse to record what
they have just allowed. -/
theorem radio_policies_keep_rate :
    (∀ (config : Japan920PolicyConfig) (airtimeMs : ℕ → ℕ) (calls : List BucketRules.PolicyCall),
      config.valid → (∀ call ∈ calls, call.tick ≤ kMaximumRadioTick) →
      (Japan920RadioPolicy.rules config airtimeMs).KeepsRate (Japan920RadioPolicy.create config)
        (fun time => config.bucketCapacityMs +
          (time + config.refillDenominator - 1) / config.refillDenominator) calls) ∧
    ∀ (config : LanBroadcastPolicyConfig) (calls : List BucketRules.PolicyCall),
      config.valid → (∀ call ∈ calls, call.tick ≤ kMaximumRadioTick) →
      (LanBroadcastPolicy.rules config).KeepsRate (LanBroadcastPolicy.create config)
        (fun time => config.bucketCapacityBytes + time * config.refillBytesPerMs) calls := by
  constructor
  · exact fun config airtimeMs calls hvalid hticks =>
      Japan920RadioPolicy.keepsRate airtimeMs hvalid hticks
  · exact fun config calls hvalid hticks =>
      BucketRules.keepsRate (LanBroadcastPolicy.refines hvalid) config.minimumGapMs_le rfl rfl rfl
        hticks

theorem radio_policies_keep_rate_default :
    (Japan920RadioPolicy.rules {} ({} : Japan920Profile).estimatedAirtimeMs).KeepsRate
        (Japan920RadioPolicy.create {}) (fun time => 6000 + (time + 10 - 1) / 10)
        [.evaluateTransmit 5 48, .recordTransmit 5 48, .recordTransmit 105 255] ∧
      (LanBroadcastPolicy.rules {}).KeepsRate (LanBroadcastPolicy.create {})
        (fun time => 4096 + time * 64) [.recordTransmit 5 48, .recordTransmit 4 48] :=
  ⟨radio_policies_keep_rate.1 {} _ _ (by decide) (by decide),
    radio_policies_keep_rate.2 {} _ (by decide) (by decide)⟩

/-! ### The default airtime budget -/

/-- A run of the policy with its default configuration. -/
def Japan920RadioPolicy.defaultRun (calls : List BucketRules.PolicyCall) : BucketRules.PolicyRun :=
  (rules {} ({} : Japan920PolicyConfig).profile.estimatedAirtimeMs).run (create {}) calls

/-- A full bucket is emptied and then every refill is used up at once.  The clock
starts nine ticks before the first transmission, so that the window gains a whole
minute of refill. -/
def Japan920RadioPolicy.greedyCalls : List BucketRules.PolicyCall :=
  [.evaluateTransmit 0 252, .recordTransmit 9 252, .recordTransmit 110 252,
    .recordTransmit 210 247, .recordTransmit 8780 247, .recordTransmit 25830 247,
    .recordTransmit 41160 220, .recordTransmit 42730 4, .recordTransmit 44300 4,
    .recordTransmit 45870 4, .recordTransmit 47440 4, .recordTransmit 49010 4,
    .recordTransmit 50580 4, .recordTransmit 52150 4, .recordTransmit 53720 4,
    .recordTransmit 55290 4, .recordTransmit 56860 4, .recordTransmit 58430 4,
    .recordTransmit 60000 4]

theorem Japan920RadioPolicy.greedyCalls_spent :
    greedyCalls.Pairwise (·.tick ≤ ·.tick) ∧
      (∀ call ∈ greedyCalls, call.tick ≤ kMaximumRadioTick) ∧
      spent 9 60008 (defaultRun greedyCalls).recorded = 12000 := by
  decide +kernel

/-- A window of a minute takes at most what a full bucket holds and what a minute
refills, and a run can use all of it. -/
theorem default_airtime_budget :
    (∀ calls : List BucketRules.PolicyCall, calls.Pairwise (·.tick ≤ ·.tick) →
      (∀ call ∈ calls, call.tick ≤ kMaximumRadioTick) →
      ∀ first, spent first (first + 59999) (Japan920RadioPolicy.defaultRun calls).recorded ≤
        12000) ∧
    ∃ calls : List BucketRules.PolicyCall, calls.Pairwise (·.tick ≤ ·.tick) ∧
      (∀ call ∈ calls, call.tick ≤ kMaximumRadioTick) ∧
      ∃ first, spent first (first + 59999) (Japan920RadioPolicy.defaultRun calls).recorded =
        12000 := by
  constructor
  · intro calls _ hticks first
    have hrefines := Japan920RadioPolicy.refines
      ({} : Japan920PolicyConfig).profile.estimatedAirtimeMs
      (by decide : Japan920PolicyConfig.valid {})
    have htracks : BucketRules.Tracks (Japan920RadioPolicy.bucket {})
        (Japan920RadioPolicy.defaultRun calls) :=
      BucketRules.run_tracks hrefines rfl rfl rfl hticks
    obtain ⟨level, -, hreaches⟩ := BucketRules.reaches_of_tracks htracks
    have hbound := hreaches.spent_le (Nat.le_add_right first 59999)
    rw [Nat.add_sub_cancel_left] at hbound
    exact hbound
  · obtain ⟨hordered, hticks, hspent⟩ := Japan920RadioPolicy.greedyCalls_spent
    exact ⟨_, hordered, hticks, 9, hspent⟩

/-- A run that uses all of it: the bucket is emptied at once and again whenever it can be. -/
theorem default_airtime_budget_greedyCalls :
    spent 9 (9 + 59999) (Japan920RadioPolicy.defaultRun
      Japan920RadioPolicy.greedyCalls).recorded ≤ 12000 := by
  obtain ⟨hordered, hticks, -⟩ := Japan920RadioPolicy.greedyCalls_spent
  exact default_airtime_budget.1 _ hordered hticks 9

theorem default_airtime_budget_exceeded :
    ¬∀ calls : List BucketRules.PolicyCall, calls.Pairwise (·.tick ≤ ·.tick) →
      (∀ call ∈ calls, call.tick ≤ kMaximumRadioTick) →
      ∀ first, spent first (first + 59999) (Japan920RadioPolicy.defaultRun calls).recorded ≤
        6000 := by
  intro hbudget
  obtain ⟨hordered, hticks, hspent⟩ := Japan920RadioPolicy.greedyCalls_spent
  have := hbudget _ hordered hticks 9
  rw [hspent] at this
  omega

end Lora
