/-
The settings of the chip of the Cap LoRa-1262.

The constructor of the driver sets up the chip; whatever the driver is told later, it changes no
setting any more.

* `configurePlan` — the commands that set up the chip;
* `Configured` — they have been carried out and nothing was changed since, or the driver is closed;
* `driver_commands` — what must come before a command, and that the chip is set up before anything
  is sent or read;
* `TunedTo` — what the settings mean for the radio link.
-/
import LoraMessenger.CapLoraCommands

namespace Lora

open Dialogue

namespace LinuxCapLora1262Radio

/-- The commands that were carried out. -/
def carriedOut (commands : List Command) : List Bytes :=
  (commands.filter Command.done).map Command.bytes

/-- The last command with one of these opcodes. -/
def lastOf (opcodes : List UInt8) (executed : List Bytes) : Option Bytes :=
  (executed.filter fun bytes => bytes.headD 0 ∈ opcodes).getLast?

def receivePlan (profile : Japan920Profile) : List Bytes :=
  [kSetPacketParams :: BigEndian.toBytes 2 profile.preambleSymbols ++
      [kExplicitHeader, UInt8.ofNat kMaximumDatagramBytes, kCrcEnabled, kStandardIq],
    kClearIrqStatus :: BigEndian.toBytes 2 0xffff,
    kSetDioIrqParams :: (BigEndian.toBytes 2 kReceiveIrqs ++ BigEndian.toBytes 2 kReceiveIrqs ++
      [0, 0, 0, 0]),
    [kSetRx, 0xff, 0xff, 0xff]]

/-- `configure_radio`, command by command. -/
def configurePlan (profile : Japan920Profile) : List Bytes :=
  [[kSetStandby, kStandbyRc],
    [kSetRegulatorMode, kRegulatorDcdc],
    kSetDio3TcxoCtrl :: kTcxo3Volts :: BigEndian.toBytes 3 kTcxoDelayUnits,
    [kCalibrate, 0x7f],
    [kCalibrateImage, 0xe1, 0xe9],
    [kSetPacketType, kLoRaPacketType],
    [kSetBufferBaseAddress, 0, 0],
    kSetRfFrequency :: BigEndian.toBytes 4 (frequencyWord profile),
    kSetModulationParams :: modulation profile,
    [kSetPaConfig, 0x04, 0x07, 0x00, 0x01],
    [kSetTxParams, UInt8.ofNat profile.transmitPowerDbm, 0x04],
    kWriteRegister :: (BigEndian.toBytes 2 kOcpRegister ++ [0x38]),
    kWriteRegister :: (BigEndian.toBytes 2 kLoRaSyncWordRegister ++ syncWordBytes profile)] ++
  receivePlan profile

section Views

variable {executed more : List Bytes} {before added : List Command}

theorem carriedOut_append :
    carriedOut (before ++ added) = carriedOut before ++ carriedOut added := by
  rw [carriedOut, List.filter_append, List.map_append]
  rfl

theorem lastOf_append (opcodes : List UInt8) :
    lastOf opcodes (executed ++ more) = (lastOf opcodes more).or (lastOf opcodes executed) := by
  rw [lastOf, List.filter_append, List.getLast?_append]
  rfl

/-- Commands with other opcodes do not count. -/
theorem lastOf_other {opcodes : List UInt8} (h : ∀ bytes ∈ more, bytes.headD 0 ∉ opcodes) :
    lastOf opcodes (executed ++ more) = lastOf opcodes executed := by
  rw [lastOf_append, lastOf, List.filter_eq_nil_iff.mpr (by simpa using h)]
  rfl

theorem mem_carriedOut {bytes : Bytes} (h : bytes ∈ carriedOut added) :
    ∃ command ∈ added, command.bytes = bytes ∧ command.done = true := by
  obtain ⟨command, hcommand, rfl⟩ := List.mem_map.mp h
  exact ⟨command, (List.mem_filter.mp hcommand).1, rfl, (List.mem_filter.mp hcommand).2⟩

theorem Ran.carriedOut_eq {plan : List Bytes} (h : Ran plan true added) :
    LinuxCapLora1262Radio.carriedOut added = plan := by
  rw [LinuxCapLora1262Radio.carriedOut, List.filter_eq_self.mpr (h.whole rfl).2, (h.whole rfl).1]

end Views

/-! ### The constructor -/

section Constructor

variable {config : LinuxCapLora1262Config} {state : State}

theorem wp_startReceive (hconfig : state.memory.config = config) :
    wp startReceive (fun ok state' => ∃ added,
      commands state'.said = commands state.said ++ added ∧
      Ran (receivePlan config.profile) ok added ∧
      (ok = true → state'.memory = { state.memory with receiving := true, transmitting := false }))
      state := by
  have hplan : Appends config (andThen (setPacketParams kMaximumDatagramBytes) (andThen clearIrq
      (andThen (setIrqMask kReceiveIrqs) (writeCommand kSetRx [0xff, 0xff, 0xff]))))
      (Ran (receivePlan config.profile)) :=
    .andThen (appends_setPacketParams _) (.andThen (appends_clearIrq _)
      (.andThen (appends_writeCommand _ _) (appends_writeCommand _ _)))
  rw [startReceive, wp_bind]
  refine wp_mono (hplan state hconfig) ?_
  rintro ok state₁ ⟨hmemory, added, hadded, hran⟩
  cases ok with
  | true => exact ⟨added, hadded, hran, fun _ => by rw [← hmemory]; rfl⟩
  | false => exact ⟨added, hadded, hran, fun hfalse => absurd hfalse Bool.false_ne_true⟩

/-- The program keeps the configuration, and carries out a plan or breaks off. -/
def Adds (config : LinuxCapLora1262Config) (program : DriverM Bool) (plan : List Bytes) : Prop :=
  ∀ state : State, state.memory.config = config →
    wp program (fun ok state' => state'.memory.config = config ∧
      ∃ added, commands state'.said = commands state.said ++ added ∧ Ran plan ok added) state

theorem Appends.adds {program : DriverM Bool} {plan : List Bytes}
    (h : Appends config program (Ran plan)) : Adds config program plan := by
  intro state hconfig
  refine wp_mono (h state hconfig) ?_
  rintro ok state' ⟨hmemory, hadded⟩
  exact ⟨hmemory ▸ hconfig, hadded⟩

theorem Adds.andThen {first second : DriverM Bool} {plan plan' : List Bytes}
    (h : Adds config first plan) (h' : Adds config second plan') :
    Adds config (Dialogue.andThen first second) (plan ++ plan') := by
  intro state hconfig
  rw [wp_andThen]
  refine wp_mono (h state hconfig) ?_
  rintro ok s₁ ⟨hconfig₁, added, hadded, hran⟩
  cases ok with
  | true =>
    rw [if_pos rfl]
    refine wp_mono (h' s₁ hconfig₁) ?_
    rintro ok s₂ ⟨hconfig₂, more, hmore, hran'⟩
    exact ⟨hconfig₂, added ++ more, by rw [hmore, hadded, List.append_assoc], hran.append hran'⟩
  | false => exact ⟨hconfig₁, added, hadded, hran.broken plan'⟩

/-- The configuration never changes. -/
theorem steady_config :
    Steady (fun _ => True) config (fun state => state.memory.config = config) where
  config_eq h := h
  adds _ hconfig _ _ := hconfig

theorem adds_startReceive : Adds config startReceive (receivePlan config.profile) := by
  intro state hconfig
  refine wp_mono (wp_and (steady_config.startReceive (fun _ => trivial) state hconfig)
    (wp_startReceive hconfig)) ?_
  rintro ok state' ⟨hconfig', added, hadded, hran, -⟩
  exact ⟨hconfig', added, hadded, hran⟩

theorem adds_writeCommand (opcode : UInt8) (data : Bytes) :
    Adds config (writeCommand opcode data) [opcode :: data] :=
  (appends_writeCommand opcode data).adds

theorem adds_writeRegister (address : ℕ) (data : Bytes) (hdata : data ≠ [])
    (hlength : data.length ≤ kMaximumDatagramBytes) : Adds config (writeRegister address data)
      [kWriteRegister :: (BigEndian.toBytes 2 address ++ data)] := by
  have hpos := List.length_pos_iff.mpr hdata
  rw [writeRegister, if_neg (by omega)]
  exact adds_writeCommand _ _

theorem adds_configureRadio : Adds config configureRadio (configurePlan config.profile) := by
  intro state hconfig
  rw [configureRadio, wp_bind, wp_memory, hconfig]
  -- Eleven commands, two registers, and the start of the reception.
  exact Adds.andThen (adds_writeCommand _ _) (.andThen (adds_writeCommand _ _)
    (.andThen (adds_writeCommand _ _) (.andThen (adds_writeCommand _ _)
    (.andThen (adds_writeCommand _ _) (.andThen (adds_writeCommand _ _)
    (.andThen (adds_writeCommand _ _) (.andThen (adds_writeCommand _ _)
    (.andThen (adds_writeCommand _ _) (.andThen (adds_writeCommand _ _)
    (.andThen (adds_writeCommand _ _)
    (.andThen (adds_writeRegister _ [0x38] (List.cons_ne_nil _ _) (by decide))
    (.andThen (adds_writeRegister _ (syncWordBytes config.profile) (List.cons_ne_nil _ _)
        (show 2 ≤ kMaximumDatagramBytes by decide))
      adds_startReceive)))))))))))) state hconfig

/-- Nothing has reached the chip yet. -/
structure Fresh (config : LinuxCapLora1262Config) (state : State) : Prop where
  config_eq : state.memory.config = config
  silent : commands state.said = []

theorem Fresh.steady : Steady (fun _ => False) config (Fresh config) where
  config_eq h := h.config_eq
  adds h hconfig hadded hnone := by
    refine ⟨hconfig, ?_⟩
    rw [hadded, h.silent, List.nil_append]
    exact List.eq_nil_iff_forall_not_mem.mpr hnone

/-- The chip was set up, as far as it got. -/
structure Configuring (config : LinuxCapLora1262Config) (ok : Bool) (state : State) : Prop where
  config_eq : state.memory.config = config
  ran : Ran (configurePlan config.profile) ok (commands state.said)

/-- Before the chip is set up, something else has to succeed. -/
theorem Fresh.andThen {first second : DriverM Bool} (hfirst : Maintains (Fresh config) first)
    (hsecond : ∀ state, Fresh config state → wp second (Configuring config) state) :
    ∀ state, Fresh config state →
      wp (Dialogue.andThen first second) (Configuring config) state := by
  intro state h
  rw [wp_andThen]
  refine wp_mono (hfirst state h) fun ok s₁ h₁ => ?_
  cases ok with
  | true => exact hsecond s₁ h₁
  | false =>
    refine ⟨h₁.config_eq, ?_⟩
    rw [h₁.silent]
    exact .nothing _

theorem wp_startUp (h : Fresh config state) : wp startUp (Configuring config) state := by
  have hs : Steady (fun _ => False) config (Fresh config) := Fresh.steady
  rw [startUp, wp_bind, wp_memory]
  -- The bus, the antenna switch and the reset line are no commands to the chip.
  refine Fresh.andThen (hs.spiSetting _) (Fresh.andThen (hs.spiSetting _)
    (Fresh.andThen (hs.spiSetting _) (Fresh.andThen (hs.setAntennaSwitch _)
      (Fresh.andThen hs.resetRadio fun s hs => ?_)))) state h
  refine wp_mono (adds_configureRadio s hs.config_eq) ?_
  rintro ok s' ⟨hconfig, added, hadded, hran⟩
  refine ⟨hconfig, ?_⟩
  rw [hadded, hs.silent, List.nil_append]
  exact hran

end Constructor

/-! ### Later calls -/

section Configured

variable {config : LinuxCapLora1262Config} {state : State}

/-- The chip is set up, and no setting was changed since. -/
structure Complete (config : LinuxCapLora1262Config) (state : State) : Prop where
  config_eq : state.memory.config = config
  valid : config.valid = true
  settings : ∃ setup later, commands state.said = setup ++ later ∧
    Ran (configurePlan config.profile) true setup ∧ ∀ command ∈ later, command.opcode ∉ kSettings

theorem Complete.steady : Steady (· ∉ kSettings) config (Complete config) where
  config_eq h := h.config_eq
  adds := by
    rintro state state' added ⟨-, hvalid, setup, later, hsaid, hran, hlater⟩ hconfig hadded hkind
    refine ⟨hconfig, hvalid, setup, later ++ added, ?_, hran,
      List.forall_mem_append.mpr ⟨hlater, hkind⟩⟩
    rw [hadded, hsaid, List.append_assoc]

/-- The chip could not be set up; it may have been put to sleep. -/
structure Broken (config : LinuxCapLora1262Config) (state : State) : Prop where
  config_eq : state.memory.config = config
  settings : ∃ setup later, commands state.said = setup ++ later ∧
    Ran (configurePlan config.profile) false setup ∧ ∀ command ∈ later, command.opcode = kSetSleep

theorem Broken.steady : Steady (· = kSetSleep) config (Broken config) where
  config_eq h := h.config_eq
  adds := by
    rintro state state' added ⟨-, setup, later, hsaid, hran, hlater⟩ hconfig hadded hkind
    refine ⟨hconfig, setup, later ++ added, ?_, hran, List.forall_mem_append.mpr ⟨hlater, hkind⟩⟩
    rw [hadded, hsaid, List.append_assoc]

def Configured (config : LinuxCapLora1262Config) (state : State) : Prop :=
  Complete config state ∨ state.memory.closed = true ∧ Broken config state

theorem wp_closed_shutdown (state : State) :
    wp shutdown (fun _ state' => state'.memory.closed = true) state := by
  have hclose (handle : Handle) :
      Maintains (fun state : State => state.memory.closed = true) (closeHandle handle) := by
    refine .bind .memory fun radio => ?_
    split
    · exact .pure _
    refine .bind (.update fun _ h => h) fun _ => ?_
    rw [closeDescriptor]
    split
    · exact .pure _
    · exact .bind (.insist fun _ _ _ h => h) fun _ => .pure _
  have hcloseHandles : Maintains (fun state : State => state.memory.closed = true) closeHandles :=
    .bind (hclose _) fun _ => .bind (hclose _) fun _ => .bind (hclose _) fun _ =>
      .bind (hclose _) fun _ => .bind (hclose _) fun _ => .pure _
  rw [shutdown, wp_bind, wp_memory]
  split
  · rename_i hclosed
    exact hclosed
  rw [wp_bind]
  refine wp_mono (show wp putToSleep (fun _ _ => True) state from trivial) fun _ s₁ _ => ?_
  rw [wp_bind]
  refine wp_mono (show wp switchOff (fun _ _ => True) s₁ from trivial) fun _ s₂ _ => ?_
  rw [wp_bind, wp_update]
  -- The flag is set before the descriptors are given back.
  exact hcloseHandles _ rfl

theorem Broken.shutdown (h : Broken config state) :
    wp shutdown (fun _ state' => Configured config state') state :=
  wp_mono (wp_and (wp_closed_shutdown state) (Broken.steady.shutdown rfl state h))
    fun _ _ h' => .inr h'

theorem Configuring.broken (h : Configuring config false state) : Broken config state :=
  ⟨h.config_eq, _, [], (List.append_nil _).symm, h.ran, List.forall_mem_nil _⟩

theorem Fresh.broken (h : Fresh config state) : Broken config state :=
  ⟨h.config_eq, [], [], h.silent, .nothing _, List.forall_mem_nil _⟩

theorem wp_configured_initializeRadio (h : Fresh config state) :
    wp initializeRadio (fun _ state' => Configured config state') state := by
  have hs : Steady (fun _ => False) config (Fresh config) := Fresh.steady
  rw [initializeRadio, wp_bind, wp_memory]
  split
  · exact h.broken.shutdown
  rename_i hvalid
  rw [wp_bind]
  refine wp_mono (hs.openDevices state h) fun chip s₁ h₁ => ?_
  rw [wp_bind, wp_memory]
  split
  · rw [wp_bind]
    exact wp_mono (hs.closeDescriptor chip s₁ h₁) fun _ s₂ h₂ => h₂.broken.shutdown
  rw [wp_bind]
  refine wp_mono (hs.requestLines chip s₁ h₁) fun _ s₂ h₂ => ?_
  rw [wp_bind]
  refine wp_mono (hs.closeDescriptor chip s₂ h₂) fun _ s₃ h₃ => ?_
  rw [wp_bind, wp_memory]
  split
  · exact h₃.broken.shutdown
  rw [wp_bind]
  -- Up to here nothing has reached the chip, whatever failed.
  refine wp_mono (wp_startUp h₃) fun ok s₄ h₄ => ?_
  cases ok with
  | true =>
    rw [if_pos rfl, wp_update]
    rw [h.config_eq, Bool.not_eq_true', Bool.not_eq_false] at hvalid
    exact .inl ⟨h₄.config_eq, hvalid, _, [], (List.append_nil _).symm, h₄.ran,
      List.forall_mem_nil _⟩
  | false =>
    rw [if_neg Bool.false_ne_true]
    exact h₄.broken.shutdown

/-- A transmission changes no setting. -/
theorem Steady.tryStartTransmit {inv : State → Prop} (hs : Steady (· ∉ kSettings) config inv)
    (data : Bytes) : Maintains inv (tryStartTransmit data) := by
  have hlisten : Maintains inv listenBeforeTalk :=
    hs.appends appends_listenBeforeTalk fun _ _ h command hcommand => by
      rcases h.1 command hcommand with hopcode | hopcode <;> rw [hopcode] <;> decide
  have hplan (profile : Japan920Profile) :
      ∀ bytes ∈ transmitPlan profile data, bytes.headD 0 ∉ kSettings := by
    intro bytes hbytes hsetting
    have hopcode : bytes.headD 0 ∈ [kSetStandby, kSetPacketParams, kWriteBuffer, kClearIrqStatus,
        kSetDioIrqParams, kSetTx] := List.mem_map_of_mem (f := fun bytes => bytes.headD 0) hbytes
    have hnone : [kSetStandby, kSetPacketParams, kWriteBuffer, kClearIrqStatus, kSetDioIrqParams,
        kSetTx].all (· ∉ kSettings) = true := by decide
    exact of_decide_eq_true (List.all_eq_true.mp hnone _ hopcode) hsetting
  have hstart : Maintains inv (startTransmit data) :=
    hs.appends (appends_startTransmit data) fun _ _ hran => hran.kind (· ∉ kSettings) (hplan _)
  refine .bind .memory fun radio => ?_
  split
  · exact .pure _
  split
  · exact .pure _
  refine .bind hlisten fun status => ?_
  split
  · exact .pure _
  refine .bind hstart fun ok => ?_
  split
  · exact .bind (hs.update fun _ => rfl) fun _ => .pure _
  · exact .pure _

/-- Nor does a reception. -/
theorem Steady.poll {inv : State → Prop} (hs : Steady (· ∉ kSettings) config inv)
    (destinationCapacity : ℕ) : Maintains inv (poll destinationCapacity) := by
  have hresume (irq : ℕ) (result : RadioPollResult) : Maintains inv
      (LinuxCapLora1262Radio.resumeReceive irq result) :=
    hs.resumeReceive And.right irq result
  have hpayload (irq : ℕ) : Maintains inv (receivePayload irq destinationCapacity) := by
    refine .bind (hs.readCommand (by decide)) fun status => ?_
    split
    · exact .pure _
    dsimp only
    split
    · exact hresume _ _
    refine .bind (hs.readCommand (by decide)) fun payload => ?_
    split
    · exact .pure _
    · exact hresume _ _
  -- Every branch reads, or starts to receive again as the plan has it.
  refine .bind .memory fun radio => ?_
  split
  · exact .pure _
  refine .bind (hs.gpioGet _) fun high => ?_
  split
  · exact .pure _
  · exact .pure _
  refine .bind (hs.readIrq And.right) fun irq => ?_
  split
  · exact .pure _
  split
  · exact .pure _
  split
  · exact hresume _ _
  split
  · exact hresume _ _
  split
  · exact hresume _ _
  split
  · exact .pure _
  · exact hpayload _

theorem Configured.apply (h : Configured config state) (hkept : Kept config state)
    (call : DriverCall) : Configured config (call.apply state) := by
  obtain h | ⟨hclosed, h⟩ := h
  · left
    cases call with
    | tryStartTransmit data => exact Complete.steady.tryStartTransmit data state h
    | poll destinationCapacity => exact Complete.steady.poll destinationCapacity state h
    | shutdown => exact Complete.steady.shutdown (by decide) state h
  · -- a driver that is closed does nothing
    have hsame : call.apply state = state := hkept.closed_apply hclosed [call]
    rw [hsame]
    exact .inr ⟨hclosed, h⟩

theorem configured_new (config : LinuxCapLora1262Config) (script : List LinuxAnswer) :
    Configured config (new config script) :=
  wp_configured_initializeRadio ⟨rfl, rfl⟩

theorem configured_after (config : LinuxCapLora1262Config) (script : List LinuxAnswer)
    (calls : List DriverCall) : Configured config (after config script calls) := by
  induction calls using List.reverseRecOn with
  | nil => exact configured_new config script
  | append_singleton calls call ih =>
    rw [after, List.foldl_concat]
    exact ih.apply (kept_after config script calls) call

/-- A driver between two calls, in order and with its settings. -/
structure Managed (config : LinuxCapLora1262Config) (state : State) : Prop
    extends Kept config state where
  configured : Configured config state

theorem Managed.apply (h : Managed config state) (call : DriverCall) :
    Managed config (call.apply state) :=
  ⟨h.toKept.apply call, h.configured.apply h.toKept call⟩

theorem managed_new (config : LinuxCapLora1262Config) (script : List LinuxAnswer) :
    Managed config (new config script) :=
  ⟨(built_new config script).1, configured_new config script⟩

theorem wp_managed_shutdown (h : Managed config state) :
    wp shutdown (fun _ state' => Managed config state' ∧ state'.memory.closed = true) state := by
  have hmanaged : wp shutdown (fun _ state' => Managed config state') state := h.apply .shutdown
  refine wp_mono (wp_and hmanaged (wp_shutdown h.toSound h.idle)) ?_
  rintro _ state' ⟨hmanaged, -, hclosed⟩
  exact ⟨hmanaged, hclosed⟩

end Configured

/-! ### The radio link -/

section TunedTo

variable {config : LinuxCapLora1262Config} {profile : Japan920Profile} {state : State}

/-- What the settings mean.  The frequency is that of the profile, down to a step of the chip, of
which there are 2^25 in 32 MHz; the nibbles of the sync word are in two registers. -/
structure TunedTo (profile : Japan920Profile) (executed : List Bytes) : Prop where
  packets : lastOf [kSetPacketType] executed = some [kSetPacketType, kLoRaPacketType]
  frequency : ∃ word, lastOf [kSetRfFrequency] executed = some (kSetRfFrequency :: word) ∧
    word.length = 4 ∧ BigEndian.ofBytes word * 32000000 ≤ profile.frequencyHz * 2 ^ 25 ∧
      profile.frequencyHz * 2 ^ 25 < (BigEndian.ofBytes word + 1) * 32000000
  modulation : ∃ spreadingFactor codingRate lowDataRate, lastOf [kSetModulationParams] executed =
      some [kSetModulationParams, spreadingFactor, kBandwidth125Khz, codingRate, lowDataRate] ∧
    profile.bandwidthHz = 125000 ∧ spreadingFactor.toNat = profile.spreadingFactor ∧
      codingRate.toNat + 4 = profile.codingRateDenominator ∧
      lowDataRate = if 11 ≤ profile.spreadingFactor then 1 else 0
  power : ∃ power, lastOf [kSetTxParams] executed = some [kSetTxParams, power, 0x04] ∧
    power.toNat = profile.transmitPowerDbm
  amplifier : lastOf [kSetPaConfig] executed = some [kSetPaConfig, 0x04, 0x07, 0x00, 0x01]
  syncWord : ∃ high low, lastOf [kWriteRegister] executed =
      some (kWriteRegister :: (BigEndian.toBytes 2 kLoRaSyncWordRegister ++ [high, low])) ∧
    high.toNat / 16 * 16 + low.toNat / 16 = profile.syncWord

theorem valid_profile (h : config.valid = true) : config.profile.valid = true := by
  rw [LinuxCapLora1262Config.valid] at h
  exact (Bool.and_eq_true_iff.mp h).2

theorem profile_bounds (h : profile.valid = true) : profile.bandwidthHz = 125000 ∧
    profile.spreadingFactor ≤ 12 ∧ 5 ≤ profile.codingRateDenominator ∧
    profile.codingRateDenominator ≤ 8 ∧ profile.transmitPowerDbm ≤ 13 ∧
    profile.syncWord = 0x12 ∧ profile.frequencyHz ≤ Japan920Profile.kCapUpperHz := by
  rw [Japan920Profile.valid] at h
  split at h
  · cases h
  rename_i hranges
  simp only [not_or, not_not, not_lt, Bool.and_eq_true, decide_eq_true_eq] at hranges h
  refine ⟨hranges.1, ?_, ?_, ?_, ?_, hranges.2.2.2.2.2.2.2, ?_⟩
  all_goals omega

/-- The frequency that the chip is given is at most one step below that of the profile. -/
theorem frequencyWord_bounds (h : profile.valid = true) :
    BigEndian.ofBytes (BigEndian.toBytes 4 (frequencyWord profile)) * 32000000 ≤
        profile.frequencyHz * 2 ^ 25 ∧
      profile.frequencyHz * 2 ^ 25 <
        (BigEndian.ofBytes (BigEndian.toBytes 4 (frequencyWord profile)) + 1) * 32000000 := by
  obtain ⟨-, -, -, -, -, -, hfrequency⟩ := profile_bounds h
  rw [Japan920Profile.kCapUpperHz] at hfrequency
  have hword : frequencyWord profile < 256 ^ 4 := by
    rw [frequencyWord]
    omega
  rw [BigEndian.ofBytes_toBytes hword, frequencyWord]
  omega

theorem configurePlan_tunedTo (h : profile.valid = true) :
    TunedTo profile (configurePlan profile) := by
  obtain ⟨hbandwidth, hspreading, hcoding, hcoding', hpower, hsync, -⟩ := profile_bounds h
  have hbytes (value : ℕ) (hvalue : value < 256) : (UInt8.ofNat value).toNat = value := by
    rw [UInt8.toNat_ofNat']
    exact Nat.mod_eq_of_lt hvalue
  refine ⟨rfl, ⟨_, rfl, BigEndian.length_toBytes .., frequencyWord_bounds h⟩,
    ⟨_, _, _, rfl, hbandwidth, hbytes _ (by omega), ?_, rfl⟩, ⟨_, rfl, hbytes _ (by omega)⟩, rfl,
    _, _, rfl, ?_⟩
  · rw [hbytes _ (by omega)]
    omega
  · rw [hsync]
    decide

/-- Settings are as they were made. -/
theorem Complete.lastOf_eq (h : Complete config state) {opcode : UInt8}
    (hopcode : opcode ∈ kSettings) : lastOf [opcode] (carriedOut (commands state.said)) =
      lastOf [opcode] (configurePlan config.profile) := by
  obtain ⟨setup, later, hsaid, hran, hlater⟩ := h.settings
  rw [hsaid, carriedOut_append, hran.carriedOut_eq]
  refine lastOf_other fun bytes hbytes hmem => ?_
  obtain ⟨command, hcommand, rfl, -⟩ := mem_carriedOut hbytes
  refine hlater command hcommand ?_
  rw [show command.opcode = opcode from List.mem_singleton.mp hmem]
  exact hopcode

theorem Complete.tunedTo (h : Complete config state) :
    TunedTo config.profile (carriedOut (commands state.said)) := by
  obtain ⟨hpackets, hfrequency, hmodulation, hpower, hamplifier, hsync⟩ :=
    configurePlan_tunedTo (valid_profile h.valid)
  refine ⟨?_, ?_, ?_, ?_, ?_, ?_⟩
  · rwa [h.lastOf_eq (by decide)]
  · rwa [h.lastOf_eq (by decide)]
  · rwa [h.lastOf_eq (by decide)]
  · rwa [h.lastOf_eq (by decide)]
  · rwa [h.lastOf_eq (by decide)]
  · rwa [h.lastOf_eq (by decide)]

end TunedTo

/-- However the kernel answers and in whatever order the driver is called: the chip is set up
first, with the values of the configuration; if a command of that fails, no other follows but the
one that puts the chip to sleep, and if none fails, no setting is ever changed.  A transmission is
started only behind the complete plan for one datagram, all of it carried out, right after the
chip has reported that no packet is in the air and that the level is below the threshold; and
the buffer is read only right after the chip has announced a packet without errors, and exactly
where and as far as it said. -/
theorem driver_commands (config : LinuxCapLora1262Config) (script : List LinuxAnswer)
    (calls : List DriverCall) :
    Trace.Each (CommandRule config) (commands (after config script calls).said) ∧
    ∃ ok setup later, commands (after config script calls).said = setup ++ later ∧
      Ran (configurePlan config.profile) ok setup ∧
      (ok = true → (∀ command ∈ later, command.opcode ∉ kSettings) ∧
        TunedTo config.profile (carriedOut (commands (after config script calls).said))) ∧
      (ok = false → ∀ command ∈ later, command.opcode = kSetSleep) := by
  refine ⟨(obeys_after config script calls).rule, ?_⟩
  obtain h | ⟨-, h⟩ := configured_after config script calls
  · obtain ⟨setup, later, hsaid, hran, hlater⟩ := h.settings
    exact ⟨true, setup, later, hsaid, hran, fun _ => ⟨hlater, h.tunedTo⟩,
      fun hfalse => absurd hfalse Bool.false_ne_true.symm⟩
  · obtain ⟨setup, later, hsaid, hran, hlater⟩ := h.settings
    exact ⟨false, setup, later, hsaid, hran, fun hfalse => absurd hfalse Bool.false_ne_true,
      fun _ => hlater⟩

end LinuxCapLora1262Radio

end Lora
