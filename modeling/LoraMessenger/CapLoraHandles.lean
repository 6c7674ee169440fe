/-
The handles of the driver of the Cap LoRa-1262.

The kernel hands out descriptors and takes them back.  Whatever it answers, and at whatever
call something fails, the driver works on descriptors that it holds and gives each of them back
once; a transfer over SPI comes directly after the busy line was read as low.

* `Sound` — what holds between any two calls of the driver;
* `Works` — parts of the driver that need all handles;
* `driver_handles` — any number of calls of the driver, in any order.
-/
import LoraMessenger.CapLoraDriver
import Mathlib.Data.List.Count

namespace Lora

open Dialogue

namespace LinuxCall

/-- The descriptor that an answer hands out. -/
def granted : LinuxCall → LinuxAnswer → Option ℤ
  | .open .., answer => if answer.result ≥ 0 then some answer.result else none
  | .lineHandle .., answer =>
    if answer.result = 0 ∧ answer.value ≥ 0 then some answer.value else none
  | _, _ => none

/-- The descriptor that is given back.  An interrupted call does not count, as in POSIX.1-2024: this
is what the driver relies on when it closes again.  Linux documents the descriptor as released even
then, and there the second call would be one on a descriptor that is not held. -/
def released : LinuxCall → LinuxAnswer → Option ℤ
  | .close descriptor, answer =>
    if answer.result ≠ 0 ∧ answer.errno = 4 then none else some descriptor
  | _, _ => none

end LinuxCall

/-- How often a descriptor was handed out. -/
def grants (said : List (LinuxCall × LinuxAnswer)) (descriptor : ℤ) : ℕ :=
  said.countP fun entry => entry.1.granted entry.2 = some descriptor

/-- How often it was given back. -/
def releases (said : List (LinuxCall × LinuxAnswer)) (descriptor : ℤ) : ℕ :=
  said.countP fun entry => entry.1.released entry.2 = some descriptor

/-- The call that a handle has to come from. -/
def Handle.opens (config : LinuxCapLora1262Config) : Handle → LinuxCall → Prop
  | .spi, .open path writable => path = config.spiDevice ∧ writable
  | .i2c, .open path writable => path = config.i2cDevice ∧ writable
  | .reset, .lineHandle _ offset output initialHigh _ =>
    offset = config.resetGpio ∧ output ∧ initialHigh
  | .irq, .lineHandle _ offset output _ _ => offset = config.irqGpio ∧ !output
  | .busy, .lineHandle _ offset output _ _ => offset = config.busyGpio ∧ !output
  | _, _ => False

def Handle.all : List Handle := [.spi, .i2c, .reset, .irq, .busy]

theorem Handle.mem_all (handle : Handle) : handle ∈ Handle.all := by
  cases handle with
  | spi | i2c | reset | irq | busy => decide

namespace LinuxCapLora1262Radio

/-- A handle has been opened in its way. -/
def Origin (config : LinuxCapLora1262Config) (said : List (LinuxCall × LinuxAnswer))
    (handle : Handle) (descriptor : ℤ) : Prop :=
  ∃ entry ∈ said, handle.opens config entry.1 ∧ entry.1.granted entry.2 = some descriptor

/-- The last call was a look at the busy line, which was low. -/
def Polled (config : LinuxCapLora1262Config) (said : List (LinuxCall × LinuxAnswer)) : Prop :=
  ∃ earlier busy answer, said = earlier ++ [(.lineValues busy, answer)] ∧
    Origin config earlier .busy busy ∧ answer.result = 0 ∧ answer.value = 0

/-- What a call may be, given those before it: it works on a descriptor that was handed out and
not given back; and a transfer over SPI goes to the SPI device, fits into the buffers, and comes
directly after the busy line was read as low. -/
structure Rule (config : LinuxCapLora1262Config) (before : List (LinuxCall × LinuxAnswer))
    (entry : LinuxCall × LinuxAnswer) : Prop where
  held : ∀ descriptor, entry.1.descriptor = some descriptor →
    releases before descriptor < grants before descriptor
  transfer : ∀ spi transmit speedHz, entry.1 = .spiMessage spi transmit speedHz →
    Origin config before .spi spi ∧ 0 < transmit.length ∧
      transmit.length ≤ kMaximumDatagramBytes + 6 ∧ Polled config before

/-- How many of the fields hold the descriptor. -/
def holds (radio : LinuxCapLora1262Radio) (descriptor : ℤ) : ℕ :=
  Handle.all.countP fun handle => radio.descriptors handle = descriptor

/-- All handles are at hand. -/
structure Live (radio : LinuxCapLora1262Radio) : Prop where
  handles : ∀ handle, 0 ≤ radio.descriptors handle
  opened : radio.closed = false

/-- Some descriptors are held besides those in the fields. -/
structure Sound (config : LinuxCapLora1262Config) (besides : ℤ → ℕ) (state : State) : Prop where
  config_eq : state.memory.config = config
  live : state.memory.initialized = true ∨ state.memory.antennaSwitchEnabled = true →
    Live state.memory
  origin : ∀ handle, 0 ≤ state.memory.descriptors handle →
    Origin config state.said handle (state.memory.descriptors handle)
  balanced : ∀ descriptor, 0 ≤ descriptor → grants state.said descriptor =
    releases state.said descriptor + holds state.memory descriptor + besides descriptor
  obeys : Trace.Each (Rule config) state.said

section Counts

variable {said : List (LinuxCall × LinuxAnswer)} {call : LinuxCall} {answer : LinuxAnswer}
  {descriptor : ℤ}

theorem grants_concat : grants (said ++ [(call, answer)]) descriptor =
    grants said descriptor + if call.granted answer = some descriptor then 1 else 0 := by
  rw [grants, List.countP_append, List.countP_singleton]
  simp [grants]

theorem releases_concat : releases (said ++ [(call, answer)]) descriptor =
    releases said descriptor + if call.released answer = some descriptor then 1 else 0 := by
  rw [releases, List.countP_append, List.countP_singleton]
  simp [releases]

theorem Origin.concat {config : LinuxCapLora1262Config} {handle : Handle}
    (h : Origin config said handle descriptor) (entry : LinuxCall × LinuxAnswer) :
    Origin config (said ++ [entry]) handle descriptor := by
  obtain ⟨other, hother, hopens⟩ := h
  exact ⟨other, List.mem_append_left _ hother, hopens⟩

theorem holds_pos (radio : LinuxCapLora1262Radio) (handle : Handle) :
    0 < holds radio (radio.descriptors handle) :=
  List.countP_pos_iff.mpr ⟨handle, handle.mem_all, by simp⟩

/-- Empty fields hold nothing. -/
theorem holds_eq_zero {radio : LinuxCapLora1262Radio}
    (h : ∀ handle, radio.descriptors handle < 0) (hdescriptor : 0 ≤ descriptor) :
    holds radio descriptor = 0 := by
  refine List.countP_eq_zero.mpr fun handle _ => ?_
  have hempty := h handle
  simp only [decide_eq_true_eq]
  omega

end Counts

/-! ### Calls on handles -/

/-- A call that hands out nothing, gives nothing back and is no transfer. -/
structure Plain (radio : LinuxCapLora1262Radio) (call : LinuxCall) : Prop where
  descriptor : call.descriptor = none ∨
    ∃ handle, call.descriptor = some (radio.descriptors handle)
  granted : ∀ answer, call.granted answer = none
  released : ∀ answer, call.released answer = none

section Sound

variable {config : LinuxCapLora1262Config} {besides : ℤ → ℕ} {state : State}

/-- A descriptor in a field has been handed out more often than given back. -/
theorem Sound.held (h : Sound config besides state) {handle : Handle}
    (hlive : 0 ≤ state.memory.descriptors handle) :
    releases state.said (state.memory.descriptors handle) <
      grants state.said (state.memory.descriptors handle) := by
  have hpos := holds_pos state.memory handle
  rw [h.balanced _ hlive]
  omega

theorem Sound.plain (h : Sound config besides state) (hlive : Live state.memory) {call : LinuxCall}
    (hplain : Plain state.memory call)
    (htransfer : ∀ spi transmit speedHz, call = .spiMessage spi transmit speedHz →
      spi = state.memory.descriptors .spi ∧ 0 < transmit.length ∧
        transmit.length ≤ kMaximumDatagramBytes + 6 ∧ Polled config state.said)
    (answer : LinuxAnswer) (script : List LinuxAnswer) :
    Sound config besides
      { state with said := state.said ++ [(call, answer)], script := script } where
  config_eq := h.config_eq
  live := h.live
  origin handle hdescriptor := (h.origin handle hdescriptor).concat _
  balanced descriptor hdescriptor := by
    rw [grants_concat, releases_concat, hplain.granted, hplain.released, h.balanced _ hdescriptor]
    simp
  obeys := by
    refine Trace.each_concat.mpr ⟨h.obeys, ?_, ?_⟩
    · intro descriptor hcall
      rcases hplain.descriptor with hnone | ⟨handle, hhandle⟩
      · rw [show call.descriptor = some descriptor from hcall] at hnone
        cases hnone
      · rw [show call.descriptor = some descriptor from hcall, Option.some.injEq] at hhandle
        rw [hhandle]
        exact h.held (hlive.handles handle)
    · intro spi transmit speedHz hcall
      obtain ⟨rfl, hrest⟩ := htransfer spi transmit speedHz hcall
      exact ⟨h.origin .spi (hlive.handles .spi), hrest⟩

/-- Only what is held of real descriptors counts. -/
theorem Sound.congr (h : Sound config besides state) {besides' : ℤ → ℕ}
    (hbesides : ∀ descriptor, 0 ≤ descriptor → besides descriptor = besides' descriptor) :
    Sound config besides' state :=
  ⟨h.config_eq, h.live, h.origin, fun descriptor hdescriptor =>
    hbesides descriptor hdescriptor ▸ h.balanced descriptor hdescriptor, h.obeys⟩

/-- A call that is no transfer. -/
theorem Sound.quiet (h : Sound config besides state) (hlive : Live state.memory) {call : LinuxCall}
    (hplain : Plain state.memory call)
    (hother : ∀ spi transmit speedHz, call ≠ .spiMessage spi transmit speedHz)
    (answer : LinuxAnswer) (script : List LinuxAnswer) :
    Sound config besides
      { state with said := state.said ++ [(call, answer)], script := script } :=
  h.plain hlive hplain (fun _ _ _ hcall => absurd hcall (hother _ _ _)) answer script

/-- The flags do not matter while all handles are at hand. -/
theorem Sound.flags (h : Sound config besides state) (hlive : Live state.memory)
    {radio : LinuxCapLora1262Radio} (hconfig : radio.config = state.memory.config)
    (hdescriptors : radio.descriptors = state.memory.descriptors)
    (hclosed : radio.closed = state.memory.closed) :
    Sound config besides { state with memory := radio } ∧ Live radio := by
  have hlive' : Live radio :=
    ⟨fun handle => hdescriptors ▸ hlive.handles handle, hclosed.trans hlive.opened⟩
  refine ⟨⟨hconfig.trans h.config_eq, fun _ => hlive', ?_, ?_, h.obeys⟩, hlive'⟩
  · intro handle hdescriptor
    dsimp only at hdescriptor ⊢
    rw [hdescriptors] at hdescriptor ⊢
    exact h.origin handle hdescriptor
  · intro descriptor hdescriptor
    rw [h.balanced descriptor hdescriptor]
    simp only [holds, hdescriptors]

end Sound

/-! ### Parts of the driver -/

/-- A program for which all handles are at hand. -/
abbrev Works (config : LinuxCapLora1262Config) (besides : ℤ → ℕ) {α : Type}
    (program : DriverM α) : Prop :=
  Maintains (fun state => Sound config besides state ∧ Live state.memory) program

namespace Works

variable {config : LinuxCapLora1262Config} {besides : ℤ → ℕ}

/-- A plain call that is no transfer. -/
theorem plain {state : State} (h : Sound config besides state ∧ Live state.memory)
    {call : LinuxCall} (hplain : Plain state.memory call)
    (hother : ∀ spi transmit speedHz, call ≠ .spiMessage spi transmit speedHz)
    {α : Type} {next : LinuxAnswer → DriverM α}
    (hnext : ∀ answer, Works config besides (next answer)) :
    wp (ask call >>= next)
      (fun _ state' => Sound config besides state' ∧ Live state'.memory) state := by
  rw [wp_bind]
  exact wp_ask fun answer script => hnext answer _ ⟨h.1.quiet h.2 hplain hother _ _, h.2⟩

theorem gpioGet (handle : Handle) : Works config besides (gpioGet handle) := by
  intro state h
  rw [LinuxCapLora1262Radio.gpioGet, wp_bind, wp_memory]
  exact plain h ⟨.inr ⟨handle, rfl⟩, fun _ => rfl, fun _ => rfl⟩ (by simp) fun _ => .pure _

theorem gpioSet (handle : Handle) (high : Bool) : Works config besides (gpioSet handle high) := by
  intro state h
  rw [LinuxCapLora1262Radio.gpioSet, wp_bind, wp_memory]
  exact plain h ⟨.inr ⟨handle, rfl⟩, fun _ => rfl, fun _ => rfl⟩ (by simp) fun _ => .pure _

theorem sleep (micros : ℕ) {α : Type} {next : LinuxAnswer → DriverM α}
    (hnext : ∀ answer, Works config besides (next answer)) :
    Works config besides (ask (.sleep micros) >>= next) :=
  fun _ h => plain h ⟨.inl rfl, fun _ => rfl, fun _ => rfl⟩ (by simp) hnext

/-- If the loop succeeds, the busy line was just read as low. -/
theorem wp_waitLoop {state : State} (h : Sound config besides state ∧ Live state.memory)
    (deadline turns : ℕ) :
    wp (waitLoop deadline turns)
      (fun ok state' => (Sound config besides state' ∧ Live state'.memory) ∧
        (ok = true → Polled config state'.said)) state := by
  induction turns generalizing state with
  | zero => exact ⟨h, fun hfalse => absurd hfalse Bool.false_ne_true⟩
  | succ turns ih =>
    rw [waitLoop, wp_bind, LinuxCapLora1262Radio.gpioGet, wp_bind, wp_memory, wp_bind]
    refine wp_ask fun answer script => ?_
    have hlooked : Sound config besides { state with
        said := state.said ++ [(.lineValues (state.memory.descriptors .busy), answer)]
        script := script } :=
      h.1.quiet h.2 ⟨.inr ⟨.busy, rfl⟩, fun _ => rfl, fun _ => rfl⟩ (by simp) answer script
    rw [wp_pure]
    by_cases hresult : answer.result = 0
    swap
    · rw [if_pos hresult]
      exact ⟨⟨hlooked, h.2⟩, fun hfalse => absurd hfalse Bool.false_ne_true⟩
    rw [if_neg (not_not.mpr hresult)]
    by_cases hvalue : answer.value = 0
    · rw [hvalue]
      refine ⟨⟨hlooked, h.2⟩, fun _ => ?_⟩
      exact ⟨state.said, _, answer, rfl, h.1.origin .busy (h.2.handles .busy), hresult, hvalue⟩
    · rw [decide_eq_true hvalue]
      dsimp only
      rw [wp_bind, wp_said]
      split
      · exact ⟨⟨hlooked, h.2⟩, fun hfalse => absurd hfalse Bool.false_ne_true⟩
      · rw [wp_bind]
        refine wp_ask fun _ rest => ih ⟨?_, h.2⟩
        exact hlooked.quiet h.2 ⟨.inl rfl, fun _ => rfl, fun _ => rfl⟩ (by simp) _ rest

theorem wp_waitWhileBusy {state : State} (h : Sound config besides state ∧ Live state.memory) :
    wp waitWhileBusy
      (fun ok state' => (Sound config besides state' ∧ Live state'.memory) ∧
        (ok = true → Polled config state'.said)) state := by
  rw [LinuxCapLora1262Radio.waitWhileBusy, wp_bind, wp_said]
  exact wp_waitLoop h _ _

theorem waitWhileBusy : Works config besides waitWhileBusy :=
  fun _ h => wp_mono (wp_waitWhileBusy h) fun _ _ h' => h'.1

/-- A transfer is made while the busy line is low. -/
theorem wp_spiTransfer {state : State} (h : Sound config besides state ∧ Live state.memory)
    (hpolled : Polled config state.said) {transmit : Bytes}
    (hlength : transmit.length ≤ kMaximumDatagramBytes + 6) :
    wp (spiTransfer transmit)
      (fun _ state' => Sound config besides state' ∧ Live state'.memory) state := by
  rw [spiTransfer, wp_bind, wp_memory]
  split
  · exact h
  rename_i hpossible
  obtain ⟨-, hpos⟩ := not_or.mp hpossible
  rw [wp_bind]
  refine wp_ask fun answer script => ⟨?_, h.2⟩
  refine h.1.plain h.2 ⟨.inr ⟨.spi, rfl⟩, fun _ => rfl, fun _ => rfl⟩ ?_ answer script
  intro spi other speedHz hcall
  obtain ⟨rfl, rfl, -⟩ := LinuxCall.spiMessage.inj hcall
  exact ⟨rfl, Nat.pos_of_ne_zero hpos, hlength, hpolled⟩

theorem writeCommand (opcode : UInt8) (data : Bytes) :
    Works config besides (writeCommand opcode data) := by
  intro state h
  rw [LinuxCapLora1262Radio.writeCommand, wp_bind]
  refine wp_mono (wp_waitWhileBusy h) ?_
  rintro ok state₁ ⟨h₁, hpolled⟩
  split
  · exact h₁
  rename_i hgo
  simp only [Bool.or_eq_true, Bool.not_eq_eq_eq_not, Bool.not_true, decide_eq_true_eq,
    not_or, Bool.not_eq_false] at hgo
  rw [wp_bind]
  have hlength : (opcode :: data).length ≤ kMaximumDatagramBytes + 6 := by
    rw [List.length_cons]
    omega
  refine wp_mono (wp_spiTransfer h₁ (hpolled hgo.1) hlength) fun receive state₂ h₂ => ?_
  split
  · exact h₂
  split
  · exact h₂
  · exact waitWhileBusy _ h₂

theorem readCommand (opcode : UInt8) (arguments : Bytes) (destinationSize : ℕ) :
    Works config besides (readCommand opcode arguments destinationSize) := by
  intro state h
  rw [LinuxCapLora1262Radio.readCommand, wp_bind]
  refine wp_mono (wp_waitWhileBusy h) ?_
  rintro ok state₁ ⟨h₁, hpolled⟩
  split
  · exact h₁
  rename_i hgo
  simp only [Bool.or_eq_true, Bool.not_eq_eq_eq_not, Bool.not_true, decide_eq_true_eq,
    not_or, Bool.not_eq_false] at hgo
  rw [wp_bind]
  have hlength : (opcode :: arguments ++ List.replicate (1 + destinationSize) 0).length ≤
      kMaximumDatagramBytes + 6 := by
    rw [List.length_append, List.length_cons, List.length_replicate]
    omega
  refine wp_mono (wp_spiTransfer h₁ (hpolled hgo.1.1) hlength) fun receive state₂ h₂ => ?_
  cases receive with
  | none => exact h₂
  | some receive =>
    dsimp only
    rw [wp_bind]
    refine wp_mono (waitWhileBusy _ h₂) fun ok state₃ h₃ => ?_
    cases ok with
    | true => exact h₃
    | false => exact h₃

theorem writeRegister (address : ℕ) (data : Bytes) :
    Works config besides (writeRegister address data) := by
  unfold LinuxCapLora1262Radio.writeRegister
  split
  · exact .pure _
  · exact writeCommand _ _

theorem i2cReadRegister (register : UInt8) : Works config besides (i2cReadRegister register) := by
  intro state h
  rw [LinuxCapLora1262Radio.i2cReadRegister, wp_bind, wp_memory]
  exact plain h ⟨.inr ⟨.i2c, rfl⟩, fun _ => rfl, fun _ => rfl⟩ (by simp) fun _ => .pure _

theorem i2cWriteRegister (register value : UInt8) :
    Works config besides (i2cWriteRegister register value) := by
  intro state h
  rw [LinuxCapLora1262Radio.i2cWriteRegister, wp_bind, wp_memory]
  exact plain h ⟨.inr ⟨.i2c, rfl⟩, fun _ => rfl, fun _ => rfl⟩ (by simp) fun _ => .pure _

theorem updateI2cRegister (register setMask clearMask : UInt8) :
    Works config besides (updateI2cRegister register setMask clearMask) := by
  refine .bind (i2cReadRegister register) fun value => ?_
  cases value with
  | none => exact .pure _
  | some value => exact i2cWriteRegister _ _

theorem checkDeviceId : Works config besides checkDeviceId := by
  refine .bind (i2cReadRegister kPi4ioDeviceId) fun deviceId => ?_
  cases deviceId with
  | none => exact .pure _
  | some deviceId => exact .pure _

/-- A change of the flags alone. -/
theorem flags {change : LinuxCapLora1262Radio → LinuxCapLora1262Radio}
    (hconfig : ∀ radio, (change radio).config = radio.config)
    (hdescriptors : ∀ radio, (change radio).descriptors = radio.descriptors)
    (hclosed : ∀ radio, (change radio).closed = radio.closed) :
    Works config besides (update change) :=
  .update fun _ h => h.1.flags h.2 (hconfig _) (hdescriptors _) (hclosed _)

theorem setAntennaSwitch (enabled : Bool) : Works config besides (setAntennaSwitch enabled) := by
  refine .bind .memory fun radio => ?_
  split
  · exact .pure _
  split
  · refine .bind (.andThen checkDeviceId (.andThen (updateI2cRegister _ _ _)
      (.andThen (updateI2cRegister _ _ _) (updateI2cRegister _ _ _)))) fun ok => ?_
    split
    · exact .bind (flags (fun _ => rfl) (fun _ => rfl) fun _ => rfl) fun _ => .pure _
    · exact .pure _
  · exact .bind (updateI2cRegister _ _ _) fun _ =>
      .bind (flags (fun _ => rfl) (fun _ => rfl) fun _ => rfl) fun _ => .pure _

theorem resetRadio : Works config besides resetRadio := by
  refine .bind (gpioSet .reset false) fun low => ?_
  split
  · exact .pure _
  refine sleep _ fun _ => .bind (gpioSet .reset true) fun high => ?_
  split
  · exact .pure _
  · exact sleep _ fun _ => waitWhileBusy

theorem setPacketParams (payloadSize : ℕ) : Works config besides (setPacketParams payloadSize) := by
  unfold LinuxCapLora1262Radio.setPacketParams
  split
  · exact .pure _
  · exact .bind .memory fun _ => writeCommand _ _

theorem startReceive : Works config besides startReceive := by
  refine .bind (.andThen (setPacketParams _) (.andThen (writeCommand _ _)
    (.andThen (writeCommand _ _) (writeCommand _ _)))) fun ok => ?_
  split
  · exact .bind (flags (fun _ => rfl) (fun _ => rfl) fun _ => rfl) fun _ => .pure _
  · exact .pure _

theorem configureRadio : Works config besides configureRadio := by
  refine .bind .memory fun radio => ?_
  exact .andThen (writeCommand _ _) (.andThen (writeCommand _ _) (.andThen (writeCommand _ _)
    (.andThen (writeCommand _ _) (.andThen (writeCommand _ _) (.andThen (writeCommand _ _)
    (.andThen (writeCommand _ _) (.andThen (writeCommand _ _) (.andThen (writeCommand _ _)
    (.andThen (writeCommand _ _) (.andThen (writeCommand _ _) (.andThen (writeRegister _ _)
    (.andThen (writeRegister _ _) startReceive))))))))))))

theorem spiSetting (setting : SpiSetting) : Works config besides (spiSetting setting) := by
  intro state h
  rw [LinuxCapLora1262Radio.spiSetting, wp_bind, wp_memory]
  exact plain h ⟨.inr ⟨.spi, rfl⟩, fun _ => rfl, fun _ => rfl⟩ (by simp) fun _ => .pure _

theorem readIrq : Works config besides readIrq :=
  .bind (readCommand _ _ _) fun _ => .pure _

theorem listenBeforeTalk : Works config besides listenBeforeTalk := by
  refine .bind (gpioGet .irq) fun irqHigh => ?_
  split
  · exact .pure _
  refine .bind readIrq fun irq => ?_
  split
  · exact .pure _
  split
  · exact .pure _
  refine .bind (readCommand _ _ _) fun rawRssi => ?_
  split
  · exact .pure _
  · exact .bind .memory fun _ => .pure _

theorem startTransmit (data : Bytes) : Works config besides (startTransmit data) :=
  .andThen (writeCommand _ _) (.andThen (setPacketParams _) (.andThen (writeCommand _ _)
    (.andThen (writeCommand _ _) (.andThen (writeCommand _ _) (writeCommand _ _)))))

theorem resumeReceive (irq : ℕ) (result : RadioPollResult) :
    Works config besides (resumeReceive irq result) := by
  refine .bind (.andThen (writeCommand _ _) startReceive) fun ok => ?_
  split
  · exact .pure _
  · exact .pure _

theorem receivePayload (irq destinationCapacity : ℕ) :
    Works config besides (receivePayload irq destinationCapacity) := by
  refine .bind (readCommand _ _ _) fun status => ?_
  split
  · exact .pure _
  dsimp only
  split
  · exact resumeReceive _ _
  refine .bind (readCommand _ _ _) fun payload => ?_
  split
  · exact .pure _
  · exact resumeReceive _ _

end Works

/-! ### Handing out and giving back -/

/-- One more descriptor is held besides those in the fields. -/
def also (descriptor : ℤ) (besides : ℤ → ℕ) : ℤ → ℕ :=
  fun other => besides other + if other = descriptor then 1 else 0

section Open

variable {config : LinuxCapLora1262Config} {besides : ℤ → ℕ} {state : State}

/-- A call that hands out a descriptor. -/
theorem Sound.grant (h : Sound config besides state) {call : LinuxCall}
    (hcall : ∀ descriptor, call.descriptor = some descriptor →
      releases state.said descriptor < grants state.said descriptor)
    (hother : ∀ spi transmit speedHz, call ≠ .spiMessage spi transmit speedHz)
    (hreleased : ∀ answer, call.released answer = none) (answer : LinuxAnswer)
    (script : List LinuxAnswer) :
    Sound config (also ((call.granted answer).getD (-1)) besides)
      { state with said := state.said ++ [(call, answer)], script := script } where
  config_eq := h.config_eq
  live := h.live
  origin handle hdescriptor := (h.origin handle hdescriptor).concat _
  balanced descriptor hdescriptor := by
    rw [grants_concat, releases_concat, hreleased, h.balanced _ hdescriptor, also]
    rcases call.granted answer with _ | granted
    · simp only [Option.getD_none, reduceCtorEq, if_false]
      rw [if_neg (by omega)]
      omega
    · simp only [Option.getD_some, Option.some.injEq, reduceCtorEq, if_false, eq_comm]
      omega
  obeys := by
    refine Trace.each_concat.mpr ⟨h.obeys, hcall, ?_⟩
    exact fun spi transmit speedHz heq => absurd heq (hother _ _ _)

/-- A handle that was not at hand. -/
theorem holds_set {radio : LinuxCapLora1262Radio} {handle : Handle} {before after descriptor : ℤ}
    (hbefore : radio.descriptors handle = before) :
    holds (radio.withDescriptor handle after) descriptor +
      (if before = descriptor then 1 else 0) =
    holds radio descriptor + if after = descriptor then 1 else 0 := by
  subst hbefore
  cases handle with
  | spi | i2c | reset | irq | busy =>
    simp only [holds, withDescriptor, Handle.all, List.countP_cons, List.countP_nil, reduceCtorEq,
      if_false, if_true, decide_eq_true_eq]
    omega

/-- A descriptor goes into an empty field. -/
theorem Sound.take {descriptor : ℤ} (h : Sound config (also descriptor besides) state)
    {handle : Handle} (hempty : state.memory.descriptors handle < 0)
    (hidle : state.memory.initialized = false ∧ state.memory.antennaSwitchEnabled = false)
    (horigin : 0 ≤ descriptor → Origin config state.said handle descriptor) :
    Sound config besides
      { state with memory := state.memory.withDescriptor handle descriptor } where
  config_eq := h.config_eq
  live hflags := by
    rcases hflags with hflag | hflag
    · exact absurd (hidle.1.symm.trans hflag) (by simp)
    · exact absurd (hidle.2.symm.trans hflag) (by simp)
  origin other hother := by
    dsimp only [withDescriptor] at hother ⊢
    split
    · rename_i hsame
      rw [if_pos hsame] at hother
      exact hsame ▸ horigin hother
    · rename_i hdifferent
      rw [if_neg hdifferent] at hother
      exact h.origin other hother
  balanced other hother := by
    have hset : holds (state.memory.withDescriptor handle descriptor) other + _ = _ :=
      holds_set rfl
    rw [if_neg (by omega), Nat.add_zero] at hset
    rw [h.balanced other hother, also, hset]
    simp only [eq_comm]
    omega
  obeys := h.obeys

/-- A descriptor comes out of its field. -/
theorem Sound.leave (h : Sound config besides state) (handle : Handle)
    (hidle : state.memory.initialized = false ∧ state.memory.antennaSwitchEnabled = false) :
    Sound config (also (state.memory.descriptors handle) besides)
      { state with memory := state.memory.withDescriptor handle (-1) } where
  config_eq := h.config_eq
  live hflags := by
    rcases hflags with hflag | hflag
    · exact absurd (hidle.1.symm.trans hflag) (by simp)
    · exact absurd (hidle.2.symm.trans hflag) (by simp)
  origin other hother := by
    dsimp only [withDescriptor] at hother ⊢
    split
    · rename_i hsame
      rw [if_pos hsame] at hother
      omega
    · rename_i hdifferent
      rw [if_neg hdifferent] at hother
      exact h.origin other hother
  balanced other hother := by
    have hset : holds (state.memory.withDescriptor handle (-1)) other + _ =
        _ + ite (-1 = other) 1 0 :=
      holds_set rfl
    rw [if_neg (show ¬-1 = other by omega), Nat.add_zero] at hset
    rw [h.balanced other hother, also, ← hset]
    simp only [eq_comm]
    omega
  obeys := h.obeys

/-- A call of `close` that is interrupted changes nothing, any other one gives back. -/
theorem Sound.close {descriptor : ℤ} (h : Sound config (also descriptor besides) state)
    (hdescriptor : 0 ≤ descriptor) (answer : LinuxAnswer) (script : List LinuxAnswer) :
    Sound config
      (if answer.result ≠ 0 ∧ answer.errno = 4 then also descriptor besides else besides)
      { state with said := state.said ++ [(.close descriptor, answer)], script := script } where
  config_eq := h.config_eq
  live := h.live
  origin handle hhandle := (h.origin handle hhandle).concat _
  balanced other hother := by
    rw [grants_concat, releases_concat, h.balanced other hother]
    simp only [LinuxCall.granted, LinuxCall.released, reduceCtorEq, if_false]
    split
    · simp
    · simp only [Option.some.injEq, also, eq_comm]
      omega
  obeys := by
    refine Trace.each_concat.mpr ⟨h.obeys, ?_, ?_⟩
    · intro other hcall
      obtain rfl : descriptor = other := Option.some.inj hcall
      have hbalanced := h.balanced descriptor hdescriptor
      simp only [also, if_true] at hbalanced
      show releases state.said descriptor < grants state.said descriptor
      omega
    · exact fun spi transmit speedHz heq => absurd heq (by simp)

theorem wp_closeDescriptor {descriptor : ℤ} (h : Sound config (also descriptor besides) state) :
    wp (closeDescriptor descriptor)
      (fun _ state' => Sound config besides state' ∧ state'.memory = state.memory) state := by
  rw [closeDescriptor]
  split
  · rename_i hnegative
    rw [wp_pure]
    refine ⟨h.congr fun other hother => ?_, rfl⟩
    rw [also, if_neg (by omega), Nat.add_zero]
  rename_i hdescriptor
  rw [wp_bind]
  refine wp_insist (by decide) fun refused answer script hrefused hanswer => ?_
  rw [List.map_append, ← List.append_assoc]
  -- the descriptor is held until the call that is not interrupted
  have hbefore : Sound config (also descriptor besides) { state with
      said := state.said ++ refused.map fun answer => (.close descriptor, answer) } := by
    induction refused using List.reverseRecOn with
    | nil =>
      rw [List.map_nil, List.append_nil]
      exact h
    | append_singleton refused last ih =>
      obtain ⟨hearlier, hlast⟩ := List.forall_mem_append.mp hrefused
      have hnext := (ih hearlier).close (by omega) last state.script
      rw [if_pos (by simpa using hlast last (List.mem_singleton_self _))] at hnext
      rw [List.map_append, ← List.append_assoc]
      exact hnext
  have hlast := hbefore.close (by omega) answer script
  rw [if_neg (by simpa using hanswer)] at hlast
  exact ⟨hlast, rfl⟩

theorem wp_closeHandle (h : Sound config besides state) (handle : Handle)
    (hidle : state.memory.initialized = false ∧ state.memory.antennaSwitchEnabled = false) :
    wp (closeHandle handle)
      (fun _ state' => Sound config besides state' ∧ state'.memory.descriptors handle < 0 ∧
        (∀ other, state.memory.descriptors other < 0 → state'.memory.descriptors other < 0) ∧
        state'.memory.closed = state.memory.closed ∧
        state'.memory.initialized = false ∧ state'.memory.antennaSwitchEnabled = false) state := by
  rw [closeHandle, wp_bind, wp_memory]
  split
  · rename_i hempty
    exact ⟨h, hempty, fun _ hother => hother, rfl, hidle.1, hidle.2⟩
  rw [setDescriptor, wp_bind, wp_update]
  refine wp_mono (wp_closeDescriptor (h.leave handle hidle)) ?_
  rintro ok state' ⟨hsound, hmemory⟩
  rw [hmemory]
  refine ⟨hsound, by simp [withDescriptor], ?_, rfl, hidle.1, hidle.2⟩
  intro other hother
  dsimp only [withDescriptor]
  split
  · omega
  · exact hother

theorem wp_openDevice (h : Sound config besides state) (path : String) (writable : Bool) :
    wp (openDevice path writable)
      (fun descriptor state' => Sound config (also descriptor besides) state' ∧
        state'.memory = state.memory ∧
        ∀ handle : Handle, handle.opens config (.open path writable) → 0 ≤ descriptor →
          Origin config state'.said handle descriptor) state := by
  rw [openDevice, wp_bind]
  refine wp_ask fun answer script => ?_
  have hgrant := Sound.grant h (show ∀ descriptor,
    (LinuxCall.open path writable).descriptor = some descriptor → _ by simp [LinuxCall.descriptor])
    (by simp) (fun _ => rfl) answer script
  rw [wp_pure]
  refine ⟨hgrant.congr fun other hother => ?_, rfl, ?_⟩
  · -- a failed call hands out nothing
    simp only [LinuxCall.granted, also]
    split
    · rfl
    · rw [Option.getD_none, if_neg (by omega), if_neg (by omega)]
  · intro handle hopens hdescriptor
    refine ⟨_, List.mem_append_right _ (List.mem_singleton_self _), hopens, ?_⟩
    exact if_pos hdescriptor

theorem wp_requestGpio {chip : ℤ} (h : Sound config (also chip besides) state) (hchip : 0 ≤ chip)
    (offset : ℕ) (output initialHigh : Bool) (consumer : String) :
    wp (requestGpio chip offset output initialHigh consumer)
      (fun descriptor state' => Sound config (also descriptor (also chip besides)) state' ∧
        state'.memory = state.memory ∧
        ∀ handle : Handle,
          handle.opens config (.lineHandle chip offset output initialHigh consumer) →
          0 ≤ descriptor → Origin config state'.said handle descriptor) state := by
  rw [requestGpio, wp_bind]
  refine wp_ask fun answer script => ?_
  have hheld : releases state.said chip < grants state.said chip := by
    rw [h.balanced chip hchip, also, if_pos rfl]
    omega
  have hgrant := Sound.grant h (show ∀ descriptor,
    (LinuxCall.lineHandle chip offset output initialHigh consumer).descriptor = some descriptor → _
    from fun other hother => Option.some.inj hother ▸ hheld) (by simp) (fun _ => rfl) answer script
  by_cases hresult : answer.result = 0
  · rw [if_neg (not_not.mpr hresult), wp_pure]
    refine ⟨hgrant.congr fun other hother => ?_, rfl, ?_⟩
    · simp only [LinuxCall.granted, hresult, true_and]
      split
      · rfl
      · simp only [also, Option.getD_none]
        rw [if_neg (show ¬other = -1 by omega), if_neg (show ¬other = answer.value by omega)]
    · intro handle hopens hdescriptor
      refine ⟨_, List.mem_append_right _ (List.mem_singleton_self _), hopens, ?_⟩
      exact if_pos ⟨hresult, hdescriptor⟩
  · rw [if_pos hresult, wp_pure]
    refine ⟨hgrant.congr fun other hother => ?_, rfl, ?_⟩
    · rw [LinuxCall.granted, if_neg (fun hboth => hresult hboth.1)]
      rfl
    · intro handle _ hdescriptor
      exact absurd hdescriptor (by decide)

/-- What was opened goes into an empty field. -/
theorem wp_setDescriptor {program : DriverM ℤ} {handle : Handle}
    (h : wp program (fun descriptor state' => Sound config (also descriptor besides) state' ∧
      state'.memory = state.memory ∧
      (0 ≤ descriptor → Origin config state'.said handle descriptor)) state)
    (hempty : state.memory.descriptors handle < 0)
    (hidle : state.memory.initialized = false ∧ state.memory.antennaSwitchEnabled = false) :
    wp (program >>= setDescriptor handle)
      (fun _ state' => Sound config besides state' ∧
        ∃ descriptor, state'.memory = state.memory.withDescriptor handle descriptor) state := by
  rw [wp_bind]
  refine wp_mono h ?_
  rintro descriptor state' ⟨hsound, hmemory, horigin⟩
  rw [setDescriptor, wp_update]
  rw [← hmemory] at hempty hidle ⊢
  exact ⟨hsound.take hempty hidle horigin, descriptor, rfl⟩

/-- Before the handles are used, only some fields are filled. -/
structure Opened (filled : List Handle) (radio : LinuxCapLora1262Radio) : Prop where
  empty : ∀ handle, handle ∉ filled → radio.descriptors handle < 0
  idle : radio.initialized = false ∧ radio.antennaSwitchEnabled = false
  opened : radio.closed = false

theorem Opened.withDescriptor {radio : LinuxCapLora1262Radio} {filled : List Handle}
    (h : Opened filled radio) (handle : Handle) (descriptor : ℤ) :
    Opened (handle :: filled) (radio.withDescriptor handle descriptor) where
  empty other hother := by
    obtain ⟨hne, hnot⟩ := not_or.mp (List.mem_cons.not.mp hother)
    dsimp only [LinuxCapLora1262Radio.withDescriptor]
    rw [if_neg hne]
    exact h.empty other hnot
  idle := h.idle
  opened := h.opened

theorem wp_openDevices (h : Sound config besides state) (hopened : Opened [] state.memory) :
    wp openDevices (fun chip state' => Sound config (also chip besides) state' ∧
      Opened [.i2c, .spi] state'.memory) state := by
  rw [openDevices, wp_bind, wp_memory, wp_bind]
  have hspi : wp (openDevice state.memory.config.spiDevice true >>= setDescriptor .spi) _ state :=
    wp_setDescriptor (wp_mono (wp_openDevice h _ _) fun _ _ h' =>
      ⟨h'.1, h'.2.1, h'.2.2 .spi ⟨congrArg _ h.config_eq, rfl⟩⟩)
      (hopened.empty .spi (by simp)) hopened.idle
  refine wp_mono hspi ?_
  rintro _ s₁ ⟨h₁, spi, hmemory₁⟩
  have hopened₁ : Opened [.spi] s₁.memory := hmemory₁ ▸ hopened.withDescriptor .spi spi
  rw [wp_bind]
  have hi2c : wp (openDevice state.memory.config.i2cDevice true >>= setDescriptor .i2c) _ s₁ :=
    wp_setDescriptor (wp_mono (wp_openDevice h₁ _ _) fun _ _ h' =>
      ⟨h'.1, h'.2.1, h'.2.2 .i2c ⟨congrArg _ h.config_eq, rfl⟩⟩)
      (hopened₁.empty .i2c (by simp)) hopened₁.idle
  refine wp_mono hi2c ?_
  rintro _ s₂ ⟨h₂, i2c, hmemory₂⟩
  have hopened₂ : Opened [.i2c, .spi] s₂.memory := hmemory₂ ▸ hopened₁.withDescriptor .i2c i2c
  refine wp_mono (wp_openDevice h₂ _ _) ?_
  rintro chip s₃ ⟨h₃, hmemory₃, -⟩
  exact ⟨h₃, hmemory₃.symm ▸ hopened₂⟩

theorem wp_requestLines {chip : ℤ} (h : Sound config (also chip besides) state) (hchip : 0 ≤ chip)
    (hopened : Opened [.i2c, .spi] state.memory) :
    wp (requestLines chip) (fun _ state' => Sound config (also chip besides) state' ∧
      Opened [.busy, .irq, .reset, .i2c, .spi] state'.memory ∧
      state'.memory.descriptors .spi = state.memory.descriptors .spi ∧
      state'.memory.descriptors .i2c = state.memory.descriptors .i2c) state := by
  rw [requestLines, wp_bind, wp_memory, wp_bind]
  have hreset : wp (requestGpio chip state.memory.config.resetGpio true true "lora-reset" >>=
      setDescriptor .reset) _ state :=
    wp_setDescriptor (wp_mono (wp_requestGpio h hchip _ _ _ _) fun _ _ h' =>
      ⟨h'.1, h'.2.1, h'.2.2 .reset ⟨congrArg _ h.config_eq, rfl, rfl⟩⟩)
      (hopened.empty .reset (by simp)) hopened.idle
  refine wp_mono hreset ?_
  rintro _ s₁ ⟨h₁, reset, hmemory₁⟩
  have hopened₁ : Opened [.reset, .i2c, .spi] s₁.memory :=
    hmemory₁ ▸ hopened.withDescriptor .reset reset
  rw [wp_bind]
  have hirq : wp (requestGpio chip state.memory.config.irqGpio false false "lora-irq" >>=
      setDescriptor .irq) _ s₁ :=
    wp_setDescriptor (wp_mono (wp_requestGpio h₁ hchip _ _ _ _) fun _ _ h' =>
      ⟨h'.1, h'.2.1, h'.2.2 .irq ⟨congrArg _ h.config_eq, rfl⟩⟩)
      (hopened₁.empty .irq (by simp)) hopened₁.idle
  refine wp_mono hirq ?_
  rintro _ s₂ ⟨h₂, irq, hmemory₂⟩
  have hopened₂ : Opened [.irq, .reset, .i2c, .spi] s₂.memory :=
    hmemory₂ ▸ hopened₁.withDescriptor .irq irq
  have hbusy : wp (requestGpio chip state.memory.config.busyGpio false false "lora-busy" >>=
      setDescriptor .busy) _ s₂ :=
    wp_setDescriptor (wp_mono (wp_requestGpio h₂ hchip _ _ _ _) fun _ _ h' =>
      ⟨h'.1, h'.2.1, h'.2.2 .busy ⟨congrArg _ h.config_eq, rfl⟩⟩)
      (hopened₂.empty .busy (by simp)) hopened₂.idle
  refine wp_mono hbusy ?_
  rintro _ s₃ ⟨h₃, busy, hmemory₃⟩
  refine ⟨h₃, hmemory₃ ▸ hopened₂.withDescriptor .busy busy, ?_, ?_⟩
  · rw [hmemory₃, hmemory₂, hmemory₁]
    rfl
  · rw [hmemory₃, hmemory₂, hmemory₁]
    rfl

end Open

/-! ### Whole calls -/

section Calls

variable {config : LinuxCapLora1262Config} {state : State}

/-- Between two calls.  A closed driver holds nothing. -/
structure Kept (config : LinuxCapLora1262Config) (state : State) : Prop
    extends Sound config (fun _ => 0) state where
  idle : state.memory.closed = true →
    state.memory.initialized = false ∧ ∀ handle, state.memory.descriptors handle < 0

theorem wp_putToSleep (h : Sound config (fun _ => 0) state) :
    wp putToSleep (fun _ state' => Sound config (fun _ => 0) state') state := by
  rw [putToSleep, wp_bind, wp_memory]
  split
  · rename_i hready
    exact (Works.writeCommand _ _ state ⟨h, h.live (.inl hready.2.2)⟩).1
  · exact h

/-- The switch can be reached whenever it is on, so it counts as off from then on. -/
theorem wp_switchOff (h : Sound config (fun _ => 0) state) :
    wp switchOff (fun _ state' => Sound config (fun _ => 0) state' ∧
      state'.memory.antennaSwitchEnabled = false) state := by
  rw [switchOff, wp_bind, wp_memory]
  split
  swap
  · rename_i hoff
    exact ⟨h, Bool.eq_false_iff.mpr hoff⟩
  rename_i hon
  have hlive := h.live (.inr hon)
  refine ⟨(Works.setAntennaSwitch false state ⟨h, hlive⟩).1, ?_⟩
  have hoff : wp (setAntennaSwitch false)
      (fun _ state' => state'.memory.antennaSwitchEnabled = false) state := by
    have hreachable : ¬state.memory.descriptors .i2c < 0 := by
      have := hlive.handles .i2c
      omega
    rw [setAntennaSwitch, wp_bind, wp_memory, if_neg hreachable]
    rfl
  exact hoff

theorem wp_closeHandles (h : Sound config (fun _ => 0) state)
    (hidle : state.memory.initialized = false ∧ state.memory.antennaSwitchEnabled = false) :
    wp closeHandles
      (fun _ state' => Sound config (fun _ => 0) state' ∧
        (∀ handle, state'.memory.descriptors handle < 0) ∧
        state'.memory.closed = state.memory.closed ∧ state'.memory.initialized = false) state := by
  rw [closeHandles, wp_bind]
  refine wp_mono (wp_closeHandle h .reset hidle) ?_
  rintro _ s₁ ⟨h₁, hreset, -, hclosed₁, hidle₁⟩
  rw [wp_bind]
  refine wp_mono (wp_closeHandle h₁ .irq hidle₁) ?_
  rintro _ s₂ ⟨h₂, hirq, hkeep₂, hclosed₂, hidle₂⟩
  rw [wp_bind]
  refine wp_mono (wp_closeHandle h₂ .busy hidle₂) ?_
  rintro _ s₃ ⟨h₃, hbusy, hkeep₃, hclosed₃, hidle₃⟩
  rw [wp_bind]
  refine wp_mono (wp_closeHandle h₃ .spi hidle₃) ?_
  rintro _ s₄ ⟨h₄, hspi, hkeep₄, hclosed₄, hidle₄⟩
  rw [wp_bind]
  refine wp_mono (wp_closeHandle h₄ .i2c hidle₄) ?_
  rintro _ s₅ ⟨h₅, hi2c, hkeep₅, hclosed₅, hidle₅⟩
  refine ⟨h₅, ?_, hclosed₅.trans (hclosed₄.trans (hclosed₃.trans (hclosed₂.trans hclosed₁))),
    hidle₅.1⟩
  -- a handle that is closed stays closed
  intro handle
  cases handle with
  | reset => exact hkeep₅ _ (hkeep₄ _ (hkeep₃ _ (hkeep₂ _ hreset)))
  | irq => exact hkeep₅ _ (hkeep₄ _ (hkeep₃ _ hirq))
  | busy => exact hkeep₅ _ (hkeep₄ _ hbusy)
  | spi => exact hkeep₅ _ hspi
  | i2c => exact hi2c

theorem wp_shutdown (h : Sound config (fun _ => 0) state)
    (hidle : state.memory.closed = true →
      state.memory.initialized = false ∧ ∀ handle, state.memory.descriptors handle < 0) :
    wp shutdown (fun _ state' => Kept config state' ∧ state'.memory.closed = true) state := by
  rw [shutdown, wp_bind, wp_memory]
  split
  · rename_i hclosed
    exact ⟨⟨h, hidle⟩, hclosed⟩
  rw [wp_bind]
  refine wp_mono (wp_putToSleep h) fun _ s₁ h₁ => ?_
  rw [wp_bind]
  refine wp_mono (wp_switchOff h₁) ?_
  rintro _ s₂ ⟨h₂, hoff⟩
  rw [wp_bind, wp_update]
  have h₃ : Sound config (fun _ => 0) { s₂ with memory := { s₂.memory with
      initialized := false, receiving := false, transmitting := false, closed := true } } := by
    refine ⟨h₂.config_eq, ?_, h₂.origin, h₂.balanced, h₂.obeys⟩
    rintro (hflag | hflag)
    · cases hflag
    · exact absurd (hoff.symm.trans hflag) (by simp)
  refine wp_mono (wp_closeHandles h₃ ⟨rfl, hoff⟩) ?_
  rintro _ s₄ ⟨h₄, hnone, hclosed, hinitialized⟩
  exact ⟨⟨h₄, fun _ => ⟨hinitialized, hnone⟩⟩, hclosed⟩

/-- What a driver does while it is ready leaves it in order. -/
theorem Kept.works (h : Kept config state) (hready : state.memory.ready = true) {α : Type}
    {program : DriverM α} (hworks : Works config (fun _ => 0) program) :
    wp program (fun _ state' => Kept config state') state := by
  simp only [ready, Bool.and_eq_true] at hready
  obtain ⟨hsound, hlive⟩ := hworks state ⟨h.toSound, h.toSound.live (.inl hready.1)⟩
  exact ⟨hsound, fun hclosed => absurd (hlive.opened.symm.trans hclosed) (by simp)⟩

theorem Kept.tryStartTransmit (data : Bytes) :
    Maintains (Kept config) (tryStartTransmit data) := by
  intro state h
  rw [LinuxCapLora1262Radio.tryStartTransmit, wp_bind, wp_memory]
  split
  · exact h
  rename_i hgo
  split
  · exact h
  refine h.works (by simpa using (not_or.mp hgo).1) (.bind Works.listenBeforeTalk fun status => ?_)
  split
  · exact .pure _
  refine .bind (Works.startTransmit data) fun ok => ?_
  split
  · exact .bind (Works.flags (fun _ => rfl) (fun _ => rfl) fun _ => rfl) fun _ => .pure _
  · exact .pure _

theorem Kept.poll (destinationCapacity : ℕ) :
    Maintains (Kept config) (poll destinationCapacity) := by
  intro state h
  rw [LinuxCapLora1262Radio.poll, wp_bind, wp_memory]
  split
  · exact h
  rename_i hgo
  refine h.works (by simpa using (not_or.mp hgo).1) (.bind (Works.gpioGet .irq) fun high => ?_)
  split
  · exact .pure _
  · exact .pure _
  refine .bind Works.readIrq fun irq => ?_
  split
  · exact .pure _
  split
  · exact .pure _
  split
  · exact Works.resumeReceive _ _
  split
  · exact Works.resumeReceive _ _
  split
  · exact Works.resumeReceive _ _
  split
  · exact .pure _
  · exact Works.receivePayload _ _

theorem Kept.shutdown : Maintains (Kept config) shutdown :=
  fun _ h => wp_mono (wp_shutdown h.toSound h.idle) fun _ _ h' => h'.1

theorem Works.startUp {besides : ℤ → ℕ} : Works config besides startUp := by
  refine .bind .memory fun radio => ?_
  exact .andThen (Works.spiSetting _) (.andThen (Works.spiSetting _) (.andThen (Works.spiSetting _)
    (.andThen (Works.setAntennaSwitch _) (.andThen Works.resetRadio Works.configureRadio))))

/-- The constructor leaves a driver that is ready, or one that is closed. -/
theorem wp_initializeRadio (h : Sound config (fun _ => 0) state)
    (hopened : Opened [] state.memory) :
    wp initializeRadio
      (fun _ state' => Kept config state' ∧ state'.memory.closed = !state'.memory.initialized)
      state := by
  -- every branch that gives up ends with a driver that is closed
  have hgiveUp {s : State} (hs : Sound config (fun _ => 0) s) (hlive : s.memory.closed = false) :
      wp LinuxCapLora1262Radio.shutdown
        (fun _ s' => Kept config s' ∧ s'.memory.closed = !s'.memory.initialized) s := by
    refine wp_mono (wp_shutdown hs fun hclosed => absurd (hlive.symm.trans hclosed) (by simp)) ?_
    rintro _ s' ⟨hkept, hclosed⟩
    refine ⟨hkept, ?_⟩
    rw [hclosed, (hkept.idle hclosed).1]
    rfl
  rw [initializeRadio, wp_bind, wp_memory]
  split
  · exact hgiveUp h hopened.opened
  rw [wp_bind]
  refine wp_mono (wp_openDevices h hopened) ?_
  rintro chip s₁ ⟨h₁, hopened₁⟩
  rw [wp_bind, wp_memory]
  split
  · rw [wp_bind]
    refine wp_mono (wp_closeDescriptor h₁) ?_
    rintro _ s₂ ⟨h₂, hmemory⟩
    exact hgiveUp h₂ (by rw [hmemory, hopened₁.opened])
  rename_i hdevices
  simp only [not_or, not_lt] at hdevices
  rw [wp_bind]
  refine wp_mono (wp_requestLines h₁ hdevices.2.2 hopened₁) ?_
  rintro _ s₂ ⟨h₂, hopened₂, hspi, hi2c⟩
  rw [wp_bind]
  refine wp_mono (wp_closeDescriptor h₂) ?_
  rintro _ s₃ ⟨h₃, hmemory⟩
  rw [wp_bind, wp_memory]
  split
  · exact hgiveUp h₃ (by rw [hmemory, hopened₂.opened])
  rename_i hlines
  simp only [not_or, not_lt] at hlines
  have hlive : Live s₃.memory := by
    refine ⟨?_, by rw [hmemory, hopened₂.opened]⟩
    intro handle
    cases handle with
    | spi => rw [hmemory, hspi]; exact hdevices.1
    | i2c => rw [hmemory, hi2c]; exact hdevices.2.1
    | reset => exact hlines.1
    | irq => exact hlines.2.1
    | busy => exact hlines.2.2
  rw [wp_bind]
  refine wp_mono (Works.startUp s₃ ⟨h₃, hlive⟩) ?_
  rintro ok s₄ ⟨h₄, hlive₄⟩
  split
  · rw [wp_update]
    let started := { s₄.memory with initialized := true, closed := false }
    have hready := h₄.flags hlive₄ (show started.config = s₄.memory.config from rfl) rfl
      hlive₄.opened.symm
    exact ⟨⟨hready.1, fun hclosed => absurd hclosed (by simp)⟩, rfl⟩
  · exact hgiveUp h₄ hlive₄.opened

/-- Before anything is opened. -/
theorem sound_start (config : LinuxCapLora1262Config) (script : List LinuxAnswer) :
    Sound config (fun _ => 0) { memory := { config := config }, script := script } where
  config_eq := rfl
  live := by simp
  origin handle hhandle := absurd hhandle (by simp)
  balanced descriptor hdescriptor := by
    have hnone : ¬(-1 : ℤ) = descriptor := by omega
    simp [grants, releases, holds, hnone]
  obeys := Trace.each_nil

/-- A driver that was built is ready or closed. -/
theorem built_new (config : LinuxCapLora1262Config) (script : List LinuxAnswer) :
    Kept config (new config script) ∧
      (new config script).memory.closed = !(new config script).memory.initialized :=
  wp_initializeRadio (sound_start config script) ⟨fun handle _ => by simp, ⟨rfl, rfl⟩, rfl⟩

/-- A closed driver makes no call. -/
theorem Kept.closed (h : Kept config state) (hclosed : state.memory.closed = true) (data : Bytes)
    (destinationCapacity : ℕ) :
    LinuxCapLora1262Radio.tryStartTransmit data state = (.failed, state) ∧
      LinuxCapLora1262Radio.poll destinationCapacity state = (⟨.failed, []⟩, state) ∧
      LinuxCapLora1262Radio.shutdown state = ((), state) := by
  have hready : state.memory.ready = false := by
    rw [ready, (h.idle hclosed).1, Bool.false_and]
  refine ⟨?_, ?_, ?_⟩
  · show (if _ then _ else _ : DriverM RadioStartStatus) state = _
    rw [if_pos (by simp [hready])]
    rfl
  · show (if _ then _ else _ : DriverM RadioPollResult) state = _
    rw [if_pos (by simp [hready])]
    rfl
  · show (if _ then _ else _ : DriverM Unit) state = _
    rw [if_pos hclosed]
    rfl

end Calls

/-! ### Runs -/

/-- A call of the driver by its owner. -/
inductive DriverCall where
  | tryStartTransmit (data : Bytes)
  | poll (destinationCapacity : ℕ)
  | shutdown

def DriverCall.apply : DriverCall → State → State
  | .tryStartTransmit data, state => (LinuxCapLora1262Radio.tryStartTransmit data state).2
  | .poll destinationCapacity, state => (LinuxCapLora1262Radio.poll destinationCapacity state).2
  | .shutdown, state => (LinuxCapLora1262Radio.shutdown state).2

/-- The driver after it was built and called. -/
def after (config : LinuxCapLora1262Config) (script : List LinuxAnswer) (calls : List DriverCall) :
    State :=
  calls.foldl (fun state call => call.apply state) (new config script)

theorem Kept.apply {config : LinuxCapLora1262Config} {state : State} (h : Kept config state)
    (call : DriverCall) : Kept config (call.apply state) := by
  cases call with
  | tryStartTransmit data => exact Kept.tryStartTransmit data state h
  | poll destinationCapacity => exact Kept.poll destinationCapacity state h
  | shutdown => exact Kept.shutdown state h

theorem kept_after (config : LinuxCapLora1262Config) (script : List LinuxAnswer)
    (calls : List DriverCall) : Kept config (after config script calls) := by
  induction calls using List.reverseRecOn with
  | nil => exact (built_new config script).1
  | append_singleton calls call ih =>
    rw [after, List.foldl_concat]
    exact ih.apply call

/-- The calls after a shutdown do nothing. -/
theorem Kept.closed_apply {config : LinuxCapLora1262Config} {state : State} (h : Kept config state)
    (hclosed : state.memory.closed = true) (calls : List DriverCall) :
    calls.foldl (fun state call => call.apply state) state = state := by
  induction calls with
  | nil => rfl
  | cons call calls ih =>
    have hsame : call.apply state = state := by
      cases call with
      | tryStartTransmit data => exact congrArg Prod.snd (h.closed hclosed data 0).1
      | poll destinationCapacity =>
        exact congrArg Prod.snd (h.closed hclosed [] destinationCapacity).2.1
      | shutdown => exact congrArg Prod.snd (h.closed hclosed [] 0).2.2
    rw [List.foldl_cons, hsame, ih]

/-- Whatever the kernel answers and in whatever order the driver is called: each call works on a
descriptor that is held, each transfer goes to the SPI device directly after the busy line was
read as low, and each descriptor is in a field of the driver or has been given back.  A driver
that is ready has all five, each from its own device or line; one that was shut down has none,
and makes no call any more. -/
theorem driver_handles (config : LinuxCapLora1262Config) (script : List LinuxAnswer)
    (calls : List DriverCall) :
    Trace.Each (Rule config) (after config script calls).said ∧
    (∀ descriptor, 0 ≤ descriptor → grants (after config script calls).said descriptor =
      releases (after config script calls).said descriptor +
        holds (after config script calls).memory descriptor) ∧
    ((after config script calls).memory.ready = true → ∀ handle,
      0 ≤ (after config script calls).memory.descriptors handle ∧
        Origin config (after config script calls).said handle
          ((after config script calls).memory.descriptors handle)) ∧
    ∀ more, after config script (calls ++ .shutdown :: more) =
        after config script (calls ++ [.shutdown]) ∧
      ∀ descriptor, 0 ≤ descriptor →
        grants (after config script (calls ++ [.shutdown])).said descriptor =
          releases (after config script (calls ++ [.shutdown])).said descriptor := by
  have h := kept_after config script calls
  refine ⟨h.obeys, h.balanced, ?_, ?_⟩
  · intro hready handle
    have hinitialized := (Bool.and_eq_true_iff.mp hready).1
    have hlive := (h.live (.inl hinitialized)).handles handle
    exact ⟨hlive, h.origin handle hlive⟩
  · intro more
    obtain ⟨hended, hclosed⟩ := wp_shutdown h.toSound h.idle
    have heq : after config script (calls ++ [.shutdown]) =
        (LinuxCapLora1262Radio.shutdown (after config script calls)).2 := by
      rw [after, List.foldl_concat]
      rfl
    refine ⟨?_, fun descriptor hdescriptor => ?_⟩
    · rw [← List.singleton_append, ← List.append_assoc, after, List.foldl_append,
        ← after, heq]
      exact hended.closed_apply hclosed more
    · rw [heq, hended.balanced descriptor hdescriptor]
      rw [holds_eq_zero (hended.idle hclosed).2 hdescriptor, Nat.add_zero]

end LinuxCapLora1262Radio

end Lora
