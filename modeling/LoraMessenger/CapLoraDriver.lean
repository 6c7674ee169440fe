/-
The driver of the Cap LoRa-1262.

It talks to the chip over SPI, watches two of its lines over GPIO, resets it over a third one,
and sets the antenna switch over I2C.  Every one of these is a call of the kernel, which may
answer anything; a call takes its time.

* `LinuxCall`, `LinuxAnswer` — what is called, and what may come back;
* `LinuxCapLora1262Radio` — the driver, function by function;
* `LinuxCapLora1262Radio.seam` — the driver as the radio of `CapLora1262Transport`.
-/
import LoraMessenger.BigEndian
import LoraMessenger.DatagramTransports
import LoraMessenger.Dialogue
import LoraMessenger.RadioPolicy

namespace Lora

open Dialogue

/-! ### The kernel -/

inductive SpiSetting where
  | mode (mode : ℕ)
  | bitsPerWord (bits : ℕ)
  | maxSpeedHz (speed : ℕ)

inductive LinuxCall where
  | sleep (micros : ℕ)
  | open (path : String) (writable : Bool)
  | close (descriptor : ℤ)
  | lineHandle (chip : ℤ) (offset : ℕ) (output initialHigh : Bool) (consumer : String)
  | lineValues (descriptor : ℤ)
  | setLineValues (descriptor : ℤ) (high : Bool)
  | spiSetting (descriptor : ℤ) (setting : SpiSetting)
  | spiMessage (descriptor : ℤ) (transmit : Bytes) (speedHz : ℕ)
  | i2cRead (descriptor : ℤ) (address register : UInt8)
  | i2cWrite (descriptor : ℤ) (address register value : UInt8)

/-- What a call returns, what it writes to the memory of the caller, and the microseconds that
it takes beyond those that it was asked to sleep. -/
structure LinuxAnswer where
  result : ℤ := -1
  errno : ℕ := 5
  value : ℤ := 0
  bytes : Bytes := []
  elapsed : ℕ := 0

instance : Inhabited LinuxAnswer := ⟨{}⟩

namespace LinuxCall

def micros : LinuxCall → ℕ
  | .sleep micros => micros
  | _ => 0

/-- The descriptor that a call works on. -/
def descriptor : LinuxCall → Option ℤ
  | .sleep _ => none
  | .open .. => none
  | .close descriptor => some descriptor
  | .lineHandle chip .. => some chip
  | .lineValues descriptor => some descriptor
  | .setLineValues descriptor _ => some descriptor
  | .spiSetting descriptor _ => some descriptor
  | .spiMessage descriptor .. => some descriptor
  | .i2cRead descriptor .. => some descriptor
  | .i2cWrite descriptor .. => some descriptor

end LinuxCall

/-- The time of the steady clock after some calls, in microseconds. -/
def steadyClock (said : List (LinuxCall × LinuxAnswer)) : ℕ :=
  (said.map fun entry => entry.1.micros + entry.2.elapsed).sum

/-! ### The driver -/

structure LinuxCapLora1262Config where
  spiDevice : String := "/dev/spidev0.1"
  gpioChip : String := "/dev/gpiochip0"
  i2cDevice : String := "/dev/i2c-1"
  resetGpio : ℕ := 26
  irqGpio : ℕ := 23
  busyGpio : ℕ := 22
  spiSpeedHz : ℕ := 4000000
  listenBeforeTalkThresholdDbm : ℤ := -90
  antennaConfirmed : Bool := false
  profile : Japan920Profile := {}

def LinuxCapLora1262Config.valid (config : LinuxCapLora1262Config) : Bool :=
  !config.spiDevice.isEmpty && !config.gpioChip.isEmpty && !config.i2cDevice.isEmpty &&
    config.spiSpeedHz > 0 && config.spiSpeedHz ≤ 10000000 &&
    config.resetGpio ≠ config.irqGpio && config.resetGpio ≠ config.busyGpio &&
    config.irqGpio ≠ config.busyGpio && config.listenBeforeTalkThresholdDbm ≥ -127 &&
    config.listenBeforeTalkThresholdDbm ≤ -20 && config.antennaConfirmed && config.profile.valid

/-- The five descriptors of the driver. -/
inductive Handle where
  | spi
  | i2c
  | reset
  | irq
  | busy
deriving DecidableEq

structure LinuxCapLora1262Radio where
  config : LinuxCapLora1262Config
  descriptors : Handle → ℤ := fun _ => -1
  antennaSwitchEnabled : Bool := false
  receiving : Bool := false
  transmitting : Bool := false
  initialized : Bool := false
  closed : Bool := false

namespace LinuxCapLora1262Radio

def kPi4ioAddress : UInt8 := 0x43
def kPi4ioDirection : UInt8 := 0x03
def kPi4ioOutput : UInt8 := 0x05
def kPi4ioHighImpedance : UInt8 := 0x07
def kPi4ioDeviceId : UInt8 := 0x01
def kAntennaSwitchBit : UInt8 := 0x01

def kSetStandby : UInt8 := 0x80
def kSetRx : UInt8 := 0x82
def kSetTx : UInt8 := 0x83
def kSetSleep : UInt8 := 0x84
def kSetRfFrequency : UInt8 := 0x86
def kCalibrate : UInt8 := 0x89
def kSetPacketType : UInt8 := 0x8a
def kSetModulationParams : UInt8 := 0x8b
def kSetPacketParams : UInt8 := 0x8c
def kSetTxParams : UInt8 := 0x8e
def kSetBufferBaseAddress : UInt8 := 0x8f
def kSetPaConfig : UInt8 := 0x95
def kSetRegulatorMode : UInt8 := 0x96
def kSetDio3TcxoCtrl : UInt8 := 0x97
def kCalibrateImage : UInt8 := 0x98
def kSetDioIrqParams : UInt8 := 0x08
def kClearIrqStatus : UInt8 := 0x02
def kWriteRegister : UInt8 := 0x0d
def kWriteBuffer : UInt8 := 0x0e
def kGetIrqStatus : UInt8 := 0x12
def kGetRxBufferStatus : UInt8 := 0x13
def kGetRssiInst : UInt8 := 0x15
def kReadBuffer : UInt8 := 0x1e

def kIrqTxDone : ℕ := 0x0001
def kIrqRxDone : ℕ := 0x0002
def kIrqPreambleDetected : ℕ := 0x0004
def kIrqHeaderValid : ℕ := 0x0010
def kIrqHeaderError : ℕ := 0x0020
def kIrqCrcError : ℕ := 0x0040
def kIrqTimeout : ℕ := 0x0200
def kReceiveIrqs : ℕ :=
  kIrqRxDone ||| kIrqPreambleDetected ||| kIrqHeaderValid ||| kIrqHeaderError ||| kIrqCrcError |||
    kIrqTimeout
def kTransmitIrqs : ℕ := kIrqTxDone ||| kIrqTimeout

def kLoRaSyncWordRegister : ℕ := 0x0740
def kOcpRegister : ℕ := 0x08e7
def kLoRaPacketType : UInt8 := 0x01
def kBandwidth125Khz : UInt8 := 0x04
def kExplicitHeader : UInt8 := 0x00
def kCrcEnabled : UInt8 := 0x01
def kStandardIq : UInt8 := 0x00
def kStandbyRc : UInt8 := 0x00
def kRegulatorDcdc : UInt8 := 0x01
def kTcxo3Volts : UInt8 := 0x06
def kTcxoDelayUnits : ℕ := 320
def kTxTimeoutUnits : ℕ := 320000
def kBusyTimeoutMs : ℕ := 100

abbrev DriverM := Speaker LinuxCapLora1262Radio LinuxCall LinuxAnswer

/-- The memory of the driver, what it has called, and what is still to be answered. -/
abbrev State := Talk LinuxCapLora1262Radio LinuxCall LinuxAnswer

/-! ### Descriptors -/

/-- `close` is repeated as long as it is interrupted. -/
def closeDescriptor (descriptor : ℤ) : DriverM Bool := do
  if descriptor < 0 then pure true
  else
    let answer ← insist (fun answer : LinuxAnswer => answer.result ≠ 0 ∧ answer.errno = 4)
      (.close descriptor)
    pure (answer.result = 0)

def withDescriptor (radio : LinuxCapLora1262Radio) (handle : Handle) (descriptor : ℤ) :
    LinuxCapLora1262Radio :=
  { radio with
    descriptors := fun other => if other = handle then descriptor else radio.descriptors other }

def setDescriptor (handle : Handle) (descriptor : ℤ) : DriverM Unit :=
  update fun radio => radio.withDescriptor handle descriptor

/-- `close_descriptor` on a field. -/
def closeHandle (handle : Handle) : DriverM Bool := do
  let radio ← memory
  if radio.descriptors handle < 0 then pure true
  else
    setDescriptor handle (-1)
    closeDescriptor (radio.descriptors handle)

def openDevice (path : String) (writable : Bool) : DriverM ℤ := do
  let answer ← ask (.open path writable)
  pure answer.result

def gpioGet (handle : Handle) : DriverM (Option Bool) := do
  let answer ← ask (.lineValues ((← memory).descriptors handle))
  pure (if answer.result ≠ 0 then none else some (answer.value ≠ 0))

def gpioSet (handle : Handle) (high : Bool) : DriverM Bool := do
  let answer ← ask (.setLineValues ((← memory).descriptors handle) high)
  pure (answer.result = 0)

def requestGpio (chipDescriptor : ℤ) (offset : ℕ) (output initialHigh : Bool) (consumer : String) :
    DriverM ℤ := do
  let answer ← ask (.lineHandle chipDescriptor offset output initialHigh consumer)
  pure (if answer.result ≠ 0 then -1 else answer.value)

/-! ### The chip -/

/-- The loop of `wait_while_busy`. -/
def waitLoop (deadline : ℕ) : ℕ → DriverM Bool
  | 0 => pure false
  | turns + 1 => do
    match ← gpioGet .busy with
    | none => pure false
    | some false => pure true
    | some true =>
      if steadyClock (← said) ≥ deadline then pure false
      else
        let _ ← ask (.sleep 100)
        waitLoop deadline turns

/-- The loop sleeps at least 100 microseconds in each turn but the last one. -/
def kBusyTurns : ℕ := kBusyTimeoutMs * 1000 / 100 + 1

def waitWhileBusy : DriverM Bool := do
  let deadline := steadyClock (← said) + kBusyTimeoutMs * 1000
  waitLoop deadline kBusyTurns

section Waiting

variable {state : State} {deadline turns : ℕ}

theorem waitLoop_succ : waitLoop deadline (turns + 1) state =
    match gpioGet .busy state with
    | (none, looked) => (false, looked)
    | (some false, looked) => (true, looked)
    | (some true, looked) =>
      if steadyClock looked.said ≥ deadline then (false, looked)
      else waitLoop deadline turns (ask (.sleep 100) looked).2 := by
  rw [waitLoop]
  show (match (gpioGet .busy state).1 with
    | none => _
    | some false => _
    | some true => _ : DriverM Bool) (gpioGet .busy state).2 = _
  rcases gpioGet .busy state with ⟨_ | _ | _, looked⟩
  · rfl
  · rfl
  · show (if _ then _ else _ : DriverM Bool) looked = _
    by_cases hlate : steadyClock looked.said ≥ deadline
    · rw [if_pos hlate]
      dsimp only
      rw [if_pos hlate]
      rfl
    · rw [if_neg hlate]
      dsimp only
      rw [if_neg hlate]
      rfl

theorem steadyClock_concat (said : List (LinuxCall × LinuxAnswer)) (call : LinuxCall)
    (answer : LinuxAnswer) :
    steadyClock (said ++ [(call, answer)]) = steadyClock said + (call.micros + answer.elapsed) := by
  rw [steadyClock, List.map_append, List.sum_append]
  simp [steadyClock]

theorem steadyClock_gpioGet (state : State) (handle : Handle) :
    steadyClock state.said ≤ steadyClock (gpioGet handle state).2.said := by
  show _ ≤ steadyClock (state.said ++ [_])
  rw [steadyClock_concat]
  exact Nat.le_add_right _ _

/-- Every turn takes 100 microseconds or more, so the deadline ends the loop and not the bound on
its turns. -/
theorem waitLoop_enough (h : deadline ≤ steadyClock state.said + 100 * turns) (more : ℕ) :
    waitLoop deadline (turns + 1 + more) state = waitLoop deadline (turns + 1) state := by
  induction turns generalizing state with
  | zero =>
    rw [Nat.add_right_comm, waitLoop_succ, waitLoop_succ]
    rcases hlooked : gpioGet .busy state with ⟨_ | _ | _, looked⟩
    · rfl
    · rfl
    · have hclock := steadyClock_gpioGet state .busy
      rw [hlooked] at hclock
      dsimp only at hclock ⊢
      rw [if_pos (by omega), if_pos (by omega)]
  | succ turns ih =>
    rw [Nat.add_right_comm, waitLoop_succ, waitLoop_succ]
    rcases hlooked : gpioGet .busy state with ⟨_ | _ | _, looked⟩
    · rfl
    · rfl
    · have hclock := steadyClock_gpioGet state .busy
      rw [hlooked] at hclock
      dsimp only at hclock ⊢
      split
      · rfl
      · refine ih ?_
        show deadline ≤ steadyClock (looked.said ++ [_]) + _
        rw [steadyClock_concat, LinuxCall.micros]
        omega

theorem waitWhileBusy_eq (more : ℕ) : waitWhileBusy state =
    waitLoop (steadyClock state.said + kBusyTimeoutMs * 1000) (kBusyTurns + more) state :=
  (waitLoop_enough (by rw [kBusyTimeoutMs]) more).symm

end Waiting

/-- The bytes that the kernel has read are at the beginning of a buffer of zeros. -/
def spiTransfer (transmit : Bytes) : DriverM (Option (ℕ → UInt8)) := do
  let radio ← memory
  if radio.descriptors .spi < 0 ∨ transmit.length = 0 then pure none
  else
    let answer ← ask (.spiMessage (radio.descriptors .spi) transmit radio.config.spiSpeedHz)
    pure (if answer.result ≥ 1 then some (fun index => answer.bytes.getD index 0) else none)

def writeCommand (opcode : UInt8) (data : Bytes) : DriverM Bool := do
  if !(← waitWhileBusy) || data.length > kMaximumDatagramBytes + 4 then pure false
  else if (← spiTransfer (opcode :: data)).isNone then pure false
  else if opcode = kSetSleep then pure true
  else waitWhileBusy

def readCommand (opcode : UInt8) (arguments : Bytes) (destinationSize : ℕ) :
    DriverM (Option Bytes) := do
  if !(← waitWhileBusy) || destinationSize = 0 ||
      arguments.length + destinationSize + 2 > kMaximumDatagramBytes + 6 then pure none
  else
    let dataOffset := arguments.length + 2
    match ← spiTransfer (opcode :: arguments ++ List.replicate (1 + destinationSize) 0) with
    | none => pure none
    | some receive =>
      if ← waitWhileBusy then
        pure (some ((List.range destinationSize).map fun index => receive (dataOffset + index)))
      else pure none

def writeRegister (address : ℕ) (data : Bytes) : DriverM Bool :=
  if data.length = 0 ∨ data.length > kMaximumDatagramBytes then pure false
  else writeCommand kWriteRegister (BigEndian.toBytes 2 address ++ data)

/-! ### The antenna switch -/

def i2cReadRegister (register : UInt8) : DriverM (Option UInt8) := do
  let answer ← ask (.i2cRead ((← memory).descriptors .i2c) kPi4ioAddress register)
  pure (if answer.result = 2 then some (answer.bytes.getD 0 0) else none)

def i2cWriteRegister (register value : UInt8) : DriverM Bool := do
  let answer ← ask (.i2cWrite ((← memory).descriptors .i2c) kPi4ioAddress register value)
  pure (answer.result = 1)

def updateI2cRegister (register setMask clearMask : UInt8) : DriverM Bool := do
  match ← i2cReadRegister register with
  | none => pure false
  | some value => i2cWriteRegister register ((value ||| setMask) &&& ~~~clearMask)

def checkDeviceId : DriverM Bool := do
  match ← i2cReadRegister kPi4ioDeviceId with
  | none => pure false
  | some deviceId => pure (deviceId ≠ 0)

def setAntennaSwitch (enabled : Bool) : DriverM Bool := do
  if (← memory).descriptors .i2c < 0 then pure false
  else if enabled then
    if ← andThen checkDeviceId (andThen (updateI2cRegister kPi4ioDirection kAntennaSwitchBit 0)
        (andThen (updateI2cRegister kPi4ioHighImpedance 0 kAntennaSwitchBit)
          (updateI2cRegister kPi4ioOutput kAntennaSwitchBit 0))) then
      update fun radio => { radio with antennaSwitchEnabled := true }
      pure true
    else pure false
  else
    let result ← updateI2cRegister kPi4ioOutput 0 kAntennaSwitchBit
    update fun radio => { radio with antennaSwitchEnabled := false }
    pure result

/-! ### Modes of the chip -/

def resetRadio : DriverM Bool := do
  if !(← gpioSet .reset false) then pure false
  else
    let _ ← ask (.sleep 2000)
    if !(← gpioSet .reset true) then pure false
    else
      let _ ← ask (.sleep 10000)
      waitWhileBusy

def setIrqMask (mask : ℕ) : DriverM Bool :=
  writeCommand kSetDioIrqParams
    (BigEndian.toBytes 2 mask ++ BigEndian.toBytes 2 mask ++ [0, 0, 0, 0])

def clearIrq (mask : ℕ := 0xffff) : DriverM Bool :=
  writeCommand kClearIrqStatus (BigEndian.toBytes 2 mask)

def readIrq : DriverM (Option ℕ) := do
  let data ← readCommand kGetIrqStatus [] 2
  pure (data.map BigEndian.ofBytes)

def setPacketParams (payloadSize : ℕ) : DriverM Bool := do
  if payloadSize = 0 ∨ payloadSize > kMaximumDatagramBytes then pure false
  else
    writeCommand kSetPacketParams
      (BigEndian.toBytes 2 (← memory).config.profile.preambleSymbols ++
        [kExplicitHeader, UInt8.ofNat payloadSize, kCrcEnabled, kStandardIq])

def startReceive : DriverM Bool := do
  if ← andThen (setPacketParams kMaximumDatagramBytes) (andThen clearIrq
      (andThen (setIrqMask kReceiveIrqs) (writeCommand kSetRx [0xff, 0xff, 0xff]))) then
    update fun radio => { radio with receiving := true, transmitting := false }
    pure true
  else pure false

def frequencyWord (profile : Japan920Profile) : ℕ := profile.frequencyHz * 2 ^ 25 / 32000000

def modulation (profile : Japan920Profile) : Bytes :=
  [UInt8.ofNat profile.spreadingFactor, kBandwidth125Khz,
    UInt8.ofNat (profile.codingRateDenominator - 4),
    if profile.spreadingFactor ≥ 11 then 1 else 0]

def syncWordBytes (profile : Japan920Profile) : Bytes :=
  [(UInt8.ofNat profile.syncWord &&& 0xf0) ||| 0x04, (UInt8.ofNat profile.syncWord <<< 4) ||| 0x04]

def configureRadio : DriverM Bool := do
  let profile := (← memory).config.profile
  andThen (writeCommand kSetStandby [kStandbyRc])
    (andThen (writeCommand kSetRegulatorMode [kRegulatorDcdc])
    (andThen (writeCommand kSetDio3TcxoCtrl (kTcxo3Volts :: BigEndian.toBytes 3 kTcxoDelayUnits))
    (andThen (writeCommand kCalibrate [0x7f])
    (andThen (writeCommand kCalibrateImage [0xe1, 0xe9])
    (andThen (writeCommand kSetPacketType [kLoRaPacketType])
    (andThen (writeCommand kSetBufferBaseAddress [0, 0])
    (andThen (writeCommand kSetRfFrequency (BigEndian.toBytes 4 (frequencyWord profile)))
    (andThen (writeCommand kSetModulationParams (modulation profile))
    (andThen (writeCommand kSetPaConfig [0x04, 0x07, 0x00, 0x01])
    (andThen (writeCommand kSetTxParams [UInt8.ofNat profile.transmitPowerDbm, 0x04])
    (andThen (writeRegister kOcpRegister [0x38])
    (andThen (writeRegister kLoRaSyncWordRegister (syncWordBytes profile))
      startReceive))))))))))))

/-! ### The calls of the driver -/

def ready (radio : LinuxCapLora1262Radio) : Bool := radio.initialized && !radio.closed

/-- The first part of `shutdown`. -/
def putToSleep : DriverM Unit := do
  let radio ← memory
  if radio.descriptors .spi ≥ 0 ∧ radio.descriptors .busy ≥ 0 ∧ radio.initialized then
    let _ ← writeCommand kSetSleep [0x00]
    pure ()
  else pure ()

/-- The second part of `shutdown`. -/
def switchOff : DriverM Unit := do
  if (← memory).antennaSwitchEnabled then
    let _ ← setAntennaSwitch false
    pure ()
  else pure ()

/-- The last part of `shutdown`. -/
def closeHandles : DriverM Unit := do
  let _ ← closeHandle .reset
  let _ ← closeHandle .irq
  let _ ← closeHandle .busy
  let _ ← closeHandle .spi
  let _ ← closeHandle .i2c
  pure ()

def shutdown : DriverM Unit := do
  if (← memory).closed then pure ()
  else
    putToSleep
    switchOff
    update fun radio =>
      { radio with initialized := false, receiving := false, transmitting := false, closed := true }
    closeHandles

def spiSetting (setting : SpiSetting) : DriverM Bool := do
  let answer ← ask (.spiSetting ((← memory).descriptors .spi) setting)
  pure (answer.result = 0)

/-- The SPI and I2C devices are opened, and the GPIO chip, whose descriptor is the result. -/
def openDevices : DriverM ℤ := do
  let config := (← memory).config
  openDevice config.spiDevice true >>= setDescriptor .spi
  openDevice config.i2cDevice true >>= setDescriptor .i2c
  openDevice config.gpioChip false

def requestLines (chip : ℤ) : DriverM Unit := do
  let config := (← memory).config
  requestGpio chip config.resetGpio true true "lora-reset" >>= setDescriptor .reset
  requestGpio chip config.irqGpio false false "lora-irq" >>= setDescriptor .irq
  requestGpio chip config.busyGpio false false "lora-busy" >>= setDescriptor .busy

/-- What is done as soon as all handles are at hand. -/
def startUp : DriverM Bool := do
  let config := (← memory).config
  andThen (spiSetting (.mode 0)) (andThen (spiSetting (.bitsPerWord 8))
    (andThen (spiSetting (.maxSpeedHz config.spiSpeedHz)) (andThen (setAntennaSwitch true)
      (andThen resetRadio configureRadio))))

/-- `initialize`. -/
def initializeRadio : DriverM Unit := do
  if !(← memory).config.valid then shutdown
  else
    let gpioChipDescriptor ← openDevices
    let radio ← memory
    if radio.descriptors .spi < 0 ∨ radio.descriptors .i2c < 0 ∨ gpioChipDescriptor < 0 then
      let _ ← closeDescriptor gpioChipDescriptor
      shutdown
    else
      requestLines gpioChipDescriptor
      let _ ← closeDescriptor gpioChipDescriptor
      let radio ← memory
      if radio.descriptors .reset < 0 ∨ radio.descriptors .irq < 0 ∨
          radio.descriptors .busy < 0 then
        shutdown
      else if ← startUp then
        update fun radio => { radio with initialized := true, closed := false }
      else shutdown

/-- The level in dBm, rounded towards zero. -/
def rssiDbm (rawRssi : UInt8) : ℤ := (-(rawRssi.toNat : ℤ)).tdiv 2

/-- The channel is taken, or it is not known whether it is. -/
def listenBeforeTalk : DriverM (Option RadioStartStatus) := do
  match ← gpioGet .irq with
  | none => pure (some .failed)
  | some irqHigh =>
    match ← readIrq with
    | none => pure (some .failed)
    | some irq =>
      if irqHigh ∨ irq &&& (kIrqPreambleDetected ||| kIrqHeaderValid ||| kIrqRxDone) ≠ 0 then
        pure (some .busy)
      else
        match ← readCommand kGetRssiInst [] 1 with
        | none => pure (some .failed)
        | some rawRssi =>
          let threshold := (← memory).config.listenBeforeTalkThresholdDbm
          pure (if rssiDbm (rawRssi.getD 0 0) ≥ threshold then some .busy else none)

/-- The commands that send a datagram. -/
def startTransmit (data : Bytes) : DriverM Bool :=
  andThen (writeCommand kSetStandby [kStandbyRc])
    (andThen (setPacketParams data.length)
    (andThen (writeCommand kWriteBuffer (0 :: data))
    (andThen clearIrq
    (andThen (setIrqMask kTransmitIrqs)
      (writeCommand kSetTx (BigEndian.toBytes 3 kTxTimeoutUnits))))))

def tryStartTransmit (data : Bytes) : DriverM RadioStartStatus := do
  let radio ← memory
  if !radio.ready ∨ data.length = 0 ∨ data.length > kMaximumDatagramBytes then pure .failed
  else if radio.transmitting then pure .busy
  else
    match ← listenBeforeTalk with
    | some status => pure status
    | none =>
      if ← startTransmit data then
        update fun radio => { radio with transmitting := true, receiving := false }
        pure .started
      else pure .failed

/-- The interrupts are cleared, and the chip receives again. -/
def resumeReceive (irq : ℕ) (result : RadioPollResult) : DriverM RadioPollResult := do
  if ← andThen (clearIrq irq) startReceive then pure result else pure ⟨.failed, []⟩

/-- The end of `poll`.  If the payload does not fit, only its size is reported. -/
def receivePayload (irq destinationCapacity : ℕ) : DriverM RadioPollResult := do
  match ← readCommand kGetRxBufferStatus [] 2 with
  | none => pure ⟨.failed, []⟩
  | some status =>
    let payloadSize := (status.getD 0 0).toNat
    if payloadSize = 0 ∨ payloadSize > destinationCapacity then
      resumeReceive irq ⟨.received, List.replicate payloadSize 0⟩
    else
      match ← readCommand kReadBuffer [status.getD 1 0] payloadSize with
      | none => pure ⟨.failed, []⟩
      | some payload => resumeReceive irq ⟨.received, payload⟩

def poll (destinationCapacity : ℕ) : DriverM RadioPollResult := do
  let radio ← memory
  if !radio.ready ∨ destinationCapacity = 0 then pure ⟨.failed, []⟩
  else
    match ← gpioGet .irq with
    | none => pure ⟨.failed, []⟩
    | some false => pure ⟨.idle, []⟩
    | some true =>
      match ← readIrq with
      | none => pure ⟨.failed, []⟩
      | some irq =>
        if irq &&& kIrqTimeout ≠ 0 ∧ radio.transmitting then pure ⟨.failed, []⟩
        else if irq &&& kIrqTimeout ≠ 0 then resumeReceive irq ⟨.idle, []⟩
        else if irq &&& kIrqTxDone ≠ 0 then resumeReceive irq ⟨.transmitComplete, []⟩
        else if irq &&& (kIrqHeaderError ||| kIrqCrcError) ≠ 0 then resumeReceive irq ⟨.idle, []⟩
        else if irq &&& kIrqRxDone = 0 then pure ⟨.idle, []⟩
        else receivePayload irq destinationCapacity

/-- The constructor. -/
def new (config : LinuxCapLora1262Config) (script : List LinuxAnswer) : State :=
  (initializeRadio { memory := { config := config }, script := script }).2

/-- The driver behind the transport, which gives it a buffer for the largest datagram. -/
def seam : CapLora1262Radio State where
  ready state := state.memory.ready
  tryStartTransmit data := tryStartTransmit data
  poll := poll kMaximumDatagramBytes
  shutdown state := (shutdown state).2

end LinuxCapLora1262Radio

end Lora
