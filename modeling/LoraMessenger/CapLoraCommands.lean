/-
The commands that the driver of the Cap LoRa-1262 sends to the chip.

Seen from the chip, only the transfers over SPI remain of what the driver does.  They may fail
at any place, and then the driver gives up what it has begun.

* `Command`, `commands` — the transfers, and what they read;
* `Appends` — which commands a part of the driver adds to the others;
* `Ran` — a plan of commands that was carried out, or broke off;
* `obeys_after` — nothing is sent before the channel was heard to be free, and nothing is read
  before a packet without errors was announced.
-/
import LoraMessenger.CapLoraHandles

namespace Lora

open Dialogue

namespace LinuxCapLora1262Radio

/-- A transfer over SPI: what was written, whether it succeeded, and what was read. -/
structure Command where
  bytes : Bytes
  done : Bool
  reply : ℕ → UInt8

def Command.opcode (command : Command) : UInt8 := command.bytes.headD 0

/-- The two bytes of a status, behind the opcode and the status of the chip. -/
def Command.word (command : Command) : ℕ :=
  BigEndian.ofBytes [command.reply 2, command.reply 3]

def commandOf : LinuxCall × LinuxAnswer → Option Command
  | (.spiMessage _ transmit _, answer) =>
    some ⟨transmit, answer.result ≥ 1, fun index => answer.bytes.getD index 0⟩
  | _ => none

def commands (said : List (LinuxCall × LinuxAnswer)) : List Command := said.filterMap commandOf

theorem commands_concat (said : List (LinuxCall × LinuxAnswer)) (call : LinuxCall)
    (answer : LinuxAnswer) :
    commands (said ++ [(call, answer)]) = commands said ++ (commandOf (call, answer)).toList := by
  rw [commands, List.filterMap_append, ← commands]
  rcases hcommand : commandOf (call, answer) with _ | command
  · rw [List.filterMap_cons_none hcommand]
    rfl
  · rw [List.filterMap_cons_some hcommand]
    rfl

/-! ### What a part of the driver adds -/

section Appends

variable {config : LinuxCapLora1262Config} {α β : Type}

/-- The program leaves the memory alone and adds commands of this kind. -/
def Appends (config : LinuxCapLora1262Config) (program : DriverM α)
    (post : α → List Command → Prop) : Prop :=
  ∀ state : State, state.memory.config = config →
    wp program (fun value state' => state'.memory = state.memory ∧
      ∃ added, commands state'.said = commands state.said ++ added ∧ post value added) state

namespace Appends

variable {post post' : α → List Command → Prop} {program : DriverM α}

theorem mono (h : Appends config program post)
    (hpost : ∀ value added, post value added → post' value added) :
    Appends config program post' := by
  intro state hconfig
  refine wp_mono (h state hconfig) ?_
  rintro value state' ⟨hmemory, added, hadded, hvalue⟩
  exact ⟨hmemory, added, hadded, hpost value added hvalue⟩

theorem pure {value : α} (h : post value []) : Appends config (pure value) post :=
  fun _ _ => ⟨rfl, [], (List.append_nil _).symm, h⟩

theorem bind {first : DriverM β} {next : β → DriverM α} {between : β → List Command → Prop}
    (h : Appends config first between)
    (hnext : ∀ value added, between value added →
      Appends config (next value) fun result more => post result (added ++ more)) :
    Appends config (first >>= next) post := by
  intro state hconfig
  rw [wp_bind]
  refine wp_mono (h state hconfig) ?_
  rintro value state₁ ⟨hmemory, added, hadded, hvalue⟩
  refine wp_mono (hnext value added hvalue state₁ (hmemory ▸ hconfig)) ?_
  rintro result state₂ ⟨hmemory', more, hmore, hresult⟩
  refine ⟨hmemory'.trans hmemory, added ++ more, ?_, hresult⟩
  rw [hmore, hadded, List.append_assoc]

theorem memory {next : LinuxCapLora1262Radio → DriverM α}
    (h : ∀ radio, radio.config = config → Appends config (next radio) post) :
    Appends config (memory >>= next) post :=
  fun state hconfig => h state.memory hconfig state hconfig

theorem said {next : List (LinuxCall × LinuxAnswer) → DriverM α}
    (h : ∀ calls, Appends config (next calls) post) : Appends config (said >>= next) post :=
  fun state hconfig => h state.said state hconfig

theorem ask {call : LinuxCall} {next : LinuxAnswer → DriverM α}
    (h : ∀ answer, Appends config (next answer) fun result more =>
      post result ((commandOf (call, answer)).toList ++ more)) :
    Appends config (ask call >>= next) post := by
  have hask : Appends config (Dialogue.ask call) fun answer added =>
      added = (commandOf (call, answer)).toList :=
    fun _ _ => wp_ask fun answer script => ⟨rfl, _, commands_concat _ _ _, rfl⟩
  refine hask.bind ?_
  rintro answer added rfl
  exact h answer

theorem ite {c : Prop} [Decidable c] {first second : DriverM α} (h : c → Appends config first post)
    (h' : ¬c → Appends config second post) :
    Appends config (if c then first else second) post := by
  by_cases hc : c
  · rw [if_pos hc]
    exact h hc
  · rw [if_neg hc]
    exact h' hc

end Appends

/-- A plan of commands that was carried out as a whole, or broke off: then the last command may
have failed. -/
structure Ran (plan : List Bytes) (ok : Bool) (added : List Command) : Prop where
  upTo : added.map Command.bytes <+: plan
  whole : ok = true → added.map Command.bytes = plan ∧ ∀ command ∈ added, command.done = true
  earlier : ∀ command ∈ added.dropLast, command.done = true

theorem Ran.nothing (plan : List Bytes) : Ran plan false [] :=
  ⟨List.nil_prefix, fun hfalse => absurd hfalse Bool.false_ne_true, by simp⟩

theorem Ran.append {plan plan' : List Bytes} {ok : Bool} {added more : List Command}
    (h : Ran plan true added) (h' : Ran plan' ok more) :
    Ran (plan ++ plan') ok (added ++ more) where
  upTo := by
    rw [List.map_append, (h.whole rfl).1]
    exact (List.prefix_append_right_inj _).mpr h'.upTo
  whole hok := by
    rw [List.map_append, (h.whole rfl).1, (h'.whole hok).1]
    exact ⟨rfl, List.forall_mem_append.mpr ⟨(h.whole rfl).2, (h'.whole hok).2⟩⟩
  earlier := by
    rw [List.dropLast_append]
    split
    · exact h.earlier
    · exact List.forall_mem_append.mpr ⟨(h.whole rfl).2, h'.earlier⟩

theorem Ran.broken {plan : List Bytes} {added : List Command} (h : Ran plan false added)
    (plan' : List Bytes) : Ran (plan ++ plan') false added :=
  ⟨h.upTo.trans (List.prefix_append _ _), fun hfalse => absurd hfalse Bool.false_ne_true,
    h.earlier⟩

/-- What comes before a command of a plan has been carried out. -/
theorem Ran.split {plan : List Bytes} {ok : Bool} {added before after : List Command}
    {command : Command} (h : Ran plan ok added) (hsplit : added = before ++ command :: after) :
    before.map Command.bytes ++ [command.bytes] <+: plan ∧
      ∀ other ∈ before, other.done = true := by
  subst hsplit
  constructor
  · refine List.IsPrefix.trans ?_ h.upTo
    rw [List.map_append, List.map_cons]
    exact (List.prefix_append_right_inj _).mpr (List.cons_prefix_cons.mpr ⟨rfl, List.nil_prefix⟩)
  · intro other hother
    refine h.earlier other ?_
    rw [List.dropLast_append_cons]
    exact List.mem_append_left _ hother

theorem Appends.andThen {first second : DriverM Bool} {plan plan' : List Bytes}
    (h : Appends config first (Ran plan)) (h' : Appends config second (Ran plan')) :
    Appends config (andThen first second) (Ran (plan ++ plan')) := by
  refine h.bind fun ok added hran => ?_
  cases ok with
  | true => exact h'.mono fun _ _ hmore => hran.append hmore
  | false =>
    refine .pure ?_
    rw [List.append_nil]
    exact hran.broken plan'

/-! ### The transfers -/

theorem appends_gpioGet (handle : Handle) :
    Appends config (gpioGet handle) fun _ added => added = [] :=
  .memory fun _ _ => .ask fun _ => .pure rfl

theorem appends_gpioSet (handle : Handle) (high : Bool) :
    Appends config (gpioSet handle high) fun _ added => added = [] :=
  .memory fun _ _ => .ask fun _ => .pure rfl

theorem appends_waitLoop (deadline turns : ℕ) :
    Appends config (waitLoop deadline turns) fun _ added => added = [] := by
  induction turns with
  | zero => exact .pure rfl
  | succ turns ih =>
    refine (appends_gpioGet .busy).bind ?_
    rintro busy added rfl
    rcases busy with _ | _ | _
    · exact .pure rfl
    · exact .pure rfl
    · exact .said fun calls => .ite (fun _ => .pure rfl) fun _ => .ask fun _ => ih

theorem appends_waitWhileBusy : Appends config waitWhileBusy fun _ added => added = [] :=
  .said fun _ => appends_waitLoop _ _

/-- At most one command is added, and if it succeeded, what it read is the result. -/
theorem appends_spiTransfer (transmit : Bytes) :
    Appends config (spiTransfer transmit) fun receive added =>
      match receive with
      | some reply => added = [⟨transmit, true, reply⟩]
      | none => added = [] ∨ ∃ reply, added = [⟨transmit, false, reply⟩] := by
  refine .memory fun radio _ => .ite (fun _ => .pure (.inl rfl)) fun _ => .ask fun answer => ?_
  by_cases hresult : answer.result ≥ 1
  · rw [if_pos hresult]
    refine .pure ?_
    simp [commandOf, hresult]
  · rw [if_neg hresult]
    refine .pure (.inr ⟨fun index => answer.bytes.getD index 0, ?_⟩)
    simp [commandOf, hresult]

/-- A command that was not carried out is alone. -/
theorem Ran.single {bytes : Bytes} {done : Bool} {reply : ℕ → UInt8} {ok : Bool}
    (h : ok = true → done = true) : Ran [bytes] ok [⟨bytes, done, reply⟩] :=
  ⟨List.prefix_rfl, fun hok => ⟨rfl, by simpa using h hok⟩, by simp⟩

theorem appends_writeCommand (opcode : UInt8) (data : Bytes) :
    Appends config (writeCommand opcode data) (Ran [opcode :: data]) := by
  refine appends_waitWhileBusy.bind ?_
  rintro ready added rfl
  refine .ite (fun _ => .pure (.nothing _)) fun _ => (appends_spiTransfer _).bind ?_
  intro receive added hadded
  rcases receive with _ | receive
  · refine .pure ?_
    rcases hadded with rfl | ⟨reply, rfl⟩
    · exact .nothing _
    · exact .single fun hfalse => absurd hfalse Bool.false_ne_true
  · obtain rfl : added = [⟨opcode :: data, true, receive⟩] := hadded
    refine .ite (fun hnone => absurd hnone (by simp)) fun _ => ?_
    refine .ite (fun _ => .pure (.single fun _ => rfl)) fun _ => appends_waitWhileBusy.mono ?_
    rintro ok more rfl
    exact .single fun _ => rfl

/-- What a command has read is behind its arguments. -/
theorem appends_readCommand (opcode : UInt8) (arguments : Bytes) (destinationSize : ℕ) :
    Appends config (readCommand opcode arguments destinationSize) fun data added =>
      match data with
      | some data => ∃ reply,
        added = [⟨opcode :: arguments ++ List.replicate (1 + destinationSize) 0, true, reply⟩] ∧
          data = (List.range destinationSize).map fun index => reply (arguments.length + 2 + index)
      | none => added = [] ∨ ∃ done reply,
        added = [⟨opcode :: arguments ++ List.replicate (1 + destinationSize) 0, done, reply⟩] := by
  refine appends_waitWhileBusy.bind ?_
  rintro ready added rfl
  refine .ite (fun _ => .pure (.inl rfl)) fun _ => (appends_spiTransfer _).bind ?_
  intro receive added hadded
  rcases receive with _ | receive
  · refine .pure ?_
    rcases hadded with rfl | ⟨reply, rfl⟩
    · exact .inl rfl
    · exact .inr ⟨false, reply, rfl⟩
  · obtain rfl : added = _ := hadded
    refine appends_waitWhileBusy.bind ?_
    rintro ok more rfl
    refine .ite (fun _ => .pure ⟨receive, rfl, rfl⟩) fun _ => .pure (.inr ⟨true, receive, rfl⟩)

theorem appends_readIrq :
    Appends config readIrq fun irq added =>
      match irq with
      | some irq => ∃ reply, added = [⟨[kGetIrqStatus, 0, 0, 0], true, reply⟩] ∧
        irq = Command.word ⟨[kGetIrqStatus, 0, 0, 0], true, reply⟩
      | none => added = [] ∨ ∃ done reply, added = [⟨[kGetIrqStatus, 0, 0, 0], done, reply⟩] := by
  refine (appends_readCommand kGetIrqStatus [] 2).bind ?_
  intro data added hadded
  refine .pure ?_
  rw [List.append_nil]
  rcases data with _ | data
  · exact hadded
  · obtain ⟨reply, rfl, rfl⟩ := hadded
    exact ⟨reply, rfl, rfl⟩

end Appends

/-! ### The rules -/

def transmitPlan (profile : Japan920Profile) (data : Bytes) : List Bytes :=
  [[kSetStandby, kStandbyRc],
    kSetPacketParams :: BigEndian.toBytes 2 profile.preambleSymbols ++
      [kExplicitHeader, UInt8.ofNat data.length, kCrcEnabled, kStandardIq],
    kWriteBuffer :: 0 :: data,
    kClearIrqStatus :: BigEndian.toBytes 2 0xffff,
    kSetDioIrqParams :: (BigEndian.toBytes 2 kTransmitIrqs ++ BigEndian.toBytes 2 kTransmitIrqs ++
      [0, 0, 0, 0]),
    kSetTx :: BigEndian.toBytes 3 kTxTimeoutUnits]

/-- The chip has reported no packet in the air, and a level below the threshold. -/
structure Free (config : LinuxCapLora1262Config) (irq rssi : Command) : Prop where
  irq_bytes : irq.bytes = [kGetIrqStatus, 0, 0, 0]
  irq_done : irq.done = true
  irq_word : irq.word &&& (kIrqPreambleDetected ||| kIrqHeaderValid ||| kIrqRxDone) = 0
  rssi_bytes : rssi.bytes = [kGetRssiInst, 0, 0]
  rssi_done : rssi.done = true
  rssi_level : rssiDbm (rssi.reply 2) < config.listenBeforeTalkThresholdDbm

/-- The chip has reported a packet without errors. -/
structure Announced (irq : Command) : Prop where
  irq_bytes : irq.bytes = [kGetIrqStatus, 0, 0, 0]
  irq_done : irq.done = true
  received : irq.word &&& kIrqRxDone ≠ 0
  intact : irq.word &&& (kIrqHeaderError ||| kIrqCrcError) = 0

/-- What must come before a command. -/
structure CommandRule (config : LinuxCapLora1262Config) (before : List Command)
    (command : Command) : Prop where
  transmit : command.opcode = kSetTx → ∃ earlier irq rssi setup data,
    before = earlier ++ irq :: rssi :: setup ∧ Free config irq rssi ∧
      (∀ other ∈ setup, other.done = true) ∧
      setup.map Command.bytes ++ [command.bytes] = transmitPlan config.profile data ∧
      0 < data.length ∧ data.length ≤ kMaximumDatagramBytes
  read : command.opcode = kReadBuffer → ∃ earlier irq status,
    before = earlier ++ [irq, status] ∧ Announced irq ∧
      status.bytes = [kGetRxBufferStatus, 0, 0, 0] ∧ status.done = true ∧
      0 < (status.reply 2).toNat ∧
      command.bytes =
        kReadBuffer :: status.reply 3 :: List.replicate (1 + (status.reply 2).toNat) 0

/-- Neither starts a transmission nor reads a packet. -/
def Tame (opcode : UInt8) : Prop := opcode ≠ kSetTx ∧ opcode ≠ kReadBuffer

instance (opcode : UInt8) : Decidable (Tame opcode) := inferInstanceAs (Decidable (_ ∧ _))

/-- What sets the chip up. -/
def kSettings : List UInt8 :=
  [kSetRegulatorMode, kSetDio3TcxoCtrl, kCalibrate, kCalibrateImage, kSetPacketType,
    kSetBufferBaseAddress, kSetRfFrequency, kSetModulationParams, kSetPaConfig, kSetTxParams,
    kWriteRegister]

/-- Tame, and changes no setting. -/
def Routine (opcode : UInt8) : Prop := Tame opcode ∧ opcode ∉ kSettings

instance (opcode : UInt8) : Decidable (Routine opcode) := inferInstanceAs (Decidable (_ ∧ _))

/-- All commands so far obey the rules. -/
structure Obeys (config : LinuxCapLora1262Config) (state : State) : Prop where
  config_eq : state.memory.config = config
  rule : Trace.Each (CommandRule config) (commands state.said)

/-- A property that does not depend on commands of this kind. -/
structure Steady (kind : UInt8 → Prop) (config : LinuxCapLora1262Config) (inv : State → Prop) :
    Prop where
  config_eq : ∀ {state}, inv state → state.memory.config = config
  adds : ∀ {state state' : State} {added : List Command}, inv state →
    state'.memory.config = config → commands state'.said = commands state.said ++ added →
    (∀ command ∈ added, kind command.opcode) → inv state'

section Obeys

variable {config : LinuxCapLora1262Config} {before added : List Command}

theorem each_tame (h : Trace.Each (CommandRule config) before)
    (hadded : ∀ command ∈ added, Tame command.opcode) :
    Trace.Each (CommandRule config) (before ++ added) := by
  refine h.append fun pre command post hsplit => ?_
  have htame := hadded command (by rw [hsplit]; simp)
  exact ⟨fun htx => absurd htx htame.1, fun hread => absurd hread htame.2⟩

theorem Ran.kind (kind : UInt8 → Prop) {plan : List Bytes} {ok : Bool} (h : Ran plan ok added)
    (hplan : ∀ bytes ∈ plan, kind (bytes.headD 0)) : ∀ command ∈ added, kind command.opcode :=
  fun _ hcommand => hplan _ (h.upTo.subset (List.mem_map_of_mem hcommand))

/-- The last command of a plan comes after all the others. -/
theorem Ran.last {plan : List Bytes} {last : Bytes} {ok : Bool} {pre post : List Command}
    {command : Command} (h : Ran (plan ++ [last]) ok added)
    (hsplit : added = pre ++ command :: post)
    (hother : ∀ bytes ∈ plan, bytes.headD 0 ≠ command.opcode) :
    pre.map Command.bytes ++ [command.bytes] = plan ++ [last] ∧
      ∀ other ∈ pre, other.done = true := by
  obtain ⟨hupTo, hdone⟩ := h.split hsplit
  refine ⟨?_, hdone⟩
  rcases List.prefix_concat_iff.mp hupTo with heq | hearlier
  · exact heq
  · have hmem : command.bytes ∈ plan := hearlier.subset (by simp)
    exact absurd rfl (hother _ hmem)

/-- The rules hold again after commands that they say nothing about. -/
theorem Obeys.steady : Steady Tame config (Obeys config) where
  config_eq h := h.config_eq
  adds h hconfig hadded htame := ⟨hconfig, hadded ▸ each_tame h.rule htame⟩

end Obeys

/-! ### Parts without transmission and reception -/

namespace Steady

variable {kind : UInt8 → Prop} {config : LinuxCapLora1262Config} {inv : State → Prop}
  (hs : Steady kind config inv)
include hs

theorem appends {α : Type} {program : DriverM α} {post : α → List Command → Prop}
    (h : Appends config program post)
    (hkind : ∀ value added, post value added → ∀ command ∈ added, kind command.opcode) :
    Maintains inv program := by
  intro state hstate
  refine wp_mono (h state (hs.config_eq hstate)) ?_
  rintro value state' ⟨hmemory, added, hadded, hvalue⟩
  exact hs.adds hstate (hmemory ▸ hs.config_eq hstate) hadded (hkind value added hvalue)

theorem ask {call : LinuxCall} (hcall : ∀ answer, commandOf (call, answer) = none) :
    Maintains inv (ask call) := by
  refine .ask fun talk answer script h => ?_
  have hconfig := hs.config_eq h
  refine hs.adds h hconfig (commands_concat _ _ _) ?_
  rw [hcall]
  simp

theorem update {change : LinuxCapLora1262Radio → LinuxCapLora1262Radio}
    (h : ∀ radio, (change radio).config = radio.config) : Maintains inv (update change) := by
  refine .update fun state hstate => ?_
  exact hs.adds hstate ((h _).trans (hs.config_eq hstate)) (List.append_nil _).symm (by simp)

theorem writeCommand {opcode : UInt8} {data : Bytes} (h : kind opcode) :
    Maintains inv (writeCommand opcode data) :=
  hs.appends (appends_writeCommand opcode data) fun _ _ hran => hran.kind kind (by simpa using h)

theorem readCommand {opcode : UInt8} {arguments : Bytes} {destinationSize : ℕ} (h : kind opcode) :
    Maintains inv (readCommand opcode arguments destinationSize) := by
  refine hs.appends (appends_readCommand opcode arguments destinationSize)
    fun data added hadded => ?_
  rcases data with _ | data
  · rcases hadded with rfl | ⟨done, reply, rfl⟩
    · simp
    · simpa [Command.opcode] using h
  · obtain ⟨reply, rfl, -⟩ := hadded
    simpa [Command.opcode] using h

theorem gpioGet (handle : Handle) : Maintains inv (gpioGet handle) :=
  hs.appends (appends_gpioGet handle) (by rintro _ _ rfl; simp)

theorem gpioSet (handle : Handle) (high : Bool) : Maintains inv (gpioSet handle high) :=
  hs.appends (appends_gpioSet handle high) (by rintro _ _ rfl; simp)

theorem waitWhileBusy : Maintains inv waitWhileBusy :=
  hs.appends appends_waitWhileBusy (by rintro _ _ rfl; simp)

theorem updateI2cRegister (register setMask clearMask : UInt8) :
    Maintains inv (updateI2cRegister register setMask clearMask) := by
  refine .bind (.bind .memory fun _ => .bind (hs.ask fun _ => rfl) fun _ => .pure _) fun value => ?_
  split
  · exact .pure _
  · exact .bind .memory fun _ => .bind (hs.ask fun _ => rfl) fun _ => .pure _

theorem setAntennaSwitch (enabled : Bool) :
    Maintains inv (setAntennaSwitch enabled) := by
  refine .bind .memory fun radio => ?_
  split
  · exact .pure _
  split
  · have hcheck : Maintains inv checkDeviceId := by
      refine .bind (.bind .memory fun _ => .bind (hs.ask fun _ => rfl) fun _ => .pure _) fun _ => ?_
      split
      · exact .pure _
      · exact .pure _
    refine .bind (.andThen hcheck (.andThen (hs.updateI2cRegister _ _ _)
      (.andThen (hs.updateI2cRegister _ _ _) (hs.updateI2cRegister _ _ _)))) fun ok => ?_
    split
    · exact .bind (hs.update fun _ => rfl) fun _ => .pure _
    · exact .pure _
  · exact .bind (hs.updateI2cRegister _ _ _) fun _ =>
      .bind (hs.update fun _ => rfl) fun _ => .pure _

theorem resetRadio : Maintains inv resetRadio := by
  refine .bind (hs.gpioSet _ _) fun _ => ?_
  split
  · exact .pure _
  refine .bind (hs.ask fun _ => rfl) fun _ => .bind (hs.gpioSet _ _) fun _ => ?_
  split
  · exact .pure _
  · exact .bind (hs.ask fun _ => rfl) fun _ => hs.waitWhileBusy

theorem closeDescriptor (descriptor : ℤ) :
    Maintains inv (closeDescriptor descriptor) := by
  rw [LinuxCapLora1262Radio.closeDescriptor]
  split
  · exact .pure _
  · refine .bind (.insist fun talk answer script h => ?_) fun _ => .pure _
    have hconfig := hs.config_eq h
    exact hs.adds h hconfig (commands_concat _ _ _) (by simp [commandOf])

theorem closeHandle (handle : Handle) : Maintains inv (closeHandle handle) := by
  refine .bind .memory fun radio => ?_
  split
  · exact .pure _
  · exact .bind (hs.update fun _ => rfl) fun _ => hs.closeDescriptor _

theorem openHandle (path : String) (writable : Bool) (handle : Handle) :
    Maintains inv (openDevice path writable >>= setDescriptor handle) :=
  .bind (.bind (hs.ask fun _ => rfl) fun _ => .pure _) fun _ => hs.update fun _ => rfl

theorem requestHandle (chip : ℤ) (offset : ℕ) (output initialHigh : Bool) (consumer : String)
    (handle : Handle) : Maintains inv
      (requestGpio chip offset output initialHigh consumer >>= setDescriptor handle) :=
  .bind (.bind (hs.ask fun _ => rfl) fun _ => .pure _) fun _ => hs.update fun _ => rfl

theorem spiSetting (setting : SpiSetting) : Maintains inv (spiSetting setting) :=
  .bind .memory fun _ => .bind (hs.ask fun _ => rfl) fun _ => .pure _

theorem openDevices : Maintains inv openDevices :=
  .bind .memory fun _ => .bind (hs.openHandle _ _ _) fun _ => .bind (hs.openHandle _ _ _) fun _ =>
    .bind (hs.ask fun _ => rfl) fun _ => .pure _

theorem requestLines (chip : ℤ) : Maintains inv (requestLines chip) :=
  .bind .memory fun _ => .bind (hs.requestHandle _ _ _ _ _ _) fun _ =>
    .bind (hs.requestHandle _ _ _ _ _ _) fun _ => hs.requestHandle _ _ _ _ _ _

/-- The chip is put to sleep, and this is the only command. -/
theorem shutdown (hsleep : kind kSetSleep) : Maintains inv shutdown := by
  refine .bind .memory fun radio => ?_
  split
  · exact .pure _
  refine .bind (.bind .memory fun radio => ?_) fun _ => .bind (.bind .memory fun radio => ?_)
    fun _ => .bind (hs.update fun _ => rfl) fun _ => .bind (hs.closeHandle _) fun _ =>
    .bind (hs.closeHandle _) fun _ => .bind (hs.closeHandle _) fun _ =>
    .bind (hs.closeHandle _) fun _ => .bind (hs.closeHandle _) fun _ => .pure _
  · split
    · exact .bind (hs.writeCommand hsleep) fun _ => .pure _
    · exact .pure _
  · split
    · exact .bind (hs.setAntennaSwitch _) fun _ => .pure _
    · exact .pure _

section Routine

variable (hroutine : ∀ {opcode}, Routine opcode → kind opcode)
include hroutine

theorem readIrq : Maintains inv readIrq :=
  .bind (hs.readCommand (hroutine (by decide))) fun _ => .pure _

theorem setPacketParams (payloadSize : ℕ) :
    Maintains inv (setPacketParams payloadSize) := by
  rw [LinuxCapLora1262Radio.setPacketParams]
  split
  · exact .pure _
  · exact .bind .memory fun _ => hs.writeCommand (hroutine (by decide))

theorem startReceive : Maintains inv startReceive := by
  refine .bind (.andThen (hs.setPacketParams hroutine _)
    (.andThen (hs.writeCommand (hroutine (by decide)))
    (.andThen (hs.writeCommand (hroutine (by decide)))
      (hs.writeCommand (hroutine (by decide)))))) fun ok => ?_
  split
  · exact .bind (hs.update fun _ => rfl) fun _ => .pure _
  · exact .pure _

theorem resumeReceive (irq : ℕ) (result : RadioPollResult) :
    Maintains inv (resumeReceive irq result) := by
  refine .bind (.andThen (hs.writeCommand (hroutine (by decide))) (hs.startReceive hroutine))
    fun ok => ?_
  split
  · exact .pure _
  · exact .pure _

end Routine

end Steady

/-- The constructor sends tame commands only. -/
theorem Steady.configureRadio {config : LinuxCapLora1262Config} {inv : State → Prop}
    (hs : Steady Tame config inv) : Maintains inv configureRadio := by
  have hwriteRegister (address : ℕ) (data : Bytes) :
      Maintains inv (writeRegister address data) := by
    rw [writeRegister]
    split
    · exact .pure _
    · exact hs.writeCommand (by decide)
  refine .bind .memory fun radio => ?_
  exact .andThen (hs.writeCommand (by decide)) (.andThen (hs.writeCommand (by decide))
    (.andThen (hs.writeCommand (by decide)) (.andThen (hs.writeCommand (by decide))
    (.andThen (hs.writeCommand (by decide)) (.andThen (hs.writeCommand (by decide))
    (.andThen (hs.writeCommand (by decide)) (.andThen (hs.writeCommand (by decide))
    (.andThen (hs.writeCommand (by decide)) (.andThen (hs.writeCommand (by decide))
    (.andThen (hs.writeCommand (by decide)) (.andThen (hwriteRegister _ _)
    (.andThen (hwriteRegister _ _) (hs.startReceive And.left)))))))))))))

theorem Steady.startUp {config : LinuxCapLora1262Config} {inv : State → Prop}
    (hs : Steady Tame config inv) : Maintains inv startUp :=
  .bind .memory fun _ => .andThen (hs.spiSetting _) (.andThen (hs.spiSetting _)
    (.andThen (hs.spiSetting _) (.andThen (hs.setAntennaSwitch _)
      (.andThen hs.resetRadio hs.configureRadio))))

theorem Steady.initializeRadio {config : LinuxCapLora1262Config} {inv : State → Prop}
    (hs : Steady Tame config inv) : Maintains inv initializeRadio := by
  have hshutdown : Maintains inv LinuxCapLora1262Radio.shutdown := hs.shutdown (by decide)
  refine .bind .memory fun radio => ?_
  split
  · exact hshutdown
  refine .bind hs.openDevices fun chip => .bind .memory fun radio => ?_
  split
  · exact .bind (hs.closeDescriptor _) fun _ => hshutdown
  refine .bind (hs.requestLines chip) fun _ => .bind (hs.closeDescriptor _) fun _ =>
    .bind .memory fun radio => ?_
  split
  · exact hshutdown
  refine .bind hs.startUp fun ok => ?_
  split
  · exact hs.update fun _ => rfl
  · exact hshutdown

/-! ### Sending -/

section Sending

variable {config : LinuxCapLora1262Config}

theorem appends_clearIrq (mask : ℕ) : Appends config (clearIrq mask)
    (Ran [kClearIrqStatus :: BigEndian.toBytes 2 mask]) :=
  appends_writeCommand _ _

theorem appends_setPacketParams (payloadSize : ℕ) : Appends config (setPacketParams payloadSize)
    (Ran [kSetPacketParams :: BigEndian.toBytes 2 config.profile.preambleSymbols ++
      [kExplicitHeader, UInt8.ofNat payloadSize, kCrcEnabled, kStandardIq]]) := by
  refine .ite (fun _ => .pure (.nothing _)) fun _ => .memory fun radio hconfig => ?_
  rw [hconfig]
  exact appends_writeCommand _ _

theorem appends_startTransmit (data : Bytes) :
    Appends config (startTransmit data) (Ran (transmitPlan config.profile data)) :=
  .andThen (appends_writeCommand _ _) (.andThen (appends_setPacketParams _)
    (.andThen (appends_writeCommand _ _) (.andThen (appends_clearIrq _)
    (.andThen (appends_writeCommand _ _) (appends_writeCommand _ _)))))

/-- What is asked before a transmission. -/
def Listens (opcode : UInt8) : Prop := opcode = kGetIrqStatus ∨ opcode = kGetRssiInst

theorem Listens.tame {opcode : UInt8} (h : Listens opcode) : Tame opcode := by
  have hirq : Tame kGetIrqStatus := by decide
  have hrssi : Tame kGetRssiInst := by decide
  rcases h with rfl | rfl
  · exact hirq
  · exact hrssi

/-- The channel is free only after two commands that say so. -/
theorem appends_listenBeforeTalk :
    Appends config listenBeforeTalk fun status added =>
      (∀ command ∈ added, Listens command.opcode) ∧ status ≠ some .started ∧
        (status = none → ∃ irq rssi, added = [irq, rssi] ∧ Free config irq rssi) := by
  refine (appends_gpioGet .irq).bind ?_
  rintro irqHigh added rfl
  rcases irqHigh with _ | irqHigh
  · exact .pure ⟨by simp, by simp, by simp⟩
  refine appends_readIrq.bind ?_
  intro irq added hirq
  rcases irq with _ | irq
  · refine .pure ⟨?_, by simp, by simp⟩
    rcases hirq with rfl | ⟨done, reply, rfl⟩
    · simp
    · simp only [List.nil_append, List.append_nil, List.mem_singleton, forall_eq]
      exact .inl rfl
  obtain ⟨irqReply, rfl, rfl⟩ := hirq
  have hirq : Listens (Command.opcode ⟨[kGetIrqStatus, 0, 0, 0], true, irqReply⟩) := .inl rfl
  refine .ite (fun _ => .pure ⟨by simpa using hirq, by simp, by simp⟩) fun hquiet => ?_
  obtain ⟨-, hword⟩ := not_or.mp hquiet
  refine (appends_readCommand kGetRssiInst [] 1).bind ?_
  intro rawRssi added hrssi
  rcases rawRssi with _ | rawRssi
  · refine .pure ⟨?_, by simp, by simp⟩
    rcases hrssi with rfl | ⟨done, reply, rfl⟩
    · simpa using hirq
    · simp only [List.nil_append, List.append_nil, List.singleton_append, List.forall_mem_cons]
      exact ⟨hirq, .inr rfl, by simp⟩
  obtain ⟨rssiReply, rfl, rfl⟩ := hrssi
  refine .memory fun radio hconfig => .pure ⟨?_, ?_, ?_⟩
  · simp only [List.nil_append, List.append_nil, List.singleton_append, List.forall_mem_cons]
    exact ⟨hirq, .inr rfl, by simp⟩
  · split
    · simp
    · simp
  · intro hnone
    refine ⟨_, _, rfl, rfl, rfl, not_not.mp hword, rfl, rfl, ?_⟩
    rw [hconfig] at hnone
    split at hnone
    · cases hnone
    · rename_i hlevel
      exact not_le.mp hlevel

/-- A transmission reads no packet. -/
theorem opcode_ne_readBuffer {profile : Japan920Profile} {data : Bytes} {ok : Bool}
    {added : List Command} (h : Ran (transmitPlan profile data) ok added) :
    ∀ command ∈ added, command.opcode ≠ kReadBuffer := by
  intro command hcommand hread
  have hmem := h.upTo.subset (List.mem_map_of_mem hcommand)
  have hopcode : command.opcode ∈ [kSetStandby, kSetPacketParams, kWriteBuffer, kClearIrqStatus,
      kSetDioIrqParams, kSetTx] := List.mem_map_of_mem (f := fun bytes => bytes.headD 0) hmem
  rw [hread] at hopcode
  exact absurd hopcode (by decide)

/-- Only the last command of the plan starts the transmission. -/
theorem opcode_ne_setTx (profile : Japan920Profile) (data : Bytes) :
    ∀ bytes ∈ (transmitPlan profile data).dropLast, bytes.headD 0 ≠ kSetTx := by
  intro bytes hbytes htx
  have hopcode : bytes.headD 0 ∈ [kSetStandby, kSetPacketParams, kWriteBuffer, kClearIrqStatus,
      kSetDioIrqParams] := List.mem_map_of_mem (f := fun bytes => bytes.headD 0) hbytes
  rw [htx] at hopcode
  exact absurd hopcode (by decide)

/-- A transmission is started only behind its plan. -/
theorem each_transmit {before added : List Command} {irq rssi : Command} {data : Bytes} {ok : Bool}
    (h : Trace.Each (CommandRule config) (before ++ [irq, rssi])) (hfree : Free config irq rssi)
    (hran : Ran (transmitPlan config.profile data) ok added) (hpos : 0 < data.length)
    (hlength : data.length ≤ kMaximumDatagramBytes) :
    Trace.Each (CommandRule config) (before ++ [irq, rssi] ++ added) := by
  refine h.append fun pre command post hsplit => ⟨fun htx => ?_, fun hread => ?_⟩
  · obtain ⟨hplan, hdone⟩ := Ran.last hran hsplit fun bytes hbytes => by
      rw [htx]
      exact opcode_ne_setTx config.profile data bytes hbytes
    exact ⟨before, irq, rssi, pre, data, by simp, hfree, hdone, hplan, hpos, hlength⟩
  · exact absurd hread (opcode_ne_readBuffer hran command (by rw [hsplit]; simp))

theorem Obeys.tryStartTransmit (data : Bytes) :
    Maintains (Obeys config) (tryStartTransmit data) := by
  intro state h
  rw [LinuxCapLora1262Radio.tryStartTransmit, wp_bind, wp_memory]
  split
  · exact h
  rename_i hgo
  obtain ⟨-, hlength⟩ := not_or.mp hgo
  split
  · exact h
  rw [wp_bind]
  refine wp_mono (appends_listenBeforeTalk state h.config_eq) ?_
  rintro status s₁ ⟨hmemory₁, added, hadded, hlistens, -, hnone⟩
  have h₁ : Obeys config s₁ := ⟨hmemory₁ ▸ h.config_eq, hadded ▸ each_tame h.rule
    fun command hcommand => (hlistens command hcommand).tame⟩
  rcases status with _ | status
  swap
  · exact h₁
  obtain ⟨irq, rssi, rfl, hfree⟩ := hnone rfl
  dsimp only
  rw [wp_bind]
  refine wp_mono (appends_startTransmit data s₁ h₁.config_eq) ?_
  rintro ok s₂ ⟨hmemory₂, more, hmore, hran⟩
  have h₂ : Obeys config s₂ := by
    refine ⟨hmemory₂ ▸ h₁.config_eq, ?_⟩
    rw [hmore, hadded]
    exact each_transmit (hadded ▸ h₁.rule) hfree hran (by omega) (by omega)
  split
  · exact ⟨h₂.config_eq, h₂.rule⟩
  · exact h₂

end Sending

/-! ### Receiving -/

section Receiving

variable {config : LinuxCapLora1262Config}

/-- A packet is read behind the two commands that announce it. -/
theorem Obeys.receivePayload {state : State} (h : Obeys config state) {earlier : List Command}
    {irqStatus : Command} (hlast : commands state.said = earlier ++ [irqStatus])
    (hannounced : Announced irqStatus) (irq destinationCapacity : ℕ) :
    wp (receivePayload irq destinationCapacity) (fun _ state' => Obeys config state') state := by
  rw [LinuxCapLora1262Radio.receivePayload, wp_bind]
  refine wp_mono (wp_and (Obeys.steady.readCommand (by decide) state h)
    (appends_readCommand kGetRxBufferStatus [] 2 state h.config_eq)) ?_
  rintro status s₁ ⟨h₁, -, added, hadded, hstatus⟩
  rcases status with _ | status
  · exact h₁
  obtain ⟨reply, rfl, rfl⟩ := hstatus
  dsimp only
  split
  · exact Obeys.steady.resumeReceive And.left _ _ s₁ h₁
  rename_i hsize
  obtain ⟨hpos, -⟩ := not_or.mp hsize
  rw [wp_bind]
  refine wp_mono (appends_readCommand kReadBuffer _ _ s₁ h₁.config_eq) ?_
  rintro payload s₂ ⟨hmemory₂, more, hmore, hpayload⟩
  have h₂ : Obeys config s₂ := by
    refine ⟨hmemory₂ ▸ h₁.config_eq, ?_⟩
    rw [hmore]
    -- at most one command is added, and the two that it needs are the last ones
    have hone (done : Bool) (replies : ℕ → UInt8) :
        Trace.Each (CommandRule config) (commands s₁.said ++ [⟨kReadBuffer :: [reply 3] ++
          List.replicate (1 + (reply 2).toNat) 0, done, replies⟩]) := by
      refine Trace.each_concat.mpr ⟨h₁.rule, fun htx => ?_, fun _ => ?_⟩
      · exact absurd (show kReadBuffer = kSetTx from htx) (by decide)
      · rw [hadded, hlast, List.append_assoc]
        exact ⟨earlier, irqStatus, _, rfl, hannounced, rfl, rfl, Nat.pos_of_ne_zero hpos, rfl⟩
    rcases payload with _ | payload
    · rcases hpayload with rfl | ⟨done, replies, rfl⟩
      · rw [List.append_nil]
        exact h₁.rule
      · exact hone done replies
    · obtain ⟨replies, rfl, -⟩ := hpayload
      exact hone true replies
  rcases payload with _ | payload
  · exact h₂
  · exact Obeys.steady.resumeReceive And.left _ _ s₂ h₂

theorem Obeys.poll (destinationCapacity : ℕ) :
    Maintains (Obeys config) (poll destinationCapacity) := by
  intro state h
  rw [LinuxCapLora1262Radio.poll, wp_bind, wp_memory]
  split
  · exact h
  rw [wp_bind]
  refine wp_mono (Obeys.steady.gpioGet .irq state h) fun high s₁ h₁ => ?_
  rcases high with _ | _ | _
  · exact h₁
  · exact h₁
  dsimp only
  rw [wp_bind]
  refine wp_mono (wp_and (Obeys.steady.readIrq And.left s₁ h₁) (appends_readIrq s₁ h₁.config_eq)) ?_
  rintro irq s₂ ⟨h₂, -, added, hadded, hirq⟩
  rcases irq with _ | irq
  · exact h₂
  obtain ⟨reply, rfl, rfl⟩ := hirq
  dsimp only
  split
  · exact h₂
  split
  · exact Obeys.steady.resumeReceive And.left _ _ s₂ h₂
  split
  · exact Obeys.steady.resumeReceive And.left _ _ s₂ h₂
  split
  · exact Obeys.steady.resumeReceive And.left _ _ s₂ h₂
  rename_i hintact
  split
  · exact h₂
  rename_i hreceived
  exact h₂.receivePayload hadded ⟨rfl, rfl, hreceived, not_not.mp hintact⟩ _ _

theorem obeys_after (config : LinuxCapLora1262Config) (script : List LinuxAnswer)
    (calls : List DriverCall) : Obeys config (after config script calls) := by
  induction calls using List.reverseRecOn with
  | nil => exact Obeys.steady.initializeRadio _ ⟨rfl, Trace.each_nil⟩
  | append_singleton calls call ih =>
    rw [after, List.foldl_concat]
    cases call with
    | tryStartTransmit data => exact Obeys.tryStartTransmit data _ ih
    | poll destinationCapacity => exact Obeys.poll destinationCapacity _ ih
    | shutdown => exact Obeys.steady.shutdown (by decide) _ ih

end Receiving

end LinuxCapLora1262Radio

end Lora
