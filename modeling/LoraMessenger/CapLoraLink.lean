/-
The driver of the Cap LoRa-1262 behind its transport.

The transport closes the driver as soon as one of its calls fails.  So between two calls of the
transport the chip is either asleep for good, or it does what the flags of the driver say.

* `Tuned` — the mode that the chip was told last agrees with the flags;
* `onAir`, `readOut` — the datagrams that were sent by the chip, and those read from it;
* `cap_lora_link` — the transport over the driver, over whole runs.
-/
import LoraMessenger.CapLoraSettings

namespace Lora

open Dialogue

namespace LinuxCapLora1262Radio

def kModes : List UInt8 := [kSetStandby, kSetRx, kSetTx, kSetSleep]

def airStep : Bytes × List Bytes → Bytes → Bytes × List Bytes
  | (buffer, sent), bytes =>
    if bytes.headD 0 = kWriteBuffer then (bytes.drop 2, sent)
    else if bytes.headD 0 = kSetTx then (buffer, sent ++ [buffer])
    else (buffer, sent)

/-- The datagrams that the chip was told to send: each time what was in its buffer. -/
def onAir (executed : List Bytes) : List Bytes := (executed.foldl airStep ([], [])).2

/-- What a command has read from the buffer of the chip. -/
def Command.payload (command : Command) : Option Bytes :=
  if command.done ∧ command.opcode = kReadBuffer then
    some ((List.range (command.bytes.length - 3)).map fun index => command.reply (3 + index))
  else none

def readOut (commands : List Command) : List Bytes := commands.filterMap Command.payload

/-- The chip does what the flags say: it sends, with the interrupts of a transmission, or it
receives packets of every size, with those of a reception; and the antenna is connected. -/
structure Tuned (config : LinuxCapLora1262Config) (state : State) : Prop where
  config_eq : state.memory.config = config
  ready : state.memory.ready = true
  antenna : state.memory.antennaSwitchEnabled = true
  receiving : state.memory.receiving = !state.memory.transmitting
  sends : state.memory.transmitting = true →
    lastOf kModes (carriedOut (commands state.said)) =
        some (kSetTx :: BigEndian.toBytes 3 kTxTimeoutUnits) ∧
      lastOf [kSetDioIrqParams] (carriedOut (commands state.said)) =
        (transmitPlan config.profile [])[4]?
  receives : state.memory.transmitting = false →
    lastOf kModes (carriedOut (commands state.said)) = some [kSetRx, 0xff, 0xff, 0xff] ∧
      lastOf [kSetDioIrqParams] (carriedOut (commands state.said)) =
        (receivePlan config.profile)[2]? ∧
      lastOf [kSetPacketParams] (carriedOut (commands state.said)) =
        (receivePlan config.profile)[0]?

section Views

variable {executed more : List Bytes} {before added : List Command}

theorem readOut_append : readOut (before ++ added) = readOut before ++ readOut added :=
  List.filterMap_append

theorem foldl_airStep (h : ∀ bytes ∈ more, bytes.headD 0 ≠ kSetTx) (start : Bytes × List Bytes) :
    (more.foldl airStep start).2 = start.2 := by
  induction more generalizing start with
  | nil => rfl
  | cons bytes more ih =>
    obtain ⟨hbytes, hmore⟩ := List.forall_mem_cons.mp h
    rw [List.foldl_cons, ih hmore, airStep, if_neg hbytes]
    split
    · rfl
    · rfl

theorem onAir_other (h : ∀ bytes ∈ more, bytes.headD 0 ≠ kSetTx) :
    onAir (executed ++ more) = onAir executed := by
  rw [onAir, List.foldl_append, foldl_airStep h]
  rfl

/-- The plan of a transmission sends its datagram. -/
theorem onAir_transmit (profile : Japan920Profile) (data : Bytes) :
    onAir (executed ++ transmitPlan profile data) = onAir executed ++ [data] := by
  rw [onAir, List.foldl_append]
  rfl

/-- What was carried out of a plan is its beginning. -/
theorem Ran.carriedOut {plan : List Bytes} {ok : Bool} (h : Ran plan ok added) :
    carriedOut added <+: plan := by
  rcases List.eq_nil_or_concat' added with rfl | ⟨earlier, last, rfl⟩
  · exact List.nil_prefix
  have hearlier : earlier.filter Command.done = earlier :=
    List.filter_eq_self.mpr (by simpa using h.earlier)
  refine List.IsPrefix.trans ?_ h.upTo
  rw [carriedOut_append, LinuxCapLora1262Radio.carriedOut, hearlier, List.map_append]
  refine (List.prefix_append_right_inj _).mpr ?_
  rw [LinuxCapLora1262Radio.carriedOut, List.filter_cons]
  split
  · exact List.prefix_rfl
  · exact List.nil_prefix

theorem readOut_other (h : ∀ command ∈ added, command.opcode ≠ kReadBuffer) :
    readOut added = [] := by
  refine List.filterMap_eq_nil_iff.mpr fun command hcommand => ?_
  exact if_neg fun hread => h command hcommand hread.2

theorem readOut_tame (h : ∀ command ∈ added, Tame command.opcode) : readOut added = [] :=
  readOut_other fun command hcommand => (h command hcommand).2

theorem onAir_tame (h : ∀ command ∈ added, command.opcode ≠ kSetTx) :
    onAir (carriedOut (before ++ added)) = onAir (carriedOut before) := by
  rw [carriedOut_append]
  refine onAir_other fun bytes hbytes => ?_
  obtain ⟨command, hcommand, rfl, -⟩ := mem_carriedOut hbytes
  exact h command hcommand

end Views

/-! ### What keeps the chip in tune -/

section Tuned

variable {config : LinuxCapLora1262Config} {state state' : State} {added : List Command}

/-- Reading a status changes no mode. -/
def Inquiry (opcode : UInt8) : Prop :=
  opcode = kGetIrqStatus ∨ opcode = kGetRssiInst ∨ opcode = kGetRxBufferStatus ∨
    opcode = kReadBuffer

theorem Tuned.inquire (h : Tuned config state) (hmemory : state'.memory = state.memory)
    (hadded : commands state'.said = commands state.said ++ added)
    (hinquiry : ∀ command ∈ added, Inquiry command.opcode) : Tuned config state' := by
  have hother (opcodes : List UInt8) (hopcodes : ∀ opcode, Inquiry opcode → opcode ∉ opcodes) :
      lastOf opcodes (carriedOut (commands state'.said)) =
        lastOf opcodes (carriedOut (commands state.said)) := by
    rw [hadded, carriedOut_append]
    refine lastOf_other fun bytes hbytes => ?_
    obtain ⟨command, hcommand, rfl, -⟩ := mem_carriedOut hbytes
    exact hopcodes _ (hinquiry command hcommand)
  have hmodes := hother kModes (by rintro opcode (rfl | rfl | rfl | rfl) <;> decide)
  have hirqs := hother [kSetDioIrqParams] (by rintro opcode (rfl | rfl | rfl | rfl) <;> decide)
  have hparams := hother [kSetPacketParams] (by rintro opcode (rfl | rfl | rfl | rfl) <;> decide)
  refine ⟨hmemory ▸ h.config_eq, hmemory ▸ h.ready, hmemory ▸ h.antenna, hmemory ▸ h.receiving, ?_,
    ?_⟩
  · rw [hmemory, hmodes, hirqs]
    exact h.sends
  · rw [hmemory, hmodes, hirqs, hparams]
    exact h.receives

/-- The chip receives after the plan for it. -/
theorem tuned_receive (hconfig : state.memory.config = config) (hready : state.memory.ready = true)
    (hantenna : state.memory.antennaSwitchEnabled = true) {before : List Command}
    (hmemory : state'.memory = { state.memory with receiving := true, transmitting := false })
    (hadded : commands state'.said = before ++ added)
    (hran : Ran (receivePlan config.profile) true added) : Tuned config state' := by
  have hlast (opcodes : List UInt8) (bytes : Bytes)
      (hplan : lastOf opcodes (receivePlan config.profile) = some bytes) :
      lastOf opcodes (carriedOut (commands state'.said)) = some bytes := by
    rw [hadded, carriedOut_append, hran.carriedOut_eq, lastOf_append, hplan]
    rfl
  refine ⟨by rw [hmemory, ← hconfig], by rw [hmemory, ← hready]; rfl, by rw [hmemory, ← hantenna],
    by rw [hmemory]; rfl, ?_, fun _ => ⟨?_, ?_, ?_⟩⟩
  · rw [hmemory]
    exact fun hfalse => absurd hfalse Bool.false_ne_true
  · exact hlast _ _ rfl
  · exact hlast _ _ rfl
  · exact hlast _ _ rfl

/-- It sends after the plan for a datagram. -/
theorem tuned_transmit (h : Tuned config state) {before : List Command} {data : Bytes}
    (hmemory : state'.memory = { state.memory with transmitting := true, receiving := false })
    (hadded : commands state'.said = before ++ added)
    (hran : Ran (transmitPlan config.profile data) true added) : Tuned config state' := by
  have hlast (opcodes : List UInt8) (bytes : Bytes)
      (hplan : lastOf opcodes (transmitPlan config.profile data) = some bytes) :
      lastOf opcodes (carriedOut (commands state'.said)) = some bytes := by
    rw [hadded, carriedOut_append, hran.carriedOut_eq, lastOf_append, hplan]
    rfl
  refine ⟨by rw [hmemory, ← h.config_eq], by rw [hmemory, ← h.ready]; rfl,
    by rw [hmemory, ← h.antenna], by rw [hmemory]; rfl, fun _ => ⟨?_, ?_⟩, ?_⟩
  · exact hlast _ _ rfl
  · exact hlast _ _ rfl
  · rw [hmemory]
    exact fun htrue => absurd htrue.symm Bool.false_ne_true

end Tuned

/-! ### The calls of the driver -/

section Calls

variable {config : LinuxCapLora1262Config} {state : State}

/-- What `poll` leaves behind.  Nothing was sent, and a datagram is what was read from the chip;
unless the driver failed, the chip is in tune. -/
structure Polls (config : LinuxCapLora1262Config) (state : State) (result : RadioPollResult)
    (state' : State) : Prop where
  silent : onAir (carriedOut (commands state'.said)) = onAir (carriedOut (commands state.said))
  read : readOut (commands state.said) <+: readOut (commands state'.said)
  tuned : result.status ≠ .failed → Tuned config state'
  received : result.status = .received → result.datagram ≠ [] →
    readOut (commands state'.said) = readOut (commands state.said) ++ [result.datagram]

/-- No result comes from commands that read no packet. -/
theorem Polls.of_tame {result : RadioPollResult} {state' : State} {added : List Command}
    (hadded : commands state'.said = commands state.said ++ added)
    (htame : ∀ command ∈ added, Tame command.opcode)
    (htuned : result.status ≠ .failed → Tuned config state')
    (hnone : result.status = .received → result.datagram = []) :
    Polls config state result state' where
  silent := by
    rw [hadded]
    exact onAir_tame fun command hcommand => (htame command hcommand).1
  read := by
    rw [hadded, readOut_append]
    exact List.prefix_append _ _
  tuned := htuned
  received hreceived hsome := absurd (hnone hreceived) hsome

theorem tame_receivePlan (profile : Japan920Profile) :
    ∀ bytes ∈ receivePlan profile, Tame (bytes.headD 0) := by
  intro bytes hbytes
  have hopcode : bytes.headD 0 ∈ [kSetPacketParams, kClearIrqStatus, kSetDioIrqParams, kSetRx] :=
    List.mem_map_of_mem (f := fun bytes => bytes.headD 0) hbytes
  have hall : [kSetPacketParams, kClearIrqStatus, kSetDioIrqParams, kSetRx].all
      (fun opcode => decide (Tame opcode)) = true := by decide
  exact of_decide_eq_true (List.all_eq_true.mp hall _ hopcode)

theorem wp_resumeReceive (h : Tuned config state) (irq : ℕ) (result : RadioPollResult) :
    wp (resumeReceive irq result) (fun result' state' => ∃ added,
      commands state'.said = commands state.said ++ added ∧
      (∀ command ∈ added, Tame command.opcode) ∧
      (result'.status ≠ .failed → Tuned config state' ∧ result' = result) ∧
      (result'.status = .failed → result' = ⟨.failed, []⟩ ∨ result' = result)) state := by
  rw [resumeReceive, wp_bind, wp_andThen]
  refine wp_mono (appends_clearIrq irq state h.config_eq) ?_
  rintro cleared s₁ ⟨hmemory₁, added, hadded, hran⟩
  have hclear : Tame kClearIrqStatus := by decide
  have htame : ∀ command ∈ added, Tame command.opcode :=
    hran.kind _ (List.forall_mem_singleton.mpr hclear)
  cases cleared with
  | false =>
    rw [if_neg Bool.false_ne_true]
    exact ⟨added, hadded, htame, fun hfailed => absurd rfl hfailed, fun _ => .inl rfl⟩
  | true =>
    rw [if_pos rfl]
    refine wp_mono (wp_startReceive (hmemory₁ ▸ h.config_eq)) ?_
    rintro ok s₂ ⟨more, hmore, hplan, hmemory₂⟩
    have hall : ∀ command ∈ added ++ more, Tame command.opcode :=
      List.forall_mem_append.mpr ⟨htame, hplan.kind _ (tame_receivePlan _)⟩
    have hcommands : commands s₂.said = commands state.said ++ (added ++ more) := by
      rw [hmore, hadded, List.append_assoc]
    cases ok with
    | false =>
      exact ⟨_, hcommands, hall, fun hfailed => absurd rfl hfailed, fun _ => .inl rfl⟩
    | true =>
      refine ⟨_, hcommands, hall, fun _ => ⟨?_, rfl⟩, fun _ => .inr rfl⟩
      exact tuned_receive h.config_eq h.ready h.antenna (hmemory₁ ▸ hmemory₂ rfl) hmore hplan

/-- Since the beginning of a call, only inquiries were made. -/
structure Asked (state state' : State) (added : List Command) : Prop where
  memory : state'.memory = state.memory
  said_eq : commands state'.said = commands state.said ++ added
  inquiry : ∀ command ∈ added, Inquiry command.opcode

theorem Asked.start (state : State) : Asked state state [] :=
  ⟨rfl, (List.append_nil _).symm, by simp⟩

theorem Asked.tuned {state' : State} {added : List Command} (h : Asked state state' added)
    (htuned : Tuned config state) : Tuned config state' :=
  htuned.inquire h.memory h.said_eq h.inquiry

/-- One more part of the driver that makes inquiries. -/
theorem Asked.next {s s' : State} {added more : List Command} (h : Asked state s added)
    (hmemory : s'.memory = s.memory) (hmore : commands s'.said = commands s.said ++ more)
    (hinquiry : ∀ command ∈ more, Inquiry command.opcode) : Asked state s' (added ++ more) :=
  ⟨hmemory.trans h.memory, by rw [hmore, h.said_eq, List.append_assoc],
    List.forall_mem_append.mpr ⟨h.inquiry, hinquiry⟩⟩

theorem wp_asked_gpioGet {s : State} {added : List Command} (h : Asked state s added)
    (handle : Handle) (hconfig : state.memory.config = config) :
    wp (gpioGet handle) (fun _ s' => Asked state s' added) s := by
  refine wp_mono (appends_gpioGet handle s (h.memory ▸ hconfig)) ?_
  rintro _ s' ⟨hmemory, more, hmore, rfl⟩
  have hnext := h.next hmemory hmore (by simp)
  rwa [List.append_nil] at hnext

/-- A failed command is an inquiry as well. -/
theorem wp_asked_readCommand {s : State} {added : List Command} (h : Asked state s added)
    {opcode : UInt8} (hopcode : Inquiry opcode) (arguments : Bytes) (destinationSize : ℕ)
    (hconfig : state.memory.config = config) :
    wp (readCommand opcode arguments destinationSize) (fun data s' => ∃ more,
      Asked state s' (added ++ more) ∧ (∀ command ∈ more, command.opcode = opcode) ∧
      ∀ bytes, data = some bytes → ∃ reply,
        more = [⟨opcode :: arguments ++ List.replicate (1 + destinationSize) 0, true, reply⟩] ∧
          bytes = (List.range destinationSize).map fun index =>
            reply (arguments.length + 2 + index)) s := by
  refine wp_mono (appends_readCommand opcode arguments destinationSize s (h.memory ▸ hconfig)) ?_
  rintro data s' ⟨hmemory, more, hmore, hdata⟩
  have hopcodes : ∀ command ∈ more, command.opcode = opcode := by
    rcases data with _ | data
    · rcases hdata with rfl | ⟨done, reply, rfl⟩
      · simp
      · exact List.forall_mem_singleton.mpr rfl
    · obtain ⟨reply, rfl, -⟩ := hdata
      exact List.forall_mem_singleton.mpr rfl
  refine ⟨more, h.next hmemory hmore fun command hcommand => ?_, hopcodes, ?_⟩
  · rw [hopcodes command hcommand]
    exact hopcode
  · rintro bytes rfl
    exact hdata

/-- The end of a call of `poll` that has read no packet. -/
theorem Polls.resume {s : State} {added : List Command} (h : Asked state s added)
    (htame : ∀ command ∈ added, Tame command.opcode) (htuned : Tuned config state) (irq : ℕ)
    {result : RadioPollResult} (hnone : result.datagram = []) :
    wp (resumeReceive irq result) (Polls config state) s := by
  refine wp_mono (wp_resumeReceive (h.tuned htuned) irq result) ?_
  rintro result' s' ⟨more, hmore, htame', hok, -⟩
  have hcommands : commands s'.said = commands state.said ++ (added ++ more) := by
    rw [hmore, h.said_eq, List.append_assoc]
  refine .of_tame hcommands (List.forall_mem_append.mpr ⟨htame, htame'⟩)
    (fun hstatus => (hok hstatus).1) fun hreceived => ?_
  rw [(hok (by rw [hreceived]; decide)).2, hnone]

theorem wp_receivePayload {s : State} {added : List Command} (h : Asked state s added)
    (htame : ∀ command ∈ added, Tame command.opcode) (htuned : Tuned config state) (irq : ℕ) :
    wp (receivePayload irq kMaximumDatagramBytes) (Polls config state) s := by
  rw [receivePayload, wp_bind]
  refine wp_mono (wp_asked_readCommand h (.inr (.inr (.inl rfl))) _ _ htuned.config_eq) ?_
  rintro status s₁ ⟨more, h₁, hopcode, hstatus⟩
  have hstatusTame : Tame kGetRxBufferStatus := by decide
  have htame₁ : ∀ command ∈ added ++ more, Tame command.opcode :=
    List.forall_mem_append.mpr ⟨htame, fun command hcommand =>
      (hopcode command hcommand).symm ▸ hstatusTame⟩
  rcases status with _ | status
  · exact .of_tame h₁.said_eq htame₁ (fun hfailed => absurd rfl hfailed) fun _ => rfl
  dsimp only
  split
  · rename_i hsize
    refine Polls.resume h₁ htame₁ htuned irq ?_
    -- the buffer is large enough for every size that the chip can report
    have hsmall := (status.getD 0 0).toNat_lt
    have hzero : (status.getD 0 0).toNat = 0 := by
      rw [kMaximumDatagramBytes] at hsize
      omega
    dsimp only
    rw [hzero]
    rfl
  rw [wp_bind]
  refine wp_mono (wp_asked_readCommand h₁ (.inr (.inr (.inr rfl))) _ _ htuned.config_eq) ?_
  rintro payload s₂ ⟨read, h₂, hread, hpayload⟩
  have hsilent : ∀ command ∈ added ++ more ++ read, command.opcode ≠ kSetTx := by
    have hother : kReadBuffer ≠ kSetTx := by decide
    refine List.forall_mem_append.mpr ⟨fun command hcommand => (htame₁ command hcommand).1, ?_⟩
    intro command hcommand
    rw [hread command hcommand]
    exact hother
  rcases payload with _ | payload
  · show Polls config state ⟨.failed, []⟩ s₂
    refine ⟨?_, ?_, fun hfailed => absurd rfl hfailed,
      fun hreceived => absurd hreceived (by decide)⟩
    · rw [h₂.said_eq]
      exact onAir_tame hsilent
    · rw [h₂.said_eq, readOut_append]
      exact List.prefix_append _ _
  obtain ⟨reply, rfl, rfl⟩ := hpayload payload rfl
  dsimp only
  refine wp_mono (wp_resumeReceive (h₂.tuned htuned) irq _) ?_
  rintro result s₃ ⟨last, hlast, htameLast, hok, -⟩
  have hreadOut : readOut (commands s₃.said) = readOut (commands state.said) ++
      [(List.range (status.getD 0 0).toNat).map fun index => reply (3 + index)] := by
    rw [hlast, h₂.said_eq, readOut_append, readOut_append, readOut_append, readOut_tame htame₁,
      readOut_tame htameLast, List.append_nil, List.nil_append]
    have hlength : (kReadBuffer :: [status.getD 1 0] ++
        List.replicate (1 + (status.getD 0 0).toNat) 0).length - 3 = (status.getD 0 0).toNat := by
      simp only [List.length_append, List.length_cons, List.length_nil, List.length_replicate]
      omega
    simp only [readOut, List.filterMap_cons, List.filterMap_nil, Command.payload, hlength]
    rfl
  refine ⟨?_, ?_, fun hstatus => (hok hstatus).1, ?_⟩
  · rw [hlast, h₂.said_eq, List.append_assoc]
    exact onAir_tame (List.forall_mem_append.mpr ⟨hsilent, fun command hcommand =>
      (htameLast command hcommand).1⟩)
  · rw [hreadOut]
    exact List.prefix_append _ _
  · intro hreceived _
    rw [hreadOut, (hok (by rw [hreceived]; decide)).2]
    rfl

theorem wp_poll (h : Tuned config state) :
    wp (poll kMaximumDatagramBytes) (Polls config state) state := by
  have hready : ¬((!state.memory.ready) = true ∨ kMaximumDatagramBytes = 0) := by
    rw [h.ready]
    decide
  rw [poll, wp_bind, wp_memory, if_neg hready, wp_bind]
  refine wp_mono (wp_asked_gpioGet (.start state) .irq h.config_eq) fun high s₁ h₁ => ?_
  rcases high with _ | _ | _
  · exact .of_tame h₁.said_eq (by simp) (fun hfailed => absurd rfl hfailed) fun _ => rfl
  · exact .of_tame h₁.said_eq (by simp) (fun _ => h₁.tuned h) fun _ => rfl
  dsimp only
  rw [readIrq, wp_bind, wp_bind]
  refine wp_mono (wp_asked_readCommand h₁ (.inl rfl) _ _ h.config_eq) ?_
  rintro data s₂ ⟨added, h₂, hopcode, -⟩
  have htame : ∀ command ∈ [] ++ added, Tame command.opcode := by
    intro command hcommand
    rw [hopcode command hcommand]
    exact Listens.tame (.inl rfl)
  rw [wp_pure]
  rcases data with _ | data
  · exact .of_tame h₂.said_eq htame (fun hfailed => absurd rfl hfailed) fun _ => rfl
  dsimp only [Option.map_some]
  split
  · exact .of_tame h₂.said_eq htame (fun hfailed => absurd rfl hfailed) fun _ => rfl
  split
  · exact Polls.resume h₂ htame h _ rfl
  split
  · exact Polls.resume h₂ htame h _ rfl
  split
  · exact Polls.resume h₂ htame h _ rfl
  split
  · exact .of_tame h₂.said_eq htame (fun _ => h₂.tuned h) fun _ => rfl
  · exact wp_receivePayload h₂ htame h _

/-- What `try_start_transmit` leaves behind.  Nothing was read, and at most the datagram was sent;
if it was sent without the driver's knowledge, the driver failed. -/
structure Starts (config : LinuxCapLora1262Config) (state : State) (data : Bytes)
    (status : RadioStartStatus) (state' : State) : Prop where
  read : readOut (commands state'.said) = readOut (commands state.said)
  tuned : status ≠ .failed → Tuned config state'
  air : onAir (carriedOut (commands state'.said)) = onAir (carriedOut (commands state.said)) ++
      (if status = .started then [data] else []) ∨
    status = .failed ∧ onAir (carriedOut (commands state'.said)) =
      onAir (carriedOut (commands state.said)) ++ [data]

theorem Starts.of_asked {s : State} {added : List Command} (h : Asked state s added)
    (htame : ∀ command ∈ added, Tame command.opcode) (htuned : Tuned config state) (data : Bytes)
    {status : RadioStartStatus} (hstatus : status ≠ .started) :
    Starts config state data status s where
  read := by rw [h.said_eq, readOut_append, readOut_tame htame, List.append_nil]
  tuned _ := h.tuned htuned
  air := by
    rw [if_neg hstatus, List.append_nil, h.said_eq]
    exact .inl (onAir_tame fun command hcommand => (htame command hcommand).1)

/-- A plan that breaks off sends its datagram once or not at all. -/
theorem onAir_broken {executed more : List Bytes} {profile : Japan920Profile} {data : Bytes}
    (h : more <+: transmitPlan profile data) :
    onAir (executed ++ more) = onAir executed ∨
      onAir (executed ++ more) = onAir executed ++ [data] := by
  have hplan : transmitPlan profile data =
      (transmitPlan profile data).dropLast ++ [kSetTx :: BigEndian.toBytes 3 kTxTimeoutUnits] := rfl
  rw [hplan] at h
  rcases List.prefix_concat_iff.mp h with rfl | hearlier
  · exact .inr (onAir_transmit profile data)
  · refine .inl (onAir_other fun bytes hbytes => ?_)
    exact opcode_ne_setTx profile data bytes (hearlier.subset hbytes)

theorem wp_tryStartTransmit (h : Tuned config state) (data : Bytes) :
    wp (tryStartTransmit data) (Starts config state data) state := by
  have hstart := Asked.start state
  rw [tryStartTransmit, wp_bind, wp_memory]
  split
  · exact .of_asked hstart (by simp) h data (show RadioStartStatus.failed ≠ .started by decide)
  split
  · exact .of_asked hstart (by simp) h data (show RadioStartStatus.busy ≠ .started by decide)
  rw [wp_bind]
  refine wp_mono (appends_listenBeforeTalk state h.config_eq) ?_
  rintro status s₁ ⟨hmemory₁, added, hadded, hlistens, hstarted, -⟩
  have htame : ∀ command ∈ added, Tame command.opcode :=
    fun command hcommand => (hlistens command hcommand).tame
  rcases status with _ | status
  swap
  · have h₁ : Asked state s₁ added :=
      ⟨hmemory₁, hadded, fun command hcommand => (hlistens command hcommand).imp id .inl⟩
    exact .of_asked h₁ htame h data fun heq => hstarted (congrArg some heq)
  -- The channel is free: from here on the plan of the transmission is carried out or broken off.
  dsimp only
  rw [wp_bind]
  refine wp_mono (appends_startTransmit data s₁ (hmemory₁ ▸ h.config_eq)) ?_
  rintro ok s₂ ⟨hmemory₂, more, hmore, hran⟩
  have hcommands : commands s₂.said = commands state.said ++ added ++ more := by
    rw [hmore, hadded]
  have hread : readOut (commands s₂.said) = readOut (commands state.said) := by
    rw [hcommands, readOut_append, readOut_append, readOut_tame htame,
      readOut_other (opcode_ne_readBuffer hran), List.append_nil, List.append_nil]
  have hair : onAir (carriedOut (commands state.said ++ added)) =
      onAir (carriedOut (commands state.said)) :=
    onAir_tame fun command hcommand => (htame command hcommand).1
  cases ok with
  | true =>
    refine ⟨hread, fun _ => ?_, .inl ?_⟩
    · refine tuned_transmit h ?_ hcommands hran
      rw [← hmemory₁, ← hmemory₂]
      rfl
    · show onAir (carriedOut (commands s₂.said)) = _
      rw [hcommands, carriedOut_append, hran.carriedOut_eq, onAir_transmit, hair]
      rfl
  | false =>
    have hsent : onAir (carriedOut (commands state.said ++ added) ++ carriedOut more) = _ ∨ _ :=
      onAir_broken hran.carriedOut
    rw [← carriedOut_append, ← hcommands, hair] at hsent
    refine ⟨hread, fun hfailed => absurd rfl hfailed, ?_⟩
    rcases hsent with hnone | hone
    · exact .inl (hnone.trans (List.append_nil _).symm)
    · exact .inr ⟨rfl, hone⟩

end Calls

/-! ### The constructor -/

section Start

variable {config : LinuxCapLora1262Config} {radio : LinuxCapLora1262Radio}

/-- With this memory before it, a program that succeeds leads to such a state. -/
def Leads (radio : LinuxCapLora1262Radio) (program : DriverM Bool) (post : State → Prop) : Prop :=
  ∀ state : State, state.memory = radio →
    wp program (fun ok state' => ok = true → post state') state

theorem Leads.andThen {first second : DriverM Bool} {between : Bool → List Command → Prop}
    {post : State → Prop} (h : Appends radio.config first between)
    (hnext : Leads radio second post) : Leads radio (andThen first second) post := by
  intro state hmemory
  rw [wp_andThen]
  refine wp_mono (h state (hmemory ▸ rfl)) ?_
  rintro ok state' ⟨hsame, -⟩
  split
  · exact hnext state' (hsame.trans hmemory)
  · exact fun hfalse => absurd hfalse Bool.false_ne_true

theorem quiet_updateI2cRegister (register setMask clearMask : UInt8) :
    Quiet (fun state : State => state.memory) (updateI2cRegister register setMask clearMask) := by
  refine .bind (.bind .memory fun _ => .bind (.ask fun _ _ _ => rfl) fun _ => .pure _)
    fun value => ?_
  split
  · exact .pure _
  · exact .bind .memory fun _ => .bind (.ask fun _ _ _ => rfl) fun _ => .pure _

theorem quiet_checkDeviceId : Quiet (fun state : State => state.memory) checkDeviceId := by
  refine .bind (.bind .memory fun _ => .bind (.ask fun _ _ _ => rfl) fun _ => .pure _)
    fun value => ?_
  split
  · exact .pure _
  · exact .pure _

theorem Leads.antenna {second : DriverM Bool} {post : State → Prop}
    (hnext : Leads { radio with antennaSwitchEnabled := true } second post) :
    Leads radio (Dialogue.andThen (setAntennaSwitch true) second) post := by
  intro state hmemory
  rw [wp_andThen, setAntennaSwitch, wp_bind, wp_memory]
  split
  · exact fun hfalse => absurd hfalse Bool.false_ne_true
  rw [if_pos rfl, wp_bind]
  refine wp_mono (Quiet.andThen quiet_checkDeviceId (.andThen (quiet_updateI2cRegister _ _ _)
    (.andThen (quiet_updateI2cRegister _ _ _) (quiet_updateI2cRegister _ _ _))) state) ?_
  intro ok state' hsame
  split
  · refine hnext _ ?_
    show { state'.memory with antennaSwitchEnabled := true } = _
    rw [show state'.memory = radio from hsame.trans hmemory]
  · exact fun hfalse => absurd hfalse Bool.false_ne_true

/-- The driver when its constructor has succeeded. -/
def started (state : State) : State :=
  { state with memory := { state.memory with initialized := true, closed := false } }

theorem leads_startReceive (hantenna : radio.antennaSwitchEnabled = true) :
    Leads radio startReceive fun state' => Tuned radio.config (started state') := by
  intro state hmemory
  subst hmemory
  refine wp_mono (wp_startReceive rfl) ?_
  rintro ok state' ⟨added, hadded, hran, hafter⟩ rfl
  have hmemory : (started state').memory =
      { (started state).memory with receiving := true, transmitting := false } := by
    rw [started, hafter rfl]
    rfl
  exact tuned_receive (show (started state).memory.config = _ from rfl) rfl hantenna hmemory
    hadded hran

theorem appends_writeRegister (address : ℕ) (data : Bytes) :
    Appends config (writeRegister address data) fun _ _ => True :=
  .ite (fun _ => .pure trivial) fun _ => (appends_writeCommand _ _).mono fun _ _ _ => trivial

theorem leads_configureRadio (hantenna : radio.antennaSwitchEnabled = true) :
    Leads radio configureRadio fun state' => Tuned radio.config (started state') := by
  intro state hmemory
  subst hmemory
  rw [configureRadio, wp_bind, wp_memory]
  dsimp only
  exact Leads.andThen (appends_writeCommand _ _) (.andThen (appends_writeCommand _ _)
    (.andThen (appends_writeCommand _ _) (.andThen (appends_writeCommand _ _)
    (.andThen (appends_writeCommand _ _) (.andThen (appends_writeCommand _ _)
    (.andThen (appends_writeCommand _ _) (.andThen (appends_writeCommand _ _)
    (.andThen (appends_writeCommand _ _) (.andThen (appends_writeCommand _ _)
    (.andThen (appends_writeCommand _ _) (.andThen (appends_writeRegister _ _)
    (.andThen (appends_writeRegister _ _) (leads_startReceive hantenna))))))))))))) state rfl

theorem appends_resetRadio : Appends config resetRadio fun _ _ => True := by
  refine (appends_gpioSet .reset false).bind fun low _ _ => .ite (fun _ => .pure trivial) fun _ =>
    .ask fun _ => (appends_gpioSet .reset true).bind fun high _ _ =>
    .ite (fun _ => .pure trivial) fun _ => .ask fun _ => ?_
  exact appends_waitWhileBusy.mono fun _ _ _ => trivial

theorem appends_spiSetting (setting : SpiSetting) :
    Appends config (spiSetting setting) fun _ _ => True :=
  .memory fun _ _ => .ask fun _ => .pure trivial

theorem leads_startUp : Leads radio startUp fun state' => Tuned radio.config (started state') := by
  intro state hmemory
  subst hmemory
  rw [startUp, wp_bind, wp_memory]
  dsimp only
  exact Leads.andThen (appends_spiSetting _) (.andThen (appends_spiSetting _)
    (.andThen (appends_spiSetting _) (.antenna (.andThen appends_resetRadio
      (leads_configureRadio rfl))))) state rfl

/-- A driver that does not give up is in tune. -/
theorem wp_tuned_initializeRadio {inv : State → Prop} (hs : Steady Tame config inv) {state : State}
    (h : inv state) :
    wp initializeRadio (fun _ state' => state'.memory.closed = false → Tuned config state')
      state := by
  have hgiveUp (s : State) :
      wp shutdown (fun _ s' => s'.memory.closed = false → Tuned config s') s :=
    wp_mono (wp_closed_shutdown s) fun _ _ hclosed hopen =>
      absurd (hopen.symm.trans hclosed) Bool.false_ne_true
  -- Whatever fails ends in a shutdown, after which the driver is closed.
  rw [initializeRadio, wp_bind, wp_memory]
  split
  · exact hgiveUp _
  rw [wp_bind]
  refine wp_mono (hs.openDevices state h) fun chip s₁ h₁ => ?_
  rw [wp_bind, wp_memory]
  split
  · exact hgiveUp _
  rw [wp_bind]
  refine wp_mono (hs.requestLines chip s₁ h₁) fun _ s₂ h₂ => ?_
  rw [wp_bind]
  refine wp_mono (hs.closeDescriptor chip s₂ h₂) fun _ s₃ h₃ => ?_
  rw [wp_bind, wp_memory]
  split
  · exact hgiveUp _
  rw [wp_bind]
  refine wp_mono (leads_startUp s₃ rfl) fun ok s₄ h₄ => ?_
  split
  · rename_i hok
    rw [wp_update]
    exact fun _ => hs.config_eq h₃ ▸ h₄ hok
  · exact hgiveUp _

end Start

/-- What was sent and what was read stay as they are. -/
structure Silent (config : LinuxCapLora1262Config) (air read : List Bytes) (state : State) :
    Prop where
  config_eq : state.memory.config = config
  air_eq : onAir (carriedOut (commands state.said)) = air
  read_eq : readOut (commands state.said) = read

theorem Silent.steady {config : LinuxCapLora1262Config} {air read : List Bytes} :
    Steady Tame config (Silent config air read) where
  config_eq h := h.config_eq
  adds h hconfig hadded htame := by
    refine ⟨hconfig, ?_, ?_⟩
    · rw [hadded, onAir_tame fun command hcommand => (htame command hcommand).1, h.air_eq]
    · rw [hadded, readOut_append, readOut_tame htame, List.append_nil, h.read_eq]

end LinuxCapLora1262Radio

/-! ### The transport -/

open LinuxCapLora1262Radio

/-- The transport over the driver, with what it accepted and what it handed out. -/
structure CapLoraLink where
  transport : CapLora1262Transport LinuxCapLora1262Radio.State
  accepted : List Bytes := []
  received : List Bytes := []

namespace CapLoraLink

def new (config : LinuxCapLora1262Config) (script : List LinuxAnswer) (mtu : ℕ) : CapLoraLink :=
  { transport := .new seam mtu (LinuxCapLora1262Radio.new config script) }

def call (link : CapLoraLink) : PortCall CapCall → CapLoraLink
  | .tryReceive destinationCapacity =>
    let (result, transport) := link.transport.tryReceive seam destinationCapacity
    { link with
      transport
      received := if result.status = .received then link.received ++ [result.datagram]
        else link.received }
  | .other (.trySend data) =>
    let (transport, status) := link.transport.trySend seam data
    { link with
      transport
      accepted := if status = .accepted then link.accepted ++ [data] else link.accepted }
  | .other .close => { link with transport := link.transport.close seam }

def run (link : CapLoraLink) (calls : List (PortCall CapCall)) : CapLoraLink :=
  calls.foldl call link

/-- What the chip was told to send. -/
def air (link : CapLoraLink) : List Bytes :=
  onAir (carriedOut (commands link.transport.radio.said))

/-- What was read from the chip. -/
def read (link : CapLoraLink) : List Bytes := readOut (commands link.transport.radio.said)

/-- The datagram that was read but not handed out yet. -/
def pending (link : CapLoraLink) : List Bytes :=
  if link.transport.pendingReceive = [] then [] else [link.transport.pendingReceive]

/-- Between two calls of the transport. -/
structure Linked (config : LinuxCapLora1262Config) (link : CapLoraLink) : Prop where
  kept : Managed config link.transport.radio
  tuned : link.transport.closed = false → Tuned config link.transport.radio
  ended : link.transport.closed = true → link.transport.radio.memory.closed = true
  sent : link.air = link.accepted ∨
    link.transport.closed = true ∧ ∃ data, link.air = link.accepted ++ [data]
  handed : (link.received ++ link.pending).Sublist link.read

variable {config : LinuxCapLora1262Config} {link : CapLoraLink}

/-- The transport is closed after its driver was called. -/
theorem Linked.shut {transport : CapLora1262Transport LinuxCapLora1262Radio.State}
    (hopen : transport.closed = false) (hkept : Managed config transport.radio)
    {accepted received : List Bytes}
    (hsent : onAir (carriedOut (commands transport.radio.said)) = accepted ∨
      ∃ data, onAir (carriedOut (commands transport.radio.said)) = accepted ++ [data])
    (hread : received.Sublist (readOut (commands transport.radio.said))) :
    Linked config ⟨transport.close seam, accepted, received⟩ := by
  obtain ⟨hkept', hclosed⟩ := wp_managed_shutdown hkept
  have hsteady : Steady Tame config (Silent config
      (onAir (carriedOut (commands transport.radio.said)))
      (readOut (commands transport.radio.said))) := Silent.steady
  have hsilent := hsteady.shutdown (by decide) transport.radio ⟨hkept.config_eq, rfl, rfl⟩
  have hclose : transport.close seam = { transport with
      closed := true
      pendingReceive := []
      radio := (LinuxCapLora1262Radio.shutdown transport.radio).2 } := by
    rw [CapLora1262Transport.close, hopen]
    rfl
  refine ⟨?_, ?_, ?_, ?_, ?_⟩
  · rw [hclose]
    exact hkept'
  · rw [hclose]
    exact fun hfalse => absurd hfalse.symm Bool.false_ne_true
  · rw [hclose]
    exact fun _ => hclosed
  · rw [air, hclose, hsilent.air_eq]
    exact hsent.imp id fun hone => ⟨rfl, hone⟩
  · rw [read, hclose, hsilent.read_eq, pending, if_pos rfl, List.append_nil]
    exact hread

/-- The driver was called, and the transport stays open. -/
theorem Linked.stay (h : Linked config link) (hopen : link.transport.closed = false)
    {state : LinuxCapLora1262Radio.State} (hkept : Managed config state)
    (htuned : Tuned config state) (hair : onAir (carriedOut (commands state.said)) = link.air)
    (hread : link.read <+: readOut (commands state.said)) :
    Linked config { link with transport := { link.transport with radio := state } } where
  kept := hkept
  tuned _ := htuned
  ended hclosed := absurd (hopen.symm.trans hclosed) Bool.false_ne_true
  sent := by
    refine .inl (hair.trans ?_)
    exact h.sent.resolve_right fun hclosed =>
      absurd (hopen.symm.trans hclosed.1) Bool.false_ne_true
  handed := h.handed.trans hread.sublist

theorem Linked.service (h : Linked config link) :
    Linked config { link with transport := link.transport.serviceRadio seam } := by
  by_cases hclosed : link.transport.closed = true
  · rw [CapLora1262Transport.serviceRadio, if_pos hclosed]
    exact h
  have hopen := Bool.eq_false_iff.mpr hclosed
  have hpolls : Polls config link.transport.radio _ _ := wp_poll (h.tuned hopen)
  have hkept : Managed config
      (LinuxCapLora1262Radio.poll kMaximumDatagramBytes link.transport.radio).2 :=
    h.kept.apply (.poll kMaximumDatagramBytes)
  rw [CapLora1262Transport.serviceRadio, if_neg hclosed, seam]
  dsimp only
  generalize LinuxCapLora1262Radio.poll kMaximumDatagramBytes link.transport.radio = polled
    at hpolls hkept ⊢
  obtain ⟨⟨status, datagram⟩, state⟩ := polled
  have hstay (hstatus : status ≠ .failed) :
      Linked config { link with transport := { link.transport with radio := state } } :=
    h.stay hopen hkept (hpolls.tuned hstatus) hpolls.silent hpolls.read
  cases status with
  | idle => exact hstay (by decide)
  | transmitComplete => exact hstay (by decide)
  | received =>
    dsimp only
    split
    · exact hstay (by decide)
    rename_i hsize
    split
    · exact hstay (by decide)
    rename_i hempty
    have hstayed := hstay (by decide)
    have hsome : datagram ≠ [] := by
      rintro rfl
      exact hsize (.inl rfl)
    refine ⟨hkept, hstayed.tuned, hstayed.ended, hstayed.sent, ?_⟩
    -- the datagram goes into the empty buffer
    have hpending : link.pending = [] := if_pos (not_not.mp hempty)
    have hhanded := h.handed
    rw [hpending, List.append_nil] at hhanded
    rw [read, hpolls.received rfl hsome, pending, if_neg hsome]
    exact hhanded.append (List.Sublist.refl _)
  | failed =>
    refine Linked.shut (show { link.transport with radio := state }.closed = false from hopen) hkept
      (.inl ?_) ?_
    · refine hpolls.silent.trans ?_
      exact h.sent.resolve_right fun hended => hclosed hended.1
    · exact ((List.sublist_append_left _ _).trans h.handed).trans hpolls.read.sublist

theorem Linked.tryReceive (h : Linked config link) (destinationCapacity : ℕ) :
    Linked config (link.call (.tryReceive destinationCapacity)) := by
  suffices hall : ∀ answer, link.transport.tryReceive seam destinationCapacity = answer →
      Linked config { link with
        transport := answer.2
        received := if answer.1.status = .received then link.received ++ [answer.1.datagram]
          else link.received } from hall _ rfl
  rintro answer rfl
  have hserved := h.service
  rw [CapLora1262Transport.tryReceive]
  generalize link.transport.serviceRadio seam = transport at hserved ⊢
  by_cases hclosed : link.transport.closed = true
  · rw [if_pos hclosed]
    exact h
  rw [if_neg hclosed]
  by_cases hcapacity : destinationCapacity = 0
  · rw [if_pos hcapacity]
    exact h
  rw [if_neg hcapacity]
  dsimp only
  by_cases hfailed : transport.closed = true
  · rw [if_pos hfailed]
    exact hserved
  rw [if_neg hfailed]
  by_cases hsome : transport.pendingReceive = []
  · rw [if_pos hsome]
    exact hserved
  rw [if_neg hsome]
  by_cases hsmall : destinationCapacity < transport.pendingReceive.length
  · rw [if_pos hsmall]
    exact hserved
  rw [if_neg hsmall, if_pos rfl]
  refine ⟨hserved.kept, hserved.tuned, hserved.ended, hserved.sent, ?_⟩
  -- what was pending has been handed out
  have hhanded := hserved.handed
  rw [pending, if_neg hsome] at hhanded
  rw [pending, if_pos rfl, List.append_nil]
  exact hhanded

theorem Linked.trySend (h : Linked config link) (data : Bytes) :
    Linked config (link.call (.other (.trySend data))) := by
  suffices hall : ∀ answer, link.transport.trySend seam data = answer →
      Linked config { link with
        transport := answer.1
        accepted := if answer.2 = .accepted then link.accepted ++ [data] else link.accepted }
    from hall _ rfl
  intro answer hsend
  have hserved := h.service
  rw [CapLora1262Transport.trySend] at hsend
  generalize link.transport.serviceRadio seam = transport at hserved hsend
  by_cases hended : link.transport.closed = true
  · rw [← hsend, if_pos hended]
    exact h
  rw [if_neg hended] at hsend
  by_cases hsize : data.length = 0 ∨ data.length > link.transport.mtu
  · rw [← hsend, if_pos hsize]
    exact h
  rw [if_neg hsize] at hsend
  dsimp only at hsend
  by_cases hclosed : transport.closed = true
  · rw [← hsend, if_pos hclosed]
    exact hserved
  rw [if_neg hclosed] at hsend
  have hopen : transport.closed = false := Bool.eq_false_iff.mpr hclosed
  obtain ⟨status, state, hanswer⟩ : ∃ status state, @Eq (RadioStartStatus × _)
      (LinuxCapLora1262Radio.tryStartTransmit data transport.radio) (status, state) := ⟨_, _, rfl⟩
  have hstarts := wp_tryStartTransmit (hserved.tuned hopen) data
  have hkept : Managed config
      (LinuxCapLora1262Radio.tryStartTransmit data transport.radio).2 :=
    hserved.kept.apply (.tryStartTransmit data)
  rw [hanswer] at hkept
  rw [wp, hanswer] at hstarts
  dsimp only at hstarts hkept
  have hsent : onAir (carriedOut (commands transport.radio.said)) = link.accepted :=
    hserved.sent.resolve_right fun hended => hclosed hended.1
  rw [seam] at hsend
  dsimp only at hsend
  rw [hanswer] at hsend
  -- Only a start that failed half-way may have left the packet on the air.
  cases status with
  | started =>
    subst hsend
    have hair := hstarts.air.resolve_right fun hfailed => absurd hfailed.1 (by decide)
    refine ⟨hkept, fun _ => hstarts.tuned (by decide),
      fun hended => absurd (hopen.symm.trans hended) Bool.false_ne_true, .inl ?_, ?_⟩
    · rw [air, hair, hsent]
      rfl
    · rw [read, hstarts.read]
      exact hserved.handed
  | busy =>
    subst hsend
    have hair := hstarts.air.resolve_right fun hfailed => absurd hfailed.1 (by decide)
    refine hserved.stay hopen hkept (hstarts.tuned (by decide)) ?_ ?_
    · rw [hair]
      exact List.append_nil _
    · rw [hstarts.read]
      exact List.prefix_rfl
  | failed =>
    subst hsend
    refine Linked.shut (show { transport with radio := state }.closed = false from hopen) hkept
      ?_ ?_
    · rcases hstarts.air with hnone | ⟨-, hone⟩
      · exact .inl (hnone.trans (by rw [hsent]; exact List.append_nil _))
      · exact .inr ⟨data, hone.trans (by rw [hsent]; rfl)⟩
    · rw [hstarts.read]
      exact (List.sublist_append_left _ _).trans hserved.handed

theorem Linked.close (h : Linked config link) : Linked config (link.call (.other .close)) := by
  rw [call]
  by_cases hclosed : link.transport.closed = true
  · rw [CapLora1262Transport.close, if_pos hclosed]
    exact h
  · refine Linked.shut (Bool.eq_false_iff.mpr hclosed) h.kept (.inl ?_) ?_
    · exact h.sent.resolve_right fun hended => hclosed hended.1
    · exact (List.sublist_append_left _ _).trans h.handed

theorem linked_new (config : LinuxCapLora1262Config) (script : List LinuxAnswer) (mtu : ℕ) :
    Linked config (new config script mtu) := by
  have hkept := managed_new config script
  have hsteady : Steady Tame config (Silent config [] []) := Silent.steady
  have hsilent : Silent config [] [] (LinuxCapLora1262Radio.new config script) :=
    hsteady.initializeRadio _ ⟨rfl, rfl, rfl⟩
  have htuned : (LinuxCapLora1262Radio.new config script).memory.closed = false →
      Tuned config (LinuxCapLora1262Radio.new config script) :=
    wp_tuned_initializeRadio hsteady ⟨rfl, rfl, rfl⟩
  rw [new, CapLora1262Transport.new]
  split
  · rename_i hready
    have hopen : (LinuxCapLora1262Radio.new config script).memory.closed = false :=
      Bool.not_eq_true' _ ▸ (Bool.and_eq_true_iff.mp hready.2.2).2
    refine ⟨hkept, fun _ => htuned hopen, fun hfalse => absurd hfalse Bool.false_ne_true,
      .inl hsilent.air_eq, ?_⟩
    exact List.nil_sublist _
  · obtain ⟨hkept', hended⟩ := wp_managed_shutdown hkept
    have hsilent' := hsteady.shutdown (by decide) _ hsilent
    exact ⟨hkept', fun hfalse => absurd hfalse.symm Bool.false_ne_true, fun _ => hended,
      .inl hsilent'.air_eq, List.nil_sublist _⟩

theorem linked_run (config : LinuxCapLora1262Config) (script : List LinuxAnswer) (mtu : ℕ)
    (calls : List (PortCall CapCall)) : Linked config ((new config script mtu).run calls) := by
  induction calls using List.reverseRecOn with
  | nil => exact linked_new config script mtu
  | append_singleton calls call ih =>
    rw [run, List.foldl_concat]
    rcases call with destinationCapacity | data | _
    · exact ih.tryReceive destinationCapacity
    · exact ih.trySend data
    · exact ih.close

/-- The transport over its driver, however the kernel answers and in whatever order it is called.
While it is open, the chip is tuned as the configuration says and does what the driver believes,
and it was told to send exactly the datagrams that were accepted, each of them once and in this
order.  When it is closed, all descriptors have been given back, and at most one datagram was sent
that was not accepted.  At any time, what was handed out was read from the chip, in this order and
each packet at most once. -/
theorem cap_lora_link (config : LinuxCapLora1262Config) (script : List LinuxAnswer) (mtu : ℕ)
    (calls : List (PortCall CapCall)) :
    (((new config script mtu).run calls).transport.closed = false →
      TunedTo config.profile (carriedOut
        (commands ((new config script mtu).run calls).transport.radio.said)) ∧
      Tuned config ((new config script mtu).run calls).transport.radio ∧
      ((new config script mtu).run calls).air = ((new config script mtu).run calls).accepted) ∧
    (((new config script mtu).run calls).transport.closed = true →
      (∀ descriptor, 0 ≤ descriptor →
        grants ((new config script mtu).run calls).transport.radio.said descriptor =
          releases ((new config script mtu).run calls).transport.radio.said descriptor) ∧
      ∃ last : Option Bytes, ((new config script mtu).run calls).air =
        ((new config script mtu).run calls).accepted ++ last.toList) ∧
    ((new config script mtu).run calls).received.Sublist ((new config script mtu).run calls).read :=
  by
  have h := linked_run config script mtu calls
  generalize (new config script mtu).run calls = link at h ⊢
  refine ⟨fun hopen => ⟨?_, h.tuned hopen, ?_⟩, fun hclosed => ⟨?_, ?_⟩, ?_⟩
  · -- an open transport has a driver that is ready
    have hready := (h.tuned hopen).ready
    obtain hcomplete | ⟨hended, -⟩ := h.kept.configured
    · exact hcomplete.tunedTo
    · rw [ready, hended, Bool.not_true, Bool.and_false] at hready
      cases hready
  · exact h.sent.resolve_right fun hended =>
      absurd (hopen.symm.trans hended.1) Bool.false_ne_true
  · intro descriptor hdescriptor
    rw [h.kept.balanced descriptor hdescriptor,
      holds_eq_zero (h.kept.idle (h.ended hclosed)).2 hdescriptor, Nat.add_zero]
  · rcases h.sent with hsame | ⟨-, data, hmore⟩
    · exact ⟨none, hsame.trans (List.append_nil _).symm⟩
    · exact ⟨some data, hmore⟩
  · exact (List.sublist_append_left _ _).trans h.handed

/-- The answers of a kernel that plays along, for the constructor and for one datagram: the lines
are low, and the level is -100 dBm. -/
def sampleAnswers : List LinuxAnswer :=
  let ok (result : ℤ) : LinuxAnswer := { result }
  let line (value : ℤ) : LinuxAnswer := { result := 0, value }
  let transfer (bytes : Bytes) : List LinuxAnswer := [line 0, { result := 1, bytes }, line 0]
  let expander (value : UInt8) : LinuxAnswer := { result := 2, bytes := [value] }
  [ok 3, ok 4, ok 5, line 6, line 7, line 8, ok 0, ok 0, ok 0, ok 0] ++
    [expander 1, expander 0, ok 1, expander 0, ok 1, expander 0, ok 1] ++
    [ok 0, ok 0, ok 0, ok 0, line 0] ++ (List.replicate 17 (transfer [])).flatten ++
    [line 0, line 0] ++ transfer [] ++ transfer [0, 0, 200] ++
    (List.replicate 6 (transfer [])).flatten

example : ((new { antennaConfirmed := true } sampleAnswers 255).run
    [.other (.trySend [1, 2, 3])]).transport.closed = false := by decide +kernel

example : ((new { antennaConfirmed := true } sampleAnswers 255).run
    [.other (.trySend [1, 2, 3])]).air = [[1, 2, 3]] := by decide +kernel

end CapLoraLink

end Lora
