/-
The radio runtime.

It connects the session with the radio.  A call of `pump` hands the queued posts
of the timeline to the scheduler, lets the scheduler make one offer, notes in the
session what became of the post, and passes on what has been received.  Each of
these may have to save the timeline, and each save may fail or end the process.

What outlasts the process is the disk; a record of what the scheduler did is kept
beside it, since what has been sent cannot be taken back either.

* `RadioRuntime.pump`, `RadioRuntime.stop` — the runtime of one process;
* `Station` — processes one after the other, with the posts that each composed and
  the record of its scheduler.
-/
import LoraMessenger.Ingress
import LoraMessenger.Lifetime
import LoraMessenger.SchedulerTrace

namespace Lora

open Crash

def kMaximumRadioWorkPerPump : ℕ := 4

/-- The counts have 64 bits in the source, and stand here for fewer than 2^64 events. -/
structure RadioRuntimeMetrics where
  receivedDatagrams : ℕ := 0
  receiveOverflow : ℕ := 0
  completedPosts : ℕ := 0
  duplicatePosts : ℕ := 0
  rejectedPosts : ℕ := 0
  broadcastPosts : ℕ := 0
  failedPosts : ℕ := 0

/-- The scheduler comes with its record. -/
structure RadioRuntime where
  scheduler : Tracked := {}
  inbound : InboundFrameQueue
  stopped : Bool := false
  valid : Bool
  metrics : RadioRuntimeMetrics := {}

/-- The memory of a process: its session, its runtime, and the ports of the runtime. -/
structure Process (ε : Type) where
  session : Session
  runtime : RadioRuntime
  radio : ε

/-- What one process has composed, what its scheduler did, and which outcomes its
runtime has counted. -/
structure RunRecord where
  composed : List PostPayload := []
  log : List SchedulerEvent := []
  outcomes : List OutboundEvent := []

/-- What a process leaves behind. -/
structure Legacy where
  disk : Disk
  record : RunRecord := {}

abbrev RuntimeM (ε : Type) := Prog (Process ε) Legacy

namespace Process

variable {ε : Type}

/-- A call of the session. -/
def onSession {α : Type} (program : SessionM α) : RuntimeM ε α :=
  Prog.within Process.session (fun session process => { process with session := session })
    Legacy.disk (fun disk legacy => { legacy with disk := disk }) program

def setRuntime (change : RadioRuntime → RadioRuntime) : RuntimeM ε Unit :=
  Prog.update fun process => { process with runtime := change process.runtime }

def count (change : RadioRuntimeMetrics → RadioRuntimeMetrics) : RuntimeM ε Unit :=
  setRuntime fun runtime => { runtime with metrics := change runtime.metrics }

def setRadio (state : ε) : RuntimeM ε Unit :=
  Prog.update fun process => { process with radio := state }

/-- The scheduler moves on, and so does the record. -/
def setScheduler (scheduler : Tracked) : RuntimeM ε Unit := do
  setRuntime fun runtime => { runtime with scheduler := scheduler }
  Prog.note fun legacy => { legacy with record := { legacy.record with log := scheduler.log } }

end Process

namespace RadioRuntime

open Process

variable {ε : Type} (radio : Radio ε)

/-- The constructor, which closes a transport that it cannot use. -/
def new (state : ε) : RadioRuntime × ε :=
  let mtu := radio.maximumDatagramSize state
  let valid := !radio.closed state && decide (mtu ≥ kMinimumDatagramMtu) &&
    decide (mtu ≤ kMaximumDatagramBytes)
  if valid then ({ inbound := .new mtu, valid := valid }, state)
  else ({ inbound := (InboundFrameQueue.new mtu).stop, valid := valid, stopped := true },
    radio.close state)

/-- `scheduler_.enqueue` with the datagram size of the transport. -/
def enqueue (post : PostPayload) (now : ℕ) : RuntimeM ε SchedulerError := do
  let process ← Prog.memory
  let mtu := radio.maximumDatagramSize process.radio
  let ((error, _), state) :=
    Scheduler.enqueue radio post mtu now process.runtime.scheduler.scheduler process.radio
  setScheduler (process.runtime.scheduler.enqueue radio post mtu now process.radio)
  setRadio state
  pure error

/-- `mark_broadcast` or `mark_failed`. -/
def deliver (event : OutboundEvent) : SessionM CommandResult :=
  match event.state with
  | .broadcast => Session.markBroadcast event.messageId
  | .failed => Session.markFailed event.messageId

/-- One more post of `broadcast_posts` or `failed_posts`. -/
def countOutcome (state : OutboundTerminalState) (metrics : RadioRuntimeMetrics) :
    RadioRuntimeMetrics :=
  match state with
  | .broadcast => { metrics with broadcastPosts := metrics.broadcastPosts + 1 }
  | .failed => { metrics with failedPosts := metrics.failedPosts + 1 }

/-- The outcome is counted if the session has taken it. -/
def mark (event : OutboundEvent) : RuntimeM ε Bool := do
  let result ← onSession (deliver event)
  if result.error = .none then
    count (countOutcome event.state)
    Prog.note fun legacy => { legacy with
      record := { legacy.record with outcomes := legacy.record.outcomes ++ [event] } }
    pure true
  else pure false

/-- The loop of `enqueue_queued_posts`.  It ends after a post that was marked, as
the timeline is another one then. -/
def enqueueEntries (now : ℕ) : List TimelineEntry → RuntimeM ε Bool
  | [] => pure false
  | entry :: rest => do
    if !entry.isQueued then enqueueEntries now rest
    else
      match ← enqueue radio entry.post now with
      | .none => enqueueEntries now rest
      | .duplicateMessage => enqueueEntries now rest
      | .queueFull => enqueueEntries now rest
      | _ =>
        if ← mark ⟨entry.post.messageId, .failed⟩ then pure true
        else enqueueEntries now rest

def enqueueQueuedPosts (now : ℕ) : RuntimeM ε Bool := do
  let process ← Prog.memory
  enqueueEntries radio now process.session.messenger.timeline.entries

/-- `scheduler_.pump`. -/
def pumpScheduler (now : ℕ) : RuntimeM ε (Option OutboundEvent) := do
  let process ← Prog.memory
  let ((_, event), (state, _)) :=
    Scheduler.pump radio.recording now process.runtime.scheduler.scheduler (process.radio, [])
  setScheduler (process.runtime.scheduler.pump radio now process.radio)
  setRadio state
  pure event

def pumpOutbound (now : ℕ) : RuntimeM ε Bool := do
  match ← pumpScheduler radio now with
  | none => pure false
  | some event => mark event

/-- The first loop of `pump_inbound`. -/
def receiveDatagrams (now : ℕ) : ℕ → RuntimeM ε Unit
  | 0 => pure ()
  | work + 1 => do
    let process ← Prog.memory
    let (received, state) := radio.tryReceive kMaximumDatagramBytes process.radio
    setRadio state
    if received.status ≠ .received then pure ()
    else
      let (inbound, enqueued) := process.runtime.inbound.enqueue received.datagram now
      setRuntime fun runtime => { runtime with inbound := inbound }
      count fun metrics =>
        { metrics with
          receivedDatagrams := metrics.receivedDatagrams + 1
          receiveOverflow := metrics.receiveOverflow + if enqueued = .queueFull then 1 else 0 }
      receiveDatagrams now work

/-- A post that is complete goes to the session. -/
def acceptCompleted (completed : CompletedPost) (now : ℕ) : RuntimeM ε Bool := do
  let status ← onSession (Session.acceptReceivedPost completed.canonicalPost)
  if status = .accepted ∨ status = .duplicate then
    setRuntime fun runtime =>
      { runtime with inbound := runtime.inbound.markCommitted completed.canonicalFrames now }
  match status with
  | .accepted => do
    count fun metrics => { metrics with completedPosts := metrics.completedPosts + 1 }
    pure true
  | .duplicate => do
    count fun metrics => { metrics with duplicatePosts := metrics.duplicatePosts + 1 }
    pure false
  | _ => do
    count fun metrics => { metrics with rejectedPosts := metrics.rejectedPosts + 1 }
    pure false

/-- The second loop of `pump_inbound`. -/
def processDatagrams (now : ℕ) : ℕ → RuntimeM ε Bool
  | 0 => pure false
  | work + 1 => do
    let process ← Prog.memory
    let (inbound, processed) := process.runtime.inbound.processNext now
    setRuntime fun runtime => { runtime with inbound := inbound }
    if processed.status = .empty then pure false
    else if processed.status ≠ .complete then processDatagrams now work
    else
      match processed.completed with
      | none => processDatagrams now work
      | some completed => do
        let changed ← acceptCompleted completed now
        let later ← processDatagrams now work
        pure (changed || later)

def pumpInbound (now : ℕ) : RuntimeM ε Bool := do
  receiveDatagrams radio now kMaximumRadioWorkPerPump
  processDatagrams now kMaximumRadioWorkPerPump

/-- A link that is lost but not closed keeps its work. -/
def pump (now : ℕ) : RuntimeM ε Bool := do
  let process ← Prog.memory
  if !process.runtime.valid ∨ process.runtime.stopped ∨
    process.session.status ≠ .ready then pure false
  else if !radio.connected process.radio ∧ !radio.closed process.radio then pure false
  else
    let enqueued ← enqueueQueuedPosts radio now
    let outbound ← pumpOutbound radio now
    let inbound ← pumpInbound radio now
    pure (enqueued || outbound || inbound)

def stop : RuntimeM ε Unit := do
  let process ← Prog.memory
  if process.runtime.stopped then pure ()
  else
    setScheduler process.runtime.scheduler.cancelAll
    setRuntime fun runtime => { runtime with stopped := true, inbound := runtime.inbound.stop }
    setRadio (radio.close process.radio)

end RadioRuntime

/-! ### Processes one after the other -/

/-- What the user does besides reading. -/
inductive UserCall where
  | compose (draft : PostDraft) (random : Option (Vector UInt8 16)) (now : Option Int64)
  | renameUser (userId : Bytes)
  | setLocale (locale : StoredLocale)
  | setSkipTitle (skipTitle : Bool)

def UserCall.call : UserCall → SessionCall
  | .compose draft random now => .compose draft random now
  | .renameUser userId => .renameUser userId
  | .setLocale locale => .setLocale locale
  | .setSkipTitle skipTitle => .setSkipTitle skipTitle

/-- The post that a call has composed. -/
def composedPosts (c : UserCall) (reply : Reply) (session : Session) : List PostPayload :=
  match c, reply with
  | .compose .., .command { error := .none, messageId := some messageId, .. } =>
    ((session.messenger.timeline.find messageId).map TimelineEntry.post).toList
  | _, _ => []

namespace Process

variable {ε : Type}

def user (c : UserCall) : RuntimeM ε Unit := do
  let reply ← onSession (Session.call c.call)
  let process ← Prog.memory
  Prog.note fun legacy => { legacy with
    record := { legacy.record with
      composed := legacy.record.composed ++ composedPosts c reply process.session } }

/-- The end of `main`: the runtime is stopped before the session is shut down. -/
def shutdown (radio : Radio ε) : RuntimeM ε Unit := do
  RadioRuntime.stop radio
  onSession Session.shutdown

end Process

/-- A process starts, is used, pumps its radio, is shut down or just ends.  Whatever the
radio did in the meantime is its state at the next event. -/
inductive StationEvent (ε : Type) where
  | start (environment : Session.Environment) (random : Option (Vector UInt8 16)) (state : ε)
      (faults : List Fault)
  | user (c : UserCall) (faults : List Fault)
  | pump (now : ℕ) (state : ε) (faults : List Fault)
  | stop (state : ε)
  | shutdown (state : ε)
  | kill

/-- The running process, what it leaves behind, and the records of those before it. -/
structure Station (ε : Type) where
  legacy : Legacy
  process : Option (Process ε) := none
  past : List RunRecord := []

namespace Station

variable {ε : Type} (radio : Radio ε) (station : Station ε)

/-- All records, the oldest first. -/
def records : List RunRecord := station.past ++ [station.legacy.record]

def start (environment : Session.Environment) (random : Option (Vector UInt8 16)) (state : ε)
    (faults : List Fault) : Station ε :=
  match Session.bootstrap environment random ⟨{}, station.legacy.disk, faults⟩ with
  | .done _ m =>
    let (runtime, state) := RadioRuntime.new radio state
    { legacy := { disk := m.durable }
      process := some ⟨m.memory, runtime, state⟩
      past := station.records }
  | .crashed disk => { legacy := { disk := disk }, past := station.records }

/-- Runs a program of the process, which ends if the program crashes. -/
def perform {α : Type} (program : RuntimeM ε α) (faults : List Fault) : Station ε :=
  match station.process with
  | none => station
  | some process =>
    match program ⟨process, station.legacy, faults⟩ with
    | .done _ m => { station with legacy := m.durable, process := some m.memory }
    | .crashed legacy => { station with legacy := legacy, process := none }

/-- The radio has come to another state. -/
def tuned (state : ε) : Station ε :=
  { station with process := station.process.map fun process => { process with radio := state } }

def step : StationEvent ε → Station ε
  | .start environment random state faults => station.start radio environment random state faults
  | .user c faults => station.perform (Process.user c) faults
  | .pump now state faults => (station.tuned state).perform (RadioRuntime.pump radio now) faults
  | .stop state => (station.tuned state).perform (RadioRuntime.stop radio) []
  | .shutdown state => (station.tuned state).perform (Process.shutdown radio) []
  | .kill => { station with process := none }

def run (disk : Disk) (events : List (StationEvent ε)) : Station ε :=
  events.foldl (step radio) { legacy := { disk := disk } }

theorem run_concat (disk : Disk) (events : List (StationEvent ε)) (event : StationEvent ε) :
    run radio disk (events ++ [event]) = (run radio disk events).step radio event := by
  simp [run, List.foldl_append]

end Station

/-! ### A link -/

/-- A link that takes everything until it is closed, and has no datagram size then. -/
structure Link where
  mtu : ℕ := 64
  closed : Bool := false

def Link.radio : Radio Link where
  maximumDatagramSize link := if link.closed then 0 else link.mtu
  connected link := !link.closed
  closed := closed
  trySend _ link := (if link.closed then .closed else .accepted, link)
  tryReceive _ link := (⟨if link.closed then .closed else .wouldBlock, []⟩, link)
  close link := { link with closed := true }
  evaluateTransmit now _ link := (⟨.allowed, now⟩, link)
  recordTransmit _ _ link := link
  fill size link := (some (Vector.replicate size 255), link)

/-- The first process of a station composes a post of two letters. -/
def Link.hello : List (StationEvent Link) :=
  [.start .available (some (Vector.replicate 16 1)) {} [],
    .user (.compose ⟨[104, 105], [], none⟩ (some (Vector.replicate 16 2)) none) []]

end Lora
