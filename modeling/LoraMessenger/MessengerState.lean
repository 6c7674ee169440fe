/-
The commands of the messenger, over any commit.

`MessengerState` keeps the identity and the timeline in memory and hands every
candidate to a commit before it adopts it.  The commands are written once over a
port, which says where the memory is and what a commit does; the session is one
port (`Session.port`), any commit that accepts and refuses as it likes is another
(`StateCommit.port`), with a log of the candidates it was handed.

* `Performs` — what a command can do, `performs` says that it does nothing else;
* `messenger_commands_atomic` — a command that fails leaves the memory as it is,
  up to the sequence of a post that could not be saved;
* `insertion_always_possible` — what `compose` has checked before it inserts a post
  leaves nothing else to go wrong.
-/
import LoraMessenger.SessionStep

namespace Lora

open Crash

/-- What the commands use. -/
structure MessengerPort (m : Type → Type) where
  messenger : m Messenger
  setIdentity : Identity → m Unit
  setTimeline : Timeline → m Unit
  persistIdentity : Identity → m Bool
  persistTimeline : Timeline → m Bool

namespace MessengerState

section Commands

variable {m : Type → Type} [Monad m] (port : MessengerPort m)

def initializeNew (userId : Bytes) (random : Option (Vector UInt8 16)) : m CommandResult := do
  let messenger ← port.messenger
  match messenger.identity with
  | some _ => pure { error := .alreadyInitialized }
  | none =>
    match UserId.create userId with
    | .error textError => pure { error := .invalidUserId, textError := textError }
    | .ok userId =>
      match InstallId.generate random with
      | .error _ => pure { error := .randomUnavailable }
      | .ok installId => do
        if ← port.persistIdentity ⟨installId, userId, 0⟩ then
          port.setIdentity ⟨installId, userId, 0⟩
          pure {}
        else pure { error := .persistenceUnavailable }

def renameUser (userId : Bytes) : m CommandResult := do
  let messenger ← port.messenger
  match messenger.identity with
  | none => pure { error := .notInitialized }
  | some identity =>
    match UserId.create userId with
    | .error textError => pure { error := .invalidUserId, textError := textError }
    | .ok userId => do
      if ← port.persistIdentity (identity.rename userId) then
        port.setIdentity (identity.rename userId)
        pure {}
      else pure { error := .persistenceUnavailable }

def compose (draft : PostDraft) (random : Option (Vector UInt8 16)) (now : Option Int64) :
    m CommandResult := do
  let messenger ← port.messenger
  match messenger.identity with
  | none => pure { error := .notInitialized }
  | some identity =>
    match messenger.stage identity draft random now with
    | .error result => pure result
    | .ok staged => do
      if ← port.persistIdentity staged.identity then
        port.setIdentity staged.identity
        if ← port.persistTimeline staged.inserted.timeline then
          port.setTimeline staged.inserted.timeline
          pure { messageId := some staged.post.messageId
                 evictedMessageId := staged.inserted.evictedMessageId }
        else pure { error := .persistenceUnavailable }
      else pure { error := .persistenceUnavailable }

def acceptReceived (post : PostPayload) : m CommandResult := do
  let messenger ← port.messenger
  match messenger.identity with
  | none => pure { error := .notInitialized }
  | some _ =>
    match messenger.timeline.insertReceived post with
    | .error insertError => pure { error := mapInsertError insertError }
    | .ok inserted => do
      if ← port.persistTimeline inserted.timeline then
        port.setTimeline inserted.timeline
        pure { evictedMessageId := inserted.evictedMessageId }
      else pure { error := .persistenceUnavailable }

def transition (messageId : MessageId) (target : LocalDeliveryState) : m CommandResult := do
  let messenger ← port.messenger
  match messenger.identity with
  | none => pure { error := .notInitialized }
  | some _ =>
    match messenger.timeline.transition messageId target with
    | .error transitionError => pure { error := mapTransitionError transitionError }
    | .ok candidate => do
      if ← port.persistTimeline candidate then
        port.setTimeline candidate
        pure {}
      else pure { error := .persistenceUnavailable }

def markBroadcast (messageId : MessageId) : m CommandResult := transition port messageId .broadcast

def markFailed (messageId : MessageId) : m CommandResult := transition port messageId .failed

end Commands

end MessengerState

inductive MessengerCommand where
  | initializeNew (userId : Bytes) (random : Option (Vector UInt8 16))
  | renameUser (userId : Bytes)
  | compose (draft : PostDraft) (random : Option (Vector UInt8 16)) (now : Option Int64)
  | acceptReceived (post : PostPayload)
  | markBroadcast (messageId : MessageId)
  | markFailed (messageId : MessageId)

def MessengerCommand.perform {m : Type → Type} [Monad m] (port : MessengerPort m) :
    MessengerCommand → m CommandResult
  | .initializeNew userId random => MessengerState.initializeNew port userId random
  | .renameUser userId => MessengerState.renameUser port userId
  | .compose draft random now => MessengerState.compose port draft random now
  | .acceptReceived post => MessengerState.acceptReceived port post
  | .markBroadcast messageId => MessengerState.markBroadcast port messageId
  | .markFailed messageId => MessengerState.markFailed port messageId

/-! ### The session -/

/-- The session is the commit of its own messenger. -/
def Session.port : MessengerPort SessionM where
  messenger := Session.messenger <$> Prog.memory
  setIdentity := Session.setIdentity
  setTimeline := Session.setTimeline
  persistIdentity := Session.persistIdentity
  persistTimeline := Session.persistTimeline

/-- The commands of the session are these commands. -/
theorem Session.perform_port (command : MessengerCommand) : command.perform Session.port =
    match command with
    | .initializeNew userId random => Session.initializeNew userId random
    | .renameUser userId => Session.renameUser userId
    | .compose draft random now => Session.compose draft random now
    | .acceptReceived post => Session.acceptReceived post
    | .markBroadcast messageId => Session.markBroadcast messageId
    | .markFailed messageId => Session.markFailed messageId := by
  cases command <;> rfl

/-! ### Any commit -/

/-- An implementation of `IStateCommit` with a state of its own.  It may look at the
messenger, and accept or refuse whatever it is handed. -/
structure StateCommit (σ : Type) where
  persistIdentity : Messenger → Identity → σ → Bool × σ
  persistTimeline : Messenger → Timeline → σ → Bool × σ

/-- A candidate that was handed to the commit, and whether it was accepted. -/
inductive CommitCall where
  | identity (candidate : Identity) (accepted : Bool)
  | timeline (candidate : Timeline) (accepted : Bool)

namespace CommitCall

def accepted : CommitCall → Bool
  | .identity _ accepted => accepted
  | .timeline _ accepted => accepted

def identity? : CommitCall → Option Identity
  | .identity candidate _ => some candidate
  | .timeline _ _ => none

def timeline? : CommitCall → Option Timeline
  | .identity _ _ => none
  | .timeline candidate _ => some candidate

end CommitCall

structure MessengerWorld (σ : Type) where
  messenger : Messenger
  commit : σ
  calls : List CommitCall := []

namespace MessengerWorld

variable {σ : Type}

def setIdentity (identity : Identity) (world : MessengerWorld σ) : MessengerWorld σ :=
  { world with messenger := { world.messenger with identity := some identity } }

def setTimeline (timeline : Timeline) (world : MessengerWorld σ) : MessengerWorld σ :=
  { world with messenger := { world.messenger with timeline := timeline } }

/-- Without a commit every candidate is taken. -/
def persist (commit : Option (StateCommit σ)) (ask : StateCommit σ → Messenger → σ → Bool × σ)
    (call : Bool → CommitCall) (world : MessengerWorld σ) : Bool × MessengerWorld σ :=
  match commit with
  | none => (true, world)
  | some commit =>
    let (accepted, state) := ask commit world.messenger world.commit
    (accepted, { world with commit := state, calls := world.calls ++ [call accepted] })

end MessengerWorld

def StateCommit.port {σ : Type} (commit : Option (StateCommit σ)) :
    MessengerPort (StateM (MessengerWorld σ)) where
  messenger := fun world => (world.messenger, world)
  setIdentity identity := fun world => ((), world.setIdentity identity)
  setTimeline timeline := fun world => ((), world.setTimeline timeline)
  persistIdentity identity := MessengerWorld.persist commit
    (fun commit messenger => commit.persistIdentity messenger identity) (.identity identity)
  persistTimeline timeline := MessengerWorld.persist commit
    (fun commit messenger => commit.persistTimeline messenger timeline) (.timeline timeline)

/-! ### Room for a post -/

namespace Timeline

variable {timeline : Timeline} {protectedMessageId : Option MessageId} {post : PostPayload}

/-- At most one entry that is not queued is protected. -/
theorem length_le_queuedCount (h : timeline.evictionIndex protectedMessageId = none) :
    timeline.entries.length ≤ timeline.queuedCount + 1 := by
  have hstays : ∀ entry ∈ timeline.entries.filter (!·.isQueued),
      protectedMessageId = some entry.messageId := by
    intro entry hentry
    obtain ⟨hentry, hqueued⟩ := List.mem_filter.mp hentry
    have hgoes := List.findIdx?_eq_none_iff.mp h entry hentry
    simp_all [mayGo]
  have hcount := timeline.entries.length_eq_countP_add_countP TimelineEntry.isQueued
  have hfew : (timeline.entries.filter (!·.isQueued)).length ≤ 1 := by
    rcases hkept : timeline.entries.filter (!·.isQueued) with _ | ⟨first, _ | ⟨second, rest⟩⟩
    · simp [hkept]
    · simp [hkept]
    · -- Two of them would have the same id.
      have hdistinct : ((timeline.entries.filter (!·.isQueued)).map
          TimelineEntry.messageId).Nodup :=
        timeline.stamped.distinct.sublist (List.filter_sublist.map _)
      rw [hkept] at hstays hdistinct
      have hfirst := hstays first (by simp)
      have hsecond := hstays second (by simp)
      have hsame : first.messageId = second.messageId :=
        Option.some.inj (hfirst.symm.trans hsecond)
      simp [hsame] at hdistinct
  rw [← List.countP_eq_length_filter] at hfew
  have hnot : timeline.entries.countP (fun entry => decide ¬entry.isQueued = true) =
      timeline.entries.countP (!·.isQueued) := by
    simp
  unfold queuedCount
  omega

/-- A quota that is not used up leaves an entry that may go, besides the one that
is protected. -/
theorem insertionAvailability_ne_full (hquota : timeline.queuedCount < timeline.queuedCapacity) :
    timeline.insertionAvailability protectedMessageId ≠ .full := by
  unfold insertionAvailability
  split
  · simp
  split
  · simp
  · rename_i hroom
    rw [not_or, Bool.not_eq_true, Option.isSome_eq_false_iff, Option.isNone_iff_eq_none] at hroom
    have hlength := length_le_queuedCount hroom.2
    unfold queuedCapacity at hquota
    omega

theorem insert_ne_full {origin : EntryOrigin}
    (havailable : timeline.insertionAvailability protectedMessageId ≠ .full) :
    timeline.insert post origin protectedMessageId ≠ .error .full := by
  intro h
  unfold insert at h
  split at h
  · split at h <;> cases h
  split at h
  · cases h
  split at h
  · cases h
  · exact havailable (Except.error.inj h)

theorem insertReceived_ne_full : timeline.insertReceived post ≠ .error .full := by
  refine insert_ne_full ?_
  by_cases hlast : timeline.lastAssignedOrder = kMaximumOrder
  · rw [insertionAvailability, if_pos hlast]
    simp
  · rw [insertionAvailability_none hlast]
    simp

/-- The parent of a reply stays. -/
theorem find_parent {state : LocalDeliveryState} {inserted : Inserted} {parent : MessageId}
    (h : timeline.insertLocal post state = .ok inserted) (hreply : post.replyTo = some parent)
    (hparent : (timeline.find parent).isSome) :
    inserted.timeline.find parent = timeline.find parent := by
  obtain ⟨entry, hentry⟩ := Option.isSome_iff_exists.mp hparent
  obtain ⟨hmem, rfl⟩ := mem_of_find hentry
  obtain ⟨hnew, hqueue, havailable, rfl⟩ := insert_eq_ok.mp h
  have hkept : entry ∈ timeline.evict post.replyTo := by
    rw [evict_eq]
    exact Stamped.mem_makeRoom hmem (by simp [mayGo, hreply])
  rw [hentry]
  exact find_of_mem (List.mem_append_left _ hkept)

end Timeline

/-! ### One command -/

/-- The next sequence is used up. -/
def Identity.Issues (identity next : Identity) : Prop :=
  next.installId = identity.installId ∧ next.userId = identity.userId ∧
    next.lastIssuedSenderSequence.toNat = identity.lastIssuedSenderSequence.toNat + 1

namespace MessengerCommand

def isCompose : MessengerCommand → Bool
  | .compose _ _ _ => true
  | _ => false

/-- What `compose` finds wrong before it hands anything over. -/
def composeErrors : List CommandError :=
  [.notInitialized, .invalidBody, .tooManyMentions, .duplicateMention, .replyParentUnavailable,
    .queueFull, .sequenceExhausted, .orderExhausted, .randomUnavailable, .messageIdCollision]

/-- What a command can do: the candidates it hands to the commit, in this order,
and what it leaves in memory. -/
inductive Performs (messenger : Messenger) (command : MessengerCommand) :
    CommandError → List CommitCall → Messenger → Prop
  | rejects {error : CommandError} (herror : error ≠ .none)
    (hcompose : command.isCompose → error ∈ composeErrors) :
    Performs messenger command error [] messenger
  | identityRefused {identity : Identity} :
    Performs messenger command .persistenceUnavailable [.identity identity false] messenger
  | identitySaved {identity : Identity} (hcommand : ¬command.isCompose) :
    Performs messenger command .none [.identity identity true]
      { messenger with identity := some identity }
  | timelineRefused {timeline : Timeline} (hcommand : ¬command.isCompose) :
    Performs messenger command .persistenceUnavailable [.timeline timeline false] messenger
  | timelineSaved {timeline : Timeline} (hcommand : ¬command.isCompose) :
    Performs messenger command .none [.timeline timeline true]
      { messenger with timeline := timeline }
  | sequenceLost {identity next : Identity} {timeline : Timeline} (hcommand : command.isCompose)
    (hidentity : messenger.identity = some identity) (hnext : identity.Issues next) :
    Performs messenger command .persistenceUnavailable
      [.identity next true, .timeline timeline false] { messenger with identity := some next }
  | composed {identity next : Identity} {timeline : Timeline} (hcommand : command.isCompose)
    (hidentity : messenger.identity = some identity) (hnext : identity.Issues next) :
    Performs messenger command .none [.identity next true, .timeline timeline true]
      ⟨some next, timeline⟩

/-- The calls that reach the commit. -/
def logged {σ : Type} (commit : Option (StateCommit σ)) (calls : List CommitCall) :
    List CommitCall :=
  if commit.isSome then calls else []

/-- A command does one of these; without a commit every call counts as accepted. -/
def PerformsIn {σ : Type} (commit : Option (StateCommit σ)) (world : MessengerWorld σ)
    (command : MessengerCommand) (outcome : CommandResult × MessengerWorld σ) : Prop :=
  ∃ calls, Performs world.messenger command outcome.1.error calls outcome.2.messenger ∧
    outcome.2.calls = world.calls ++ logged commit calls ∧
    (commit = none → ∀ call ∈ calls, call.accepted)

section Perform

variable {σ : Type} {commit : Option (StateCommit σ)} {world : MessengerWorld σ}
  {command : MessengerCommand}

/-- The commit was handed a candidate, and the messenger is as before. -/
structure Asked (commit : Option (StateCommit σ)) (world after : MessengerWorld σ)
    (call : CommitCall) : Prop where
  messenger : after.messenger = world.messenger
  calls : after.calls = world.calls ++ logged commit [call]
  accepted : commit = none → call.accepted

theorem persist_eq (commit : Option (StateCommit σ))
    (ask : StateCommit σ → Messenger → σ → Bool × σ)
    (call : Bool → CommitCall) (hcall : (call true).accepted) (world : MessengerWorld σ) :
    ∃ accepted after, world.persist commit ask call = (accepted, after) ∧
      Asked commit world after (call accepted) := by
  cases commit with
  | none => exact ⟨true, world, rfl, rfl, (List.append_nil _).symm, fun _ => hcall⟩
  | some commit => exact ⟨_, _, rfl, rfl, rfl, nofun⟩

theorem persistIdentity_eq (commit : Option (StateCommit σ)) (identity : Identity)
    (world : MessengerWorld σ) : ∃ accepted after,
      (StateCommit.port commit).persistIdentity identity world = (accepted, after) ∧
        Asked commit world after (.identity identity accepted) :=
  persist_eq commit (fun commit messenger => commit.persistIdentity messenger identity)
    (.identity identity) rfl world

theorem persistTimeline_eq (commit : Option (StateCommit σ)) (timeline : Timeline)
    (world : MessengerWorld σ) : ∃ accepted after,
      (StateCommit.port commit).persistTimeline timeline world = (accepted, after) ∧
        Asked commit world after (.timeline timeline accepted) :=
  persist_eq commit (fun commit messenger => commit.persistTimeline messenger timeline)
    (.timeline timeline) rfl world

theorem performsIn_rejects {result : CommandResult} (h : result.error ≠ .none)
    (hcompose : command.isCompose → result.error ∈ composeErrors) :
    PerformsIn commit world command (result, world) := by
  refine ⟨[], .rejects h hcompose, ?_, by simp⟩
  simp [logged]

/-- What follows a candidate handed to the commit. -/
theorem run_persist {candidate : StateM (MessengerWorld σ) Bool} {accepted : Bool}
    {after : MessengerWorld σ} (h : candidate world = (accepted, after))
    (next : Bool → StateM (MessengerWorld σ) CommandResult) :
    (candidate >>= next).run world = (next accepted).run after := by
  show (match candidate world with | (accepted, after) => (next accepted).run after) = _
  rw [h]

/-- Handing an identity to the commit and then taking it. -/
theorem performsIn_identity (hcommand : ¬command.isCompose) (identity : Identity) :
    PerformsIn commit world command (((StateCommit.port commit).persistIdentity identity >>=
      fun accepted => if accepted then do
        (StateCommit.port commit).setIdentity identity
        pure {}
      else pure { error := .persistenceUnavailable }).run world) := by
  obtain ⟨accepted, after, hpersist, hasked⟩ := persistIdentity_eq commit identity world
  rw [run_persist hpersist]
  refine ⟨[.identity identity accepted], ?_, ?_, fun h => by simpa using hasked.accepted h⟩
  · cases accepted with
    | false => exact hasked.messenger ▸ .identityRefused
    | true =>
      show Performs _ _ .none _ { after.messenger with identity := some identity }
      rw [hasked.messenger]
      exact .identitySaved hcommand
  · cases accepted <;> exact hasked.calls

/-- Handing a timeline to the commit and then taking it. -/
theorem performsIn_timeline (hcommand : ¬command.isCompose) (timeline : Timeline)
    {result : CommandResult} (hresult : result.error = .none) :
    PerformsIn commit world command (((StateCommit.port commit).persistTimeline timeline >>=
      fun accepted => if accepted then do
        (StateCommit.port commit).setTimeline timeline
        pure result
      else pure { error := .persistenceUnavailable }).run world) := by
  obtain ⟨accepted, after, hpersist, hasked⟩ := persistTimeline_eq commit timeline world
  rw [run_persist hpersist]
  refine ⟨[.timeline timeline accepted], ?_, ?_, fun h => by simpa using hasked.accepted h⟩
  · cases accepted with
    | false => exact hasked.messenger ▸ .timelineRefused hcommand
    | true =>
      show Performs _ _ result.error _ { after.messenger with timeline := timeline }
      rw [hasked.messenger, hresult]
      exact .timelineSaved hcommand
  · cases accepted <;> exact hasked.calls

theorem run_messenger (next : Messenger → StateM (MessengerWorld σ) CommandResult) :
    ((StateCommit.port commit).messenger >>= next).run world = (next world.messenger).run world :=
  rfl

theorem mapInsertError_ne_none {error : TimelineInsertError} (h : error ≠ .none) :
    mapInsertError error ≠ .none := by
  cases error <;> simp_all [mapInsertError]

theorem insert_error_ne_none {timeline : Timeline} {post : PostPayload} {origin : EntryOrigin}
    {protectedMessageId : Option MessageId} {error : TimelineInsertError}
    (h : timeline.insert post origin protectedMessageId = .error error) : error ≠ .none := by
  unfold Timeline.insert at h
  split at h
  · cases h
    split <;> simp
  split at h
  · cases h
    simp
  split at h
  · cases h
  · rename_i havailable
    cases h
    exact havailable

theorem transition_error_ne_none {timeline : Timeline} {messageId : MessageId}
    {target : LocalDeliveryState} {error : TransitionError}
    (h : timeline.transition messageId target = .error error) :
    mapTransitionError error ≠ .none := by
  unfold Timeline.transition at h
  repeat' split at h
  all_goals cases h
  all_goals simp [mapTransitionError]

theorem performsIn_initializeNew (userId : Bytes) (random : Option (Vector UInt8 16)) :
    PerformsIn commit world (.initializeNew userId random)
      ((MessengerState.initializeNew (StateCommit.port commit) userId random).run world) := by
  unfold MessengerState.initializeNew
  rw [run_messenger]
  split
  · exact performsIn_rejects (by simp) (by simp [isCompose])
  split
  · exact performsIn_rejects (by simp) (by simp [isCompose])
  split
  · exact performsIn_rejects (by simp) (by simp [isCompose])
  · exact performsIn_identity (by simp [isCompose]) _

theorem performsIn_renameUser (userId : Bytes) :
    PerformsIn commit world (.renameUser userId)
      ((MessengerState.renameUser (StateCommit.port commit) userId).run world) := by
  unfold MessengerState.renameUser
  rw [run_messenger]
  split
  · exact performsIn_rejects (by simp) (by simp [isCompose])
  split
  · exact performsIn_rejects (by simp) (by simp [isCompose])
  · exact performsIn_identity (by simp [isCompose]) _

theorem performsIn_acceptReceived (post : PostPayload) :
    PerformsIn commit world (.acceptReceived post)
      ((MessengerState.acceptReceived (StateCommit.port commit) post).run world) := by
  unfold MessengerState.acceptReceived
  rw [run_messenger]
  split
  · exact performsIn_rejects (by simp) (by simp [isCompose])
  split
  · rename_i hinsert
    exact performsIn_rejects (mapInsertError_ne_none (insert_error_ne_none hinsert))
      (by simp [isCompose])
  · exact performsIn_timeline (by simp [isCompose]) _ rfl

theorem performsIn_transition (hcommand : ¬command.isCompose) (messageId : MessageId)
    (target : LocalDeliveryState) : PerformsIn commit world command
      ((MessengerState.transition (StateCommit.port commit) messageId target).run world) := by
  unfold MessengerState.transition
  rw [run_messenger]
  split
  · exact performsIn_rejects (by simp) (fun h => absurd h hcommand)
  split
  · rename_i htransition
    exact performsIn_rejects (transition_error_ne_none htransition) (fun h => absurd h hcommand)
  · exact performsIn_timeline hcommand _ rfl

/-- The candidates of `compose`, the one with the sequence first. -/
theorem performsIn_staged {identity : Identity} {staged : Messenger.Staged}
    (hcommand : command.isCompose) (hidentity : world.messenger.identity = some identity)
    (hissues : identity.Issues staged.identity) {result : CommandResult}
    (hresult : result.error = .none) :
    PerformsIn commit world command (((StateCommit.port commit).persistIdentity staged.identity >>=
      fun accepted => if accepted then do
        (StateCommit.port commit).setIdentity staged.identity
        if ← (StateCommit.port commit).persistTimeline staged.inserted.timeline then
          (StateCommit.port commit).setTimeline staged.inserted.timeline
          pure result
        else pure { error := .persistenceUnavailable }
      else pure { error := .persistenceUnavailable }).run world) := by
  obtain ⟨accepted, after, hpersist, hasked⟩ := persistIdentity_eq commit staged.identity world
  rw [run_persist hpersist]
  cases accepted with
  | false =>
    exact ⟨[.identity staged.identity false], hasked.messenger ▸ .identityRefused, hasked.calls,
      fun h => by simpa using hasked.accepted h⟩
  | true =>
    -- The sequence is taken before the timeline is handed over.
    obtain ⟨accepted, left, hpersist', hasked'⟩ :=
      persistTimeline_eq commit staged.inserted.timeline
      (after.setIdentity staged.identity)
    have hmessenger : left.messenger =
        { world.messenger with identity := some staged.identity } := by
      rw [hasked'.messenger, MessengerWorld.setIdentity, hasked.messenger]
    have hcalls : left.calls = world.calls ++ logged commit
        [.identity staged.identity true, .timeline staged.inserted.timeline accepted] := by
      rw [hasked'.calls, MessengerWorld.setIdentity, hasked.calls, List.append_assoc]
      unfold logged
      split <;> rfl
    have haccepted (h : commit = none) : ∀ call ∈ [CommitCall.identity staged.identity true,
        .timeline staged.inserted.timeline accepted], call.accepted := by
      simpa using ⟨hasked.accepted h, hasked'.accepted h⟩
    show PerformsIn commit world command (((StateCommit.port commit).persistTimeline
      staged.inserted.timeline >>= fun accepted => if accepted then do
        (StateCommit.port commit).setTimeline staged.inserted.timeline
        pure result
      else pure { error := .persistenceUnavailable }).run (after.setIdentity staged.identity))
    rw [run_persist hpersist']
    refine ⟨_, ?_, ?_, haccepted⟩
    · cases accepted with
      | false =>
        show Performs _ _ .persistenceUnavailable _ left.messenger
        rw [hmessenger]
        exact .sequenceLost hcommand hidentity hissues
      | true =>
        show Performs _ _ result.error _
          { left.messenger with timeline := staged.inserted.timeline }
        rw [hmessenger, hresult]
        exact .composed hcommand hidentity hissues
    · cases accepted <;> exact hcalls

theorem stage_issues {messenger : Messenger} {identity : Identity} {draft : PostDraft}
    {random : Option (Vector UInt8 16)} {now : Option Int64} {staged : Messenger.Staged}
    (h : messenger.stage identity draft random now = .ok staged) :
    identity.Issues staged.identity := by
  obtain ⟨hnext, hidentity, -⟩ := stage_eq_ok h
  rw [hidentity]
  exact ⟨rfl, rfl, Identity.nextSenderSequence_eq_some hnext⟩

/-- The checks of `compose` are enough for those of a post. -/
theorem exists_created {draft : PostDraft} {body : PostBody}
    (hbody : PostBody.create draft.body = .ok body)
    (hlength : draft.mentions.length ≤ kMaxMentions) (hnodup : draft.mentions.Nodup)
    {messageId : MessageId} (hreply : draft.replyTo ≠ some messageId) (identity : Identity)
    {sequence : UInt64} (hsequence : sequence ≠ 0) (now : Option Int64) :
    ∃ post : PostPayload, PostPayload.create
        { messageId := messageId.uuid
          senderId := identity.installId.uuid
          senderSequence := sequence
          senderUserId := identity.userId.value
          body := draft.body
          mentions := draft.mentions.map InstallId.uuid
          replyTo := draft.replyTo.map MessageId.uuid
          senderTime := now } = .ok post ∧
      post.messageId = messageId ∧ post.replyTo = draft.replyTo := by
  let post : PostPayload :=
    { messageId, senderId := identity.installId, senderSequence := sequence
      senderUserId := identity.userId, body, mentions := draft.mentions, replyTo := draft.replyTo
      senderTime := now, senderSequence_ne := hsequence, mentions_length := hlength
      mentions_nodup := hnodup, replyTo_ne := hreply }
  refine ⟨post, PostPayload.create_eq_ok.mpr ?_, rfl, rfl⟩
  have hvalue : post.body.value = draft.body := PostBody.create_eq_ok.mp hbody
  rw [PostPayload.toInput, hvalue]

/-- What `compose` answers before it saves anything.  Neither the timeline nor the
checks of a post find anything that it has not found before. -/
theorem stage_error_mem {messenger : Messenger} {identity : Identity} {draft : PostDraft}
    {random : Option (Vector UInt8 16)} {now : Option Int64} {result : CommandResult}
    (h : messenger.stage identity draft random now = .error result) :
    result.error ∈ composeErrors := by
  unfold Messenger.stage at h
  rcases hbody : PostBody.create draft.body with textError | body
  · rw [hbody] at h
    cases h
    simp [composeErrors]
  rw [hbody] at h
  dsimp only at h
  split at h
  · cases h
    simp [composeErrors]
  rename_i hlength
  split at h
  · cases h
    simp [composeErrors]
  rename_i hnodup
  split at h
  · cases h
    simp [composeErrors]
  rename_i hparent
  split at h
  · cases h
    simp [composeErrors]
  rename_i hquota
  rcases hnext : identity.nextSenderSequence with _ | sequence
  · rw [hnext] at h
    cases h
    simp [composeErrors]
  simp only [hnext, Identity.commitSenderSequence_next hnext] at h
  split at h
  · -- The timeline is never full here, see `insertionAvailability_ne_full`.
    rename_i havailable
    have hfull : messenger.timeline.insertionAvailability draft.replyTo ≠ .full :=
      Timeline.insertionAvailability_ne_full (Nat.lt_of_not_le hquota)
    have hexhausted : messenger.timeline.insertionAvailability draft.replyTo = .orderExhausted := by
      unfold Timeline.insertionAvailability at hfull havailable ⊢
      grind
    rw [hexhausted] at h
    cases h
    simp [mapAvailability, composeErrors]
  rename_i havailable
  rcases hgenerate : MessageId.generate random with error | messageId
  · rw [hgenerate] at h
    cases h
    simp [composeErrors]
  rw [hgenerate] at h
  dsimp only at h
  split at h
  · cases h
    simp [composeErrors]
  rename_i hfresh
  -- From here on nothing can go wrong.
  rw [Bool.not_eq_true, Option.isSome_eq_false_iff, Option.isNone_iff_eq_none] at hfresh
  have hreply : draft.replyTo ≠ some messageId := by
    intro hreply
    rw [hreply] at hparent
    simp [hfresh] at hparent
  have hsequence : sequence ≠ 0 := by
    rintro rfl
    have := Identity.nextSenderSequence_eq_some hnext
    simp at this
  obtain ⟨post, hcreate, hid, hto⟩ := exists_created hbody (Nat.le_of_not_lt hlength)
    (not_not.mp hnodup) hreply identity hsequence now
  obtain ⟨inserted, hinsert⟩ : ∃ inserted, messenger.timeline.insertLocal post = .ok inserted := by
    refine ⟨_, Timeline.insert_eq_ok.mpr ⟨hid ▸ hfresh, fun hqueue => hquota hqueue.2, ?_, rfl⟩⟩
    rw [hto]
    exact not_not.mp havailable
  rw [hcreate] at h
  simp only [hinsert] at h
  cases h

theorem performsIn_compose (draft : PostDraft) (random : Option (Vector UInt8 16))
    (now : Option Int64) : PerformsIn commit world (.compose draft random now)
      ((MessengerState.compose (StateCommit.port commit) draft random now).run world) := by
  unfold MessengerState.compose
  rw [run_messenger]
  split
  · exact performsIn_rejects (by simp) (by simp [composeErrors])
  rename_i identity hidentity
  split
  · rename_i result hstage
    have hmem := stage_error_mem hstage
    refine performsIn_rejects ?_ fun _ => hmem
    intro hnone
    rw [hnone] at hmem
    simp [composeErrors] at hmem
  · rename_i staged hstage
    exact performsIn_staged rfl hidentity (stage_issues hstage) rfl

/-- A command does one of the things listed in `Performs`. -/
theorem performs (commit : Option (StateCommit σ)) (world : MessengerWorld σ)
    (command : MessengerCommand) :
    PerformsIn commit world command ((command.perform (StateCommit.port commit)).run world) := by
  cases command with
  | initializeNew userId random => exact performsIn_initializeNew userId random
  | renameUser userId => exact performsIn_renameUser userId
  | compose draft random now => exact performsIn_compose draft random now
  | acceptReceived post => exact performsIn_acceptReceived post
  | markBroadcast messageId => exact performsIn_transition (by simp [isCompose]) messageId _
  | markFailed messageId => exact performsIn_transition (by simp [isCompose]) messageId _

end Perform

/-- The sequence was saved and the post was not. -/
def SequenceLost (command : MessengerCommand) (calls : List CommitCall) : Prop :=
  command.isCompose ∧ ∃ identity timeline,
    calls = [.identity identity true, .timeline timeline false]

namespace Performs

variable {messenger after : Messenger} {command : MessengerCommand} {error : CommandError}
  {calls : List CommitCall}

theorem unchanged (h : Performs messenger command error calls after) (herror : error ≠ .none)
    (hlost : ¬SequenceLost command calls) : after = messenger := by
  cases h with
  | rejects => rfl
  | identityRefused => rfl
  | identitySaved => exact absurd rfl herror
  | timelineRefused => rfl
  | timelineSaved => exact absurd rfl herror
  | sequenceLost hcommand => exact absurd ⟨hcommand, _, _, rfl⟩ hlost
  | composed => exact absurd rfl herror

theorem sequence_lost (h : Performs messenger command error calls after)
    (hlost : SequenceLost command calls) :
    error = .persistenceUnavailable ∧ after.timeline = messenger.timeline ∧
      ∃ identity next, messenger.identity = some identity ∧ after.identity = some next ∧
        identity.Issues next := by
  obtain ⟨-, identity, timeline, hcalls⟩ := hlost
  cases h with
  | sequenceLost _ hidentity hnext => exact ⟨rfl, rfl, _, _, hidentity, rfl, hnext⟩
  | _ => simp at hcalls

theorem sequence_first (h : Performs messenger command error calls after)
    (hcommand : command.isCompose) {earlier later : List CommitCall} {timeline : Timeline}
    {accepted : Bool} (hcalls : calls = earlier ++ .timeline timeline accepted :: later) :
    ∃ identity, earlier = [.identity identity true] := by
  have hpair {identity : Identity} {candidate : Timeline} {saved : Bool}
      (hcalls : [.identity identity true, .timeline candidate saved] =
        earlier ++ .timeline timeline accepted :: later) :
      ∃ identity, earlier = [.identity identity true] := by
    rcases earlier with _ | ⟨first, _ | ⟨second, rest⟩⟩
    · cases hcalls
    · obtain ⟨rfl, -⟩ := List.cons.inj hcalls
      exact ⟨identity, rfl⟩
    · simp at hcalls
  cases h with
  | rejects => simp at hcalls
  | identityRefused => rcases earlier with _ | ⟨first, rest⟩ <;> simp at hcalls
  | identitySaved hnot => exact absurd hcommand hnot
  | timelineRefused hnot => exact absurd hcommand hnot
  | timelineSaved hnot => exact absurd hcommand hnot
  | sequenceLost => exact hpair hcalls
  | composed => exact hpair hcalls

theorem memory_eq (h : Performs messenger command error calls after) (herror : error = .none) :
    after.identity = (calls.filterMap CommitCall.identity?).getLast?.or messenger.identity ∧
      after.timeline = (calls.filterMap CommitCall.timeline?).getLast?.getD messenger.timeline := by
  cases h with
  | rejects hne _ => exact absurd herror hne
  | identityRefused => cases herror
  | timelineRefused => cases herror
  | sequenceLost => cases herror
  | _ => exact ⟨rfl, rfl⟩

theorem compose_error (h : Performs messenger command error calls after)
    (hcommand : command.isCompose) :
    error ∉ [.timelineFull, .invalidPost, .duplicatePost, .conflictingPost] := by
  cases h with
  | rejects _ hcompose =>
    have hchecked := hcompose hcommand
    simp only [composeErrors, List.mem_cons, List.not_mem_nil, or_false] at hchecked ⊢
    grind
  | _ => simp

end Performs

/-- A command that fails changes nothing in memory, unless it is `compose` and only
the sequence could be saved; `compose` hands over the sequence first; and what is
in memory after a success is what the commit was handed last. -/
theorem messenger_commands_atomic {σ : Type} (commit : Option (StateCommit σ))
    (world : MessengerWorld σ) (command : MessengerCommand) :
    ∃ result after calls,
      (command.perform (StateCommit.port commit)).run world = (result, after) ∧
      after.calls = world.calls ++ calls ∧
      (result.error ≠ .none → ¬SequenceLost command calls → after.messenger = world.messenger) ∧
      (SequenceLost command calls → result.error = .persistenceUnavailable ∧
        after.messenger.timeline = world.messenger.timeline ∧
        ∃ identity next, world.messenger.identity = some identity ∧
          after.messenger.identity = some next ∧ identity.Issues next) ∧
      (command.isCompose → ∀ earlier timeline accepted later,
        calls = earlier ++ .timeline timeline accepted :: later →
        ∃ identity, earlier = [.identity identity true]) ∧
      (result.error = .none → commit.isSome →
        after.messenger.identity =
          (calls.filterMap CommitCall.identity?).getLast?.or world.messenger.identity ∧
        after.messenger.timeline =
          (calls.filterMap CommitCall.timeline?).getLast?.getD world.messenger.timeline) := by
  obtain ⟨calls, hperforms, hcalls, haccepted⟩ := performs commit world command
  generalize (command.perform (StateCommit.port commit)).run world = outcome at *
  obtain ⟨result, after⟩ := outcome
  refine ⟨result, after, logged commit calls, rfl, hcalls, ?_⟩
  cases commit with
  | none =>
    -- Nothing is refused, and nothing is logged.
    have hlost : ¬SequenceLost command calls := by
      rintro ⟨-, identity, timeline, rfl⟩
      simpa [CommitCall.accepted] using haccepted rfl (.timeline timeline false) (by simp)
    refine ⟨fun herror _ => hperforms.unchanged herror hlost, ?_, ?_, by simp⟩
    · rintro ⟨-, identity, timeline, hnil⟩
      cases hnil
    · intro _ earlier timeline accepted later hnil
      simp [logged] at hnil
  | some commit =>
    exact ⟨hperforms.unchanged, hperforms.sequence_lost,
      fun hcommand _ _ _ _ => hperforms.sequence_first hcommand, fun herror _ =>
      hperforms.memory_eq herror⟩

end MessengerCommand

/-- A new post always finds a place in the timeline, a reply next to its parent, and
`compose` has found whatever is wrong with a post before it makes one. -/
theorem insertion_always_possible :
    (∀ (timeline : Timeline) (post : PostPayload), timeline.find post.messageId = none →
      timeline.insertReceived post ≠ .error .full) ∧
    (∀ (timeline : Timeline) (post : PostPayload), timeline.find post.messageId = none →
      timeline.queuedCount < timeline.queuedCapacity →
      timeline.insertLocal post ≠ .error .full ∧
      ∀ inserted parent, timeline.insertLocal post = .ok inserted → post.replyTo = some parent →
        (timeline.find parent).isSome → inserted.timeline.find parent = timeline.find parent) ∧
    ∀ (σ : Type) (commit : Option (StateCommit σ)) (world : MessengerWorld σ) (draft : PostDraft)
      (random : Option (Vector UInt8 16)) (now : Option Int64),
      ((MessengerState.compose (StateCommit.port commit) draft random now).run world).1.error ∉
        [.timelineFull, .invalidPost, .duplicatePost, .conflictingPost] := by
  refine ⟨fun timeline post _ => Timeline.insertReceived_ne_full, ?_, ?_⟩
  · intro timeline post _ hquota
    refine ⟨Timeline.insert_ne_full (Timeline.insertionAvailability_ne_full hquota), ?_⟩
    exact fun inserted parent hinsert hreply hparent =>
      Timeline.find_parent hinsert hreply hparent
  · intro σ commit world draft random now
    obtain ⟨calls, hperforms, -⟩ :=
      MessengerCommand.performs commit world (.compose draft random now)
    exact hperforms.compose_error rfl

end Lora
